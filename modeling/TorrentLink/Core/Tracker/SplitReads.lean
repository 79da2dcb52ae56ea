import TorrentLink.Core.Tracker.HandleRead
import TorrentLink.Lib.Segments

/-!
# Requests in several reads

What a client sends can arrive in any segments. `handleRead` decides on what has arrived, so a prefix may be
answered before the rest comes: a header without an end may be found too large, and a header that ends with
LF LF may be read before CRLF CRLF comes. `splitFree_iff` says for which requests the first response is the
same for all ways to split them.
-/

namespace TorrentLink.Tracker

open Lib

/-- The length of the shortest prefix that holds the end of a header. -/
def headerLength (buf : Bytes) : Option Nat :=
  match indexOf crlfcrlf buf, indexOf lflf buf with
  | some i, some j => some (min (i + 4) (j + 2))
  | some i, none => some (i + 4)
  | none, some j => some (j + 2)
  | none, none => none

/-- The line up to the first occurrence of its end. -/
def lineBefore (pat buf : Bytes) : Option Bytes :=
  match indexOf pat buf with
  | some e => if e = 0 then none else some (buf.take e)
  | none => none

/-- The first line as it is read when `m` bytes have arrived, of which the first `e` hold the end of a
header. -/
def lineRead (buf : Bytes) (e m : Nat) : Option Bytes :=
  if (indexOf crlf (buf.take e)).isSome ∨ (indexOf crlfcrlf (buf.take m)).isSome then
    lineBefore crlf buf
  else lineBefore lf buf

/-! ### The first line of a prefix -/

variable {buf : Bytes}

theorem lineBefore_take {pat : Bytes} (hpat : pat ≠ []) {m i : Nat}
    (h : indexOf pat (buf.take m) = some i) : lineBefore pat (buf.take m) = lineBefore pat buf := by
  obtain ⟨hwhole, hend⟩ := (indexOf_take_eq_some_iff hpat m i).mp h
  unfold lineBefore
  simp only [h, hwhole, List.take_take]
  rw [Nat.min_eq_left (by omega)]

theorem requestLine_crlf {hdrEnd e : Nat} (h : indexOf crlf buf = some e) (hle : e ≤ hdrEnd) :
    requestLine buf hdrEnd = lineBefore crlf buf := by
  have hend : requestLineEnd buf hdrEnd = some e := by
    unfold requestLineEnd
    simp only [h]
    rw [if_neg (by omega)]
  unfold requestLine lineBefore
  simp only [hend, h]
  by_cases hzero : e = 0
  · simp [hzero]
  · rw [if_neg (by omega), if_neg hzero]

theorem requestLine_lf {hdrEnd l : Nat} (h : ∀ e, indexOf crlf buf = some e → hdrEnd < e)
    (hl : indexOf lf buf = some l) (hle : l ≤ hdrEnd) :
    requestLine buf hdrEnd = lineBefore lf buf := by
  have hend : requestLineEnd buf hdrEnd = some l := by
    unfold requestLineEnd
    cases he : indexOf crlf buf with
    | none => exact hl
    | some e => simpa only [if_pos (h e he)] using hl
  unfold requestLine lineBefore
  simp only [hend, hl]
  by_cases hzero : l = 0
  · simp [hzero]
  · rw [if_neg (by omega), if_neg hzero]

theorem crlf_ne_nil : crlf ≠ [] := by decide
theorem lf_ne_nil : lf ≠ [] := by decide
theorem lflf_ne_nil : lflf ≠ [] := by decide
theorem crlfcrlf_ne_nil : crlfcrlf ≠ [] := by decide
theorem length_crlf : crlf.length = 2 := by decide
theorem length_lflf : lflf.length = 2 := by decide
theorem length_crlfcrlf : crlfcrlf.length = 4 := by decide
theorem crlf_prefix : crlf <+: crlfcrlf := by decide
theorem lf_prefix : lf <+: lflf := by decide

/-- A pattern that a found one starts with is found at the latest there. -/
theorem exists_indexOf_le_of_prefix {pat pat' : Bytes} (hpre : pat <+: pat') {i : Nat}
    (h : indexOf pat' buf = some i) : ∃ j, indexOf pat buf = some j ∧ j ≤ i :=
  exists_indexOf_le (hpre.trans (prefix_drop_of_indexOf h))

/-- Once CRLF CRLF has arrived, the line ends with the first CRLF. -/
theorem requestLine_of_crlfcrlf {i m : Nat} (h : indexOf crlfcrlf (buf.take m) = some i) :
    headerEnd (buf.take m) = some i ∧ requestLine (buf.take m) i = lineBefore crlf buf := by
  obtain ⟨c, hc, hle⟩ := exists_indexOf_le_of_prefix crlf_prefix h
  constructor
  · simp [headerEnd, h]
  · rw [requestLine_crlf hc hle, lineBefore_take crlf_ne_nil hc]

/-- Before that, with LF LF, the line ends with the first CRLF only if that has arrived with it. -/
theorem requestLine_of_lflf {j m : Nat} (hnone : indexOf crlfcrlf (buf.take m) = none)
    (h : indexOf lflf (buf.take m) = some j) :
    headerEnd (buf.take m) = some j ∧ requestLine (buf.take m) j =
      if (indexOf crlf (buf.take (j + 2))).isSome then lineBefore crlf buf else lineBefore lf buf := by
  constructor
  · simp [headerEnd, hnone, h]
  · obtain ⟨-, hjm⟩ := (indexOf_take_eq_some_iff lflf_ne_nil m j).mp h
    rw [length_lflf] at hjm
    cases hc : indexOf crlf (buf.take (j + 2)) with
    | some c =>
      obtain ⟨hwhole, hend⟩ := (indexOf_take_eq_some_iff crlf_ne_nil (j + 2) c).mp hc
      rw [length_crlf] at hend
      have hcm : indexOf crlf (buf.take m) = some c :=
        (indexOf_take_eq_some_iff crlf_ne_nil m c).mpr ⟨hwhole, by rw [length_crlf]; omega⟩
      rw [requestLine_crlf hcm (by omega), lineBefore_take crlf_ne_nil hcm]
      rfl
    | none =>
      have hlater := (indexOf_take_eq_none_iff crlf_ne_nil (j + 2)).mp hc
      obtain ⟨l, hl, hle⟩ := exists_indexOf_le_of_prefix lf_prefix h
      have hcrlf : ∀ e, indexOf crlf (buf.take m) = some e → j < e := by
        intro e he
        have hbeyond := hlater e ((indexOf_take_eq_some_iff crlf_ne_nil m e).mp he).1
        rw [length_crlf] at hbeyond
        omega
      rw [requestLine_lf hcrlf hl hle, lineBefore_take lf_ne_nil hl]
      rfl

theorem headerLength_eq_some {e : Nat} (h : headerLength buf = some e) :
    (∃ i, indexOf crlfcrlf buf = some i ∧ e = i + 4 ∧
      ∀ j, indexOf lflf buf = some j → i + 4 ≤ j + 2) ∨
    (∃ j, indexOf lflf buf = some j ∧ e = j + 2 ∧
      ∀ i, indexOf crlfcrlf buf = some i → j + 2 ≤ i + 4) := by
  unfold headerLength at h
  cases hi : indexOf crlfcrlf buf with
  | none =>
    cases hj : indexOf lflf buf with
    | none => simp [hi, hj] at h
    | some j =>
      have he : j + 2 = e := by simpa [hi, hj] using h
      exact .inr ⟨j, rfl, he.symm, by simp⟩
  | some i =>
    cases hj : indexOf lflf buf with
    | none =>
      have he : i + 4 = e := by simpa [hi, hj] using h
      exact .inl ⟨i, rfl, he.symm, by simp⟩
    | some j =>
      have he : min (i + 4) (j + 2) = e := by simpa [hi, hj] using h
      rcases Nat.le_total (i + 4) (j + 2) with hle | hle
      · exact .inl ⟨i, rfl, by omega, by simpa using hle⟩
      · exact .inr ⟨j, rfl, by omega, by simpa using hle⟩

/-- A prefix as long as the header's end holds it, and its first line is the one that is read. -/
theorem requestLine_take {e m : Nat} (h : headerLength buf = some e) (hm : e ≤ m) :
    ∃ hdrEnd, headerEnd (buf.take m) = some hdrEnd ∧
      requestLine (buf.take m) hdrEnd = lineRead buf e m := by
  unfold lineRead
  cases hi : indexOf crlfcrlf (buf.take m) with
  | some i =>
    obtain ⟨hend, hline⟩ := requestLine_of_crlfcrlf hi
    exact ⟨i, hend, by simpa using hline⟩
  | none =>
    have hlater := (indexOf_take_eq_none_iff crlfcrlf_ne_nil m).mp hi
    rcases headerLength_eq_some h with ⟨i, hwhole, he, -⟩ | ⟨j, hwhole, he, -⟩
    · have hbeyond := hlater i hwhole
      rw [length_crlfcrlf] at hbeyond
      omega
    · have hj : indexOf lflf (buf.take m) = some j :=
        (indexOf_take_eq_some_iff lflf_ne_nil m j).mpr ⟨hwhole, by rw [length_lflf]; omega⟩
      obtain ⟨hend, hline⟩ := requestLine_of_lflf hi hj
      exact ⟨j, hend, by simpa [he] using hline⟩

/-- A shorter prefix does not hold it. -/
theorem headerEnd_take_none {m : Nat} (h : ∀ e, headerLength buf = some e → m < e) :
    headerEnd (buf.take m) = none := by
  have hcrlf : indexOf crlfcrlf (buf.take m) = none := by
    rw [indexOf_take_eq_none_iff crlfcrlf_ne_nil, length_crlfcrlf]
    intro i hi
    unfold headerLength at h
    simp only [hi] at h
    cases hj : indexOf lflf buf with
    | none => exact h _ (by simp [hj])
    | some j =>
      have hmin := h _ (by rw [hj])
      omega
  have hlf : indexOf lflf (buf.take m) = none := by
    rw [indexOf_take_eq_none_iff lflf_ne_nil, length_lflf]
    intro j hj
    unfold headerLength at h
    simp only [hj] at h
    cases hi : indexOf crlfcrlf buf with
    | none => exact h _ (by simp [hi])
    | some i =>
      have hmin := h _ (by rw [hi])
      omega
  simp [headerEnd, hcrlf, hlf]

/-! ### What is answered to a prefix -/

variable (env : QueryEnv) (c : Client) (t : PeerTable)

theorem handleBuffer_large (h : kMaxRequestBytes < buf.length) :
    handleBuffer env c t buf = some (tooLarge, t) := if_pos h

theorem handleBuffer_take_short {m : Nat} (hm : m ≤ buf.length)
    (h : ∀ e, headerLength buf = some e → m < e) : handleBuffer env c t (buf.take m) =
      if kMaxHeaderBytes < m then some (tooLarge, t) else none := by
  have hlen : (buf.take m).length = m := by rw [List.length_take, Nat.min_eq_left hm]
  unfold handleBuffer
  rw [headerEnd_take_none h, hlen]
  by_cases hlarge : kMaxRequestBytes < m
  · have hheader : kMaxHeaderBytes < m := by
      unfold kMaxHeaderBytes kMaxRequestBytes at *
      omega
    rw [if_pos hlarge, if_pos hheader]
  · rw [if_neg hlarge]

theorem handleBuffer_take_header {e m : Nat} (hm : m ≤ buf.length) (hmax : m ≤ kMaxRequestBytes)
    (h : headerLength buf = some e) (hem : e ≤ m) : handleBuffer env c t (buf.take m) =
      some (handleLine env c t (lineKind (lineRead buf e m))) := by
  have hlen : (buf.take m).length = m := by rw [List.length_take, Nat.min_eq_left hm]
  obtain ⟨hdrEnd, hend, hline⟩ := requestLine_take h hem
  unfold handleBuffer
  rw [hlen, if_neg (by omega), hend]
  simp only [hline]

/-! ### Answers that differ -/

/-- What a request line without a target is answered. -/
def LineKind.refusal : LineKind → Option String
  | .badRequest => some "bad request"
  | .methodNotAllowed => some "method not allowed"
  | .badRequestLine => some "bad request line"
  | .target _ => none

/-- All refusals with the code 400. -/
def refusals : List String :=
  ["bad request", "method not allowed", "bad request line", "unsupported path", "request too large"]

theorem writeHttp_refusal_injective : ∀ a ∈ refusals, ∀ b ∈ refusals,
    writeHttp (failure 400 a) = writeHttp (failure 400 b) → a = b := by
  decide +kernel

/-- The bytes up to the first digit of the status code. -/
theorem take_writeHttp {r : Reply} (h : r.code = 200 ∨ r.code = 400) :
    (writeHttp r).take 10 = latin1 (if r.code = 200 then "HTTP/1.0 2" else "HTTP/1.0 4") := by
  rcases h with h | h
  · unfold writeHttp
    rw [h]
    rfl
  · unfold writeHttp
    rw [h]
    rfl

theorem parseAnnounce_error {peerAddr : Option (BitVec 32)} {pathQuery : Bytes} {r : Reply}
    (h : parseAnnounce env peerAddr pathQuery = .error r) :
    r.code = 200 ∨ r = failure 400 "unsupported path" := by
  unfold parseAnnounce at h
  split at h
  · cases h
    exact .inr rfl
  · refine .inl ?_
    split at h
    · cases h
      rfl
    · dsimp only at h
      split at h
      · cases h
        rfl
      · split at h
        · cases h
          rfl
        · split at h
          · cases h
            rfl
          · split at h
            · cases h
              rfl
            · split at h
              · cases h
                rfl
              · split at h
                · cases h
                  rfl
                · cases h

theorem handlePath_reply (pathQuery : Bytes) : (handlePath env c t pathQuery).1.code = 200 ∨
    (handlePath env c t pathQuery).1 = failure 400 "unsupported path" := by
  cases h : parseAnnounce env c.peerAddr pathQuery with
  | error r =>
    rw [handlePath_error t h]
    exact parseAnnounce_error env h
  | ok a =>
    rw [handlePath_ok t h]
    exact .inl rfl

/-- The answer to a target is no refusal of another kind. -/
theorem writeHttp_handlePath_ne (pathQuery : Bytes) {reason : String} (hmem : reason ∈ refusals)
    (hne : reason ≠ "unsupported path") :
    writeHttp (handlePath env c t pathQuery).1 ≠ writeHttp (failure 400 reason) := by
  intro heq
  rcases handlePath_reply env c t pathQuery with hcode | hreply
  · have hhead := congrArg (List.take 10) heq
    rw [take_writeHttp (.inl hcode), take_writeHttp (.inr rfl), if_pos hcode,
      if_neg (by simp [failure])] at hhead
    exact absurd hhead (by decide)
  · rw [hreply] at heq
    exact hne (writeHttp_refusal_injective _ (by decide) _ hmem heq).symm

theorem handleLine_refusal {k : LineKind} {reason : String} (h : k.refusal = some reason) :
    (handleLine env c t k).1 = failure 400 reason ∧ reason ∈ refusals ∧
      reason ≠ "unsupported path" ∧ reason ≠ "request too large" := by
  cases k <;> cases h <;> exact ⟨rfl, by decide, by decide, by decide⟩

theorem LineKind.eq_of_refusal {k k' : LineKind} {reason : String} (h : k.refusal = some reason)
    (h' : k'.refusal = some reason) : k = k' := by
  cases k <;> cases k' <;> cases h <;> first | rfl | (revert h'; decide) | cases h'

/-- The answers to lines without a target differ from each other and from those to lines with one. -/
theorem lineKind_eq_of_response {k k' : LineKind} {reason : String} (hk : k.refusal = some reason)
    (h : writeHttp (handleLine env c t k).1 = writeHttp (handleLine env c t k').1) : k = k' := by
  obtain ⟨hreply, hmem, hpath, -⟩ := handleLine_refusal env c t hk
  rw [hreply] at h
  cases hk' : k'.refusal with
  | some reason' =>
    obtain ⟨hreply', hmem', -, -⟩ := handleLine_refusal env c t hk'
    rw [hreply'] at h
    have hsame := writeHttp_refusal_injective _ hmem _ hmem' h
    exact LineKind.eq_of_refusal hk (hsame ▸ hk')
  | none =>
    cases k' with
    | target p => exact absurd h.symm (writeHttp_handlePath_ne env c t p hmem hpath)
    | badRequest | methodNotAllowed | badRequestLine => cases hk'

/-- No answer to a line is that to a request that is too large. -/
theorem writeHttp_handleLine_ne (k : LineKind) :
    writeHttp (handleLine env c t k).1 ≠ writeHttp tooLarge := by
  cases hk : k.refusal with
  | some reason =>
    obtain ⟨hreply, hmem, -, hlarge⟩ := handleLine_refusal env c t hk
    rw [hreply]
    exact fun heq => hlarge (writeHttp_refusal_injective _ hmem _ (by decide) heq)
  | none =>
    cases k with
    | target p => exact writeHttp_handlePath_ne env c t p (by decide) (by decide)
    | badRequest | methodNotAllowed | badRequestLine => cases hk

/-! ### Lines that begin alike -/

/-- A line with a target has it also when more bytes are taken into the line. -/
theorem lineKind_append {line : Bytes} {p : Bytes} (h : lineKind (some line) = .target p)
    (rest : Bytes) : lineKind (some (line ++ rest)) = .target p := by
  unfold lineKind at h ⊢
  dsimp only at h ⊢
  by_cases hget : (latin1 "GET ").isPrefixOf (trimmedBytes line) = true
  · rw [if_neg (not_not.mpr hget)] at h
    rw [List.isPrefixOf_iff_prefix] at hget
    have hlen : 4 ≤ (trimmedBytes line).length := hget.length_le
    have hfirst : trimmedBytes line ≠ [] := List.ne_nil_of_length_pos (by omega)
    obtain ⟨more, hmore⟩ := trimmedBytes_append hfirst rest
    have hget' : (latin1 "GET ").isPrefixOf (trimmedBytes (line ++ rest)) = true :=
      List.isPrefixOf_iff_prefix.mpr (hget.trans ⟨more, hmore⟩)
    have hdrop : (trimmedBytes (line ++ rest)).drop 4 = (trimmedBytes line).drop 4 ++ more := by
      rw [← hmore, List.drop_append_of_le_length hlen]
    rw [if_neg (not_not.mpr hget')]
    unfold indexOfFrom at h ⊢
    cases hspace : indexOf (latin1 " ") ((trimmedBytes line).drop 4) with
    | none =>
      rw [hspace] at h
      cases h
    | some k =>
      have hend := indexOf_add_length_le (by decide) hspace
      rw [hspace] at h
      rw [hdrop, indexOf_append (by decide) hspace]
      simp only [Option.map_some, Nat.add_sub_cancel] at h ⊢
      rw [List.take_append_of_le_length (by omega)]
      exact h
  · rw [if_pos hget] at h
    cases h

/-- The line up to a later end begins with the line up to the first one. -/
theorem lineKind_lineBefore_mono {pat pat' : Bytes} {l e : Nat} {p : Bytes}
    (hl : indexOf pat buf = some l) (he : indexOf pat' buf = some e) (hle : l ≤ e)
    (h : lineKind (lineBefore pat buf) = .target p) :
    lineKind (lineBefore pat' buf) = .target p := by
  unfold lineBefore at h ⊢
  simp only [hl] at h
  simp only [he]
  by_cases hzero : l = 0
  · rw [if_pos hzero] at h
    cases h
  · have hsplit : buf.take e = buf.take l ++ (buf.take e).drop l := by
      have htake : (buf.take e).take l = buf.take l := by
        rw [List.take_take, Nat.min_eq_left hle]
      rw [← htake, List.take_append_drop]
    rw [if_neg hzero] at h
    rw [if_neg (by omega), hsplit]
    exact lineKind_append h _

/-! ### Requests that may be split -/

/-- The request has no end of a header; or the first one lies beyond all that is read; or it is read in
time, the whole request is not too large, and the line that is read when the header first ends is of the
same kind as the one that is read in the end: no CRLF CRLF comes, or the first CRLF has come before, or the
line up to the first LF is of the kind of the one up to the first CRLF. -/
def SplitSafe (buf : Bytes) : Prop :=
  ∀ e, headerLength buf = some e →
    kMaxRequestBytes < e ∨
    (e ≤ kMaxHeaderBytes + 1 ∧ buf.length ≤ kMaxRequestBytes ∧
      (indexOf crlfcrlf buf = none ∨ (indexOf crlf (buf.take e)).isSome ∨
        lineKind (lineBefore lf buf) = lineKind (lineBefore crlf buf)))

theorem headerLength_le {e : Nat} (h : headerLength buf = some e) : e ≤ buf.length := by
  rcases headerLength_eq_some h with ⟨i, hi, rfl, -⟩ | ⟨j, hj, rfl, -⟩
  · have hend := indexOf_add_length_le crlfcrlf_ne_nil hi
    rwa [length_crlfcrlf] at hend
  · have hend := indexOf_add_length_le lflf_ne_nil hj
    rwa [length_lflf] at hend

/-- All the lines that may be read are of one kind. -/
theorem lineKind_lineRead {e m n : Nat}
    (h : indexOf crlfcrlf buf = none ∨ (indexOf crlf (buf.take e)).isSome ∨
      lineKind (lineBefore lf buf) = lineKind (lineBefore crlf buf)) :
    lineKind (lineRead buf e m) = lineKind (lineRead buf e n) := by
  unfold lineRead
  rcases h with h | h | h
  · have hnone : ∀ k, indexOf crlfcrlf (buf.take k) = none := fun k =>
      (indexOf_take_eq_none_iff crlfcrlf_ne_nil k).mpr fun i hi => by simp [h] at hi
    simp only [hnone]
  · simp only [h, true_or, if_true]
  · split_ifs <;> simp only [h]

theorem SplitSafe.prefixesAgree (h : SplitSafe buf) : PrefixesAgree (handleBuffer env c t) buf := by
  rintro arrived harrived
  have hm : arrived.length ≤ buf.length := harrived.length_le
  rw [List.prefix_iff_eq_take.mp harrived]
  generalize arrived.length = m at hm
  have hwhole : buf.take buf.length = buf := List.take_length
  cases he : headerLength buf with
  | none =>
    have hbefore : ∀ k e, headerLength buf = some e → k < e := fun k e hsome => by simp [he] at hsome
    have hall := handleBuffer_take_short env c t (Nat.le_refl _) (hbefore buf.length)
    rw [hwhole] at hall
    rw [hall, handleBuffer_take_short env c t hm (hbefore m)]
    by_cases hlarge : kMaxHeaderBytes < m
    · rw [if_pos hlarge, if_pos (by omega)]
      exact .inr rfl
    · rw [if_neg hlarge]
      exact .inl rfl
  | some e =>
    have hlen := headerLength_le he
    have hshort : m < e → ∀ e', headerLength buf = some e' → m < e' := fun hlt e' he' => by
      rw [he] at he'
      cases he'
      exact hlt
    rcases h e he with hbeyond | ⟨hsoon, hsize, hline⟩
    · have hall : handleBuffer env c t buf = some (tooLarge, t) :=
        handleBuffer_large env c t (by omega)
      rw [hall]
      rcases Nat.lt_or_ge m e with hlt | hge
      · rw [handleBuffer_take_short env c t hm (hshort hlt)]
        split_ifs
        · exact .inr rfl
        · exact .inl rfl
      · refine .inr (handleBuffer_large env c t ?_)
        rw [List.length_take]
        omega
    · rcases Nat.lt_or_ge m e with hlt | hge
      · rw [handleBuffer_take_short env c t hm (hshort hlt), if_neg (by omega)]
        exact .inl rfl
      · have hall := handleBuffer_take_header env c t (Nat.le_refl _) hsize he hlen
        rw [hwhole] at hall
        rw [hall, handleBuffer_take_header env c t hm (by omega) he hge,
          lineKind_lineRead hline]
        exact .inr rfl

/-- A prefix that is answered is answered with the bytes that the whole is. -/
theorem response_of_prefixesAgree {m : Nat} {r r' : Reply × PeerTable}
    (h : PrefixesAgree (respond env c t) buf) (hpart : handleBuffer env c t (buf.take m) = some r)
    (hall : handleBuffer env c t buf = some r') : writeHttp r.1 = writeHttp r'.1 := by
  rcases h (buf.take m) (List.take_prefix m buf) with hnone | hsame
  · simp [respond, hpart] at hnone
  · unfold respond at hsame
    rw [hpart, hall] at hsame
    exact congrArg Prod.fst (Option.some.inj hsame)

/-- If CRLF CRLF comes after the header was found to end, and no CRLF before, the line is read first up to
LF and in the end up to CRLF. -/
theorem lineRead_of_late_crlf {e : Nat} (he : headerLength buf = some e)
    (hcome : indexOf crlfcrlf buf ≠ none) (hnot : indexOf crlf (buf.take e) = none) :
    lineRead buf e e = lineBefore lf buf ∧ lineRead buf e buf.length = lineBefore crlf buf ∧
      ∃ l k, indexOf lf buf = some l ∧ indexOf crlf buf = some k ∧ l ≤ k := by
  obtain ⟨i, hi⟩ := Option.ne_none_iff_exists'.mp hcome
  obtain ⟨k, hk, hki⟩ := exists_indexOf_le_of_prefix crlf_prefix hi
  have hlate : e < k + 2 := by
    simpa [length_crlf] using (indexOf_take_eq_none_iff crlf_ne_nil e).mp hnot k hk
  have hfirst : indexOf crlfcrlf (buf.take e) = none := by
    rw [indexOf_take_eq_none_iff crlfcrlf_ne_nil, length_crlfcrlf]
    intro i' hi'
    rw [hi] at hi'
    cases hi'
    omega
  refine ⟨by simp [lineRead, hnot, hfirst], by simp [lineRead, hi], ?_⟩
  rcases headerLength_eq_some he with ⟨i', hi', rfl, -⟩ | ⟨j, hj, rfl, -⟩
  · rw [hi] at hi'
    cases hi'
    omega
  · obtain ⟨l, hl, hlj⟩ := exists_indexOf_le_of_prefix lf_prefix hj
    exact ⟨l, k, hl, hk, by omega⟩

/-- If no prefix is answered otherwise, the condition holds. -/
theorem splitSafe_of_prefixesAgree (h : PrefixesAgree (respond env c t) buf) : SplitSafe buf := by
  intro e he
  have hlen := headerLength_le he
  have hwhole : buf.take buf.length = buf := List.take_length
  by_cases hbeyond : kMaxRequestBytes < e
  · exact .inl hbeyond
  · -- the request is answered at the end of its header, so all of it is not too large
    have hfirst := handleBuffer_take_header env c t hlen (by omega) he (Nat.le_refl e)
    have hsize : buf.length ≤ kMaxRequestBytes := by
      by_contra hlarge
      have hall : handleBuffer env c t buf = some (tooLarge, t) :=
        handleBuffer_large env c t (by omega)
      have hsame := response_of_prefixesAgree env c t h hfirst hall
      exact writeHttp_handleLine_ne env c t _ hsame
    have hall := handleBuffer_take_header env c t (Nat.le_refl _) hsize he hlen
    rw [hwhole] at hall
    refine .inr ⟨?_, hsize, ?_⟩
    · -- a longer header is refused before it ends
      by_contra hlate
      have hm : kMaxHeaderBytes + 1 ≤ buf.length := by omega
      have hshort := handleBuffer_take_short env c t hm fun e' he' => by
        rw [he] at he'
        cases he'
        omega
      rw [if_pos (by omega)] at hshort
      have hsame := response_of_prefixesAgree env c t h hshort hall
      exact writeHttp_handleLine_ne env c t _ hsame.symm
    · -- the lines read at the end of the header and in the end are answered alike
      by_contra hline
      obtain ⟨hcome, hnot, hkinds⟩ : indexOf crlfcrlf buf ≠ none ∧
          indexOf crlf (buf.take e) = none ∧
          lineKind (lineBefore lf buf) ≠ lineKind (lineBefore crlf buf) := by
        simpa [not_or] using hline
      obtain ⟨hread, hreadAll, l, k, hl, hk, hle⟩ := lineRead_of_late_crlf he hcome hnot
      rw [hread] at hfirst
      rw [hreadAll] at hall
      have hsame := response_of_prefixesAgree env c t h hfirst hall
      cases hrefusal : (lineKind (lineBefore lf buf)).refusal with
      | some reason => exact hkinds (lineKind_eq_of_response env c t hrefusal hsame)
      | none =>
        obtain ⟨p, hp⟩ : ∃ p, lineKind (lineBefore lf buf) = .target p := by
          cases hkind : lineKind (lineBefore lf buf) with
          | target p => exact ⟨p, rfl⟩
          | badRequest | methodNotAllowed | badRequestLine =>
            rw [hkind] at hrefusal
            cases hrefusal
        exact hkinds (hp.trans (lineKind_lineBefore_mono hl hk hle hp).symm)

/-! ### The connection -/

theorem response_foldl_handleRead (segments : List Bytes) (s : Connection)
    (h : s.response = none) : (segments.foldl (handleRead env c t) s).response =
      firstDecision (respond env c t) s.buffer segments := by
  induction segments generalizing s with
  | nil => exact h
  | cons segment segments ih =>
    rw [List.foldl_cons, firstDecision]
    cases hresp : respond env c t (s.buffer ++ segment) with
    | none =>
      have hstep : handleRead env c t s segment = { buffer := s.buffer ++ segment } := by
        simp [handleRead, h, hresp]
      rw [hstep, ih _ rfl]
      rfl
    | some response =>
      have hstep : handleRead env c t s segment = { buffer := [], response := some response } := by
        simp [handleRead, h, hresp]
      rw [hstep]
      clear ih hstep
      induction segments with
      | nil => rfl
      | cons segment' segments ih' => exact ih'

/-- For every request, client and table: the first response and the change of the table are the same for
all ways to split the request into reads, if and only if the request may be split. -/
theorem splitFree_iff (bytes : Bytes) :
    (∀ segments segments' : List Bytes, segments.flatten = bytes → segments'.flatten = bytes →
      firstResponse env c t segments = firstResponse env c t segments') ↔ SplitSafe bytes := by
  have hstart : respond env c t [] = none := rfl
  have hfree : (∀ segments segments' : List Bytes, segments.flatten = bytes →
      segments'.flatten = bytes → firstResponse env c t segments = firstResponse env c t segments') ↔
      SegmentFree (respond env c t) bytes := by
    unfold SegmentFree firstResponse
    simp only [response_foldl_handleRead env c t _ {} rfl]
  rw [hfree, segmentFree_iff hstart]
  constructor
  · exact splitSafe_of_prefixesAgree env c t
  · intro h arrived harrived
    unfold respond
    rcases h.prefixesAgree env c t arrived harrived with hnone | hsame
    · simp [hnone]
    · simp [hsame]

/-- A request that ends with LF LF first and with CRLF CRLF in the end is refused for its request line if it
comes in two reads, and for its missing query if it comes in one. -/
theorem request_split_after_lflf :
    ¬ ∀ (env : QueryEnv) (c : Client) (t : PeerTable) (segments segments' : List Bytes),
      segments.flatten = segments'.flatten →
        firstResponse env c t segments = firstResponse env c t segments' := by
  intro h
  have hsame := h ⟨fun _ _ => "", fun _ => none, fun _ => 0, id⟩
    { peerAddr := some 0x7f000001, nowMs := 0, shuffle := id } ∅
    [latin1 "GET /announce\n\n", latin1 "X Y\r\n\r\n"] [latin1 "GET /announce\n\nX Y\r\n\r\n"]
    (by decide)
  have hbytes := congrArg (Option.map Prod.fst) hsame
  revert hbytes
  decide +kernel

end TorrentLink.Tracker

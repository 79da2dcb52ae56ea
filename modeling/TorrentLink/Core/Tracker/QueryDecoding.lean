import TorrentLink.Core.Tracker.Announce
import TorrentLink.Lib.Indexes

/-!
# Reading an encoded query

A value is read back from any encoding that escapes at least `%`, `+` and `&`, and a parameter is found by
its whole key. The two functions are loops over indexes; each is shown to be the recursion over the bytes
that the tracker's model uses, and the decoder to read no byte behind the end
(`percentDecodeFrom_eq_some`).
-/

namespace TorrentLink.Tracker

open Lib

/-! ### The loops by index -/

/-- The loop of `percentDecodeQueryValue` from an index on; `none` if it reads behind the end. -/
def percentDecodeFrom (enc : Bytes) (i : Nat) : Option Bytes :=
  if i < enc.length then do
    let c ← enc[i]?
    if c = 37 ∧ i + 2 < enc.length then
      let h ← enc[i + 1]?
      let l ← enc[i + 2]?
      match hexValue h, hexValue l with
      | some hi, some lo => return UInt8.ofNat (hi * 16 + lo) :: (← percentDecodeFrom enc (i + 3))
      | _, _ => return plainByte c :: (← percentDecodeFrom enc (i + 1))
    else return plainByte c :: (← percentDecodeFrom enc (i + 1))
  else some []
termination_by enc.length - i

/-- The loop of `queryParamRaw` from an index on. -/
def queryParamFrom (qs needle : Bytes) (start : Nat) : Bytes :=
  if start < qs.length then
    match indexOf (latin1 "&") (qs.drop start) with
    | none =>
      let slice := qs.drop start
      if needle.isPrefixOf slice then percentDecodeQueryValue (slice.drop needle.length) else []
    | some length =>
      let slice := (qs.drop start).take length
      if needle.isPrefixOf slice then percentDecodeQueryValue (slice.drop needle.length)
      else queryParamFrom qs needle (start + length + 1)
  else []
termination_by qs.length - start

/-! ### One byte of the input -/

/-- A hexadecimal digit of the value, in either case. -/
def IsHexDigit (value : Nat) (d : UInt8) : Prop :=
  (value < 10 ∧ d.toNat = '0'.toNat + value) ∨
    (10 ≤ value ∧ value < 16 ∧
      (d.toNat = 'A'.toNat + (value - 10) ∨ d.toNat = 'a'.toNat + (value - 10)))

instance (value : Nat) (d : UInt8) : Decidable (IsHexDigit value d) :=
  inferInstanceAs (Decidable (_ ∨ _))

theorem hexValue_eq_some_iff {d : UInt8} {value : Nat} :
    hexValue d = some value ↔ IsHexDigit value d := by
  unfold hexValue IsHexDigit
  have h0 : '0'.toNat = 48 := rfl
  have hA : 'A'.toNat = 65 := rfl
  have ha : 'a'.toNat = 97 := rfl
  rw [h0, hA, ha]
  dsimp only
  split_ifs
  · rw [Option.some.injEq]
    omega
  · rw [Option.some.injEq]
    omega
  · rw [Option.some.injEq]
    omega
  · refine iff_of_false (by simp) ?_
    omega

theorem percentDecode_plain {c : UInt8} (h : c ≠ 37) (rest : Bytes) :
    percentDecodeQueryValue (c :: rest) = plainByte c :: percentDecodeQueryValue rest := by
  rcases rest with _ | ⟨x, _ | ⟨y, rest⟩⟩
  · rfl
  · rfl
  · rw [percentDecodeQueryValue, escaped, if_neg h]

/-- An escape. -/
theorem percentDecode_escape {h l : UInt8} {hi lo : Nat} (hh : hexValue h = some hi)
    (hl : hexValue l = some lo) (rest : Bytes) :
    percentDecodeQueryValue (37 :: h :: l :: rest) =
      UInt8.ofNat (hi * 16 + lo) :: percentDecodeQueryValue rest := by
  rw [percentDecodeQueryValue, escaped, if_pos rfl, hh, hl]

/-- Two hexadecimal digits, as they complete an escape. -/
def StartsWithDigits (rest : Bytes) : Prop :=
  ∃ h l tail, rest = h :: l :: tail ∧ (∃ hi, IsHexDigit hi h) ∧ ∃ lo, IsHexDigit lo l

/-- A `%` before anything else is a byte like others. -/
theorem percentDecode_malformed {rest : Bytes} (h : ¬ StartsWithDigits rest) :
    percentDecodeQueryValue (37 :: rest) = 37 :: percentDecodeQueryValue rest := by
  rcases rest with _ | ⟨x, _ | ⟨y, rest⟩⟩
  · rfl
  · rfl
  · have hnone : escaped 37 x y = none := by
      unfold escaped
      rw [if_pos rfl]
      cases hx : hexValue x with
      | none => rfl
      | some hi =>
        cases hy : hexValue y with
        | none => rfl
        | some lo =>
          exact absurd ⟨x, y, rest, rfl, ⟨hi, hexValue_eq_some_iff.mp hx⟩, lo, hexValue_eq_some_iff.mp hy⟩ h
    rw [percentDecodeQueryValue, hnone]
    rfl

/-! ### The loops are the recursions -/

/-- A byte that is not the start of an escape. -/
theorem percentDecode_cons {c : UInt8} {rest : Bytes} (h : c = 37 → ¬ StartsWithDigits rest) :
    percentDecodeQueryValue (c :: rest) = plainByte c :: percentDecodeQueryValue rest := by
  by_cases hc : c = 37
  · rw [hc]
    exact percentDecode_malformed (h hc)
  · exact percentDecode_plain hc rest

/-- The loop reads within the bytes and decodes what is left of them. -/
theorem percentDecodeFrom_eq_some (enc : Bytes) (i : Nat) :
    percentDecodeFrom enc i = some (percentDecodeQueryValue (enc.drop i)) := by
  induction hn : enc.length - i using Nat.strongRecOn generalizing i with
  | ind n ih =>
    have hrest : ∀ j, i < j → i < enc.length →
        percentDecodeFrom enc j = some (percentDecodeQueryValue (enc.drop j)) := fun j hij hi =>
      ih (enc.length - j) (by omega) j rfl
    rw [percentDecodeFrom]
    by_cases hi : i < enc.length
    · rw [if_pos hi, List.getElem?_eq_getElem hi, List.drop_eq_getElem_cons hi]
      simp only [Option.bind_eq_bind, Option.bind_some]
      by_cases hc : enc[i] = 37 ∧ i + 2 < enc.length
      · obtain ⟨hpercent, hlen⟩ := hc
        have hlen1 : i + 1 < enc.length := by omega
        rw [if_pos ⟨hpercent, hlen⟩, List.getElem?_eq_getElem hlen1, List.getElem?_eq_getElem hlen,
          hpercent, hrest (i + 1) (by omega) hi, hrest (i + 3) (by omega) hi]
        have hdrop : enc.drop (i + 1) = enc[i + 1] :: enc[i + 2] :: enc.drop (i + 3) := by
          rw [List.drop_eq_getElem_cons hlen1, List.drop_eq_getElem_cons hlen]
        simp only [Option.bind_some]
        have hbad : hexValue enc[i + 1] = none ∨ hexValue enc[i + 2] = none →
            ¬ StartsWithDigits (enc.drop (i + 1)) := by
          rintro hnone ⟨h, l, tail, heq, ⟨hi', hhi⟩, lo, hlo⟩
          rw [hdrop] at heq
          simp only [List.cons.injEq] at heq
          obtain ⟨rfl, rfl, _⟩ := heq
          rw [hexValue_eq_some_iff.mpr hhi, hexValue_eq_some_iff.mpr hlo] at hnone
          simp at hnone
        cases hh : hexValue enc[i + 1] with
        | none =>
          rw [percentDecode_malformed (hbad (.inl hh))]
          rfl
        | some hi' =>
          cases hl : hexValue enc[i + 2] with
          | none =>
            rw [percentDecode_malformed (hbad (.inr hl))]
            rfl
          | some lo =>
            rw [hdrop, percentDecode_escape hh hl]
            rfl
      · have hbad : enc[i] = 37 → ¬ StartsWithDigits (enc.drop (i + 1)) := by
          rintro hpercent ⟨h, l, tail, heq, _, _⟩
          have hlength := congrArg List.length heq
          simp only [List.length_drop, List.length_cons] at hlength
          exact hc ⟨hpercent, by omega⟩
        rw [if_neg hc, hrest (i + 1) (by omega) hi, percentDecode_cons hbad]
        rfl
    · rw [if_neg hi, List.drop_eq_nil_of_le (by omega)]
      rfl

/-! ### The parts of a query -/

theorem indexOf_singleton_of_notMem {b : UInt8} {bs : Bytes} (h : b ∉ bs) : indexOf [b] bs = none := by
  induction bs with
  | nil => rfl
  | cons c bs ih =>
    have hne : b ≠ c := fun heq => h (heq ▸ List.mem_cons_self)
    have hpre : ([b].isPrefixOf (c :: bs)) = false := by simp [List.isPrefixOf, hne]
    rw [indexOf_cons, hpre, ih fun hmem => h (List.mem_cons_of_mem c hmem)]
    rfl

theorem indexOf_singleton_append {b : UInt8} {bs : Bytes} (h : b ∉ bs) (rest : Bytes) :
    indexOf [b] (bs ++ b :: rest) = some bs.length := by
  induction bs with
  | nil =>
    have hpre : ([b].isPrefixOf (b :: rest)) = true := by simp [List.isPrefixOf]
    rw [List.nil_append, indexOf_cons, hpre]
    rfl
  | cons c bs ih =>
    have hne : b ≠ c := fun heq => h (heq ▸ List.mem_cons_self)
    have hpre : ([b].isPrefixOf (c :: (bs ++ b :: rest))) = false := by simp [List.isPrefixOf, hne]
    rw [List.cons_append, indexOf_cons, hpre, ih fun hmem => h (List.mem_cons_of_mem c hmem)]
    rfl

/-- The value in the first of the parts that starts with the needle. -/
def firstValue (parts : List Bytes) (needle : Bytes) : Bytes :=
  match parts.find? (needle.isPrefixOf ·) with
  | some slice => percentDecodeQueryValue (slice.drop needle.length)
  | none => []

theorem firstValue_cons (slice : Bytes) (parts : List Bytes) (needle : Bytes) :
    firstValue (slice :: parts) needle =
      if needle.isPrefixOf slice then percentDecodeQueryValue (slice.drop needle.length)
      else firstValue parts needle := by
  unfold firstValue
  rw [List.find?_cons]
  cases hpre : needle.isPrefixOf slice with
  | true => rfl
  | false => rfl

/-- The loop goes through the parts between the `&`. -/
theorem queryParamFrom_eq {needle : Bytes} (hneedle : needle ≠ []) (qs : Bytes) (start : Nat) :
    queryParamFrom qs needle start = firstValue ((qs.drop start).splitOn 38) needle := by
  induction hn : qs.length - start using Nat.strongRecOn generalizing start with
  | ind n ih =>
    have hamp : latin1 "&" = [38] := by decide
    rw [queryParamFrom, hamp]
    by_cases hstart : start < qs.length
    · rw [if_pos hstart]
      by_cases hmem : (38 : UInt8) ∈ qs.drop start
      · obtain ⟨slice, rest, hsplit, hslice⟩ := List.eq_append_cons_of_mem hmem
        have hrest : qs.drop (start + slice.length + 1) = rest := by
          rw [Nat.add_assoc, ← List.drop_drop, hsplit, List.drop_append, List.drop_of_length_le (by omega)]
          simp
        have hturn := ih (qs.length - (start + slice.length + 1)) (by omega) _ rfl
        rw [hsplit, indexOf_singleton_append hslice, List.splitOn_append_cons_self_of_not_mem hslice,
          firstValue_cons]
        dsimp only
        rw [List.take_left, hturn, hrest]
      · rw [indexOf_singleton_of_notMem hmem, List.splitOn_eq_singleton hmem, firstValue_cons]
        rfl
    · -- an empty last part, in which there is no parameter
      rw [if_neg hstart, List.drop_eq_nil_of_le (by omega), List.splitOn_nil, firstValue_cons]
      cases needle with
      | nil => exact absurd rfl hneedle
      | cons c needle => rfl

/-! ### Encodings -/

/-- The encodings of some bytes: `%`, `+` and `&` are escaped, any other byte may be. -/
inductive Encodes : Bytes → Bytes → Prop
  | nil : Encodes [] []
  | plain {b : UInt8} {bs enc : Bytes} (hpercent : b ≠ 37) (hplus : b ≠ 43) (hamp : b ≠ 38) :
    Encodes bs enc → Encodes (b :: bs) (b :: enc)
  | escape {b h l : UInt8} {bs enc : Bytes} (hhi : IsHexDigit (b.toNat / 16) h)
    (hlo : IsHexDigit (b.toNat % 16) l) : Encodes bs enc → Encodes (b :: bs) (37 :: h :: l :: enc)

/-- An encoding is decoded byte by byte, whatever follows it. -/
theorem percentDecode_encodes {bs enc : Bytes} (h : Encodes bs enc) (rest : Bytes) :
    percentDecodeQueryValue (enc ++ rest) = bs ++ percentDecodeQueryValue rest := by
  induction h with
  | nil => rfl
  | plain hpercent hplus _ _ ih =>
    rw [List.cons_append, percentDecode_plain hpercent, ih, plainByte, if_neg hplus]
    rfl
  | @escape b h l bs enc hhi hlo _ ih =>
    have hbyte : UInt8.ofNat (b.toNat / 16 * 16 + b.toNat % 16) = b := by
      rw [Nat.div_add_mod']
      exact UInt8.ofNat_toNat
    simp only [List.cons_append]
    rw [percentDecode_escape (hexValue_eq_some_iff.mpr hhi) (hexValue_eq_some_iff.mpr hlo), ih, hbyte]

theorem amp_notMem_of_encodes {bs enc : Bytes} (h : Encodes bs enc) : (38 : UInt8) ∉ enc := by
  have hdigit : ∀ v, ¬ IsHexDigit v 38 := by
    intro v hv
    have hnone : hexValue 38 = none := by decide
    rw [← hexValue_eq_some_iff, hnone] at hv
    cases hv
  induction h with
  | nil => exact List.not_mem_nil
  | plain _ _ hamp _ ih =>
    rw [List.mem_cons]
    rintro (heq | hmem)
    · exact hamp heq.symm
    · exact ih hmem
  | escape hhi hlo _ ih =>
    simp only [List.mem_cons, not_or]
    refine ⟨by decide, ?_, ?_, ih⟩
    · rintro rfl
      exact hdigit _ hhi
    · rintro rfl
      exact hdigit _ hlo

/-! ### Parameters -/

/-- A key without `&` and `=`. -/
def PlainKey (key : Bytes) : Prop := (38 : UInt8) ∉ key ∧ (61 : UInt8) ∉ key

instance (key : Bytes) : Decidable (PlainKey key) := inferInstanceAs (Decidable (_ ∧ _))

/-- A key with a value and an encoding of it. -/
structure QueryParam where
  key : Bytes
  value : Bytes
  encoded : Bytes
  plainKey : PlainKey key
  encodes : Encodes value encoded

/-- The parameters as a query. -/
def joinQuery (params : List QueryParam) : Bytes :=
  (latin1 "&").intercalate (params.map fun p => p.key ++ latin1 "=" ++ p.encoded)

/-- The value of the first parameter with the key, empty if there is none. -/
def paramValue (params : List QueryParam) (key : Bytes) : Bytes :=
  ((params.find? (·.key = key)).map (·.value)).getD []

/-- A part starts with a key and `=` only if it is the parameter of that key. -/
theorem isPrefixOf_param (p : QueryParam) {key : Bytes} (hkey : PlainKey key) :
    (key ++ latin1 "=").isPrefixOf (p.key ++ latin1 "=" ++ p.encoded) = decide (p.key = key) := by
  have heq : latin1 "=" = [61] := by decide
  rw [heq, Bool.eq_iff_iff, List.isPrefixOf_iff_prefix, decide_eq_true_iff]
  constructor
  · rintro ⟨rest, hrest⟩
    simp only [List.append_assoc, List.singleton_append] at hrest
    exact ((append_separator_eq hkey.2 p.plainKey.2).mp hrest).1.symm
  · rintro rfl
    exact List.prefix_append _ _

theorem firstValue_params (params : List QueryParam) {key : Bytes} (hkey : PlainKey key) :
    firstValue (params.map fun p => p.key ++ latin1 "=" ++ p.encoded) (key ++ latin1 "=") =
      paramValue params key := by
  induction params with
  | nil => rfl
  | cons p params ih =>
    rw [List.map_cons, firstValue_cons, isPrefixOf_param p hkey, ih]
    unfold paramValue
    rw [List.find?_cons]
    by_cases hp : p.key = key
    · have hdecode := percentDecode_encodes p.encodes []
      rw [List.append_nil] at hdecode
      rw [if_pos (decide_eq_true hp), decide_eq_true hp, ← hp, List.drop_left, hdecode]
      exact List.append_nil _
    · rw [if_neg (by simpa using hp), decide_eq_false hp]

theorem queryParamRaw_joinQuery (params : List QueryParam) {key : Bytes} (hkey : PlainKey key) :
    queryParamRaw (joinQuery params) key = paramValue params key := by
  have hamp : latin1 "&" = [38] := by decide
  show firstValue ((joinQuery params).splitOn 38) (key ++ latin1 "=") = _
  by_cases hnil : params = []
  · subst hnil
    -- one empty part, which has no parameter
    cases key with
    | nil => decide
    | cons c key => rfl
  · have hparts : ∀ part ∈ params.map (fun p => p.key ++ latin1 "=" ++ p.encoded),
        (38 : UInt8) ∉ part := by
      intro part hpart
      obtain ⟨p, _, rfl⟩ := List.mem_map.mp hpart
      have heq : (38 : UInt8) ∉ latin1 "=" := by decide
      simp only [List.mem_append, not_or]
      exact ⟨⟨p.plainKey.1, heq⟩, amp_notMem_of_encodes p.encodes⟩
    unfold joinQuery
    rw [hamp, List.splitOn_intercalate 38 hparts (by simpa using hnil)]
    exact firstValue_params params hkey

/-- Any encoding is decoded to the bytes it encodes; a parameter is found by its key, the first one if
there are several; an escape that is malformed or cut off is passed through. Both functions are the loops
of the source, and the decoder reads no byte behind the end. -/
theorem query_decoded :
    (∀ bs enc, Encodes bs enc → percentDecodeQueryValue enc = bs) ∧
    (∀ params key, PlainKey key → queryParamRaw (joinQuery params) key = paramValue params key) ∧
    (∀ bs enc rest, Encodes bs enc → ¬ StartsWithDigits rest →
      percentDecodeQueryValue (enc ++ 37 :: rest) = bs ++ 37 :: percentDecodeQueryValue rest) ∧
    (∀ enc, percentDecodeFrom enc 0 = some (percentDecodeQueryValue enc)) ∧
    ∀ qs key, queryParamFrom qs (key ++ latin1 "=") 0 = queryParamRaw qs key := by
  refine ⟨fun bs enc h => ?_, fun params key hkey => queryParamRaw_joinQuery params hkey,
    fun bs enc rest h hrest => ?_, fun enc => percentDecodeFrom_eq_some enc 0, fun qs key => ?_⟩
  · have hdecode := percentDecode_encodes h []
    rw [List.append_nil] at hdecode
    exact hdecode.trans (List.append_nil bs)
  · rw [percentDecode_encodes h, percentDecode_malformed hrest]
  · have hneedle : key ++ latin1 "=" ≠ [] := by simp [latin1]
    exact queryParamFrom_eq hneedle qs 0

/-- The byte `%`, escaped, in the second of two parameters; the key of the first ends with its key. -/
def sampleParams : List QueryParam :=
  [{ key := latin1 "my_id"
     value := [120]
     encoded := [120]
     plainKey := by decide
     encodes := .plain (by decide) (by decide) (by decide) .nil },
   { key := latin1 "id"
     value := [37]
     encoded := [37, 50, 53]
     plainKey := by decide
     encodes := .escape (by decide) (by decide) .nil }]

theorem query_decoded_percent :
    joinQuery sampleParams = latin1 "my_id=x&id=%25" ∧
      queryParamRaw (latin1 "my_id=x&id=%25") (latin1 "id") = [37] := by
  have hjoin : joinQuery sampleParams = latin1 "my_id=x&id=%25" := by decide
  refine ⟨hjoin, ?_⟩
  rw [← hjoin, query_decoded.2.1 sampleParams (latin1 "id") (by decide)]
  decide

end TorrentLink.Tracker

import TorrentLink.Core.Rss.DedupIndex
import TorrentLink.Lib.Alphabet
import TorrentLink.Lib.BigEndian

/-!
# The info-hash of a magnet link

A v1 info-hash is written with 40 hexadecimal digits or with 32 letters of base32, either in any letter
case. `extractInfoHash` returns what is written, in lower case, and does not convert one into the other:
its keys tell the hashes of one encoding apart (`extractInfoHash_eq_iff`).
-/

namespace TorrentLink.Rss

open Lib

/-! ### Magnet links that name a hash -/

inductive HashEncoding
  | hex | base32
  deriving DecidableEq, Repr

def HashEncoding.alphabet : HashEncoding → List Char
  | .hex => "0123456789abcdef".toList
  | .base32 => "abcdefghijklmnopqrstuvwxyz234567".toList

/-- The number of letters of 160 bits. -/
def HashEncoding.length : HashEncoding → Nat
  | .hex => 40
  | .base32 => 32

/-- The 20 bytes that are written, in any letter case. -/
def HashEncoding.decode (e : HashEncoding) (code : List Char) : List UInt8 :=
  bigEndian 20 (numeral e.alphabet (code.map Char.toLower))

/-- The text has one `xt=urn:btih:`, and behind it a hash. The marker may be written in any letter case
before a hexadecimal hash, but not before one in base32. -/
structure HashAt (text : List Char) (e : HashEncoding) (before marker code after : List Char) :
    Prop where
  text_eq : text = before ++ marker ++ code ++ after
  isMarker : marker.map Char.toLower = btihPrefix
  exact : e = .base32 → marker = btihPrefix
  once : ∀ front rest, text = front ++ rest →
    (rest.take btihPrefix.length).map Char.toLower = btihPrefix → front = before
  isCode : ∀ c ∈ code, c.toLower ∈ e.alphabet
  length_eq : code.length = e.length
  ends : ∀ c ∈ after.head?, c.isAlphanum = false

/-- A magnet link that names a hash in an encoding. -/
def NamesHash (magnet : String) (e : HashEncoding) (hash : List UInt8) : Prop :=
  ∃ before marker code after, HashAt magnet.toList e before marker code after ∧ hash = e.decode code

/-! ### Letters -/

theorem of_ascii {p : Char → Bool} (hascii : ∀ n < 128, p (Char.ofNat n) = true) {c : Char}
    (hc : c.toNat < 128) : p c = true := by
  have hp := hascii c.toNat hc
  rwa [Char.ofNat_toNat] at hp

theorem toLower_of_not_ascii {c : Char} (h : 128 ≤ c.toNat) : c.toLower = c := by
  unfold Char.toLower
  refine dif_neg ?_
  rintro ⟨-, hle⟩
  have hnat : c.val.toNat ≤ 90 := UInt32.le_iff_toNat_le.mp hle
  have hsame : c.toNat = c.val.toNat := rfl
  omega

theorem ascii_of_toLower_mem {e : HashEncoding} {c : Char} (h : c.toLower ∈ e.alphabet) :
    c.toNat < 128 := by
  by_contra hnot
  rw [toLower_of_not_ascii (by omega)] at h
  have hall : (e.alphabet.all fun c => c.toNat < 128) = true := by
    cases e with
    | hex => decide
    | base32 => decide
  exact hnot (of_decide_eq_true (List.all_eq_true.mp hall c h))

/-- The class of characters that is searched for. -/
def HashEncoding.isDigit : HashEncoding → Char → Bool
  | .hex => isHexDigit
  | .base32 => isBase32Char

theorem HashEncoding.isDigit_of_mem {e : HashEncoding} {c : Char} (h : c.toLower ∈ e.alphabet) :
    e.isDigit c = true := by
  have hp := of_ascii (p := fun c => !decide (c.toLower ∈ e.alphabet) || e.isDigit c)
    (by cases e <;> decide +kernel) (ascii_of_toLower_mem h)
  simpa [h] using hp

theorem isAlphanum_of_isHexDigit {c : Char} (h : isHexDigit c = true) : c.isAlphanum = true := by
  have hascii : c.toNat < 128 := by
    have hsame : c.toNat = c.val.toNat := rfl
    simp [isHexDigit, Char.le_def, UInt32.le_iff_toNat_le] at h
    omega
  have hp := of_ascii (p := fun c => !isHexDigit c || c.isAlphanum) (by decide) hascii
  simpa [h] using hp

/-! ### Searching -/

theorem firstMatch_none {matchAt : List Char → Option (List Char)} {text : List Char}
    (h : ∀ front rest, text = front ++ rest → matchAt rest = none) : firstMatch matchAt text = none := by
  induction text with
  | nil => exact h [] [] rfl
  | cons c text ih =>
    rw [firstMatch, h [] (c :: text) rfl, ih fun front rest hsplit => h (c :: front) rest (by simp [hsplit])]
    rfl

/-- A match at the only place where there is one. -/
theorem firstMatch_of_once {matchAt : List Char → Option (List Char)} {before rest : List Char}
    {found : List Char} (hat : matchAt rest = some found)
    (honce : ∀ front rest', before ++ rest = front ++ rest' → matchAt rest' ≠ none → front = before) :
    firstMatch matchAt (before ++ rest) = some found := by
  induction before with
  | nil =>
    cases rest with
    | nil => exact hat
    | cons c rest => rw [List.nil_append, firstMatch, hat, Option.some_or]
  | cons c before ih =>
    have hhere : matchAt (c :: before ++ rest) = none := by
      by_contra hmatch
      exact absurd (honce [] _ rfl hmatch) (by simp)
    have hrest := ih fun front rest' hsplit hmatch => by
      have hfront := honce (c :: front) rest' (by simp [hsplit]) hmatch
      exact (List.cons.inj hfront).2
    rw [List.cons_append] at hhere ⊢
    rw [firstMatch, hhere, hrest, Option.none_or]

section Named

variable {text before marker code after : List Char} {e : HashEncoding}

theorem HashAt.take_marker (h : HashAt text e before marker code after) :
    marker.length = btihPrefix.length := by
  rw [← h.isMarker, List.length_map]

theorem capture_code {inClass : Char → Bool} {n : Nat} (hlength : code.length = n)
    (hclass : ∀ c ∈ code, inClass c = true) (after : List Char) :
    capture inClass n (code ++ after) = some code := by
  unfold capture
  rw [List.take_left' hlength, if_pos ⟨hlength, List.all_eq_true.mpr hclass⟩]

theorem HashAt.isDigit (h : HashAt text e before marker code after) :
    ∀ c ∈ code, e.isDigit c = true := fun c hc => HashEncoding.isDigit_of_mem (h.isCode c hc)

/-- A text with a marker elsewhere has no hash there. -/
theorem HashAt.marker_only (h : HashAt text e before marker code after) {front rest : List Char}
    (hsplit : text = front ++ rest)
    (hmarker : (rest.take btihPrefix.length).map Char.toLower = btihPrefix) :
    front = before ∧ rest = marker ++ code ++ after := by
  have hfront := h.once front rest hsplit hmarker
  have htext := h.text_eq
  rw [hsplit, hfront, List.append_assoc, List.append_assoc] at htext
  exact ⟨hfront, by rw [List.append_assoc]; exact List.append_cancel_left htext⟩

/-- A search that needs the marker finds its first match there. -/
theorem HashAt.match_marker (h : HashAt text e before marker code after)
    {matchAt : List Char → Option (List Char)} (hat : matchAt (marker ++ code ++ after) = some code)
    (hmarker : ∀ rest, (rest.take btihPrefix.length).map Char.toLower ≠ btihPrefix → matchAt rest = none) :
    firstMatch matchAt text = some code := by
  have htext := h.text_eq
  rw [List.append_assoc, List.append_assoc, ← List.append_assoc marker] at htext
  rw [htext]
  refine firstMatch_of_once hat fun front rest hsplit hmatch => ?_
  refine h.once front rest (htext.trans hsplit) ?_
  by_contra hnot
  exact hmatch (hmarker rest hnot)

theorem HashAt.match_hex (h : HashAt text .hex before marker code after) :
    firstMatch matchHexHash text = some code := by
  have hat : matchHexHash (marker ++ code ++ after) = some code := by
    unfold matchHexHash
    rw [List.append_assoc, List.take_left' h.take_marker, List.drop_left' h.take_marker,
      if_pos h.isMarker]
    exact capture_code h.length_eq h.isDigit after
  exact h.match_marker hat fun rest hmarker => if_neg hmarker

/-- A hash in base32 is too short for a hexadecimal one, and what follows is no digit. -/
theorem HashAt.no_hex (h : HashAt text .base32 before marker code after) :
    firstMatch matchHexHash text = none := by
  refine firstMatch_none fun front rest hsplit => ?_
  unfold matchHexHash
  by_cases hmarker : (rest.take btihPrefix.length).map Char.toLower = btihPrefix
  · obtain ⟨-, rfl⟩ := h.marker_only hsplit hmarker
    rw [if_pos hmarker, List.append_assoc, List.drop_left' h.take_marker]
    unfold capture
    refine if_neg ?_
    rintro ⟨hlength, hall⟩
    have hcode : code.length = 32 := h.length_eq
    rw [List.length_take, List.length_append] at hlength
    cases after with
    | nil =>
      rw [List.length_nil] at hlength
      omega
    | cons c after =>
      have hmem : c ∈ (code ++ c :: after).take 40 := by
        rw [List.take_append, hcode]
        exact List.mem_append_right _ (by simp)
      have hhex := List.all_eq_true.mp hall c hmem
      exact absurd ((isAlphanum_of_isHexDigit hhex).symm.trans (h.ends c rfl)) (by decide)
  · exact if_neg hmarker

theorem HashAt.match_base32 (h : HashAt text .base32 before marker code after) :
    firstMatch matchBase32Hash text = some code := by
  have hat : matchBase32Hash (marker ++ code ++ after) = some code := by
    unfold matchBase32Hash
    rw [List.append_assoc, List.take_left' h.take_marker, List.drop_left' h.take_marker,
      if_pos (h.exact rfl)]
    exact capture_code h.length_eq h.isDigit after
  refine h.match_marker hat fun rest hmarker => if_neg fun hexact => hmarker ?_
  rw [hexact]
  decide

end Named

/-- The key of a magnet link is what is written, in lower case. -/
theorem HashAt.extractInfoHash {magnet : String} {e : HashEncoding} {before marker code after : List Char}
    (h : HashAt magnet.toList e before marker code after) :
    extractInfoHash magnet = String.ofList (code.map Char.toLower) := by
  unfold Rss.extractInfoHash
  cases e with
  | hex => rw [h.match_hex, Option.some_or]
  | base32 => rw [h.no_hex, h.match_base32, Option.none_or]

/-! ### The keys -/

theorem alphabet_length (e : HashEncoding) :
    1 < e.alphabet.length ∧ e.alphabet.length ^ e.length = 256 ^ 20 := by
  cases e with
  | hex => decide
  | base32 => decide

/-- In one encoding, the letters tell the bytes. -/
theorem decode_inj {e : HashEncoding} {code code' : List Char}
    (h : ∀ c ∈ code, c.toLower ∈ e.alphabet) (hlength : code.length = e.length)
    (h' : ∀ c ∈ code', c.toLower ∈ e.alphabet) (hlength' : code'.length = e.length) :
    e.decode code = e.decode code' ↔ code.map Char.toLower = code'.map Char.toLower := by
  obtain ⟨hone, hpow⟩ := alphabet_length e
  have hlower : ∀ {l : List Char}, (∀ c ∈ l, c.toLower ∈ e.alphabet) →
      ∀ c ∈ l.map Char.toLower, c ∈ e.alphabet := by
    intro l hl c hc
    obtain ⟨x, hx, rfl⟩ := List.mem_map.mp hc
    exact hl x hx
  have hlt : ∀ {l : List Char}, (∀ c ∈ l, c.toLower ∈ e.alphabet) → l.length = e.length →
      numeral e.alphabet (l.map Char.toLower) < 256 ^ 20 := by
    intro l hl hlen
    have hnumeral := numeral_lt hone (hlower hl)
    rwa [List.length_map, hlen, hpow] at hnumeral
  unfold HashEncoding.decode
  rw [← beValue_inj (by simp), beValue_bigEndian, beValue_bigEndian, Nat.mod_eq_of_lt (hlt h hlength),
    Nat.mod_eq_of_lt (hlt h' hlength')]
  exact numeral_inj hone (by simp [hlength, hlength']) (hlower h) (hlower h')

theorem key_eq_iff {magnet magnet' : String} {e e' : HashEncoding} {hash hash' : List UInt8}
    (h : NamesHash magnet e hash) (h' : NamesHash magnet' e' hash') :
    extractInfoHash magnet = extractInfoHash magnet' ↔ e = e' ∧ hash = hash' := by
  obtain ⟨before, marker, code, after, hat, rfl⟩ := h
  obtain ⟨before', marker', code', after', hat', rfl⟩ := h'
  rw [hat.extractInfoHash, hat'.extractInfoHash, String.ofList_inj]
  constructor
  · intro hsame
    have hlength := congrArg List.length hsame
    rw [List.length_map, List.length_map, hat.length_eq, hat'.length_eq] at hlength
    have he : e = e' := by
      cases e <;> cases e' <;> first | rfl | exact absurd hlength (by decide)
    subst he
    exact ⟨rfl, (decode_inj hat.isCode hat.length_eq hat'.isCode hat'.length_eq).mpr hsame⟩
  · rintro ⟨rfl, hsame⟩
    exact (decode_inj hat.isCode hat.length_eq hat'.isCode hat'.length_eq).mp hsame

theorem key_ne_empty {magnet : String} {e : HashEncoding} {hash : List UInt8}
    (h : NamesHash magnet e hash) : extractInfoHash magnet ≠ "" := by
  obtain ⟨before, marker, code, after, hat, -⟩ := h
  intro hempty
  have hlist := congrArg String.toList (hat.extractInfoHash.symm.trans hempty)
  have hlength := congrArg List.length hlist
  rw [String.toList_ofList, List.length_map, hat.length_eq] at hlength
  cases e <;> exact absurd hlength (by decide)

/-! ### Entries that name the same torrent -/

/-- Two entries of one feed that name the same hash in the same encoding. -/
def SameTorrent (it it' : RssItem) : Prop :=
  it.feedId = it'.feedId ∧ ∃ e hash, NamesHash it.magnet e hash ∧ NamesHash it'.magnet e hash

theorem SameTorrent.key {it it' : RssItem} (h : SameTorrent it it') :
    it.infohashKey ≠ "" ∧ it'.infohashKey = it.infohashKey := by
  obtain ⟨hfeed, e, hash, hnames, hnames'⟩ := h
  have hsame := (key_eq_iff hnames' hnames).mpr ⟨rfl, rfl⟩
  refine ⟨(feedScopeKey_ne_empty _).mpr (key_ne_empty hnames), ?_⟩
  unfold RssItem.infohashKey
  rw [hfeed, hsame]

/-- An item that is no duplicate names no torrent of the index. -/
theorem ExactIndex.not_sameTorrent {toLower : String → String} {d : RssDedup} {items : List RssItem}
    (h : ExactIndex toLower d items) {it : RssItem} (hnew : isDuplicate toLower d it = false) :
    ∀ x ∈ items, ¬SameTorrent it x := by
  intro x hx hsame
  obtain ⟨hkey, hsame⟩ := hsame.key
  have hknown := (knownKey_iff RssItem.infohashKey h.infohashes it.infohashKey).mpr ⟨hkey, x, hx, hsame⟩
  unfold isDuplicate at hnew
  rw [hknown, Bool.or_true] at hnew
  cases hnew

theorem ExactIndex.keeps_different {toLower : String → String} {d : RssDedup} {items : List RssItem}
    (h : ExactIndex toLower d items) (incoming : List RssItem) :
    (∀ it ∈ (Rss.dedupIncoming toLower d incoming).1, ∀ x ∈ items, ¬SameTorrent it x) ∧
      (Rss.dedupIncoming toLower d incoming).1.Pairwise fun a b => ¬SameTorrent b a := by
  induction incoming generalizing d items with
  | nil => exact ⟨by simp [Rss.dedupIncoming], List.Pairwise.nil⟩
  | cons it rest ih =>
    rw [Rss.dedupIncoming]
    by_cases hd : isDuplicate toLower d it = true
    · rw [if_pos hd]
      exact ih h
    · rw [if_neg hd]
      obtain ⟨hknown, hpairs⟩ := ih (h.recordItem it)
      refine ⟨?_, List.pairwise_cons.mpr ⟨fun b hb => hknown b hb it (by simp), hpairs⟩⟩
      intro a ha x hx
      rcases List.mem_cons.mp ha with rfl | ha
      · exact h.not_sameTorrent (Bool.eq_false_iff.mpr hd) x hx
      · exact hknown a ha x (List.mem_append_left _ hx)

/-- The keys are equal exactly if the hashes and their encodings are; so a torrent is not kept twice in a
feed that names it in one encoding. -/
theorem extractInfoHash_eq_iff :
    (∀ (magnet magnet' : String) (e e' : HashEncoding) (hash hash' : List UInt8),
      NamesHash magnet e hash → NamesHash magnet' e' hash' →
        (extractInfoHash magnet = extractInfoHash magnet' ↔ e = e' ∧ hash = hash')) ∧
    ∀ (toLower : String → String) (d : RssDedup) (existing batch : List RssItem),
      ExactIndex toLower d existing →
        (∀ it ∈ (dedupIncoming toLower d batch).1, ∀ x ∈ existing, ¬SameTorrent it x) ∧
          (dedupIncoming toLower d batch).1.Pairwise fun a b => ¬SameTorrent b a :=
  ⟨fun _ _ _ _ _ _ h h' => key_eq_iff h h', fun _ _ _ batch hd => hd.keeps_different batch⟩

/-! ### The hash of 20 bytes 0xFF -/

def upperHexMagnet : String := "magnet:?dn=a&xt=urn:btih:FFFFFFFFFFFFFFFFFFFFFFFFFFFFFFFFFFFFFFFF"

def hexMagnet : String := "magnet:?xt=urn:btih:ffffffffffffffffffffffffffffffffffffffff&dn=a"

def base32Magnet : String := "magnet:?xt=urn:btih:77777777777777777777777777777777"

/-- It is enough to look at every place of the text. -/
theorem namesHash_of_places {magnet : String} {e : HashEncoding} (before code after : List Char)
    (htext : magnet.toList = before ++ btihPrefix ++ code ++ after)
    (honce : ∀ n ≤ magnet.toList.length,
      ((magnet.toList.drop n).take btihPrefix.length).map Char.toLower = btihPrefix →
        n = before.length)
    (hcode : ∀ c ∈ code, c.toLower ∈ e.alphabet) (hlength : code.length = e.length)
    (hends : ∀ c ∈ after.head?, c.isAlphanum = false) : NamesHash magnet e (e.decode code) := by
  refine ⟨before, btihPrefix, code, after, ⟨htext, by decide, fun _ => rfl, ?_, hcode, hlength,
    hends⟩, rfl⟩
  intro front rest hsplit hat
  have hlt : front.length ≤ magnet.toList.length := by rw [hsplit]; simp
  have hplace := honce front.length hlt (by rw [hsplit, List.drop_left]; exact hat)
  have hfront : front = magnet.toList.take front.length := by rw [hsplit, List.take_left]
  rw [hfront, hplace, htext, List.append_assoc, List.append_assoc, List.take_left]

theorem namesHash_upperHexMagnet : NamesHash upperHexMagnet .hex (List.replicate 20 255) := by
  have hdecode : List.replicate 20 255 = HashEncoding.hex.decode (List.replicate 40 'F') := by
    decide +kernel
  rw [hdecode]
  exact namesHash_of_places "magnet:?dn=a&".toList (List.replicate 40 'F') [] (by decide +kernel)
    (by decide +kernel) (fun c hc => List.eq_of_mem_replicate hc ▸ by decide) rfl (by simp)

theorem namesHash_hexMagnet : NamesHash hexMagnet .hex (List.replicate 20 255) := by
  have hends : "&dn=a".toList.head? = some '&' := by decide
  have hdecode : List.replicate 20 255 = HashEncoding.hex.decode (List.replicate 40 'f') := by
    decide +kernel
  rw [hdecode]
  exact namesHash_of_places "magnet:?".toList (List.replicate 40 'f') "&dn=a".toList
    (by decide +kernel) (by decide +kernel) (fun c hc => List.eq_of_mem_replicate hc ▸ by decide) rfl
    fun c hc => (Option.some.inj (hends.symm.trans hc)) ▸ by decide

theorem namesHash_base32Magnet : NamesHash base32Magnet .base32 (List.replicate 20 255) := by
  have hdecode : List.replicate 20 255 = HashEncoding.base32.decode (List.replicate 32 '7') := by
    decide +kernel
  rw [hdecode]
  exact namesHash_of_places "magnet:?".toList (List.replicate 32 '7') [] (by decide +kernel)
    (by decide +kernel) (fun c hc => List.eq_of_mem_replicate hc ▸ by decide) rfl (by simp)

/-- An entry that names the hash with other letters is no new one. -/
theorem extractInfoHash_eq_iff_ff :
    extractInfoHash upperHexMagnet = extractInfoHash hexMagnet ∧
      ∀ it ∈ (dedupIncoming id (buildIndex id [{ id := "a", feedId := "f", magnet := hexMagnet }])
          [{ id := "b", feedId := "f", magnet := upperHexMagnet }]).1,
        ¬SameTorrent it { id := "a", feedId := "f", magnet := hexMagnet } := by
  constructor
  · exact (extractInfoHash_eq_iff.1 _ _ _ _ _ _ namesHash_upperHexMagnet namesHash_hexMagnet).mpr
      ⟨rfl, rfl⟩
  · intro it hit
    exact (extractInfoHash_eq_iff.2 id _ _ _ (exactIndex_buildIndex _)).1 it hit _ (by simp)

/-- In two encodings, one hash has two keys, and both entries are kept. -/
theorem encodings_keptApart :
    NamesHash hexMagnet .hex (List.replicate 20 255) ∧
      NamesHash base32Magnet .base32 (List.replicate 20 255) ∧
      extractInfoHash hexMagnet ≠ extractInfoHash base32Magnet ∧
      ((dedupIncoming id {} [{ id := "a", feedId := "f", magnet := hexMagnet },
        { id := "b", feedId := "f", magnet := base32Magnet }]).1.map (·.id)) = ["a", "b"] :=
  ⟨namesHash_hexMagnet, namesHash_base32Magnet, by decide +kernel, by decide +kernel⟩

end TorrentLink.Rss

import TorrentLink.Lib.PrefixCode

/-!
# UTF-8

The byte sequences of RFC 3629, section 4, and the texts made of them. They are the encodings of the
characters (`mem_sequences_iff`), so a text is well-formed if and only if it encodes some characters
(`wellFormed_iff`). The sequences of the surrogates D800 to DFFF, which RFC 3629 leaves out, could be read
like the others (`prefixFree_sequences_add_surrogates`).
-/

namespace TorrentLink.Lib.Utf8

/-- `UTF8-tail` -/
def Tail (b : UInt8) : Prop := 0x80 ≤ b ∧ b ≤ 0xBF

instance (b : UInt8) : Decidable (Tail b) := inferInstanceAs (Decidable (_ ∧ _))

/-- The alternatives of `UTF8-1` to `UTF8-4`. -/
def IsSequence : List UInt8 → Prop
  | [a] => a ≤ 0x7F
  | [a, b] => 0xC2 ≤ a ∧ a ≤ 0xDF ∧ Tail b
  | [a, b, c] =>
    (a = 0xE0 ∧ 0xA0 ≤ b ∧ b ≤ 0xBF ∨ 0xE1 ≤ a ∧ a ≤ 0xEC ∧ Tail b ∨ a = 0xED ∧ 0x80 ≤ b ∧ b ≤ 0x9F ∨
      0xEE ≤ a ∧ a ≤ 0xEF ∧ Tail b) ∧ Tail c
  | [a, b, c, d] =>
    (a = 0xF0 ∧ 0x90 ≤ b ∧ b ≤ 0xBF ∨ 0xF1 ≤ a ∧ a ≤ 0xF3 ∧ Tail b ∨ a = 0xF4 ∧ 0x80 ≤ b ∧ b ≤ 0x8F) ∧
      Tail c ∧ Tail d
  | _ => False

/-- The sequences that the scheme would give to the surrogates. -/
def IsSurrogate : List UInt8 → Prop
  | [a, b, c] => a = 0xED ∧ 0xA0 ≤ b ∧ b ≤ 0xBF ∧ Tail c
  | _ => False

/-- `UTF8-char` -/
def sequences : Language UInt8 := {s | IsSequence s}

def surrogates : Language UInt8 := {s | IsSurrogate s}

/-- `UTF8-octets` -/
def WellFormed (bytes : List UInt8) : Prop := bytes ∈ KStar.kstar sequences

/-! ### The length of a sequence -/

/-- The first byte says how long a sequence is. -/
def width (a : UInt8) : Nat :=
  if a ≤ 0x7F then 1 else if a ≤ 0xDF then 2 else if a ≤ 0xEF then 3 else 4

theorem length_eq_width {s : List UInt8} (hs : IsSequence s ∨ IsSurrogate s) :
    ∃ a rest, s = a :: rest ∧ s.length = width a := by
  match s with
  | [] => simp [IsSequence, IsSurrogate] at hs
  | [a] =>
    simp only [IsSequence, IsSurrogate, or_false] at hs
    exact ⟨a, _, rfl, by grind [width]⟩
  | [a, b] =>
    simp only [IsSequence, IsSurrogate, or_false] at hs
    exact ⟨a, _, rfl, by grind [width]⟩
  | [a, b, c] =>
    simp only [IsSequence, IsSurrogate, Tail] at hs
    exact ⟨a, _, rfl, by grind [width]⟩
  | [a, b, c, d] =>
    simp only [IsSequence, IsSurrogate, or_false] at hs
    exact ⟨a, _, rfl, by grind [width]⟩
  | _ :: _ :: _ :: _ :: _ :: _ => simp [IsSequence, IsSurrogate] at hs

theorem prefixFree_sequences_add_surrogates : PrefixFree (sequences + surrogates) where
  ne_nil s hs := by
    obtain ⟨a, rest, rfl, -⟩ := length_eq_width hs
    exact List.cons_ne_nil a rest
  eq_of_prefix s hs s' hs' hpre := by
    obtain ⟨a, rest, rfl, hlength⟩ := length_eq_width hs
    obtain ⟨a', rest', rfl, hlength'⟩ := length_eq_width hs'
    obtain ⟨rfl, -⟩ := List.cons_prefix_cons.mp hpre
    exact hpre.eq_of_length (hlength.trans hlength'.symm)

theorem mem_sequences_add_surrogates {s : List UInt8} (hs : s ∈ sequences) :
    s ∈ sequences + surrogates := .inl hs

theorem not_isSequence_of_isSurrogate {s : List UInt8} (hs : IsSurrogate s) : ¬ IsSequence s := by
  match s, hs with
  | [a, b, c], hs =>
    simp only [IsSequence, IsSurrogate, Tail] at hs ⊢
    grind

/-- A text over the sequences and the surrogates is well-formed unless it has a surrogate. -/
theorem not_wellFormed_iff {bytes : List UInt8} :
    bytes ∈ KStar.kstar (sequences + surrogates) ∧ ¬ WellFormed bytes ↔
      ∃ words : List (List UInt8), bytes = words.flatten ∧ (∀ w ∈ words, IsSequence w ∨ IsSurrogate w) ∧
        ∃ w ∈ words, IsSurrogate w := by
  refine (prefixFree_sequences_add_surrogates.mem_kstar_sub_iff fun _ => mem_sequences_add_surrogates).trans ?_
  refine exists_congr fun words => and_congr_right fun _ => and_congr_right fun hwords => ?_
  refine exists_congr fun w => and_congr_right fun hw => ?_
  exact ⟨fun hout => (hwords w hw).resolve_left hout, not_isSequence_of_isSurrogate⟩

/-! ### The characters -/

/-- The bytes of the code point `v`. -/
def encode (v : Nat) : List UInt8 :=
  if v ≤ 0x7F then [.ofNat v]
  else if v ≤ 0x7FF then [.ofNat (v / 64 % 32 + 0xC0), .ofNat (v % 64 + 0x80)]
  else if v ≤ 0xFFFF then
    [.ofNat (v / 4096 % 16 + 0xE0), .ofNat (v / 64 % 64 + 0x80), .ofNat (v % 64 + 0x80)]
  else
    [.ofNat (v / 262144 % 8 + 0xF0), .ofNat (v / 4096 % 64 + 0x80), .ofNat (v / 64 % 64 + 0x80),
      .ofNat (v % 64 + 0x80)]

theorem utf8EncodeChar_eq (c : Char) : String.utf8EncodeChar c = encode c.toNat := rfl

theorem isSequence_encode {v : Nat} (h : v.isValidChar) : IsSequence (encode v) := by
  unfold Nat.isValidChar at h
  unfold encode
  split
  · simp only [IsSequence, UInt8.le_iff_toNat_le, UInt8.toNat_ofNat', UInt8.reduceToNat]
    omega
  split
  · simp only [IsSequence, Tail, UInt8.le_iff_toNat_le, UInt8.toNat_ofNat', UInt8.reduceToNat]
    omega
  split
  · simp only [IsSequence, Tail, UInt8.le_iff_toNat_le, ← UInt8.toNat_inj, UInt8.toNat_ofNat',
      UInt8.reduceToNat]
    omega
  · simp only [IsSequence, Tail, UInt8.le_iff_toNat_le, ← UInt8.toNat_inj, UInt8.toNat_ofNat',
      UInt8.reduceToNat]
    omega

/-- The code point of a sequence. -/
def codePoint : List UInt8 → Nat
  | [a] => a.toNat
  | [a, b] => a.toNat % 32 * 64 + b.toNat % 64
  | [a, b, c] => a.toNat % 16 * 4096 + b.toNat % 64 * 64 + c.toNat % 64
  | [a, b, c, d] => a.toNat % 8 * 262144 + b.toNat % 64 * 4096 + c.toNat % 64 * 64 + d.toNat % 64
  | _ => 0

theorem encode_codePoint {s : List UInt8} (hs : IsSequence s) :
    (codePoint s).isValidChar ∧ encode (codePoint s) = s := by
  unfold Nat.isValidChar
  match s, hs with
  | [a], ha =>
    simp only [IsSequence, UInt8.le_iff_toNat_le, UInt8.reduceToNat] at ha
    refine ⟨by simp only [codePoint]; omega, ?_⟩
    rw [encode, codePoint, if_pos ha, UInt8.ofNat_toNat]
  | [a, b], h => 
    simp only [IsSequence, Tail, UInt8.le_iff_toNat_le, UInt8.reduceToNat] at h
    refine ⟨by simp only [codePoint]; omega, ?_⟩
    rw [encode, codePoint, if_neg (by omega), if_pos (by omega)]
    simp only [List.cons.injEq, and_true, ← UInt8.toNat_inj, UInt8.toNat_ofNat']
    omega
  | [a, b, c], h =>
    simp only [IsSequence, Tail, UInt8.le_iff_toNat_le, ← UInt8.toNat_inj, UInt8.reduceToNat] at h
    refine ⟨by simp only [codePoint]; omega, ?_⟩
    rw [encode, codePoint, if_neg (by omega), if_neg (by omega), if_pos (by omega)]
    simp only [List.cons.injEq, and_true, ← UInt8.toNat_inj, UInt8.toNat_ofNat']
    omega
  | [a, b, c, d], h =>
    simp only [IsSequence, Tail, UInt8.le_iff_toNat_le, ← UInt8.toNat_inj, UInt8.reduceToNat] at h
    refine ⟨by simp only [codePoint]; omega, ?_⟩
    rw [encode, codePoint, if_neg (by omega), if_neg (by omega), if_neg (by omega)]
    simp only [List.cons.injEq, and_true, ← UInt8.toNat_inj, UInt8.toNat_ofNat']
    omega

theorem mem_sequences_iff {s : List UInt8} : s ∈ sequences ↔ ∃ c, String.utf8EncodeChar c = s := by
  constructor
  · intro hs
    obtain ⟨hvalid, hencode⟩ := encode_codePoint hs
    refine ⟨Char.ofNatAux _ hvalid, ?_⟩
    rw [utf8EncodeChar_eq]
    exact hencode
  · rintro ⟨c, rfl⟩
    exact isSequence_encode c.valid

/-- A text is well-formed if and only if it encodes some characters. -/
theorem wellFormed_iff {bytes : List UInt8} :
    WellFormed bytes ↔ ∃ chars : List Char, chars.flatMap String.utf8EncodeChar = bytes := by
  have hrange : ∀ words : List (List UInt8), (∀ w ∈ words, w ∈ sequences) ↔
      ∃ chars : List Char, chars.map String.utf8EncodeChar = words := by
    intro words
    have hwords := Set.ext_iff.mp (Set.range_list_map String.utf8EncodeChar) words
    rw [Set.mem_range, Set.mem_ofPred_eq] at hwords
    rw [hwords]
    exact forall₂_congr fun w _ => mem_sequences_iff
  unfold WellFormed
  simp only [Language.mem_kstar, hrange, List.flatMap_def]
  constructor
  · rintro ⟨_, rfl, chars, rfl⟩
    exact ⟨chars, rfl⟩
  · rintro ⟨chars, rfl⟩
    exact ⟨_, rfl, chars, rfl⟩

end TorrentLink.Lib.Utf8

import TorrentLink.Base.Io

/-!
# Byte arrays

The operations of `QByteArray` that the source uses. A search that finds nothing is `none` here and -1
in the source.
-/

namespace TorrentLink

/-- `QByteArrayLiteral` and `QString::toUtf8` of a text in ASCII. -/
def latin1 (s : String) : Bytes := s.toList.map fun c => UInt8.ofNat c.toNat

/-- `QString::toUtf8` -/
def toUtf8 (s : String) : Bytes := s.toList.flatMap String.utf8EncodeChar

/-- `QByteArray::number` -/
def byteNumber (n : Int) : Bytes := latin1 (toString n)

/-- `QByteArray::indexOf` -/
def indexOf (pat : Bytes) : Bytes → Option Nat
  | [] => if pat = [] then some 0 else none
  | b :: bs => if pat.isPrefixOf (b :: bs) then some 0 else (indexOf pat bs).map (· + 1)

/-- `QByteArray::indexOf` from a position on. -/
def indexOfFrom (pat : Bytes) (start : Nat) (buf : Bytes) : Option Nat :=
  (indexOf pat (buf.drop start)).map (· + start)

/-- The white space of `QByteArray::trimmed`. -/
def isSpaceByte (b : UInt8) : Bool :=
  b = 32 || b = 9 || b = 10 || b = 11 || b = 12 || b = 13

/-- `QByteArray::trimmed` -/
def trimmedBytes (buf : Bytes) : Bytes :=
  ((buf.dropWhile isSpaceByte).reverse.dropWhile isSpaceByte).reverse

/-! ### Where a pattern is found -/

theorem indexOf_cons (pat : Bytes) (b : UInt8) (bs : Bytes) : indexOf pat (b :: bs) =
    if pat.isPrefixOf (b :: bs) then some 0 else (indexOf pat bs).map (· + 1) := rfl

/-- Where a pattern is found, it stands. -/
theorem prefix_drop_of_indexOf {pat buf : Bytes} {i : Nat} (h : indexOf pat buf = some i) :
    pat <+: buf.drop i := by
  induction buf generalizing i with
  | nil =>
    unfold indexOf at h
    split_ifs at h with hpat
    simp [hpat]
  | cons b bs ih =>
    rw [indexOf_cons] at h
    split_ifs at h with hpre
    · cases h
      exact List.isPrefixOf_iff_prefix.mp hpre
    · obtain ⟨j, hj, rfl⟩ := Option.map_eq_some_iff.mp h
      exact ih hj

/-- It stands nowhere before. -/
theorem le_of_prefix_drop {pat buf : Bytes} {i j : Nat} (h : indexOf pat buf = some i)
    (hj : pat <+: buf.drop j) : i ≤ j := by
  induction buf generalizing i j with
  | nil =>
    unfold indexOf at h
    split_ifs at h
    cases h
    omega
  | cons b bs ih =>
    rw [indexOf_cons] at h
    split_ifs at h with hpre
    · cases h
      omega
    · obtain ⟨k, hk, rfl⟩ := Option.map_eq_some_iff.mp h
      cases j with
      | zero => exact absurd (List.isPrefixOf_iff_prefix.mpr hj) hpre
      | succ j => exact Nat.succ_le_succ (ih hk hj)

/-- A pattern that is not found stands nowhere. -/
theorem not_prefix_drop_of_indexOf_none {pat buf : Bytes} (h : indexOf pat buf = none) (j : Nat) :
    ¬ pat <+: buf.drop j := by
  induction buf generalizing j with
  | nil =>
    unfold indexOf at h
    split_ifs at h with hpat
    simpa using hpat
  | cons b bs ih =>
    rw [indexOf_cons] at h
    split_ifs at h with hpre
    cases j with
    | zero => exact fun hj => hpre (List.isPrefixOf_iff_prefix.mpr hj)
    | succ j => exact ih (Option.map_eq_none_iff.mp h) j

theorem exists_indexOf_le {pat buf : Bytes} {j : Nat} (h : pat <+: buf.drop j) :
    ∃ i, indexOf pat buf = some i ∧ i ≤ j := by
  cases hi : indexOf pat buf with
  | none => exact absurd h (not_prefix_drop_of_indexOf_none hi j)
  | some i => exact ⟨i, rfl, le_of_prefix_drop hi h⟩

/-- A pattern that is found ends within the bytes. -/
theorem indexOf_add_length_le {pat buf : Bytes} {i : Nat} (hpat : pat ≠ [])
    (h : indexOf pat buf = some i) : i + pat.length ≤ buf.length := by
  have hlen := (prefix_drop_of_indexOf h).length_le
  have hpos : 0 < pat.length := List.length_pos_iff.mpr hpat
  rw [List.length_drop] at hlen
  omega

/-! ### Searching a longer text -/

variable {pat buf : Bytes}

theorem prefix_drop_append {i : Nat} (h : pat <+: buf.drop i) (rest : Bytes) (hi : i ≤ buf.length) :
    pat <+: (buf ++ rest).drop i := by
  rw [List.drop_append_of_le_length hi]
  exact h.trans (List.prefix_append _ _)

/-- What stands in the longer text and ends within the shorter one stands there. -/
theorem prefix_drop_of_append {i : Nat} {rest : Bytes} (h : pat <+: (buf ++ rest).drop i)
    (hi : i + pat.length ≤ buf.length) : pat <+: buf.drop i := by
  rw [List.drop_append_of_le_length (by omega)] at h
  refine List.prefix_of_prefix_length_le h (List.prefix_append _ _) ?_
  rw [List.length_drop]
  omega

/-- A pattern found once is found in the same place when more bytes have come. -/
theorem indexOf_append {i : Nat} (hpat : pat ≠ []) (h : indexOf pat buf = some i) (rest : Bytes) :
    indexOf pat (buf ++ rest) = some i := by
  have hend := indexOf_add_length_le hpat h
  obtain ⟨j, hj, hle⟩ := exists_indexOf_le
    (prefix_drop_append (prefix_drop_of_indexOf h) rest (by omega))
  have hstands := prefix_drop_of_append (prefix_drop_of_indexOf hj) (by omega)
  have hge := le_of_prefix_drop h hstands
  rw [hj, Nat.le_antisymm hle hge]

/-- A pattern that more bytes bring ends beyond the old ones. -/
theorem length_lt_of_indexOf_append {i : Nat} {rest : Bytes} (h : indexOf pat buf = none)
    (h' : indexOf pat (buf ++ rest) = some i) : buf.length < i + pat.length := by
  by_contra hle
  exact not_prefix_drop_of_indexOf_none h i
    (prefix_drop_of_append (prefix_drop_of_indexOf h') (by omega))

/-- What is found in a prefix is what is found in the whole and ends within the prefix. -/
theorem indexOf_take_eq_some_iff (hpat : pat ≠ []) (m i : Nat) : indexOf pat (buf.take m) = some i ↔
    indexOf pat buf = some i ∧ i + pat.length ≤ m := by
  have hsplit : buf.take m ++ buf.drop m = buf := List.take_append_drop m buf
  have hlen : (buf.take m).length ≤ m := List.length_take_le m buf
  constructor
  · intro h
    have hwhole := indexOf_append hpat h (buf.drop m)
    have hend := indexOf_add_length_le hpat h
    rw [hsplit] at hwhole
    exact ⟨hwhole, Nat.le_trans hend hlen⟩
  · rintro ⟨h, hend⟩
    have hin := indexOf_add_length_le hpat h
    cases hj : indexOf pat (buf.take m) with
    | none =>
      rw [← hsplit] at h
      have hbeyond := length_lt_of_indexOf_append hj h
      rw [List.length_take] at hbeyond
      omega
    | some j =>
      have hwhole := indexOf_append hpat hj (buf.drop m)
      rw [hsplit, h] at hwhole
      exact hwhole.symm

theorem indexOf_take_eq_none_iff (hpat : pat ≠ []) (m : Nat) : indexOf pat (buf.take m) = none ↔
    ∀ i, indexOf pat buf = some i → m < i + pat.length := by
  rw [Option.eq_none_iff_forall_ne_some]
  constructor
  · intro h i hi
    by_contra hle
    exact h i ((indexOf_take_eq_some_iff hpat m i).mpr ⟨hi, by omega⟩)
  · intro h i hi
    obtain ⟨hwhole, hend⟩ := (indexOf_take_eq_some_iff hpat m i).mp hi
    have hbeyond := h i hwhole
    omega

/-! ### Trimming a longer text -/

/-- More bytes leave the trimmed text a prefix, unless it was empty. -/
theorem trimmedBytes_append (h : trimmedBytes buf ≠ []) (rest : Bytes) :
    trimmedBytes buf <+: trimmedBytes (buf ++ rest) := by
  have hleft : buf.dropWhile isSpaceByte ≠ [] := fun hnil => h (by simp [trimmedBytes, hnil])
  unfold trimmedBytes
  rw [List.dropWhile_append, if_neg (by simpa using hleft), List.reverse_append,
    List.dropWhile_append]
  split_ifs with hspaces
  · exact List.prefix_refl _
  · rw [List.reverse_append, List.reverse_reverse]
    refine List.IsPrefix.trans ?_ (List.prefix_append _ _)
    rw [← List.reverse_suffix, List.reverse_reverse]
    exact List.dropWhile_suffix isSpaceByte

end TorrentLink

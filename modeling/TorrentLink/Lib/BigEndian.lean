import Mathlib.Data.Nat.Bitwise
import Mathlib.Algebra.Order.Ring.Nat

/-!
# Numbers in bytes, the most significant first

The value of a list of bytes, its bits, and the comparison of two lists byte by byte, which is the
comparison of their values. The numbers that share their high bits with a given one are an interval
(`between_iff_div_eq`).
-/

namespace TorrentLink.Lib

/-- The number that the bytes stand for. -/
def beValue : List UInt8 → Nat
  | [] => 0
  | b :: bs => 256 ^ bs.length * b.toNat + beValue bs

/-- The `n` bytes of a number. -/
def bigEndian : Nat → Nat → List UInt8
  | 0, _ => []
  | n + 1, v => UInt8.ofNat (v / 256 ^ n) :: bigEndian n v

/-- Whether the first byte that differs is greater on the left, as `memcmp` says. -/
def memcmpGt : List UInt8 → List UInt8 → Bool
  | a :: as, b :: bs => if a = b then memcmpGt as bs else b < a
  | _, _ => false

/-! ### Values -/

theorem beValue_lt (bs : List UInt8) : beValue bs < 256 ^ bs.length := by
  induction bs with
  | nil => simp [beValue]
  | cons b bs ih =>
    have hb : b.toNat + 1 ≤ 256 := b.toNat_lt
    have hmul := Nat.mul_le_mul_left (256 ^ bs.length) hb
    unfold beValue
    rw [List.length_cons, Nat.pow_succ]
    rw [Nat.mul_add, Nat.mul_one] at hmul
    omega

@[simp] theorem length_bigEndian (n v : Nat) : (bigEndian n v).length = n := by
  induction n with
  | zero => rfl
  | succ n ih => simp [bigEndian, ih]

theorem beValue_bigEndian (n v : Nat) : beValue (bigEndian n v) = v % 256 ^ n := by
  induction n with
  | zero => simp [bigEndian, beValue, Nat.mod_one]
  | succ n ih =>
    unfold bigEndian beValue
    have hbyte : (UInt8.ofNat (v / 256 ^ n)).toNat = v / 256 ^ n % 256 := UInt8.toNat_ofNat'
    rw [ih, length_bigEndian, Nat.pow_succ, Nat.mod_mul, hbyte]
    omega

/-! ### Comparing -/

theorem memcmpGt_iff {as bs : List UInt8} (h : as.length = bs.length) :
    memcmpGt as bs = true ↔ beValue bs < beValue as := by
  induction as generalizing bs with
  | nil =>
    cases bs with
    | nil => simp [memcmpGt]
    | cons b bs => simp at h
  | cons a as ih =>
    cases bs with
    | nil => simp at h
    | cons b bs =>
      have hlen : as.length = bs.length := by simpa using h
      have ha := beValue_lt as
      have hb := beValue_lt bs
      unfold memcmpGt beValue
      rw [hlen] at ha ⊢
      by_cases heq : a = b
      · rw [if_pos heq, ih hlen, heq]
        omega
      · rw [if_neg heq, decide_eq_true_iff, UInt8.lt_iff_toNat_lt]
        have hne : a.toNat ≠ b.toNat := fun hn => heq (UInt8.toNat_inj.mp hn)
        constructor
        · intro hlt
          have hmul := Nat.mul_le_mul_left (256 ^ bs.length) (Nat.succ_le_of_lt hlt)
          rw [Nat.mul_succ] at hmul
          omega
        · intro hlt
          by_contra hge
          have hlt' : a.toNat < b.toNat := by omega
          have hmul := Nat.mul_le_mul_left (256 ^ bs.length) (Nat.succ_le_of_lt hlt')
          rw [Nat.mul_succ] at hmul
          omega

theorem beValue_inj {as bs : List UInt8} (h : as.length = bs.length) :
    beValue as = beValue bs ↔ as = bs := by
  refine ⟨fun hv => ?_, fun heq => by rw [heq]⟩
  induction as generalizing bs with
  | nil => exact (List.length_eq_zero_iff.mp h.symm).symm
  | cons a as ih =>
    cases bs with
    | nil => simp at h
    | cons b bs =>
      have hlen : as.length = bs.length := by simpa using h
      have ha := beValue_lt as
      have hb := beValue_lt bs
      unfold beValue at hv
      rw [hlen] at ha hv
      have hdiv := congrArg (· / 256 ^ bs.length) hv
      have hmod := congrArg (· % 256 ^ bs.length) hv
      simp only [Nat.mul_add_div (Nat.pow_pos (show 0 < 256 by decide)), Nat.div_eq_of_lt ha,
        Nat.div_eq_of_lt hb, Nat.add_zero] at hdiv
      simp only [Nat.mul_add_mod, Nat.mod_eq_of_lt ha, Nat.mod_eq_of_lt hb] at hmod
      rw [UInt8.toNat_inj.mp hdiv, ih hlen hmod]

/-- The lexicographic order of bytes is the order of what they stand for. -/
theorem le_iff_beValue_le {as bs : List UInt8} (h : as.length = bs.length) :
    as ≤ bs ↔ beValue as ≤ beValue bs := by
  rw [← List.not_lt, ← Nat.not_lt, ← memcmpGt_iff h]
  refine not_congr ?_
  induction as generalizing bs with
  | nil =>
    cases bs with
    | nil => simp [memcmpGt]
    | cons b bs => simp at h
  | cons a as ih =>
    cases bs with
    | nil => simp at h
    | cons b bs =>
      have hlen : as.length = bs.length := by simpa using h
      unfold memcmpGt
      rw [List.cons_lt_cons_iff]
      by_cases heq : a = b
      · rw [if_pos heq, ← ih hlen, heq]
        simp
      · have hne : b ≠ a := fun hba => heq hba.symm
        rw [if_neg heq, decide_eq_true_iff]
        simp [hne]

/-! ### Bits -/

theorem pow_256 (n : Nat) : 256 ^ n = 2 ^ (8 * n) := by
  rw [Nat.pow_mul]

/-- A number of `8 * n` bits is read back from its bytes. -/
theorem ofNat_beValue_bigEndian (n : Nat) (v : BitVec (8 * n)) :
    BitVec.ofNat (8 * n) (beValue (bigEndian n v.toNat)) = v := by
  rw [beValue_bigEndian, pow_256, Nat.mod_eq_of_lt v.isLt, BitVec.ofNat_toNat, BitVec.setWidth_eq]

/-- Bit `k`, counted from the most significant one, stands in byte `k / 8`. -/
theorem testBit_beValue {bs : List UInt8} {k : Nat} (h : k < 8 * bs.length) :
    (beValue bs).testBit (8 * bs.length - 1 - k) =
      (bs.getD (k / 8) 0).toNat.testBit (7 - k % 8) := by
  induction bs generalizing k with
  | nil => simp at h
  | cons b bs ih =>
    have hv := beValue_lt bs
    rw [List.length_cons] at h ⊢
    unfold beValue
    rw [pow_256] at hv ⊢
    rw [Nat.testBit_two_pow_mul_add _ hv]
    by_cases hk : k < 8
    · rw [if_neg (by omega), Nat.div_eq_of_lt hk, Nat.mod_eq_of_lt hk, List.getD_cons_zero]
      congr 1
      omega
    · obtain ⟨j, rfl⟩ : ∃ j, k = j + 8 := ⟨k - 8, by omega⟩
      rw [if_pos (by omega), Nat.add_div_right j (by decide), Nat.add_mod_right,
        List.getD_cons_succ, ← ih (by omega)]
      congr 1
      omega

theorem testBit_beValue_of_le {bs : List UInt8} {j : Nat} (h : 8 * bs.length ≤ j) :
    (beValue bs).testBit j = false := by
  apply Nat.testBit_lt_two_pow
  have hv := beValue_lt bs
  rw [pow_256] at hv
  exact Nat.lt_of_lt_of_le hv (Nat.pow_le_pow_right (by decide) h)

/-! ### Numbers with the same high bits -/

/-- The numbers between a number with its low bits cleared and with its low bits set are those with its
high bits. -/
theorem between_iff_div_eq {m v lo hi : Nat} (hlo : ∀ j, lo.testBit j = (decide (m ≤ j) && v.testBit j))
    (hhi : ∀ j, hi.testBit j = (decide (j < m) || v.testBit j)) (x : Nat) :
    lo ≤ x ∧ x ≤ hi ↔ x / 2 ^ m = v / 2 ^ m := by
  have hpos : 0 < 2 ^ m := Nat.two_pow_pos m
  have hlow : lo = 2 ^ m * (v / 2 ^ m) := by
    apply Nat.eq_of_testBit_eq
    intro j
    rw [hlo, Nat.testBit_two_pow_mul, Nat.testBit_div_two_pow]
    by_cases hj : m ≤ j
    · rw [Nat.sub_add_cancel hj]
    · simp [hj]
  have hhigh : hi = 2 ^ m * (v / 2 ^ m) + (2 ^ m - 1) := by
    apply Nat.eq_of_testBit_eq
    intro j
    rw [hhi, Nat.testBit_two_pow_mul_add _ (by omega), Nat.testBit_div_two_pow,
      Nat.testBit_two_pow_sub_one]
    by_cases hj : j < m
    · simp [hj]
    · rw [if_neg hj, Nat.sub_add_cancel (by omega)]
      simp [hj]
  rw [hlow, hhigh, Nat.div_eq_iff hpos]
  rw [Nat.mul_comm]
  omega

end TorrentLink.Lib

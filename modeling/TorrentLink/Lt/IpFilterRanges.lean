import TorrentLink.Lt.IpFilterLoader
import Mathlib.Data.Set.Basic

/-!
# The ranges of address prefixes

An address as a number, and the first and the last address of a prefix. The mask of an IPv4 prefix and
the loop over the bits of an IPv6 address clear, and set, the bits after the prefix, so the addresses
between the two are those that share it (`mem_prefix_v4`, `mem_prefix_v6`).
-/

namespace TorrentLink.Lt

open Lib

/-! ### Addresses as numbers -/

def Address.value (a : Address) : Nat := beValue a.bytes

def Address.width (a : Address) : Nat := if a.isV6 then 128 else 32

theorem length_bytes (a : Address) : 8 * a.bytes.length = a.width := by
  cases a with
  | v4 bytes => simp [Address.bytes, Address.width, Address.isV6, bytes.2]
  | v6 bytes => simp [Address.bytes, Address.width, Address.isV6, bytes.2]

theorem eq_of_value_eq {a b : Address} (hfam : a.isV6 = b.isV6) (h : a.value = b.value) : a = b := by
  have hlen : a.bytes.length = b.bytes.length := by
    have ha := length_bytes a
    have hb := length_bytes b
    unfold Address.width at ha hb
    rw [hfam] at ha
    omega
  have hbytes : a.bytes = b.bytes := (beValue_inj hlen).mp h
  cases a <;> cases b <;> simp_all [Address.isV6, Address.bytes, Subtype.ext_iff]

theorem memcmpGt_bytes {a b : Address} (hfam : a.isV6 = b.isV6) :
    memcmpGt a.bytes b.bytes = true ↔ b.value < a.value := by
  apply memcmpGt_iff
  have ha := length_bytes a
  have hb := length_bytes b
  unfold Address.width at ha hb
  rw [hfam] at ha
  omega

@[simp] theorem value_ipv4ToLtAddress (h : BitVec 32) : (ipv4ToLtAddress h).value = h.toNat := by
  show beValue (bigEndian 4 h.toNat) = h.toNat
  rw [beValue_bigEndian]
  exact Nat.mod_eq_of_lt h.isLt

@[simp] theorem isV6_ipv4ToLtAddress (h : BitVec 32) : (ipv4ToLtAddress h).isV6 = false := rfl

@[simp] theorem width_ipv4ToLtAddress (h : BitVec 32) : (ipv4ToLtAddress h).width = 32 := rfl

/-! ### The range of an IPv4 prefix -/

/-- The mask keeps the bits from `m` on. -/
theorem testBit_firstHost (ip : BitVec 32) (m j : Nat) :
    (ip &&& BitVec.allOnes 32 <<< m).toNat.testBit j =
      (decide (m ≤ j) && ip.toNat.testBit j) := by
  simp only [BitVec.testBit_toNat, BitVec.getLsbD_and, BitVec.getLsbD_shiftLeft,
    BitVec.getLsbD_allOnes]
  by_cases hj : j < 32
  · by_cases hm : m ≤ j
    · have hsub : j - m < 32 := by omega
      simp [hj, hm, hsub]
    · simp [hj, hm, Nat.not_le.mp hm]
  · simp [hj, BitVec.getLsbD_of_ge ip j (Nat.not_lt.mp hj)]

theorem testBit_lastHost (ip : BitVec 32) {m : Nat} (hm : m ≤ 32) (j : Nat) :
    ((ip &&& BitVec.allOnes 32 <<< m) ||| ~~~ (BitVec.allOnes 32 <<< m)).toNat.testBit j =
      (decide (j < m) || ip.toNat.testBit j) := by
  simp only [BitVec.testBit_toNat, BitVec.getLsbD_or, BitVec.getLsbD_and, BitVec.getLsbD_not,
    BitVec.getLsbD_shiftLeft, BitVec.getLsbD_allOnes]
  by_cases hj : j < 32
  · by_cases hlow : j < m
    · simp [hj, hlow]
    · have hsub : j - m < 32 := by omega
      simp [hj, hlow, hsub]
  · have hlow : ¬ j < m := by omega
    simp [hj, hlow, BitVec.getLsbD_of_ge ip j (Nat.not_lt.mp hj)]

/-! ### The range of an IPv6 prefix -/

/-- Bit `k` of the bytes, counted from the most significant one. -/
def bitAt (raw : RawBytes 16) (k : Nat) : Bool :=
  (raw.1.getD (k / 8) 0).toNat.testBit (7 - k % 8)

theorem bitAt_eq_testBit (raw : RawBytes 16) {j : Nat} (hj : j < 128) :
    (beValue raw.1).testBit j = bitAt raw (127 - j) := by
  have hlen : 8 * raw.1.length - 1 - (127 - j) = j := by
    rw [raw.2]
    omega
  unfold bitAt
  rw [← testBit_beValue (by rw [raw.2]; omega), hlen]

theorem testBit_bitMask (k i : Nat) (hi : i < 8) :
    (bitMask k).toNat.testBit i = decide (i = 7 - k % 8) := by
  have hall : ∀ r i : Fin 8, (1 <<< UInt8.ofNat r.val : UInt8).toNat.testBit i.val =
      decide (i.val = r.val) := by
    decide
  exact hall ⟨7 - k % 8, by omega⟩ ⟨i, hi⟩

theorem getD_modify (raw : RawBytes 16) (i j : Nat) (f : UInt8 → UInt8) (hi : i < 16) :
    (raw.modify i f).1.getD j 0 = if i = j then f (raw.1.getD j 0) else raw.1.getD j 0 := by
  unfold RawBytes.modify
  simp only [List.getD_eq_getElem?_getD, List.getElem?_modify]
  by_cases hij : i = j
  · subst hij
    have hlen : i < raw.1.length := by rw [raw.2]; exact hi
    simp [List.getElem?_eq_getElem hlen]
  · simp [hij]

theorem testBit_not_byte (b : UInt8) {i : Nat} (hi : i < 8) :
    (~~~ b).toNat.testBit i = !b.toNat.testBit i := by
  show (~~~ b.toBitVec).toNat.testBit i = !b.toBitVec.toNat.testBit i
  rw [BitVec.testBit_toNat, BitVec.testBit_toNat, BitVec.getLsbD_not]
  simp [hi]

/-- Two places in one byte differ in the rest by 8. -/
theorem eq_iff_of_div_eq {k k' : Nat} (h : k / 8 = k' / 8) :
    7 - k' % 8 = 7 - k % 8 ↔ k' = k := by
  omega

/-- Clearing a bit. -/
theorem bitAt_clear (raw : RawBytes 16) {k : Nat} (hk : k < 128) (k' : Nat) :
    bitAt (raw.modify (k / 8) (· &&& ~~~ bitMask k)) k' = (decide (k' ≠ k) && bitAt raw k') := by
  unfold bitAt
  rw [getD_modify raw _ _ _ (by omega)]
  by_cases hbyte : k / 8 = k' / 8
  · rw [if_pos hbyte, UInt8.toNat_and, Nat.testBit_and, testBit_not_byte _ (by omega),
      testBit_bitMask k _ (by omega), Bool.and_comm]
    simp [eq_iff_of_div_eq hbyte]
  · have hne : k' ≠ k := fun heq => hbyte (by rw [heq])
    simp [hbyte, hne]

/-- Setting a bit. -/
theorem bitAt_set (raw : RawBytes 16) {k : Nat} (hk : k < 128) (k' : Nat) :
    bitAt (raw.modify (k / 8) (· ||| bitMask k)) k' = (decide (k' = k) || bitAt raw k') := by
  unfold bitAt
  rw [getD_modify raw _ _ _ (by omega)]
  by_cases hbyte : k / 8 = k' / 8
  · rw [if_pos hbyte, UInt8.toNat_or, Nat.testBit_or, testBit_bitMask k _ (by omega), Bool.or_comm]
    simp [eq_iff_of_div_eq hbyte]
  · have hne : k' ≠ k := fun heq => hbyte (by rw [heq])
    simp [hbyte, hne]

/-- The loop clears, and sets, the bits that it visits. -/
theorem bitAt_foldl_applyBit (ks : List Nat) (hks : ∀ k ∈ ks, k < 128)
    (range : RawBytes 16 × RawBytes 16) (k' : Nat) :
    bitAt (ks.foldl applyBit range).1 k' = (decide (k' ∉ ks) && bitAt range.1 k') ∧
      bitAt (ks.foldl applyBit range).2 k' = (decide (k' ∈ ks) || bitAt range.2 k') := by
  induction ks generalizing range with
  | nil => simp
  | cons k ks ih =>
    have hk : k < 128 := hks k List.mem_cons_self
    obtain ⟨hfirst, hlast⟩ := ih (fun k hmem => hks k (List.mem_cons_of_mem _ hmem))
      (applyBit range k)
    rw [List.foldl_cons, hfirst, hlast]
    unfold applyBit
    rw [bitAt_clear range.1 hk, bitAt_set range.2 hk]
    constructor
    · by_cases hmem : k' ∈ ks <;> by_cases heq : k' = k <;> simp [hmem, heq]
    · by_cases hmem : k' ∈ ks <;> by_cases heq : k' = k <;> simp [hmem, heq]

theorem bitAt_fill_zero (k : Nat) : bitAt (RawBytes.fill 0) k = false := by
  unfold bitAt RawBytes.fill
  rw [List.getD_eq_getElem?_getD, List.getElem?_replicate]
  split_ifs <;> simp

theorem bitAt_fill_ones {k : Nat} (hk : k < 128) : bitAt (RawBytes.fill 0xFF) k = true := by
  have hall : ∀ i : Fin 8, (0xFF : UInt8).toNat.testBit i.val = true := by
    decide
  unfold bitAt RawBytes.fill
  rw [List.getD_eq_getElem?_getD, List.getElem?_replicate_of_lt (by omega)]
  exact hall ⟨7 - k % 8, by omega⟩

/-- The bits from the length of the prefix on are cleared in the first address and set in the last. -/
theorem bitAt_ipv6ApplyPrefixRange (ip : RawBytes 16) (n : Nat) {k : Nat} (hk : k < 128) :
    bitAt (ipv6ApplyPrefixRange ip n).1 k = (decide (k < n) && bitAt ip k) ∧
      bitAt (ipv6ApplyPrefixRange ip n).2 k = (decide (n ≤ k) || bitAt ip k) := by
  unfold ipv6ApplyPrefixRange
  by_cases hzero : n = 0
  · rw [if_pos hzero, bitAt_fill_zero, bitAt_fill_ones hk]
    simp [hzero]
  · rw [if_neg hzero]
    by_cases hfull : 128 ≤ n
    · have hlt : k < n := by omega
      rw [if_pos hfull]
      simp [hlt, Nat.not_le.mpr hlt]
    · have hmem : k ∈ List.range' n (128 - n) ↔ n ≤ k := by
        rw [List.mem_range'_1]
        omega
      rw [if_neg hfull]
      obtain ⟨hfirst, hlast⟩ := bitAt_foldl_applyBit (List.range' n (128 - n))
        (fun k' hk' => by rw [List.mem_range'_1] at hk'; omega) (ip, ip) k
      rw [hfirst, hlast]
      simp [hmem]

theorem testBit_ipv6ApplyPrefixRange (ip : RawBytes 16) (n j : Nat) :
    (beValue (ipv6ApplyPrefixRange ip n).1.1).testBit j =
        (decide (128 - n ≤ j) && (beValue ip.1).testBit j) ∧
      (beValue (ipv6ApplyPrefixRange ip n).2.1).testBit j =
        (decide (j < 128 - n) || (beValue ip.1).testBit j) := by
  by_cases hj : j < 128
  · obtain ⟨hfirst, hlast⟩ := bitAt_ipv6ApplyPrefixRange ip n (k := 127 - j) (by omega)
    rw [bitAt_eq_testBit _ hj, bitAt_eq_testBit _ hj, bitAt_eq_testBit _ hj, hfirst, hlast]
    have hlow : 127 - j < n ↔ 128 - n ≤ j := by omega
    have hhigh : n ≤ 127 - j ↔ j < 128 - n := by omega
    simp [hlow, hhigh]
  · have hhigh : ∀ raw : RawBytes 16, (beValue raw.1).testBit j = false := fun raw =>
      testBit_beValue_of_le (by rw [raw.2]; omega)
    have hnot : ¬ j < 128 - n := by omega
    simp [hhigh, hnot]

/-! ### The addresses of a prefix -/

/-- The addresses that share the first `n` bits with the base. -/
def prefixSet (base : Address) (n : Nat) : Set Address :=
  {x | x.isV6 = base.isV6 ∧
    x.value / 2 ^ (base.width - n) = base.value / 2 ^ (base.width - n)}

theorem mem_prefix_v4 (ip : BitVec 32) {n : Nat} (hn : n ≤ 32) (x : Address) :
    x ∈ prefixSet (ipv4ToLtAddress ip) n ↔ x.isV6 = false ∧
      (ip &&& BitVec.allOnes 32 <<< (32 - n)).toNat ≤ x.value ∧
      x.value ≤ ((ip &&& BitVec.allOnes 32 <<< (32 - n)) |||
        ~~~ (BitVec.allOnes 32 <<< (32 - n))).toNat := by
  rw [between_iff_div_eq (testBit_firstHost ip (32 - n)) (testBit_lastHost ip (by omega))]
  simp [prefixSet]

/-- An empty prefix is shared by all IPv4 addresses. -/
theorem mem_prefix_v4_zero (ip : BitVec 32) (x : Address) :
    x ∈ prefixSet (ipv4ToLtAddress ip) 0 ↔ x.isV6 = false ∧
      (0 : BitVec 32).toNat ≤ x.value ∧ x.value ≤ (BitVec.allOnes 32).toNat := by
  have hmask : BitVec.allOnes 32 <<< (32 - 0) = 0 := by decide
  have hall := mem_prefix_v4 ip (Nat.zero_le 32) x
  simpa [hmask] using hall

theorem mem_prefix_v6 (raw : RawBytes 16) (n : Nat) (x : Address) :
    x ∈ prefixSet (.v6 raw) n ↔ x.isV6 = true ∧
      (Address.v6 (ipv6ApplyPrefixRange raw n).1).value ≤ x.value ∧
      x.value ≤ (Address.v6 (ipv6ApplyPrefixRange raw n).2).value := by
  have hbits := testBit_ipv6ApplyPrefixRange raw n
  exact and_congr_right fun _ =>
    (between_iff_div_eq (fun j => (hbits j).1) (fun j => (hbits j).2) x.value).symm

theorem ext_bitAt {raw raw' : RawBytes 16} (h : ∀ k < 128, bitAt raw k = bitAt raw' k) : raw = raw' := by
  refine Subtype.ext ((beValue_inj (raw.2.trans raw'.2.symm)).mp (Nat.eq_of_testBit_eq fun j => ?_))
  by_cases hj : j < 128
  · rw [bitAt_eq_testBit raw hj, bitAt_eq_testBit raw' hj, h _ (by omega)]
  · rw [testBit_beValue_of_le (by rw [raw.2]; omega), testBit_beValue_of_le (by rw [raw'.2]; omega)]

theorem bitAt_of_le (raw : RawBytes 16) {k : Nat} (hk : 128 ≤ k) : bitAt raw k = false := by
  have hlen : raw.1.length ≤ k / 8 := by
    rw [raw.2]
    omega
  simp [bitAt, List.getElem?_eq_none hlen]

/-- The bits from the most significant one on are the bits of the quotient. -/
theorem div_eq_iff_bitAt (raw raw' : RawBytes 16) (p : Nat) :
    beValue raw.1 / 2 ^ (128 - p) = beValue raw'.1 / 2 ^ (128 - p) ↔ ∀ k < p, bitAt raw k = bitAt raw' k := by
  constructor
  · intro hdiv k hk
    by_cases hlong : 128 ≤ k
    · rw [bitAt_of_le raw hlong, bitAt_of_le raw' hlong]
    have hbit := congrArg (Nat.testBit · (127 - k - (128 - p))) hdiv
    simp only [Nat.testBit_div_two_pow] at hbit
    rw [Nat.sub_add_cancel (by omega), bitAt_eq_testBit _ (by omega), bitAt_eq_testBit _ (by omega)] at hbit
    have hback : 127 - (127 - k) = k := by omega
    rwa [hback] at hbit
  · intro hbits
    apply Nat.eq_of_testBit_eq
    intro j
    rw [Nat.testBit_div_two_pow, Nat.testBit_div_two_pow]
    by_cases hj : j + (128 - p) < 128
    · rw [bitAt_eq_testBit _ hj, bitAt_eq_testBit _ hj, hbits _ (by omega)]
    · rw [testBit_beValue_of_le (by rw [raw.2]; omega), testBit_beValue_of_le (by rw [raw'.2]; omega)]

/-- The addresses of a prefix lie between the first and the last one, and the first has the same range. -/
theorem between_ipv6ApplyPrefixRange (ip : RawBytes 16) (p : Nat) :
    (∀ x : RawBytes 16,
        (ipv6ApplyPrefixRange ip p).1.1 ≤ x.1 ∧ x.1 ≤ (ipv6ApplyPrefixRange ip p).2.1 ↔
          ∀ k < p, bitAt x k = bitAt ip k) ∧
      ipv6ApplyPrefixRange (ipv6ApplyPrefixRange ip p).1 p = ipv6ApplyPrefixRange ip p := by
  have hrange := fun ip k (hk : k < 128) => bitAt_ipv6ApplyPrefixRange ip p hk
  refine ⟨fun x => ?_, ?_⟩
  · have hlen : ∀ a b : RawBytes 16, a.1.length = b.1.length := fun a b => a.2.trans b.2.symm
    rw [le_iff_beValue_le (hlen _ _), le_iff_beValue_le (hlen _ _)]
    have hbits := testBit_ipv6ApplyPrefixRange ip p
    rw [between_iff_div_eq (fun j => (hbits j).1) (fun j => (hbits j).2), div_eq_iff_bitAt]
  · refine Prod.ext (ext_bitAt fun k hk => ?_) (ext_bitAt fun k hk => ?_)
    · rw [(hrange _ k hk).1, (hrange _ k hk).1, ← Bool.and_assoc, Bool.and_self]
    · rw [(hrange _ k hk).2, (hrange _ k hk).1, (hrange _ k hk).2]
      by_cases hk' : k < p
      · simp [hk']
      · simp [Nat.not_lt.mp hk']

/-- The first address of a prefix is not above the last. -/
theorem prefix_v4_le (ip : BitVec 32) {n : Nat} (hn : n ≤ 32) :
    (ip &&& BitVec.allOnes 32 <<< (32 - n)).toNat ≤
      ((ip &&& BitVec.allOnes 32 <<< (32 - n)) ||| ~~~ (BitVec.allOnes 32 <<< (32 - n))).toNat := by
  have hself : ipv4ToLtAddress ip ∈ prefixSet (ipv4ToLtAddress ip) n := ⟨rfl, rfl⟩
  obtain ⟨-, hlo, hhi⟩ := (mem_prefix_v4 ip hn _).mp hself
  exact Nat.le_trans hlo hhi

theorem prefix_v6_le (raw : RawBytes 16) (n : Nat) :
    (Address.v6 (ipv6ApplyPrefixRange raw n).1).value ≤
      (Address.v6 (ipv6ApplyPrefixRange raw n).2).value := by
  have hself : Address.v6 raw ∈ prefixSet (.v6 raw) n := ⟨rfl, rfl⟩
  obtain ⟨-, hlo, hhi⟩ := (mem_prefix_v6 raw n _).mp hself
  exact Nat.le_trans hlo hhi

end TorrentLink.Lt

import Mathlib.Data.List.Basic
import Mathlib.Data.List.Induction
import Mathlib.Data.List.TakeWhile
import Mathlib.Tactic.IntervalCases

/-!
# Bencoding

Integers, byte strings, lists and dictionaries as bytes. The decoder takes no number with a leading zero,
no string that is shorter than it says, and no dictionary whose keys are not in the order that it is given;
nothing may follow the value. It reads back what is encoded, and reads nothing else (`decode_eq_some_iff`).
-/

namespace TorrentLink.Lib

/-- A value of one of the four kinds. -/
inductive BValue
  | int (n : Int)
  | str (bytes : List UInt8)
  | list (items : List BValue)
  | dict (entries : List (List UInt8 × BValue))

namespace BValue

/-! ### Decimal numbers -/

def isDigit (b : UInt8) : Bool := 48 ≤ b && b ≤ 57

/-- The digits of a number. -/
def decimal (n : Nat) : List UInt8 := (Nat.toDigits 10 n).map fun c => UInt8.ofNat c.toNat

def decimalInt : Int → List UInt8
  | .ofNat n => decimal n
  | .negSucc n => 45 :: decimal (n + 1)

/-- A number without a leading zero, and what follows it. -/
def decodeNat (bs : List UInt8) : Option (Nat × List UInt8) :=
  let digits := bs.takeWhile isDigit
  if digits = [] ∨ (digits.head? = some 48 ∧ digits ≠ [48]) then none
  else some (digits.foldl (fun n d => 10 * n + (d.toNat - 48)) 0, bs.dropWhile isDigit)

/-- An integer; there is no `-0`. -/
def decodeInt : List UInt8 → Option (Int × List UInt8)
  | 45 :: bs => (decodeNat bs).bind fun (n, rest) => if n = 0 then none else some (-(n : Int), rest)
  | bs => (decodeNat bs).map fun (n, rest) => ((n : Int), rest)

/-! ### Values -/

def encodeString (bs : List UInt8) : List UInt8 := decimal bs.length ++ 58 :: bs

mutual

def encode : BValue → List UInt8
  | .int n => 105 :: decimalInt n ++ [101]
  | .str bs => encodeString bs
  | .list items => 108 :: encodeItems items ++ [101]
  | .dict entries => 100 :: encodeEntries entries ++ [101]

def encodeItems : List BValue → List UInt8
  | [] => []
  | v :: vs => encode v ++ encodeItems vs

def encodeEntries : List (List UInt8 × BValue) → List UInt8
  | [] => []
  | (key, v) :: entries => encodeString key ++ encode v ++ encodeEntries entries

end

/-- A string as long as it says. -/
def decodeString (bs : List UInt8) : Option (List UInt8 × List UInt8) :=
  match decodeNat bs with
  | some (n, 58 :: rest) => if n ≤ rest.length then some (rest.take n, rest.drop n) else none
  | _ => none

section Decoder

variable (ordered : List UInt8 → List UInt8 → Prop) [DecidableRel ordered]

mutual

/-- A value and what follows it, within a number of nested steps. -/
def decodeValue : Nat → List UInt8 → Option (BValue × List UInt8)
  | 0, _ => none
  | _ + 1, 105 :: bs =>
    match decodeInt bs with
    | some (n, 101 :: rest) => some (.int n, rest)
    | _ => none
  | fuel + 1, 108 :: bs => (decodeItems fuel bs).map fun (items, rest) => (.list items, rest)
  | fuel + 1, 100 :: bs =>
    (decodeEntries fuel bs).bind fun (entries, rest) =>
      if (entries.map Prod.fst).Pairwise ordered then some (.dict entries, rest) else none
  | _ + 1, bs => (decodeString bs).map fun (s, rest) => (.str s, rest)

def decodeItems : Nat → List UInt8 → Option (List BValue × List UInt8)
  | 0, _ => none
  | _ + 1, 101 :: rest => some ([], rest)
  | fuel + 1, bs =>
    (decodeValue fuel bs).bind fun (v, rest) =>
      (decodeItems fuel rest).map fun (vs, rest) => (v :: vs, rest)

def decodeEntries : Nat → List UInt8 → Option (List (List UInt8 × BValue) × List UInt8)
  | 0, _ => none
  | _ + 1, 101 :: rest => some ([], rest)
  | fuel + 1, bs =>
    (decodeString bs).bind fun (key, rest) =>
      (decodeValue fuel rest).bind fun (v, rest) =>
        (decodeEntries fuel rest).map fun (entries, rest) => ((key, v) :: entries, rest)

end

/-- One value and nothing behind it. -/
def decode (bs : List UInt8) : Option BValue :=
  match decodeValue ordered bs.length bs with
  | some (v, []) => some v
  | _ => none

end Decoder

/-! ### Reading numbers back -/

/-- The number that the digits stand for. -/
def digitsValue (digits : List UInt8) : Nat := digits.foldl (fun n d => 10 * n + (d.toNat - 48)) 0

theorem decimal_of_lt {n : Nat} (h : n < 10) : decimal n = [UInt8.ofNat (48 + n)] := by
  unfold decimal
  rw [Nat.toDigits_of_lt_base h]
  interval_cases n <;> rfl

theorem decimal_of_ge {n : Nat} (h : 10 ≤ n) : decimal n = decimal (n / 10) ++ decimal (n % 10) := by
  have hlt : n % 10 < 10 := Nat.mod_lt n (by decide)
  unfold decimal
  rw [Nat.toDigits_of_base_le (by decide) h, List.map_append, Nat.toDigits_of_lt_base hlt]

theorem isDigit_ofNat {n : Nat} (h : n < 10) : isDigit (UInt8.ofNat (48 + n)) = true := by
  interval_cases n <;> rfl

/-- The decimal of a number: digits, the first of them not zero but for zero itself. -/
theorem decimal_spec (n : Nat) :
    (∀ d ∈ decimal n, isDigit d = true) ∧ digitsValue (decimal n) = n ∧ decimal n ≠ [] ∧
      (n ≠ 0 → (decimal n).head? ≠ some 48) := by
  induction n using Nat.strongRecOn with
  | ind n ih =>
    by_cases hlt : n < 10
    · rw [decimal_of_lt hlt]
      refine ⟨?_, ?_, List.cons_ne_nil _ _, ?_⟩
      · intro d hd
        rw [List.mem_singleton.mp hd]
        exact isDigit_ofNat hlt
      · interval_cases n <;> rfl
      · intro hne
        interval_cases n <;> first | exact absurd rfl hne | decide
    · have hge : 10 ≤ n := by omega
      obtain ⟨hdigits, hvalue, hnil, hhead⟩ := ih (n / 10) (by omega)
      have hlast : n % 10 < 10 := Nat.mod_lt n (by decide)
      rw [decimal_of_ge hge, decimal_of_lt hlast]
      refine ⟨?_, ?_, ?_, ?_⟩
      · intro d hd
        rcases List.mem_append.mp hd with hd | hd
        · exact hdigits d hd
        · rw [List.mem_singleton.mp hd]
          exact isDigit_ofNat hlast
      · have hbyte : (UInt8.ofNat (48 + n % 10)).toNat = 48 + n % 10 := by
          rw [UInt8.toNat_ofNat']
          omega
        unfold digitsValue at hvalue ⊢
        rw [List.foldl_append, hvalue, List.foldl_cons, List.foldl_nil, hbyte]
        omega
      · simp
      · intro _
        rw [List.head?_append_of_ne_nil _ hnil]
        exact hhead (by omega)

/-- A digit by its value. -/
theorem exists_of_isDigit {d : UInt8} (h : isDigit d = true) :
    ∃ k < 10, d.toNat - 48 = k ∧ d = UInt8.ofNat (48 + k) := by
  unfold isDigit at h
  rw [Bool.and_eq_true, decide_eq_true_iff, decide_eq_true_iff, UInt8.le_iff_toNat_le,
    UInt8.le_iff_toNat_le] at h
  obtain ⟨hlo, hhi⟩ := h
  have h48 : (48 : UInt8).toNat = 48 := rfl
  have h57 : (57 : UInt8).toNat = 57 := rfl
  refine ⟨d.toNat - 48, by omega, rfl, ?_⟩
  rw [show 48 + (d.toNat - 48) = d.toNat by omega]
  exact UInt8.ofNat_toNat.symm

/-- Digits without a leading zero are the decimal of their value. -/
theorem decimal_digitsValue {digits : List UInt8} (hdigits : ∀ d ∈ digits, isDigit d = true)
    (hnil : digits ≠ []) (hzero : digits.head? = some 48 → digits = [48]) :
    decimal (digitsValue digits) = digits := by
  induction digits using List.reverseRecOn with
  | nil => exact absurd rfl hnil
  | append_singleton init d ih =>
    obtain ⟨k, hk, hvalue, hd⟩ := exists_of_isDigit (hdigits d (by simp))
    have hsnoc : digitsValue (init ++ [d]) = 10 * digitsValue init + k := by
      unfold digitsValue
      rw [List.foldl_append, List.foldl_cons, List.foldl_nil, hvalue]
    by_cases hinit : init = []
    · subst hinit
      rw [hsnoc, show 10 * digitsValue [] + k = k from Nat.zero_add k, decimal_of_lt hk, ← hd]
      rfl
    · have hhead : init.head? ≠ some 48 := by
        intro h
        have hone := congrArg List.length (hzero (by rw [List.head?_append_of_ne_nil _ hinit, h]))
        rw [List.length_append, List.length_singleton, List.length_singleton] at hone
        exact hinit (List.eq_nil_of_length_eq_zero (by omega))
      have hih := ih (fun d hd => hdigits d (List.mem_append_left _ hd)) hinit fun h => absurd h hhead
      have hpos : digitsValue init ≠ 0 := by
        intro h
        rw [h] at hih
        exact hhead (hih ▸ rfl)
      rw [hsnoc, decimal_of_ge (by omega), show (10 * digitsValue init + k) / 10 = digitsValue init by omega,
        show (10 * digitsValue init + k) % 10 = k by omega, hih, decimal_of_lt hk, ← hd]

/-- What is not a digit ends a number. -/
theorem decodeNat_decimal (n : Nat) {b : UInt8} (hb : isDigit b = false) (rest : List UInt8) :
    decodeNat (decimal n ++ b :: rest) = some (n, b :: rest) := by
  obtain ⟨hdigits, hvalue, hnil, hhead⟩ := decimal_spec n
  have htake : (decimal n ++ b :: rest).takeWhile isDigit = decimal n := by
    rw [List.takeWhile_append_of_pos hdigits, List.takeWhile_cons_of_neg (by simp [hb]), List.append_nil]
  have hdrop : (decimal n ++ b :: rest).dropWhile isDigit = b :: rest := by
    rw [List.dropWhile_append_of_pos hdigits, List.dropWhile_cons_of_neg (by simp [hb])]
  have hzero : ¬ (decimal n = [] ∨ ((decimal n).head? = some 48 ∧ decimal n ≠ [48])) := by
    rintro (h | ⟨h, hne⟩)
    · exact hnil h
    · by_cases hn : n = 0
      · exact hne (by rw [hn]; rfl)
      · exact hhead hn h
  unfold decodeNat
  dsimp only
  rw [htake, hdrop, if_neg hzero]
  exact congrArg (fun m => some (m, b :: rest)) hvalue

/-- A number that is read is the decimal of its value. -/
theorem eq_of_decodeNat {bs rest : List UInt8} {n : Nat} (h : decodeNat bs = some (n, rest)) :
    bs = decimal n ++ rest := by
  unfold decodeNat at h
  dsimp only at h
  split_ifs at h with hbad
  obtain ⟨rfl, rfl⟩ := Prod.mk.inj (Option.some.inj h)
  rw [not_or, not_and_not_right] at hbad
  have hdigits : ∀ d ∈ bs.takeWhile isDigit, isDigit d = true := fun d hd => List.mem_takeWhile_imp hd
  have hdecimal := decimal_digitsValue hdigits hbad.1 hbad.2
  unfold digitsValue at hdecimal
  rw [hdecimal, List.takeWhile_append_dropWhile]

/-! ### Reading strings back -/

/-- The first byte of a decimal. -/
theorem exists_digit_cons (n : Nat) : ∃ d tl, decimal n = d :: tl ∧ isDigit d = true := by
  obtain ⟨hdigits, _, hnil, _⟩ := decimal_spec n
  obtain ⟨d, tl, hcons⟩ := List.exists_cons_of_ne_nil hnil
  exact ⟨d, tl, hcons, hdigits d (hcons ▸ List.mem_cons_self)⟩

theorem ne_of_isDigit {d b : UInt8} (hd : isDigit d = true) (hb : isDigit b = false) : d ≠ b := by
  rintro rfl
  rw [hd] at hb
  cases hb

theorem decodeInt_digit {d : UInt8} (hd : isDigit d = true) (tl : List UInt8) :
    decodeInt (d :: tl) = (decodeNat (d :: tl)).map fun (n, rest) => ((n : Int), rest) := by
  unfold decodeInt
  split
  · next heq => exact absurd (List.cons.inj heq).1 (ne_of_isDigit hd (by decide))
  · rfl

theorem decodeInt_decimalInt (n : Int) {b : UInt8} (hb : isDigit b = false) (rest : List UInt8) :
    decodeInt (decimalInt n ++ b :: rest) = some (n, b :: rest) := by
  cases n with
  | ofNat n =>
    obtain ⟨d, tl, hcons, hd⟩ := exists_digit_cons n
    have hread := decodeNat_decimal n hb rest
    show decodeInt (decimal n ++ b :: rest) = _
    rw [hcons, List.cons_append] at hread ⊢
    rw [decodeInt_digit hd, hread]
    rfl
  | negSucc n =>
    show (decodeNat (decimal (n + 1) ++ b :: rest)).bind _ = _
    rw [decodeNat_decimal (n + 1) hb rest]
    rfl

theorem eq_of_decodeInt {bs rest : List UInt8} {n : Int} (h : decodeInt bs = some (n, rest)) :
    bs = decimalInt n ++ rest := by
  unfold decodeInt at h
  split at h
  · obtain ⟨⟨m, tl⟩, hread, hm⟩ := Option.bind_eq_some_iff.mp h
    dsimp only at hm
    split_ifs at hm with hzero
    obtain ⟨rfl, rfl⟩ := Prod.mk.inj (Option.some.inj hm)
    obtain ⟨k, rfl⟩ := Nat.exists_eq_succ_of_ne_zero hzero
    rw [eq_of_decodeNat hread]
    rfl
  · obtain ⟨⟨m, tl⟩, hread, hm⟩ := Option.map_eq_some_iff.mp h
    obtain ⟨rfl, rfl⟩ := Prod.mk.inj hm
    exact eq_of_decodeNat hread

theorem decodeString_encodeString (s rest : List UInt8) :
    decodeString (encodeString s ++ rest) = some (s, rest) := by
  unfold encodeString decodeString
  simp only [List.append_assoc, List.cons_append, decodeNat_decimal s.length (by decide : isDigit 58 = false)]
  rw [if_pos (by simp), List.take_left, List.drop_left]

theorem eq_of_decodeString {bs s rest : List UInt8} (h : decodeString bs = some (s, rest)) :
    bs = encodeString s ++ rest := by
  unfold decodeString at h
  split at h
  · next n tl hread =>
    split_ifs at h with hlen
    obtain ⟨rfl, rfl⟩ := Prod.mk.inj (Option.some.inj h)
    have hn : (tl.take n).length = n := List.length_take_of_le hlen
    rw [eq_of_decodeNat hread, encodeString, hn, List.append_assoc, List.cons_append,
      List.take_append_drop]
  · cases h

/-! ### Reading values back -/

section

variable (ordered : List UInt8 → List UInt8 → Prop)

mutual

/-- The keys of all dictionaries are in order. -/
def Ordered : BValue → Prop
  | .int _ => True
  | .str _ => True
  | .list items => OrderedItems items
  | .dict entries => (entries.map Prod.fst).Pairwise ordered ∧ OrderedEntries entries

def OrderedItems : List BValue → Prop
  | [] => True
  | v :: vs => Ordered v ∧ OrderedItems vs

def OrderedEntries : List (List UInt8 × BValue) → Prop
  | [] => True
  | (_, v) :: entries => Ordered v ∧ OrderedEntries entries

end

end

/-- What a value starts with is not the end of a list. -/
theorem exists_encode_cons (v : BValue) : ∃ b tl, encode v = b :: tl ∧ b ≠ 101 := by
  cases v with
  | int n => exact ⟨105, _, by rw [encode]; rfl, by decide⟩
  | str s =>
    obtain ⟨d, tl, hcons, hd⟩ := exists_digit_cons s.length
    refine ⟨d, tl ++ 58 :: s, ?_, ne_of_isDigit hd (by decide)⟩
    rw [encode, encodeString, hcons]
    rfl
  | list items => exact ⟨108, _, by rw [encode]; rfl, by decide⟩
  | dict entries => exact ⟨100, _, by rw [encode]; rfl, by decide⟩

variable {ordered : List UInt8 → List UInt8 → Prop} [DecidableRel ordered]

/-- A string in the place of a value. -/
theorem decodeValue_digit {d : UInt8} (hd : isDigit d = true) (fuel : Nat) (tl : List UInt8) :
    decodeValue ordered (fuel + 1) (d :: tl) =
      (decodeString (d :: tl)).map fun (s, rest) => (.str s, rest) := by
  have hi : d ≠ 105 := ne_of_isDigit hd (by decide)
  have hl : d ≠ 108 := ne_of_isDigit hd (by decide)
  have hdict : d ≠ 100 := ne_of_isDigit hd (by decide)
  rw [decodeValue]
  · intro bs heq
    exact hi (List.cons.inj heq).1
  · intro bs heq
    exact hl (List.cons.inj heq).1
  · intro bs heq
    exact hdict (List.cons.inj heq).1

theorem length_encode_pos (v : BValue) : 0 < (encode v).length := by
  obtain ⟨b, tl, hcons, _⟩ := exists_encode_cons v
  rw [hcons]
  exact Nat.succ_pos _

mutual

/-- An encoding is read back, whatever follows it, within as many steps as it has bytes. -/
theorem decodeValue_encode : ∀ (v : BValue) (fuel : Nat) (rest : List UInt8), Ordered ordered v →
    (encode v).length ≤ fuel → decodeValue ordered fuel (encode v ++ rest) = some (v, rest)
  | v, 0, _, _, hfuel => absurd (length_encode_pos v) (by omega)
  | .int n, fuel + 1, rest, _, _ => by
    rw [encode, List.cons_append, List.cons_append, List.append_assoc]
    rw [List.singleton_append, decodeValue, decodeInt_decimalInt n (by decide)]
    rfl
  | .str s, fuel + 1, rest, _, _ => by
    obtain ⟨d, tl, hcons, hd⟩ := exists_digit_cons s.length
    have hread := decodeString_encodeString s rest
    have hstart : encodeString s ++ rest = d :: (tl ++ 58 :: s ++ rest) := by
      rw [encodeString, hcons]
      simp
    rw [encode, hstart, decodeValue_digit hd, ← hstart, hread]
    rfl
  | .list items, fuel + 1, rest, hv, hfuel => by
    rw [Ordered] at hv
    rw [encode, List.length_append, List.length_cons, List.length_singleton] at hfuel
    have hread := decodeItems_encodeItems items fuel rest hv (by omega)
    rw [encode, List.cons_append, List.cons_append, List.append_assoc]
    show (decodeItems ordered fuel (encodeItems items ++ 101 :: rest)).map _ = _
    rw [hread]
    rfl
  | .dict entries, fuel + 1, rest, hv, hfuel => by
    rw [Ordered] at hv
    rw [encode, List.length_append, List.length_cons, List.length_singleton] at hfuel
    have hread := decodeEntries_encodeEntries entries fuel rest hv.2 (by omega)
    rw [encode, List.cons_append, List.cons_append, List.append_assoc]
    show (decodeEntries ordered fuel (encodeEntries entries ++ 101 :: rest)).bind _ = _
    rw [hread, Option.bind_some]
    exact if_pos hv.1

theorem decodeItems_encodeItems : ∀ (vs : List BValue) (fuel : Nat) (rest : List UInt8),
    OrderedItems ordered vs → (encodeItems vs).length < fuel →
    decodeItems ordered fuel (encodeItems vs ++ 101 :: rest) = some (vs, rest)
  | _, 0, _, _, hfuel => absurd hfuel (Nat.not_lt_zero _)
  | [], fuel + 1, rest, _, _ => by
    rw [encodeItems, List.nil_append, decodeItems]
  | v :: vs, fuel + 1, rest, hvs, hfuel => by
    rw [OrderedItems] at hvs
    rw [encodeItems, List.length_append] at hfuel
    have hpos := length_encode_pos v
    have hread := decodeValue_encode v fuel (encodeItems vs ++ 101 :: rest) hvs.1 (by omega)
    have hrest := decodeItems_encodeItems vs fuel rest hvs.2 (by omega)
    obtain ⟨b, tl, hcons, hb⟩ := exists_encode_cons v
    rw [encodeItems, List.append_assoc]
    rw [hcons, List.cons_append] at hread ⊢
    rw [decodeItems, hread, Option.bind_some]
    · dsimp only
      rw [hrest]
      rfl
    · intro rest heq
      exact hb (List.cons.inj heq).1

theorem decodeEntries_encodeEntries : ∀ (entries : List (List UInt8 × BValue)) (fuel : Nat)
    (rest : List UInt8), OrderedEntries ordered entries → (encodeEntries entries).length < fuel →
    decodeEntries ordered fuel (encodeEntries entries ++ 101 :: rest) = some (entries, rest)
  | _, 0, _, _, hfuel => absurd hfuel (Nat.not_lt_zero _)
  | [], fuel + 1, rest, _, _ => by
    rw [encodeEntries, List.nil_append, decodeEntries]
  | (key, v) :: entries, fuel + 1, rest, hentries, hfuel => by
    rw [OrderedEntries] at hentries
    rw [encodeEntries, List.length_append, List.length_append] at hfuel
    have hpos := length_encode_pos v
    have hkey := decodeString_encodeString key (encode v ++ (encodeEntries entries ++ 101 :: rest))
    have hread := decodeValue_encode v fuel (encodeEntries entries ++ 101 :: rest) hentries.1 (by omega)
    have hrest := decodeEntries_encodeEntries entries fuel rest hentries.2 (by omega)
    obtain ⟨d, tl, hcons, hd⟩ := exists_digit_cons key.length
    have hstart : ∀ x, encodeString key ++ x = d :: (tl ++ 58 :: key ++ x) := by
      intro x
      rw [encodeString, hcons]
      simp
    rw [encodeEntries, List.append_assoc, List.append_assoc]
    rw [hstart] at hkey ⊢
    rw [decodeEntries, hkey, Option.bind_some]
    · dsimp only
      rw [hread, Option.bind_some]
      dsimp only
      rw [hrest]
      rfl
    · intro rest heq
      exact ne_of_isDigit hd (by decide) (List.cons.inj heq).1

end

/-! ### What is read is an encoding -/

/-- The three decoders with some number of steps read encodings only, of values in order. -/
structure ReadsEncodings (ordered : List UInt8 → List UInt8 → Prop) [DecidableRel ordered]
    (fuel : Nat) : Prop where
  value : ∀ bs v rest, decodeValue ordered fuel bs = some (v, rest) →
    Ordered ordered v ∧ bs = encode v ++ rest
  items : ∀ bs vs rest, decodeItems ordered fuel bs = some (vs, rest) →
    OrderedItems ordered vs ∧ bs = encodeItems vs ++ 101 :: rest
  entries : ∀ bs es rest, decodeEntries ordered fuel bs = some (es, rest) →
    OrderedEntries ordered es ∧ bs = encodeEntries es ++ 101 :: rest

theorem ReadsEncodings.value_succ {fuel : Nat} (ih : ReadsEncodings ordered fuel)
    {bs rest : List UInt8} {v : BValue} (h : decodeValue ordered (fuel + 1) bs = some (v, rest)) :
    Ordered ordered v ∧ bs = encode v ++ rest := by
  unfold decodeValue at h
  split at h
  · next heq => cases heq
  · next bs heq =>
    split at h
    · next n tl hread =>
      obtain ⟨rfl, rfl⟩ := Prod.mk.inj (Option.some.inj h)
      rw [eq_of_decodeInt hread, Ordered, encode]
      simp
    · cases h
  · next fuel' bs heq =>
    cases heq
    obtain ⟨⟨items, tl⟩, hread, hmk⟩ := Option.map_eq_some_iff.mp h
    obtain ⟨rfl, rfl⟩ := Prod.mk.inj hmk
    obtain ⟨hordered, hbs⟩ := ih.items _ _ _ hread
    rw [Ordered, encode, hbs]
    exact ⟨hordered, by simp⟩
  · next fuel' bs heq =>
    cases heq
    obtain ⟨⟨entries, tl⟩, hread, hmk⟩ := Option.bind_eq_some_iff.mp h
    dsimp only at hmk
    split_ifs at hmk with hkeys
    obtain ⟨rfl, rfl⟩ := Prod.mk.inj (Option.some.inj hmk)
    obtain ⟨hordered, hbs⟩ := ih.entries _ _ _ hread
    rw [Ordered, encode, hbs]
    exact ⟨⟨hkeys, hordered⟩, by simp⟩
  · obtain ⟨⟨s, tl⟩, hread, hmk⟩ := Option.map_eq_some_iff.mp h
    obtain ⟨rfl, rfl⟩ := Prod.mk.inj hmk
    rw [Ordered, encode]
    exact ⟨trivial, eq_of_decodeString hread⟩

theorem ReadsEncodings.items_succ {fuel : Nat} (ih : ReadsEncodings ordered fuel)
    {bs rest : List UInt8} {vs : List BValue}
    (h : decodeItems ordered (fuel + 1) bs = some (vs, rest)) :
    OrderedItems ordered vs ∧ bs = encodeItems vs ++ 101 :: rest := by
  unfold decodeItems at h
  split at h
  · next heq => cases heq
  · obtain ⟨rfl, rfl⟩ := Prod.mk.inj (Option.some.inj h)
    exact ⟨trivial, rfl⟩
  · next bs fuel' heq _ =>
    cases heq
    obtain ⟨⟨v, tl⟩, hread, hmk⟩ := Option.bind_eq_some_iff.mp h
    obtain ⟨⟨vs', tl'⟩, hrest, hmk⟩ := Option.map_eq_some_iff.mp hmk
    obtain ⟨rfl, rfl⟩ := Prod.mk.inj hmk
    obtain ⟨hv, hbs⟩ := ih.value _ _ _ hread
    obtain ⟨hvs, htl⟩ := ih.items _ _ _ hrest
    rw [OrderedItems, encodeItems, hbs, htl, List.append_assoc]
    exact ⟨⟨hv, hvs⟩, rfl⟩

theorem ReadsEncodings.entries_succ {fuel : Nat} (ih : ReadsEncodings ordered fuel)
    {bs rest : List UInt8} {es : List (List UInt8 × BValue)}
    (h : decodeEntries ordered (fuel + 1) bs = some (es, rest)) :
    OrderedEntries ordered es ∧ bs = encodeEntries es ++ 101 :: rest := by
  unfold decodeEntries at h
  split at h
  · next heq => cases heq
  · obtain ⟨rfl, rfl⟩ := Prod.mk.inj (Option.some.inj h)
    exact ⟨trivial, rfl⟩
  · next bs fuel' heq _ =>
    cases heq
    obtain ⟨⟨key, tl⟩, hkey, hmk⟩ := Option.bind_eq_some_iff.mp h
    obtain ⟨⟨v, tl'⟩, hread, hmk⟩ := Option.bind_eq_some_iff.mp hmk
    obtain ⟨⟨es', tl''⟩, hrest, hmk⟩ := Option.map_eq_some_iff.mp hmk
    obtain ⟨rfl, rfl⟩ := Prod.mk.inj hmk
    obtain ⟨hv, htl⟩ := ih.value _ _ _ hread
    obtain ⟨hes, htl'⟩ := ih.entries _ _ _ hrest
    have hstring := eq_of_decodeString hkey
    rw [OrderedEntries, encodeEntries, hstring, htl, htl']
    exact ⟨⟨hv, hes⟩, by simp⟩

theorem readsEncodings (fuel : Nat) : ReadsEncodings ordered fuel := by
  induction fuel with
  | zero =>
    constructor
    case value =>
      intro bs v rest h
      rw [decodeValue] at h
      cases h
    case items =>
      intro bs vs rest h
      rw [decodeItems] at h
      cases h
    case entries =>
      intro bs es rest h
      rw [decodeEntries] at h
      cases h
  | succ fuel ih =>
    exact ⟨fun _ _ _ h => ih.value_succ h, fun _ _ _ h => ih.items_succ h,
      fun _ _ _ h => ih.entries_succ h⟩

/-- What a text decodes to is the value in order that it is the encoding of. -/
theorem decode_eq_some_iff {bs : List UInt8} {v : BValue} :
    decode ordered bs = some v ↔ Ordered ordered v ∧ bs = encode v := by
  unfold decode
  constructor
  · intro h
    split at h
    · next u hread =>
      obtain rfl := Option.some.inj h
      obtain ⟨hordered, hbs⟩ := (readsEncodings bs.length).value _ _ _ hread
      exact ⟨hordered, hbs.trans (List.append_nil _)⟩
    · cases h
  · rintro ⟨hordered, rfl⟩
    have hread := decodeValue_encode v (encode v).length [] hordered le_rfl
    rw [List.append_nil] at hread
    rw [hread]

end BValue

end TorrentLink.Lib

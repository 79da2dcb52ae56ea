import TorrentLink.Base.QByteArray
import TorrentLink.Lib.Utf8

/-!
# Text encodings

`isValidUtf8` reads a text byte by byte, by its index. A sum that an `int` does not hold and a read past
the text are faults. The function tells the well-formed texts from the others but for two kinds of texts
(`isValidUtf8_iff`): it takes the sequences of surrogates, and in a text of almost `2 ^ 31` bytes the
sum that guards the reads may overflow.
-/

namespace TorrentLink

open Lib Utf8

/-- `std::numeric_limits<int>::max()` -/
def intMax : Nat := 2 ^ 31 - 1

inductive Fault
  | overflow | pastEnd
  deriving DecidableEq, Repr

/-- The bytes at `data`; their number is the `int` `size`. -/
structure CharSpan where
  bytes : List UInt8
  size_le : bytes.length ≤ intMax

/-- `data[i]` -/
def readAt (data : List UInt8) (i : Nat) : Except Fault UInt8 :=
  match data[i]? with
  | some b => .ok b
  | none => .error .pastEnd

/-- `a + b`, in `int`. -/
def addInt (a b : Nat) : Except Fault Nat :=
  if a + b ≤ intMax then .ok (a + b) else .error .overflow

def isContinuationByte (c : UInt8) : Bool := c &&& 0xC0 = 0x80

/-- The number of bytes that must follow the byte, if it may stand here. -/
def need (c : UInt8) : Option Nat :=
  if c &&& 0xE0 = 0xC0 then if c < 0xC2 then none else some 1
  else if c &&& 0xF0 = 0xE0 then some 2
  else if c &&& 0xF8 = 0xF0 then if 0xF4 < c then none else some 3
  else none

/-- The loop over the bytes that follow. -/
def allContinue (data : List UInt8) (i : Nat) : List Nat → Except Fault Bool
  | [] => .ok true
  | j :: js => do
    let b ← readAt data (i + j)
    if isContinuationByte b then allContinue data i js else .ok false

/-- The tests of the second byte. -/
def secondRefused (data : List UInt8) (i n : Nat) (c : UInt8) : Except Fault Bool := do
  if n = 2 ∧ c = 0xE0 then
    let b ← readAt data (i + 1)
    return b < 0xA0
  else if n = 3 ∧ c = 0xF0 then
    let b ← readAt data (i + 1)
    return b < 0x90
  else if n = 3 ∧ c = 0xF4 then
    let b ← readAt data (i + 1)
    return 0x8F < b
  else return false

/-- The body of the loop: how many bytes follow the one at `i` in its sequence, or none for
`return false`. The sums other than the guard's are at most the size. -/
def turn (data : List UInt8) (i : Nat) : Except Fault (Option Nat) := do
  let c ← readAt data i
  if c ≤ 0x7F then return some 0
  match need c with
  | none => return none
  | some n =>
    let last ← addInt i n
    if data.length ≤ last then return none
    let tails ← allContinue data i (List.range' 1 n)
    if ¬ tails then return none
    let refused ← secondRefused data i n c
    if refused then return none
    return some n

/-- `while (i < size)` -/
def scan (data : List UInt8) (i : Nat) : Except Fault Bool :=
  if i < data.length then
    match turn data i with
    | .error fault => .error fault
    | .ok none => .ok false
    | .ok (some n) => scan data (i + n + 1)
  else .ok true
termination_by data.length - i

def isValidUtf8 (text : CharSpan) : Except Fault Bool :=
  if text.bytes = [] then .ok true else scan text.bytes 0

/-! ### The bytes -/

theorem forall_byte {P : UInt8 → Prop} (h : ∀ n < 256, P (UInt8.ofNat n)) (c : UInt8) : P c := by
  have hc := h c.toNat c.toNat_lt
  rwa [UInt8.ofNat_toNat] at hc

theorem isContinuationByte_iff : ∀ c : UInt8, isContinuationByte c = true ↔ Tail c :=
  forall_byte (by decide +kernel)

theorem need_eq : ∀ c : UInt8, need c =
    if 0xC2 ≤ c ∧ c ≤ 0xDF then some 1
    else if 0xE0 ≤ c ∧ c ≤ 0xEF then some 2
    else if 0xF0 ≤ c ∧ c ≤ 0xF4 then some 3
    else none :=
  forall_byte (by decide +kernel)

theorem need_eq_some_iff {c : UInt8} {n : Nat} : need c = some n ↔
    n = 1 ∧ 0xC2 ≤ c ∧ c ≤ 0xDF ∨ n = 2 ∧ 0xE0 ≤ c ∧ c ≤ 0xEF ∨ n = 3 ∧ 0xF0 ≤ c ∧ c ≤ 0xF4 := by
  rw [need_eq]
  grind

/-! ### One turn -/

/-- The sequences that the loop takes. -/
def taken : Language UInt8 := sequences + surrogates

variable {before rest tail : List UInt8} {c b : UInt8} {n : Nat}

theorem readAt_append (i : Nat) : readAt (before ++ rest) (before.length + i) = readAt rest i := by
  rw [readAt, readAt, List.getElem?_append_right (Nat.le_add_right _ _), Nat.add_sub_cancel_left]

theorem allContinue_range' (before rest : List UInt8) {k n : Nat} (hn : k + n ≤ rest.length) :
    allContinue (before ++ rest) before.length (List.range' k n) =
      .ok (((rest.drop k).take n).all isContinuationByte) := by
  induction n generalizing k with
  | zero => rfl
  | succ n ih =>
    have hk : k < rest.length := by omega
    have hread : readAt (before ++ rest) (before.length + k) = .ok rest[k] := by
      rw [readAt_append, readAt, List.getElem?_eq_getElem hk]
    rw [List.range'_succ, allContinue, hread, List.drop_eq_getElem_cons hk, List.take_succ_cons]
    show (if isContinuationByte rest[k] then _ else _) = _
    rw [List.all_cons]
    by_cases htail : isContinuationByte rest[k] = true
    · rw [if_pos htail, ih (by omega), htail, Bool.true_and]
    · rw [if_neg htail, Bool.eq_false_iff.mpr htail, Bool.false_and]

/-- A second byte that some first bytes exclude. -/
def Excluded (c b : UInt8) : Prop := c = 0xE0 ∧ b < 0xA0 ∨ c = 0xF0 ∧ b < 0x90 ∨ c = 0xF4 ∧ 0x8F < b

instance (c b : UInt8) : Decidable (Excluded c b) := inferInstanceAs (Decidable (_ ∨ _))

/-- The bytes that may follow a first byte, as many as it needs. -/
def Continues (c : UInt8) (tail : List UInt8) : Prop :=
  (∀ b ∈ tail, Tail b) ∧ ∀ b ∈ tail.head?, ¬ Excluded c b

instance (c : UInt8) (tail : List UInt8) : Decidable (Continues c tail) :=
  @instDecidableAnd _ _ (List.decidableBAll _ _) (Option.decidableForallMem _)

theorem secondRefused_eq (hneed : need c = some n) :
    secondRefused (before ++ c :: b :: rest) before.length n c = .ok (decide (Excluded c b)) := by
  have hread : readAt (before ++ c :: b :: rest) (before.length + 1) = .ok b := readAt_append 1
  simp only [need_eq_some_iff, UInt8.le_iff_toNat_le, UInt8.reduceToNat] at hneed
  rw [secondRefused, hread]
  split_ifs with h2 h3 h4
  · refine congrArg Except.ok (decide_eq_decide.mpr ?_)
    simp [Excluded, h2.2]
  · refine congrArg Except.ok (decide_eq_decide.mpr ?_)
    simp [Excluded, h3.2]
  · refine congrArg Except.ok (decide_eq_decide.mpr ?_)
    simp [Excluded, h4.2]
  · refine congrArg Except.ok (decide_eq_false ?_).symm
    simp only [Excluded, UInt8.lt_iff_toNat_lt, ← UInt8.toNat_inj, UInt8.reduceToNat] at h2 h3 h4 ⊢
    omega

/-- The sequences that begin with a byte. -/
theorem cons_mem_taken_iff : c :: tail ∈ taken ↔
    c ≤ 0x7F ∧ tail = [] ∨ need c = some tail.length ∧ Continues c tail := by
  show IsSequence (c :: tail) ∨ IsSurrogate (c :: tail) ↔ _
  rw [need_eq_some_iff]
  match tail with
  | [] => simp [IsSequence, IsSurrogate]
  | [b] =>
    simp only [IsSequence, IsSurrogate, Continues, Tail, Excluded, List.length_singleton,
      List.forall_mem_singleton, List.head?_cons, Option.mem_def, Option.some.injEq, forall_eq', reduceCtorEq, or_false, and_false,
      false_or, true_and]
    simp only [UInt8.le_iff_toNat_le, UInt8.lt_iff_toNat_lt, ← UInt8.toNat_inj, UInt8.reduceToNat]
    omega
  | [b, b'] =>
    simp only [IsSequence, IsSurrogate, Continues, Tail, Excluded, List.length_cons, List.length_nil,
      List.forall_mem_cons, List.not_mem_nil, IsEmpty.forall_iff, implies_true, List.head?_cons,
      Option.mem_def, Option.some.injEq,
      forall_eq', reduceCtorEq, and_false, and_true, false_or, true_and]
    simp only [UInt8.le_iff_toNat_le, UInt8.lt_iff_toNat_lt, ← UInt8.toNat_inj, UInt8.reduceToNat]
    omega
  | [b, b', b''] =>
    simp only [IsSequence, IsSurrogate, Continues, Tail, Excluded, List.length_cons, List.length_nil,
      List.forall_mem_cons, List.not_mem_nil, IsEmpty.forall_iff, implies_true, List.head?_cons,
      Option.mem_def, Option.some.injEq,
      forall_eq', reduceCtorEq, or_false, and_false, and_true, false_or, true_and]
    simp only [UInt8.le_iff_toNat_le, UInt8.lt_iff_toNat_lt, ← UInt8.toNat_inj, UInt8.reduceToNat]
    omega
  | _ :: _ :: _ :: _ :: _ => simp [IsSequence, IsSurrogate]

theorem readAt_first : readAt (before ++ c :: rest) before.length = .ok c := readAt_append 0

theorem turn_ascii (hc : c ≤ 0x7F) : turn (before ++ c :: rest) before.length = .ok (some 0) := by
  rw [turn, readAt_first]
  exact if_pos hc

theorem turn_of_need_none (hc : ¬ c ≤ 0x7F) (hneed : need c = none) :
    turn (before ++ c :: rest) before.length = .ok none := by
  rw [turn, readAt_first]
  refine (if_neg hc).trans ?_
  rw [hneed]
  rfl

theorem not_ascii_of_need (hneed : need c = some n) : ¬ c ≤ 0x7F := by
  rw [need_eq_some_iff] at hneed
  grind

theorem turn_overflow (hneed : need c = some n) (hsum : intMax < before.length + n) :
    turn (before ++ c :: rest) before.length = .error .overflow := by
  rw [turn, readAt_first]
  refine (if_neg (not_ascii_of_need hneed)).trans ?_
  rw [hneed]
  dsimp only
  rw [addInt, if_neg (by omega)]
  rfl

theorem turn_short (hneed : need c = some n) (hsum : before.length + n ≤ intMax)
    (hrest : rest.length < n) :
    turn (before ++ c :: rest) before.length = .ok none := by
  rw [turn, readAt_first]
  refine (if_neg (not_ascii_of_need hneed)).trans ?_
  rw [hneed]
  dsimp only
  rw [addInt, if_pos hsum]
  exact if_pos (by rw [List.length_append, List.length_cons]; omega)

theorem turn_long (hneed : need c = some n) (hsum : before.length + n ≤ intMax)
    (hrest : n ≤ rest.length) :
    turn (before ++ c :: rest) before.length =
      .ok (if Continues c (rest.take n) then some n else none) := by
  have hpos : n ≠ 0 := by
    rw [need_eq_some_iff] at hneed
    omega
  obtain ⟨b, rest, rfl⟩ := List.exists_cons_of_length_pos (show 0 < rest.length by omega)
  obtain ⟨m, rfl⟩ := Nat.exists_eq_succ_of_ne_zero hpos
  rw [List.length_cons] at hrest
  have hguard : ¬ (before ++ c :: b :: rest).length ≤ before.length + (m + 1) := by
    rw [List.length_append, List.length_cons, List.length_cons]
    omega
  have hcontinue := allContinue_range' before (c :: b :: rest) (show 1 + (m + 1) ≤ _ by
    rw [List.length_cons, List.length_cons]
    omega)
  rw [List.drop_one, List.tail_cons, List.take_succ_cons] at hcontinue
  rw [turn, readAt_first]
  refine (if_neg (not_ascii_of_need hneed)).trans ?_
  rw [hneed]
  dsimp only
  rw [addInt, if_pos hsum]
  refine (if_neg hguard).trans ?_
  rw [hcontinue, List.take_succ_cons]
  have hall : (b :: rest.take m).all isContinuationByte = true ↔ ∀ b' ∈ b :: rest.take m, Tail b' := by
    simp only [List.all_eq_true, isContinuationByte_iff]
  by_cases htails : ∀ b' ∈ b :: rest.take m, Tail b'
  · refine (if_neg fun hnot => hnot (hall.mpr htails)).trans ?_
    rw [secondRefused_eq hneed]
    by_cases hexcluded : Excluded c b
    · refine (if_pos (decide_eq_true hexcluded)).trans ?_
      rw [if_neg fun h => h.2 b rfl hexcluded]
      rfl
    · refine (if_neg (by simpa using hexcluded)).trans ?_
      rw [if_pos ⟨htails, fun b' hb' => Option.some.inj hb' ▸ hexcluded⟩]
      rfl
  · refine (if_pos fun h => htails (hall.mp h)).trans ?_
    rw [if_neg fun h => htails h.1]
    rfl

/-- A sequence is passed over. -/
theorem turn_taken (htaken : c :: tail ∈ taken)
    (hsize : (before ++ c :: (tail ++ rest)).length ≤ intMax) :
    turn (before ++ c :: (tail ++ rest)) before.length = .ok (some tail.length) := by
  rw [List.length_append, List.length_cons, List.length_append] at hsize
  obtain ⟨hc, rfl⟩ | ⟨hneed, htails⟩ := cons_mem_taken_iff.mp htaken
  · exact turn_ascii hc
  · rw [turn_long hneed (by omega) (by rw [List.length_append]; omega), List.take_left, if_pos htails]

/-- What does not begin with a sequence is refused, if the guard's sum does not overflow. -/
theorem turn_refused (hno : ∀ tail, c :: tail ∈ taken → ¬ tail <+: rest)
    (hsum : ∀ n ∈ need c, before.length + n ≤ intMax) :
    turn (before ++ c :: rest) before.length = .ok none := by
  have hc : ¬ c ≤ 0x7F := fun hc => hno [] (cons_mem_taken_iff.mpr (.inl ⟨hc, rfl⟩)) List.nil_prefix
  cases hneed : need c with
  | none => exact turn_of_need_none hc hneed
  | some n =>
    by_cases hrest : n ≤ rest.length
    · rw [turn_long hneed (hsum n hneed) hrest, if_neg fun htails => ?_]
      refine hno (rest.take n) (cons_mem_taken_iff.mpr (.inr ⟨?_, htails⟩)) (List.take_prefix n rest)
      rw [hneed, List.length_take_of_le hrest]
    · exact turn_short hneed (hsum n hneed) (Nat.lt_of_not_le hrest)

/-! ### The loop -/

/-- After sequences that are taken, with `i` bytes before them, the sum of the guard overflows. -/
def Overflows (i : Nat) (bytes : List UInt8) : Prop :=
  ∃ read c rest, bytes = read ++ c :: rest ∧ read ∈ KStar.kstar taken ∧
    ∃ n ∈ need c, intMax < i + read.length + n

theorem not_overflows_nil (i : Nat) : ¬ Overflows i [] := by
  rintro ⟨read, c, rest, hnil, -⟩
  exact List.append_ne_nil_of_right_ne_nil read (List.cons_ne_nil c rest) hnil.symm

theorem overflows_cons_iff {i : Nat} (hno : ∀ tail, c :: tail ∈ taken → ¬ tail <+: rest) :
    Overflows i (c :: rest) ↔ ∃ n ∈ need c, intMax < i + n := by
  constructor
  · rintro ⟨read, c', rest', hbytes, hread, hover⟩
    by_cases hnil : read = []
    · subst hnil
      obtain ⟨rfl, rfl⟩ := List.cons.inj hbytes
      exact hover
    · obtain ⟨w, hw, read', -, rfl⟩ := exists_append_of_mem_kstar hnil hread
      obtain ⟨a, tail, rfl⟩ := List.exists_cons_of_ne_nil (prefixFree_sequences_add_surrogates.ne_nil w hw)
      rw [List.cons_append, List.cons_append] at hbytes
      obtain ⟨rfl, hrest⟩ := List.cons.inj hbytes
      refine absurd ⟨read' ++ c' :: rest', ?_⟩ (hno tail hw)
      rw [hrest, List.append_assoc]
  · exact fun hover => ⟨[], c, rest, rfl, Language.nil_mem_kstar _, hover⟩

theorem overflows_append_iff {i : Nat} {w : List UInt8} (hw : w ∈ taken)
    (hsize : i + (w ++ rest).length ≤ intMax) :
    Overflows i (w ++ rest) ↔ Overflows (i + w.length) rest := by
  have hfree := prefixFree_sequences_add_surrogates
  constructor
  · rintro ⟨read, c, rest', hbytes, hread, n, hneed, hover⟩
    by_cases hnil : read = []
    · subst hnil
      obtain ⟨a, tail, rfl⟩ := List.exists_cons_of_ne_nil (hfree.ne_nil w hw)
      obtain ⟨rfl, -⟩ := List.cons.inj hbytes
      rw [List.length_append, List.length_cons] at hsize
      rw [List.length_nil] at hover
      -- the sequence has all the bytes that its first one needs
      obtain ⟨hc, -⟩ | ⟨hneed', -⟩ := cons_mem_taken_iff.mp hw
      · exact absurd hc (not_ascii_of_need hneed)
      · obtain rfl : tail.length = n := Option.some.inj (hneed'.symm.trans hneed)
        omega
    · obtain ⟨w', hw', read', hread', rfl⟩ := exists_append_of_mem_kstar hnil hread
      rw [List.append_assoc] at hbytes
      obtain ⟨rfl, rfl⟩ := hfree.eq_of_append hw hw' hbytes
      rw [List.length_append] at hover
      exact ⟨read', c, rest', rfl, hread', n, hneed, by omega⟩
  · rintro ⟨read, c, rest', rfl, hread, n, hneed, hover⟩
    refine ⟨w ++ read, c, rest', (List.append_assoc _ _ _).symm, append_mem_kstar hw hread, n, hneed, ?_⟩
    rw [List.length_append]
    omega

theorem scan_cons : scan (before ++ c :: rest) before.length =
    match turn (before ++ c :: rest) before.length with
    | .error fault => .error fault
    | .ok none => .ok false
    | .ok (some n) => scan (before ++ c :: rest) (before.length + n + 1) := by
  rw [scan]
  exact if_pos (by rw [List.length_append, List.length_cons]; omega)

/-- From `before` on, the loop takes the sequences that it finds, up to an overflow. -/
theorem scan_append (before rest : List UInt8) (hsize : (before ++ rest).length ≤ intMax) :
    (Overflows before.length rest → scan (before ++ rest) before.length = .error .overflow) ∧
      (¬ Overflows before.length rest →
        ∃ valid, scan (before ++ rest) before.length = .ok valid ∧
          (valid = true ↔ rest ∈ KStar.kstar taken)) := by
  have hfree : PrefixFree taken := prefixFree_sequences_add_surrogates
  induction hlength : rest.length using Nat.strong_induction_on generalizing before rest with
  | h m ih =>
  cases rest with
  | nil =>
    refine ⟨fun hover => absurd hover (not_overflows_nil _), fun _ => ⟨true, ?_, ?_⟩⟩
    · rw [List.append_nil, scan, if_neg (Nat.lt_irrefl _)]
    · simp only [Language.nil_mem_kstar]
  | cons c rest =>
    rw [scan_cons]
    by_cases hno : ∀ tail, c :: tail ∈ taken → ¬ tail <+: rest
    · -- nothing is taken here
      rw [overflows_cons_iff hno]
      constructor
      · rintro ⟨n, hneed, hover⟩
        rw [turn_overflow hneed hover]
      · intro hfits
        rw [turn_refused hno fun n hneed => Nat.le_of_not_lt fun hover => hfits ⟨n, hneed, hover⟩]
        refine ⟨false, rfl, iff_of_false Bool.false_ne_true fun hmem => ?_⟩
        obtain ⟨w, hw, rest', -, hbytes⟩ := exists_append_of_mem_kstar (List.cons_ne_nil c rest) hmem
        obtain ⟨a, tail, rfl⟩ := List.exists_cons_of_ne_nil (hfree.ne_nil w hw)
        obtain ⟨rfl, rfl⟩ := List.cons.inj hbytes
        exact hno tail hw (List.prefix_append tail rest')
    · push Not at hno
      obtain ⟨tail, hw, rest', rfl⟩ := hno
      have hover :
          Overflows before.length (c :: tail ++ rest') ↔ Overflows (before.length + (c :: tail).length) rest' :=
        overflows_append_iff hw (by rw [← List.length_append]; exact hsize)
      have hmem : c :: tail ++ rest' ∈ KStar.kstar taken ↔ rest' ∈ KStar.kstar taken :=
        hfree.append_mem_kstar_iff hw
      have hshorter : rest'.length < m := by
        rw [← hlength, List.length_cons, List.length_append]
        omega
      have hrest := ih _ hshorter (before ++ c :: tail) rest' (by rw [List.append_assoc]; exact hsize) rfl
      rw [List.append_assoc, List.length_append, ← hover, ← hmem] at hrest
      rw [turn_taken hw hsize]
      exact hrest

/-- The bytes are sequences that the loop takes, with a surrogate among them. -/
def HasSurrogate (bytes : List UInt8) : Prop :=
  ∃ words : List (List UInt8), bytes = words.flatten ∧ (∀ w ∈ words, IsSequence w ∨ IsSurrogate w) ∧
    ∃ w ∈ words, IsSurrogate w

theorem isValidUtf8_eq_scan (text : CharSpan) :
    isValidUtf8 text = scan ([] ++ text.bytes) ([] : List UInt8).length := by
  unfold isValidUtf8
  split
  · rename_i hnil
    rw [hnil, List.append_nil, scan, if_neg (Nat.lt_irrefl _)]
  · rfl

theorem mem_kstar_taken_of_wellFormed {bytes : List UInt8} (h : WellFormed bytes) :
    bytes ∈ KStar.kstar taken := by
  obtain ⟨words, hbytes, hwords⟩ := Language.mem_kstar.mp h
  exact Language.mem_kstar.mpr ⟨words, hbytes, fun w hw => mem_sequences_add_surrogates (hwords w hw)⟩

/-- The result, without a fault, says whether the text is well-formed unless the guard's sum overflows
or the text has a surrogate. -/
theorem isValidUtf8_iff (text : CharSpan) :
    (∃ valid, isValidUtf8 text = .ok valid ∧ (valid = true ↔ WellFormed text.bytes)) ↔
      ¬ Overflows 0 text.bytes ∧ ¬ HasSurrogate text.bytes := by
  obtain ⟨hover, hfits⟩ := scan_append [] text.bytes text.size_le
  rw [isValidUtf8_eq_scan, HasSurrogate, ← not_wellFormed_iff]
  constructor
  · rintro ⟨valid, hvalid, hiff⟩
    have hno : ¬ Overflows 0 text.bytes := by
      intro h
      have hfault := hvalid.symm.trans (hover h)
      cases hfault
    refine ⟨hno, fun hwide => ?_⟩
    obtain ⟨valid', hvalid', hiff'⟩ := hfits hno
    obtain rfl : valid = valid' := Except.ok.inj (hvalid.symm.trans hvalid')
    exact hwide.2 (hiff.mp (hiff'.mpr hwide.1))
  · rintro ⟨hno, hnot⟩
    obtain ⟨valid, hvalid, hiff⟩ := hfits hno
    refine ⟨valid, hvalid, hiff.trans ⟨fun hwide => ?_, mem_kstar_taken_of_wellFormed⟩⟩
    by_contra hill
    exact hnot ⟨hwide, hill⟩

/-- D800, which RFC 3629 forbids. -/
def surrogateText : CharSpan where
  bytes := [0xED, 0xA0, 0x80]
  size_le := by decide

theorem isValidUtf8_surrogateText :
    isValidUtf8 surrogateText = .ok true ∧ ¬ WellFormed surrogateText.bytes := by
  constructor
  · have hturn : turn surrogateText.bytes 0 = .ok (some 2) := by decide
    rw [isValidUtf8, if_neg (by decide), scan, if_pos (by decide), hturn]
    dsimp only
    rw [scan, if_neg (by decide)]
  · have hsurrogate : IsSurrogate surrogateText.bytes := by
      show (0xED : UInt8) = 0xED ∧ 0xA0 ≤ (0xA0 : UInt8) ∧ (0xA0 : UInt8) ≤ 0xBF ∧ Tail 0x80
      decide
    refine (not_wellFormed_iff.mpr
      ⟨[surrogateText.bytes], rfl, fun w hw => ?_, _, List.mem_singleton_self _, ?_⟩).2
    · exact .inr (List.mem_singleton.mp hw ▸ hsurrogate)
    · exact hsurrogate

end TorrentLink

import TorrentLink.Lt.IpFilterRanges
import Mathlib.Data.List.Perm.Basic

/-!
# What an IP filter file blocks

Each valid line denotes a set of addresses (`ruleSet`): those that share a prefix with an address, those
between two addresses of one family, or one address. After the file is loaded exactly the union of these
sets is blocked, and the valid lines are counted (`loadIpFilterFile_correct`).
-/

namespace TorrentLink.Lt

open Lib

/-! ### What a line denotes -/

/-- The addresses between two of one family, in either order. -/
def rangeSet (a b : Address) : Set Address :=
  {x | x.isV6 = a.isV6 ∧ min a.value b.value ≤ x.value ∧ x.value ≤ max a.value b.value}

variable (p : AddressParsers)

/-- The IPv6 address of a prefix, brackets optional. -/
def ipv6Base (s : String) : Option Address :=
  (p.makeAddress (stripOptionalBrackets (trimmed s))).filter Address.isV6

/-- The IPv6 address of a range, brackets optional. -/
def ipv6In (s : String) : Option Address := (parseAnySingleIp p s).filter Address.isV6

/-- An address, a slash and a number of bits up to `max`. -/
noncomputable def cidrSet (base : String → Option Address) (max : Int) (t : String) :
    Option (Set Address) := do
  let (left, right) ← cut "/" t
  let n ← p.toInt (trimmed right)
  let a ← base left
  if left ≠ "" ∧ 0 ≤ n ∧ n ≤ max then some (prefixSet a n.toNat) else none

/-- Two addresses. -/
noncomputable def betweenSet (address : String → Option Address) (t : String) :
    Option (Set Address) := do
  let (left, right) ← cut " - " t
  let a ← address left
  let b ← address right
  some (rangeSet a b)

/-- The addresses that a line denotes, `none` for a comment, a blank line and an invalid line. -/
noncomputable def ruleSet (line : String) : Option (Set Address) :=
  let t := trimmed line
  if isComment t then none
  else if (cut "/" t).isSome then
    (cidrSet p (parseDottedIPv4 p) 32 t).or (cidrSet p (ipv6Base p) 128 t)
  else if (cut " - " t).isSome then
    (betweenSet (parseDottedIPv4 p) t).or (betweenSet (ipv6In p) t)
  else (parseAnySingleIp p t).map fun a => {a}

/-! ### What is assumed of the libraries -/

/-- An IPv4 address is written with digits and dots, an IPv6 address with a colon. -/
structure AddressParsers.Law (p : AddressParsers) : Prop where
  ipv4_plain : ∀ s host, p.setAddress s = some (.ipv4 host) → lineLooksLikeIpv6 s = false
  ipv6_colon : ∀ s, p.setAddress s = some .ipv6 → ':' ∈ s.toList

/-- A rule for two addresses of one family in order blocks those between them, and no others. -/
structure IpFilter.Law {F : Type} (filter : IpFilter F) : Prop where
  isBlocked_empty : ∀ x, filter.isBlocked filter.empty x = false
  isBlocked_addRule : ∀ f a b x, a.isV6 = b.isV6 → a.value ≤ b.value →
    (filter.isBlocked (filter.addRule f a b) x = true ↔
      filter.isBlocked f x = true ∨ (x.isV6 = a.isV6 ∧ a.value ≤ x.value ∧ x.value ≤ b.value))

variable {F : Type} {filter : IpFilter F}

/-- What a line does to the filter: it blocks the set as well, or is refused. -/
inductive AddsRule (filter : IpFilter F) (out : F) : Option (Set Address) → Option F → Prop
  | refused : AddsRule filter out none none
  | added {out' : F} {S : Set Address}
      (h : ∀ x, filter.isBlocked out' x = true ↔ filter.isBlocked out x = true ∨ x ∈ S) :
      AddsRule filter out (some S) (some out')

/-! ### One line -/

variable {p}

theorem AddsRule.or {out : F} {S T : Option (Set Address)} {r r' : Option F}
    (h : AddsRule filter out S r) (h' : AddsRule filter out T r') :
    AddsRule filter out (S.or T) (r.or r') := by
  cases h with
  | refused => exact h'
  | added hall => exact .added hall

theorem parseDottedIPv4_eq_some {s : String} {a : Address} (h : parseDottedIPv4 p s = some a) :
    ∃ host, p.setAddress (trimmed s) = some (.ipv4 host) ∧ a = ipv4ToLtAddress host := by
  unfold parseDottedIPv4 at h
  split at h
  · rename_i host hset
    exact ⟨host, hset, (Option.some.inj h).symm⟩
  · cases h

theorem parseAnySingleIp_isV6 {s : String} {a : Address} (h : parseAnySingleIp p s = some a)
    (hv6 : a.isV6 = true) : p.setAddress (stripOptionalBrackets s) = some .ipv6 := by
  unfold parseAnySingleIp at h
  dsimp only at h
  split at h
  · cases h
    cases hv6
  · assumption
  · cases h

/-- A rule for two addresses in order. -/
theorem AddsRule.rule (hf : filter.Law) (out : F) {a b : Address} {S : Set Address}
    (hfam : a.isV6 = b.isV6) (hle : a.value ≤ b.value)
    (hS : ∀ x, x ∈ S ↔ x.isV6 = a.isV6 ∧ a.value ≤ x.value ∧ x.value ≤ b.value) :
    AddsRule filter out (some S) (some (filter.addRule out a b)) := by
  refine .added fun x => ?_
  rw [hf.isBlocked_addRule out a b x hfam hle, hS]

theorem adds_rule_v4 (hf : filter.Law) (out : F) {first last : BitVec 32} {S : Set Address}
    (hle : first.toNat ≤ last.toNat)
    (hS : ∀ x, x ∈ S ↔ x.isV6 = false ∧ first.toNat ≤ x.value ∧ x.value ≤ last.toNat) :
    AddsRule filter out (some S)
      (some (filter.addRule out (ipv4ToLtAddress first) (ipv4ToLtAddress last))) := by
  apply AddsRule.rule hf out
  · rfl
  · simpa only [value_ipv4ToLtAddress] using hle
  · simpa only [value_ipv4ToLtAddress, isV6_ipv4ToLtAddress] using hS

theorem adds_appendCidrIpv4 (hf : filter.Law) (t : String) (out : F) :
    AddsRule filter out (cidrSet p (parseDottedIPv4 p) 32 t) (appendCidrIpv4 p filter t out) := by
  unfold cidrSet appendCidrIpv4 parseDottedIPv4
  cases cut "/" t with
  | none => exact .refused
  | some parts =>
    obtain ⟨left, right⟩ := parts
    by_cases hleft : left = ""
    · simpa [hleft] using AddsRule.refused
    · cases hn : p.toInt (trimmed right) with
      | none => simpa [hleft, hn] using AddsRule.refused
      | some n =>
        by_cases hrange : n < 0 ∨ 32 < n
        · have hout : ¬ (0 ≤ n ∧ n ≤ 32) := by omega
          simpa [hleft, hn, hrange, hout] using AddsRule.refused
        · have hin : 0 ≤ n ∧ n ≤ 32 := by omega
          have hlen : n.toNat ≤ 32 := by omega
          cases hset : p.setAddress (trimmed left) with
          | none => simpa [hleft, hn, hrange, hset] using AddsRule.refused
          | some host =>
            cases host with
            | ipv6 => simpa [hleft, hn, hrange, hset] using AddsRule.refused
            | ipv4 ip =>
              by_cases hzero : n = 0
              · subst hzero
                have hrule := adds_rule_v4 hf out (Nat.zero_le _) (mem_prefix_v4_zero ip)
                simpa [hleft, hn, hset] using hrule
              · have hrule := adds_rule_v4 hf out (prefix_v4_le ip hlen) (mem_prefix_v4 ip hlen)
                simpa [hleft, hn, hrange, hset, hin, hzero] using hrule

theorem adds_appendCidrIpv6 (hf : filter.Law) (t : String) (out : F) :
    AddsRule filter out (cidrSet p (ipv6Base p) 128 t) (appendCidrIpv6 p filter t out) := by
  unfold cidrSet appendCidrIpv6 ipv6Base
  cases cut "/" t with
  | none => exact .refused
  | some parts =>
    obtain ⟨left, right⟩ := parts
    by_cases hleft : left = ""
    · simpa [hleft] using AddsRule.refused
    · cases hn : p.toInt (trimmed right) with
      | none => simpa [hleft, hn] using AddsRule.refused
      | some n =>
        by_cases hrange : n < 0 ∨ 128 < n
        · have hout : ¬ (0 ≤ n ∧ n ≤ 128) := by omega
          simpa [hleft, hn, hrange, hout] using AddsRule.refused
        · have hin : 0 ≤ n ∧ n ≤ 128 := by omega
          cases hmake : p.makeAddress (stripOptionalBrackets (trimmed left)) with
          | none => simpa [hleft, hn, hrange, hmake] using AddsRule.refused
          | some a =>
            cases a with
            | v4 bytes =>
              simpa [hleft, hn, hrange, hmake, Address.isV6, Option.filter_some]
                using AddsRule.refused
            | v6 raw =>
              have hrule := AddsRule.rule hf out (a := .v6 (ipv6ApplyPrefixRange raw n.toNat).1)
                (b := .v6 (ipv6ApplyPrefixRange raw n.toNat).2) rfl (prefix_v6_le raw _)
                fun x => mem_prefix_v6 raw _ x
              simpa [hleft, hn, hrange, hmake, hin, Address.isV6, Option.filter_some] using hrule

/-- The two end points may come in either order. -/
theorem adds_addOrdered (hf : filter.Law) (out : F) {a b : Address} (hfam : a.isV6 = b.isV6) :
    AddsRule filter out (some (rangeSet a b)) (some (addOrdered filter a b out)) := by
  unfold addOrdered
  by_cases hgt : memcmpGt a.bytes b.bytes = true
  · have hlt := (memcmpGt_bytes hfam).mp hgt
    rw [if_pos hgt]
    refine .rule hf out hfam.symm (by omega) fun x => ?_
    simp [rangeSet, hfam, Nat.min_eq_right (Nat.le_of_lt hlt), Nat.max_eq_left (Nat.le_of_lt hlt)]
  · have hle : a.value ≤ b.value := by
      rw [memcmpGt_bytes hfam] at hgt
      omega
    rw [if_neg hgt]
    refine .rule hf out hfam hle fun x => ?_
    simp [rangeSet, Nat.min_eq_left hle, Nat.max_eq_right hle]

theorem adds_appendRangeIpv4 (hf : filter.Law) (t : String) (out : F) :
    AddsRule filter out (betweenSet (parseDottedIPv4 p) (trimmed t)) (appendRangeIpv4 p filter t out) := by
  unfold betweenSet appendRangeIpv4
  cases cut " - " (trimmed t) with
  | none => exact .refused
  | some parts =>
    obtain ⟨left, right⟩ := parts
    cases ha : parseDottedIPv4 p left with
    | none => simpa [ha] using AddsRule.refused
    | some a =>
      cases hb : parseDottedIPv4 p right with
      | none => simpa [ha, hb] using AddsRule.refused
      | some b =>
        have hfam : a.isV6 = b.isV6 := by
          obtain ⟨_, -, rfl⟩ := parseDottedIPv4_eq_some ha
          obtain ⟨_, -, rfl⟩ := parseDottedIPv4_eq_some hb
          rfl
        simpa [ha, hb] using adds_addOrdered hf out hfam

theorem adds_appendRangeIpv6 (hf : filter.Law) (t : String) (out : F) :
    AddsRule filter out (betweenSet (ipv6In p) (trimmed t)) (appendRangeIpv6 p filter t out) := by
  unfold betweenSet appendRangeIpv6 ipv6In
  cases cut " - " (trimmed t) with
  | none => exact .refused
  | some parts =>
    obtain ⟨left, right⟩ := parts
    cases ha : parseAnySingleIp p left with
    | none => simpa [ha] using AddsRule.refused
    | some a =>
      cases hb : parseAnySingleIp p right with
      | none => cases hva : a.isV6 <;> simpa [ha, hb, hva, Option.filter_some] using AddsRule.refused
      | some b =>
        cases hva : a.isV6 with
        | false => simpa [ha, hb, hva, Option.filter_some] using AddsRule.refused
        | true =>
          cases hvb : b.isV6 with
          | false => simpa [ha, hb, hva, hvb, Option.filter_some] using AddsRule.refused
          | true =>
            simpa [ha, hb, hva, hvb, Option.filter_some]
              using adds_addOrdered hf out (hva.trans hvb.symm)

theorem looksLikeIpv6_trimmed {s : String} (h : lineLooksLikeIpv6 s = true) :
    lineLooksLikeIpv6 (trimmed s) = true := by
  unfold lineLooksLikeIpv6 at h ⊢
  rw [Bool.or_eq_true, decide_eq_true_iff, decide_eq_true_iff] at h ⊢
  rcases h with hcolon | hbracket
  · exact .inl (mem_trimmed hcolon (by decide))
  · exact .inr (head?_trimmed hbracket (by decide))

/-- A text that looks like an IPv6 address has no IPv4 address. -/
theorem parseDottedIPv4_none (hp : p.Law) {s : String} (h : lineLooksLikeIpv6 (trimmed s) = true) :
    parseDottedIPv4 p s = none := by
  cases ha : parseDottedIPv4 p s with
  | none => rfl
  | some a =>
    obtain ⟨host, hset, -⟩ := parseDottedIPv4_eq_some ha
    rw [hp.ipv4_plain _ host hset] at h
    cases h

theorem mem_of_mem_stripOptionalBrackets {s : String} {c : Char}
    (h : c ∈ (stripOptionalBrackets s).toList) : c ∈ (trimmed s).toList := by
  unfold stripOptionalBrackets at h
  dsimp only at h
  split_ifs at h
  · rw [String.toList_ofList] at h
    exact List.mem_of_mem_drop (List.mem_of_mem_take h)
  · rwa [String.toList_ofList] at h

/-- A text that does not has no IPv6 address. -/
theorem ipv6In_none (hp : p.Law) {s : String} (h : lineLooksLikeIpv6 (trimmed s) = false) :
    ipv6In p s = none := by
  cases ha : ipv6In p s with
  | none => rfl
  | some a =>
    obtain ⟨hparse, hv6⟩ := Option.filter_eq_some_iff.mp ha
    have hcolon := mem_of_mem_stripOptionalBrackets
      (hp.ipv6_colon _ (parseAnySingleIp_isV6 hparse hv6))
    simp [lineLooksLikeIpv6, hcolon] at h

/-! ### Which of the two families -/

theorem cidrSet_eq_none {base : String → Option Address} {max : Int} {t left right : String}
    (hcut : cut "/" t = some (left, right)) (h : base left = none) :
    cidrSet p base max t = none := by
  unfold cidrSet
  simp [hcut, h]

theorem betweenSet_eq_none {address : String → Option Address} {t left right : String}
    (hcut : cut " - " t = some (left, right)) (h : address left = none ∨ address right = none) :
    betweenSet address t = none := by
  unfold betweenSet
  rcases h with h | h <;> simp [hcut, h]

/-- What a line with two addresses denotes. -/
theorem betweenSet_or (hp : p.Law) {t left right : String} (hcut : cut " - " t = some (left, right)) :
    (betweenSet (parseDottedIPv4 p) t).or (betweenSet (ipv6In p) t) =
      if lineLooksLikeIpv6 (trimmed left) || lineLooksLikeIpv6 (trimmed right) then
        if !lineLooksLikeIpv6 (trimmed left) || !lineLooksLikeIpv6 (trimmed right) then none
        else betweenSet (ipv6In p) t
      else betweenSet (parseDottedIPv4 p) t := by
  cases hl : lineLooksLikeIpv6 (trimmed left) with
  | true =>
    rw [betweenSet_eq_none hcut (.inl (parseDottedIPv4_none hp hl)), Option.none_or]
    cases hr : lineLooksLikeIpv6 (trimmed right) with
    | true => simp
    | false =>
      rw [betweenSet_eq_none hcut (.inr (ipv6In_none hp hr))]
      simp
  | false =>
    rw [betweenSet_eq_none hcut (.inl (ipv6In_none hp hl)), Option.or_none]
    cases hr : lineLooksLikeIpv6 (trimmed right) with
    | true =>
      rw [betweenSet_eq_none hcut (.inr (parseDottedIPv4_none hp hr))]
      simp
    | false => simp

theorem AddsRule.ite {out : F} {b : Bool} {S T : Option (Set Address)} {r r' : Option F}
    (h : AddsRule filter out S r) (h' : AddsRule filter out T r') :
    AddsRule filter out (if b then S else T) (if b then r else r') := by
  cases b
  · exact h'
  · exact h

/-- A rule for one address. -/
theorem adds_single (hf : filter.Law) (out : F) (found : Option Address) :
    AddsRule filter out (found.map fun a => {a}) (found.map fun a => filter.addRule out a a) := by
  cases found with
  | none => exact .refused
  | some a =>
    have hmem : ∀ x : Address, x ∈ ({a} : Set Address) ↔
        x.isV6 = a.isV6 ∧ a.value ≤ x.value ∧ x.value ≤ a.value := by
      intro x
      rw [Set.mem_singleton_iff]
      constructor
      · intro heq
        rw [heq]
        exact ⟨rfl, Nat.le_refl _, Nat.le_refl _⟩
      · intro hx
        exact eq_of_value_eq hx.1 (Nat.le_antisymm hx.2.2 hx.2.1)
    exact .rule hf out rfl (Nat.le_refl _) hmem

theorem adds_appendIpFilterLine (hp : p.Law) (hf : filter.Law) {line : String}
    (hline : isComment (trimmed line) = false) (out : F) :
    AddsRule filter out (ruleSet p line) (appendIpFilterLine p filter line out) := by
  unfold ruleSet appendIpFilterLine
  simp only [hline, Bool.false_eq_true, if_false]
  cases hslash : cut "/" (trimmed line) with
  | some parts =>
    obtain ⟨left, right⟩ := parts
    simp only [Option.isSome_some, if_true]
    have hv6 := adds_appendCidrIpv6 (p := p) hf (trimmed line) out
    by_cases h6 : lineLooksLikeIpv6 left = true
    · have hnone := parseDottedIPv4_none hp (looksLikeIpv6_trimmed h6)
      rw [if_pos h6, cidrSet_eq_none hslash hnone]
      exact hv6
    · rw [if_neg h6]
      have hboth := (adds_appendCidrIpv4 (p := p) hf (trimmed line) out).or hv6
      cases hadd : appendCidrIpv4 p filter (trimmed line) out <;> simpa [hadd] using hboth
  | none =>
    simp only [Option.isSome_none, Bool.false_eq_true, if_false]
    cases hdash : cut " - " (trimmed line) with
    | some parts =>
      obtain ⟨left, right⟩ := parts
      simp only [Option.isSome_some, if_true]
      have hv4 := adds_appendRangeIpv4 (p := p) hf (trimmed line) out
      have hv6 := adds_appendRangeIpv6 (p := p) hf (trimmed line) out
      rw [trimmed_trimmed] at hv4 hv6
      rw [betweenSet_or hp hdash]
      exact .ite (.ite .refused hv6) hv4
    | none =>
      simp only [Option.isSome_none, Bool.false_eq_true, if_false]
      exact adds_single hf out _

/-! ### The file -/

/-- The addresses that some line denotes. -/
def blockedBy (p : AddressParsers) (lines : List String) : Set Address :=
  {x | ∃ line ∈ lines, ∃ S, ruleSet p line = some S ∧ x ∈ S}

/-- The number of lines that denote addresses. -/
noncomputable def validLines (p : AddressParsers) (lines : List String) : Nat :=
  lines.countP fun line => (ruleSet p line).isSome

/-- One turn of the loop: a line that denotes addresses adds them and is counted, another does
nothing. -/
theorem loadLine_spec (hp : p.Law) (hf : filter.Law) (s : F × Nat) (line : String) :
    (∀ x, filter.isBlocked (loadLine p filter s line).1 x = true ↔
      filter.isBlocked s.1 x = true ∨ ∃ S, ruleSet p line = some S ∧ x ∈ S) ∧
    (loadLine p filter s line).2 = s.2 + if (ruleSet p line).isSome then 1 else 0 := by
  unfold loadLine
  cases hcomment : isComment (trimmed line) with
  | true => simp [ruleSet, hcomment]
  | false =>
    simp only [hcomment, Bool.false_eq_true, if_false]
    have hadds := adds_appendIpFilterLine (p := p) hp hf
      (by rwa [trimmed_trimmed]) s.1
    have hrule : ruleSet p (trimmed line) = ruleSet p line := by
      unfold ruleSet
      rw [trimmed_trimmed]
    rw [hrule] at hadds
    generalize ruleSet p line = rule at hadds
    generalize appendIpFilterLine p filter (trimmed line) s.1 = added at hadds
    cases hadds with
    | refused => simp
    | added h => simp [h]

theorem foldl_loadLine_spec (hp : p.Law) (hf : filter.Law) (lines : List String) (s : F × Nat) :
    (∀ x, filter.isBlocked (lines.foldl (loadLine p filter) s).1 x = true ↔
      filter.isBlocked s.1 x = true ∨ x ∈ blockedBy p lines) ∧
    (lines.foldl (loadLine p filter) s).2 = s.2 + validLines p lines := by
  induction lines generalizing s with
  | nil => simp [blockedBy, validLines]
  | cons line lines ih =>
    obtain ⟨hstep, hcount⟩ := loadLine_spec (p := p) hp hf s line
    obtain ⟨hrest, hrestCount⟩ := ih (loadLine p filter s line)
    constructor
    · intro x
      rw [List.foldl_cons, hrest, hstep]
      simp only [blockedBy, Set.mem_ofPred_eq, List.mem_cons, exists_eq_or_imp, or_assoc]
    · rw [List.foldl_cons, hrestCount, hcount, validLines, validLines, List.countP_cons]
      omega

/-- After a filter file with any lines is loaded, exactly the addresses that its valid lines denote are
blocked, the valid lines are counted, and the order of the lines does not matter. -/
theorem loadIpFilterFile_correct (hp : p.Law) (hf : filter.Law) (lines : List String) :
    (∀ x, filter.isBlocked (loadIpFilterFile p filter (some lines)).filter x = true ↔
      x ∈ blockedBy p lines) ∧
    (loadIpFilterFile p filter (some lines)).rulesApplied = some (validLines p lines) ∧
    ∀ lines', lines.Perm lines' → ∀ x,
      filter.isBlocked (loadIpFilterFile p filter (some lines')).filter x =
        filter.isBlocked (loadIpFilterFile p filter (some lines)).filter x := by
  have hload : ∀ lines x,
      filter.isBlocked (loadIpFilterFile p filter (some lines)).filter x = true ↔
        x ∈ blockedBy p lines := by
    intro lines x
    have hfold := (foldl_loadLine_spec (p := p) hp hf lines (filter.empty, 0)).1 x
    simpa [loadIpFilterFile, hf.isBlocked_empty] using hfold
  refine ⟨hload lines, ?_, fun lines' hperm x => ?_⟩
  · have hcount := (foldl_loadLine_spec (p := p) hp hf lines (filter.empty, 0)).2
    simpa [loadIpFilterFile] using hcount
  · rw [Bool.eq_iff_iff, hload, hload]
    simp only [blockedBy, Set.mem_ofPred_eq, hperm.mem_iff]

/-! ### A filter and parsers that behave so -/

/-- The rules as a list of ranges. -/
def ruleList : IpFilter (List (Address × Address)) where
  empty := []
  addRule rules a b := (a, b) :: rules
  isBlocked rules x := rules.any fun r =>
    x.isV6 = r.1.isV6 && r.1.value ≤ x.value && x.value ≤ r.2.value

theorem ruleList_law : ruleList.Law where
  isBlocked_empty x := rfl
  isBlocked_addRule rules a b x _ _ := by
    simp [ruleList, or_comm, and_assoc]

/-- The addresses of the lines below. -/
def sampleParsers : AddressParsers where
  setAddress s :=
    if s = "192.0.2.1" then some (.ipv4 0xC0000201)
    else if s = "192.0.2.3" then some (.ipv4 0xC0000203)
    else if s = "2001:db8::" then some .ipv6
    else none
  makeAddress s :=
    if s = "2001:db8::" then
      some (.v6 ⟨[0x20, 0x01, 0x0d, 0xb8, 0, 0, 0, 0, 0, 0, 0, 0, 0, 0, 0, 0], rfl⟩)
    else none
  toInt s := if s = "32" then some 32 else none

theorem sampleParsers_law : sampleParsers.Law where
  ipv4_plain s host h := by
    unfold sampleParsers at h
    dsimp only at h
    split_ifs at h with h1 h3 h6
    · rw [h1]
      decide
    · rw [h3]
      decide
    · cases h
  ipv6_colon s h := by
    unfold sampleParsers at h
    dsimp only at h
    split_ifs at h with h1 h3 h6
    · cases h
    · cases h
    · rw [h6]
      decide

/-- A comment, a range with its end points swapped, an IPv6 prefix in brackets and an invalid line. -/
theorem loadIpFilterFile_sample :
    (loadIpFilterFile sampleParsers ruleList
      (some ["# header", "192.0.2.3 - 192.0.2.1", " [2001:db8::]/32", "oops"])).rulesApplied =
        some 2 ∧
    ∀ x, ruleList.isBlocked (loadIpFilterFile sampleParsers ruleList
      (some ["# header", "192.0.2.3 - 192.0.2.1", " [2001:db8::]/32", "oops"])).filter x = true ↔
        x ∈ blockedBy sampleParsers
          ["# header", "192.0.2.3 - 192.0.2.1", " [2001:db8::]/32", "oops"] :=
  ⟨by decide, (loadIpFilterFile_correct sampleParsers_law ruleList_law _).1⟩

end TorrentLink.Lt

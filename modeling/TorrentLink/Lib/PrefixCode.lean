import Mathlib.Computability.Language
import Mathlib.InformationTheory.Coding.UniquelyDecodable

/-!
# Texts over a prefix-free code

The words of a code, none of which begins another one, are read off a text one after the other: a text is
made of words in one way only (`PrefixFree.uniquelyDecodable`), and the words that it begins with can be
taken off (`PrefixFree.append_mem_kstar_iff`).
-/

namespace TorrentLink.Lib

variable {α : Type*}

/-- No word is empty, or begins another one. -/
structure PrefixFree (code : Language α) : Prop where
  ne_nil : ∀ w ∈ code, w ≠ []
  eq_of_prefix : ∀ w ∈ code, ∀ w' ∈ code, w <+: w' → w = w'

variable {code code' : Language α} {w text : List α}

/-- Two words that begin one text are the same. -/
theorem PrefixFree.eq_of_append (h : PrefixFree code) {w' rest rest' : List α} (hw : w ∈ code)
    (hw' : w' ∈ code) (htext : w ++ rest = w' ++ rest') : w = w' ∧ rest = rest' := by
  have hboth : w <+: w' ++ rest' := ⟨rest, htext⟩
  have hsame : w = w' := by
    rcases List.prefix_or_prefix_of_prefix hboth (List.prefix_append w' rest') with hpre | hpre
    · exact h.eq_of_prefix w hw w' hw' hpre
    · exact (h.eq_of_prefix w' hw' w hw hpre).symm
  subst hsame
  exact ⟨rfl, List.append_cancel_left htext⟩

theorem PrefixFree.uniquelyDecodable (h : PrefixFree code) :
    InformationTheory.UniquelyDecodable code := by
  intro words words' hwords hwords' htext
  induction words generalizing words' with
  | nil =>
    cases words' with
    | nil => rfl
    | cons w' words' =>
      have hnil : w' = [] := (List.append_eq_nil_iff.mp htext.symm).1
      exact absurd hnil (h.ne_nil w' (hwords' w' List.mem_cons_self))
  | cons w words ih =>
    cases words' with
    | nil =>
      have hnil : w = [] := (List.append_eq_nil_iff.mp htext).1
      exact absurd hnil (h.ne_nil w (hwords w List.mem_cons_self))
    | cons w' words' =>
      obtain ⟨rfl, hrest⟩ :=
        h.eq_of_append (hwords w List.mem_cons_self) (hwords' w' List.mem_cons_self) htext
      rw [ih words' (fun v hv => hwords v (List.mem_cons_of_mem _ hv))
        (fun v hv => hwords' v (List.mem_cons_of_mem _ hv)) hrest]

theorem append_mem_kstar (hw : w ∈ code) (htext : text ∈ KStar.kstar code) :
    w ++ text ∈ KStar.kstar code := by
  obtain ⟨words, rfl, hwords⟩ := Language.mem_kstar.mp htext
  refine Language.mem_kstar.mpr ⟨w :: words, rfl, fun v hv => ?_⟩
  rcases List.mem_cons.mp hv with rfl | hv
  · exact hw
  · exact hwords v hv

/-- A text begins with a word. -/
theorem exists_append_of_mem_kstar (hne : text ≠ []) (htext : text ∈ KStar.kstar code) :
    ∃ w ∈ code, ∃ rest ∈ KStar.kstar code, text = w ++ rest := by
  obtain ⟨words, rfl, hwords⟩ := Language.mem_kstar.mp htext
  cases words with
  | nil => exact absurd rfl hne
  | cons w words =>
    exact ⟨w, hwords w List.mem_cons_self, words.flatten,
      Language.join_mem_kstar fun v hv => hwords v (List.mem_cons_of_mem _ hv), rfl⟩

theorem PrefixFree.append_mem_kstar_iff (h : PrefixFree code) (hw : w ∈ code) :
    w ++ text ∈ KStar.kstar code ↔ text ∈ KStar.kstar code := by
  refine ⟨fun hall => ?_, append_mem_kstar hw⟩
  have hne : w ++ text ≠ [] := fun hnil => h.ne_nil w hw (List.append_eq_nil_iff.mp hnil).1
  obtain ⟨w', hw', rest, hrest, heq⟩ := exists_append_of_mem_kstar hne hall
  obtain ⟨rfl, rfl⟩ := h.eq_of_append hw hw' heq
  exact hrest

/-- A text over a larger code is not one over the smaller if and only if it has one of the words added. -/
theorem PrefixFree.mem_kstar_sub_iff (h : PrefixFree code') (hle : ∀ w ∈ code, w ∈ code') :
    text ∈ KStar.kstar code' ∧ text ∉ KStar.kstar code ↔
      ∃ words : List (List α), text = words.flatten ∧ (∀ w ∈ words, w ∈ code') ∧ ∃ w ∈ words, w ∉ code := by
  constructor
  · rintro ⟨hwide, hnot⟩
    obtain ⟨words, rfl, hwords⟩ := Language.mem_kstar.mp hwide
    refine ⟨words, rfl, hwords, ?_⟩
    by_contra hall
    refine hnot (Language.join_mem_kstar fun w hw => ?_)
    by_contra hout
    exact hall ⟨w, hw, hout⟩
  · rintro ⟨words, rfl, hwords, w, hw, hout⟩
    refine ⟨Language.join_mem_kstar hwords, fun hnarrow => ?_⟩
    obtain ⟨words', hsame, hwords'⟩ := Language.mem_kstar.mp hnarrow
    rw [h.uniquelyDecodable words words' hwords (fun v hv => hle v (hwords' v hv)) hsame] at hw
    exact hout (hwords' w hw)

end TorrentLink.Lib

import Mathlib.Data.Nat.Digits.Lemmas

/-!
# Texts over an alphabet as numbers

The place of a letter in the alphabet is its value as a digit, the first letter of a text being the most
significant. Texts of one length stand for different numbers.
-/

namespace TorrentLink.Lib

variable {α : Type} [DecidableEq α] {alphabet text text' : List α}

/-- The number that a text stands for. -/
def numeral (alphabet text : List α) : Nat :=
  Nat.ofDigits alphabet.length (text.map alphabet.idxOf).reverse

theorem digit_lt (h : ∀ c ∈ text, c ∈ alphabet) :
    ∀ d ∈ (text.map alphabet.idxOf).reverse, d < alphabet.length := by
  intro d hd
  obtain ⟨c, hc, rfl⟩ := List.mem_map.mp (List.mem_reverse.mp hd)
  exact List.idxOf_lt_length_iff.mpr (h c hc)

theorem numeral_lt (halphabet : 1 < alphabet.length) (h : ∀ c ∈ text, c ∈ alphabet) :
    numeral alphabet text < alphabet.length ^ text.length := by
  have hlt := Nat.ofDigits_lt_base_pow_length halphabet (digit_lt h)
  rwa [List.length_reverse, List.length_map] at hlt

theorem numeral_inj (halphabet : 1 < alphabet.length) (hlength : text.length = text'.length)
    (h : ∀ c ∈ text, c ∈ alphabet) (h' : ∀ c ∈ text', c ∈ alphabet) :
    numeral alphabet text = numeral alphabet text' ↔ text = text' := by
  constructor
  · intro heq
    have hdigits := Nat.ofDigits_inj_of_len_eq halphabet (by simp [hlength]) (digit_lt h)
      (digit_lt h') heq
    have hmap := List.reverse_injective hdigits
    refine List.ext_getElem hlength fun i hi hi' => ?_
    have hat : alphabet.idxOf text[i] = alphabet.idxOf text'[i] := by
      simpa [List.getElem?_eq_getElem hi, List.getElem?_eq_getElem hi'] using congrArg (·[i]?) hmap
    exact (List.idxOf_inj (h _ (List.getElem_mem hi))).mp hat
  · rintro rfl
    rfl

end TorrentLink.Lib

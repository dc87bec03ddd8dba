/-
The case of letters. In a text of the basic alphabet the lower case is that of the single
characters, wherever they stand.
-/
import ServiceModel.Text.Case
import Mathlib

namespace ServiceModel.Text

/-! ## The basic alphabet -/

theorem lowerChar_of_lt {c : Char} (h : c.toNat < 128) : lowerChar c = [c.toLower] := by
  rw [lowerChar, if_pos h]

theorem upperChar_of_lt {c : Char} (h : c.toNat < 128) : upperChar c = [c.toUpper] := by
  rw [upperChar, if_pos h]

theorem isLower_lt {c : Char} (h : c.isLower = true) : c.toNat < 128 := by
  have range : 97 ≤ c.toNat ∧ c.toNat ≤ 122 := by
    simpa [Char.isLower, UInt32.le_iff_toNat_le] using h
  omega

theorem toLower_lt {c : Char} (h : c.toNat < 128) : c.toLower.toNat < 128 := by
  by_cases hu : c.isUpper = true
  · have range : 65 ≤ c.toNat ∧ c.toNat ≤ 90 := by
      simpa [Char.isUpper, UInt32.le_iff_toNat_le] using hu
    rw [Char.toLower_eq_of_isUpper hu, Char.toNat_ofNat]
    split <;> omega
  · rwa [Char.toLower_eq_of_not_isUpper hu]

theorem toUpper_lt {c : Char} (h : c.toNat < 128) : c.toUpper.toNat < 128 := by
  by_cases hl : c.isLower = true
  · rw [Char.toUpper_eq_of_isLower hl, Char.toNat_ofNat]
    split <;> omega
  · rwa [Char.toUpper_eq_of_not_isLower hl]

theorem ne_sigma_of_lt {c : Char} (h : c.toNat < 128) : c ≠ sigma := by
  rintro rfl
  exact absurd h (by decide)

theorem lowerAfter_of_lt {text : List Char} (h : ∀ c ∈ text, c.toNat < 128) (before : List Char) :
    lowerAfter before text = text.map Char.toLower := by
  induction text generalizing before with
  | nil => rfl
  | cons c rest ih =>
    obtain ⟨hc, hr⟩ := List.forall_mem_cons.1 h
    rw [lowerAfter, if_neg (ne_sigma_of_lt hc), lowerChar_of_lt hc, ih hr]
    rfl

theorem lowercase_of_lt {text : List Char} (h : ∀ c ∈ text, c.toNat < 128) :
    lowercase text = text.map Char.toLower :=
  lowerAfter_of_lt h []

theorem uppercase_of_lt {text : List Char} (h : ∀ c ∈ text, c.toNat < 128) :
    uppercase text = text.map Char.toUpper := by
  induction text with
  | nil => rfl
  | cons c rest ih =>
    obtain ⟨hc, hr⟩ := List.forall_mem_cons.1 h
    rw [uppercase, List.flatMap_cons, upperChar_of_lt hc, ← uppercase, ih hr]
    rfl

end ServiceModel.Text

/-
No two spans are written alike: a written span has six parts, none of which holds a semicolon, and
each part is an integer that can be read off it.
-/
import ServiceModel.Proofs.Text.Split
import ServiceModel.Text.Range
import Mathlib.Data.List.Basic

namespace ServiceModel.Text

theorem isDigit_of_mem_repr {n : Nat} {c : Char} (h : c ∈ n.repr.toList) : c.isDigit = true := by
  rw [Nat.repr_eq_ofList_toDigits, String.toList_ofList] at h
  exact Nat.isDigit_of_mem_toDigits (by decide) (by decide) h

theorem repr_injective {m n : Nat} (h : m.repr = n.repr) : m = n := by
  rw [Nat.repr_eq_ofList_toDigits, Nat.repr_eq_ofList_toDigits] at h
  have digits : Nat.toDigits 10 m = Nat.toDigits 10 n := String.ofList_inj.1 h
  have read : ∀ k : Nat, Nat.ofDigitChars 10 (Nat.toDigits 10 k) 0 = k := fun k =>
    Nat.ofDigitChars_toDigits (by decide) (by decide)
  rw [← read m, digits, read n]

theorem toString_negSucc (n : Nat) : toString (Int.negSucc n) = "-" ++ (n + 1).repr := rfl

/-- A natural number is written without a sign. -/
theorem repr_ne_negated {m n : Nat} : m.repr ≠ "-" ++ n.repr := by
  intro h
  have signed : '-' ∈ m.repr.toList := by
    rw [h, String.toList_append]
    exact List.mem_append_left _ (by decide)
  exact absurd (isDigit_of_mem_repr signed) (by decide)

theorem toString_injective {i j : Int} (h : toString i = toString j) : i = j := by
  cases i with
  | ofNat m =>
    cases j with
    | ofNat n => rw [repr_injective h]
    | negSucc n => exact absurd h repr_ne_negated
  | negSucc m =>
    cases j with
    | ofNat n => exact absurd h.symm repr_ne_negated
    | negSucc n =>
      rw [toString_negSucc, toString_negSucc, String.append_right_inj] at h
      rw [Nat.succ.inj (repr_injective h)]

theorem semicolon_not_mem_toString (i : Int) : ';' ∉ (toString i).toList := by
  have digits : ∀ n : Nat, ';' ∉ n.repr.toList := fun n hm =>
    absurd (isDigit_of_mem_repr hm) (by decide)
  cases i with
  | ofNat n => exact digits n
  | negSucc n =>
    rw [toString_negSucc, String.toList_append, List.mem_append]
    rintro (hm | hm)
    · exact absurd hm (by decide)
    · exact digits _ hm

namespace Range

theorem numbers_injective {range range' : Range} (h : range.numbers = range'.numbers) :
    range = range' := by
  obtain ⟨⟨a, b, c⟩, ⟨d, e, f⟩⟩ := range
  obtain ⟨⟨a', b', c'⟩, ⟨d', e', f'⟩⟩ := range'
  simp only [Range.numbers, List.cons.injEq, and_true] at h
  obtain ⟨rfl, rfl, rfl, rfl, rfl, rfl⟩ := h
  rfl

theorem cut_encode (range : Range) :
    cut ';' range.encode.toList = range.numbers.map fun i => (toString i).toList := by
  have parts : ∀ piece ∈ range.numbers.map toString, ';' ∉ piece.toList := by
    intro piece hp
    obtain ⟨i, -, rfl⟩ := List.mem_map.1 hp
    exact semicolon_not_mem_toString i
  have some : range.numbers.map toString ≠ [] := List.cons_ne_nil _ _
  have joined := cut_intercalate some parts
  rw [List.map_map] at joined
  exact joined

theorem encode_injective {range range' : Range} (h : range.encode = range'.encode) :
    range = range' := by
  have same : range.numbers.map (fun i => (toString i).toList) =
      range'.numbers.map fun i => (toString i).toList := by
    rw [← cut_encode, ← cut_encode, h]
  have injective : Function.Injective fun i : Int => (toString i).toList := fun i j hij =>
    toString_injective (String.toList_inj.1 hij)
  exact numbers_injective (List.map_injective_iff.2 injective same)

theorem encode_inj {range range' : Range} : range.encode = range'.encode ↔ range = range' :=
  ⟨encode_injective, fun h => by rw [h]⟩

end Range

end ServiceModel.Text

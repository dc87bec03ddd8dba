/-
Lists in which every element occurs once. `eraseDups` keeps the first occurrence of each element;
element by element, a list grows by what it does not hold yet.
-/
import Mathlib.Data.List.Nodup

namespace ServiceModel

variable {α : Type} [BEq α] [LawfulBEq α]

theorem nodup_eraseDups : ∀ xs : List α, xs.eraseDups.Nodup
  | [] => by
    rw [List.eraseDups_nil]
    exact List.nodup_nil
  | x :: xs => by
    rw [List.eraseDups_cons, List.nodup_cons]
    refine ⟨fun h => ?_, nodup_eraseDups _⟩
    have kept := (List.mem_filter.1 (List.mem_eraseDups.1 h)).2
    rw [beq_self_eq_true] at kept
    cases kept
  termination_by xs => xs.length
  decreasing_by
    have := List.length_filter_le (fun y => !y == x) xs
    simp only [List.length_cons]
    omega

/-- Nothing is dropped where nothing is repeated. -/
theorem eraseDups_eq_self {xs : List α} (h : xs.Nodup) : xs.eraseDups = xs := by
  induction xs with
  | nil => rfl
  | cons x xs ih =>
    obtain ⟨hx, hxs⟩ := List.nodup_cons.1 h
    have kept : xs.filter (fun y => !y == x) = xs := by
      rw [List.filter_eq_self]
      intro y hy
      have differs : y ≠ x := fun he => hx (he ▸ hy)
      simpa using differs
    rw [List.eraseDups_cons, kept, ih hxs]

/-- An element that is not there yet stands last. -/
theorem eraseDups_concat {xs : List α} {x : α} :
    (xs ++ [x]).eraseDups = if x ∈ xs then xs.eraseDups else xs.eraseDups ++ [x] := by
  rw [List.eraseDups_append, List.cons_removeAll, List.nil_removeAll]
  by_cases h : x ∈ xs
  · simp [h]
  · simp [h, List.eraseDups_cons]

end ServiceModel

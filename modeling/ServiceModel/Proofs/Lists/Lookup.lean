/-
Looking up in a list: the first pair with a key counts, and where no key is repeated, the order of
the list does not matter.
-/
import Mathlib.Data.List.Nodup
import Mathlib.Data.List.Perm.Basic

namespace ServiceModel

variable {α β : Type}

/-- Looking up goes on behind a pair with another key. -/
theorem lookup_cons_if [BEq α] [LawfulBEq α] [DecidableEq α] (key other : α) (value : β)
    (rest : List (α × β)) :
    List.lookup key ((other, value) :: rest) =
      if key = other then some value else List.lookup key rest := by
  rw [List.lookup_cons]
  by_cases h : key = other
  · rw [beq_iff_eq.2 h, if_pos h]
  · rw [beq_eq_false_iff_ne.2 h, if_neg h]

/-- What is found by a name that occurs once is found in any order. -/
theorem find?_perm {name : α → String} {xs ys : List α} (h : xs.Perm ys) (hn : (xs.map name).Nodup)
    (n : String) : xs.find? (name · == n) = ys.find? (name · == n) := by
  cases hx : xs.find? (name · == n) with
  | none =>
    have absent := List.find?_eq_none.1 hx
    exact (List.find?_eq_none.2 fun y hy => absent y (h.mem_iff.2 hy)).symm
  | some x =>
    have here : name x = n := by simpa using List.find?_some hx
    have hm := List.mem_of_find?_eq_some hx
    cases hy : ys.find? (name · == n) with
    | none =>
      have absent := List.find?_eq_none.1 hy x (h.mem_iff.1 hm)
      exact absurd (beq_iff_eq.2 here) absent
    | some y =>
      have there : name y = n := by simpa using List.find?_some hy
      have hm' := h.mem_iff.2 (List.mem_of_find?_eq_some hy)
      rw [List.inj_on_of_nodup_map hn hm hm' (here.trans there.symm)]

theorem lookup_eq_find? (key : String) (pairs : List (String × β)) :
    pairs.lookup key = (pairs.find? (·.1 == key)).map (·.2) := by
  induction pairs with
  | nil => rfl
  | cons pair rest ih =>
    obtain ⟨other, value⟩ := pair
    rw [lookup_cons_if, List.find?_cons, ih]
    by_cases h : key = other
    · rw [if_pos h, beq_iff_eq.2 h.symm]
      rfl
    · rw [if_neg h, beq_eq_false_iff_ne.2 (Ne.symm h)]

theorem lookup_perm {pairs pairs' : List (String × β)} (h : pairs.Perm pairs')
    (hn : (pairs.map (·.1)).Nodup) (key : String) : pairs.lookup key = pairs'.lookup key := by
  rw [lookup_eq_find?, lookup_eq_find?, find?_perm h hn]

/-- What may be found is in every reflexive relation to itself. -/
theorem optionRel_self {R : α → α → Prop} (h : ∀ a, R a a) (found : Option α) :
    Option.Rel R found found := by
  cases found with
  | none => exact .none
  | some a => exact .some (h a)

end ServiceModel

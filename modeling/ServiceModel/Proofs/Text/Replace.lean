/-
Replacing every occurrence of one text by another. Occurrences are found from the left and do not
overlap; what stands between them stays, character by character.
-/
namespace ServiceModel.Text

/-- The text with every occurrence of `old`, which is not empty, replaced by `new`. Occurrences
are looked for from the left, and behind each one that is found. -/
def replace (old new : List Char) : List Char → List Char
  | [] => []
  | c :: rest =>
    if old.isPrefixOf (c :: rest) then new ++ replace old new (rest.drop (old.length - 1))
    else c :: replace old new rest
termination_by text => text.length
decreasing_by
  · rw [List.length_drop, List.length_cons]
    omega
  · exact Nat.lt_succ_self _

variable {new rest : List Char} {a b c : Char}

@[simp] theorem replace_nil (old : List Char) : replace old new [] = [] := by
  rw [replace]

theorem replace_one (h : c = a) : replace [a] new (c :: rest) = new ++ replace [a] new rest := by
  rw [replace, if_pos (by simp [List.isPrefixOf, h])]
  rfl

theorem replace_one_other (h : c ≠ a) :
    replace [a] new (c :: rest) = c :: replace [a] new rest := by
  rw [replace, if_neg (by simp [List.isPrefixOf, h.symm])]

theorem replace_two : replace [a, b] new (a :: b :: rest) = new ++ replace [a, b] new rest := by
  rw [replace, if_pos (by simp [List.isPrefixOf])]
  rfl

/-- A character with which no occurrence starts stays. -/
theorem replace_two_other (h : c = a → rest.head? ≠ some b) :
    replace [a, b] new (c :: rest) = c :: replace [a, b] new rest := by
  rw [replace, if_neg]
  intro occurs
  obtain ⟨behind, same⟩ := List.isPrefixOf_iff_prefix.1 occurs
  injection same with first same
  exact h first.symm (by rw [← same]; rfl)

end ServiceModel.Text

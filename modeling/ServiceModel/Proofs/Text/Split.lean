/-
Cutting what was put together: a piece without the mark comes out as it went in, whether it stands
alone, in front of others, or among the pieces of a text that were joined by the mark. No piece
that comes out holds the mark.
-/
import ServiceModel.Text.Split

namespace ServiceModel.Text

variable {mark : Char}

theorem cut_of_not_mem {piece : List Char} (h : mark ∉ piece) : cut mark piece = [piece] := by
  induction piece with
  | nil => rfl
  | cons c piece ih =>
    have hc : c ≠ mark := fun he => h (he ▸ List.mem_cons_self)
    have hp : mark ∉ piece := fun hm => h (List.mem_cons_of_mem _ hm)
    rw [cut, ih hp]
    simp only [if_neg hc]

theorem cut_append {piece rest : List Char} (h : mark ∉ piece) :
    cut mark (piece ++ mark :: rest) = piece :: cut mark rest := by
  induction piece with
  | nil =>
    rw [List.nil_append, cut]
    cases hr : cut mark rest with
    | nil => exact absurd hr (cut_ne_nil mark rest)
    | cons next pieces => simp only [if_true]
  | cons c piece ih =>
    have hc : c ≠ mark := fun he => h (he ▸ List.mem_cons_self)
    have hp : mark ∉ piece := fun hm => h (List.mem_cons_of_mem _ hm)
    rw [List.cons_append, cut, ih hp]
    simp only [if_neg hc]

/-- The first piece is the text up to the first mark. -/
theorem cut_head (mark : Char) (text : List Char) :
    ∃ pieces, cut mark text = text.takeWhile (· ≠ mark) :: pieces := by
  induction text with
  | nil => exact ⟨[], rfl⟩
  | cons c rest ih =>
    obtain ⟨pieces, hp⟩ := ih
    rw [cut, hp]
    by_cases hc : c = mark
    · rw [List.takeWhile_cons_of_neg (by simpa using hc)]
      exact ⟨_, if_pos hc⟩
    · rw [List.takeWhile_cons_of_pos (by simpa using hc)]
      exact ⟨_, if_neg hc⟩

/-- The pieces behind the marks of a text are those that it is cut into. -/
theorem cut_flatMap {pieces : List (List Char)} (h : ∀ piece ∈ pieces, mark ∉ piece) :
    ∀ {first : List Char}, mark ∉ first →
      cut mark (first ++ pieces.flatMap (mark :: ·)) = first :: pieces := by
  induction pieces with
  | nil =>
    intro first hf
    rw [List.flatMap_nil, List.append_nil, cut_of_not_mem hf]
  | cons piece pieces ih =>
    intro first hf
    have rest := ih (fun p hp => h p (List.mem_cons_of_mem _ hp)) (h piece List.mem_cons_self)
    rw [List.flatMap_cons, List.cons_append, cut_append hf, rest]

/-- The pieces that a text was joined from are those that it is cut into. -/
theorem cut_intercalate {pieces : List String} (hn : pieces ≠ [])
    (h : ∀ piece ∈ pieces, mark ∉ piece.toList) :
    cut mark (String.intercalate (String.singleton mark) pieces).toList =
      pieces.map String.toList := by
  induction pieces with
  | nil => exact absurd rfl hn
  | cons piece pieces ih =>
    have first : mark ∉ piece.toList := h piece List.mem_cons_self
    cases pieces with
    | nil =>
      rw [String.intercalate_singleton, cut_of_not_mem first]
      rfl
    | cons next pieces =>
      have rest := ih (List.cons_ne_nil _ _) fun p hp => h p (List.mem_cons_of_mem _ hp)
      rw [String.intercalate_cons_cons, String.toList_append, String.toList_append,
        String.toList_singleton, List.append_assoc, List.singleton_append, cut_append first, rest]
      rfl

theorem mem_join {pieces : List (List Char)} {c : Char} (h : c ∈ join mark pieces) :
    c = mark ∨ ∃ piece ∈ pieces, c ∈ piece := by
  induction pieces with
  | nil => cases h
  | cons piece pieces ih =>
    cases pieces with
    | nil => exact .inr ⟨piece, List.mem_cons_self, h⟩
    | cons next pieces =>
      rw [join, List.mem_append, List.mem_cons] at h
      rcases h with h | h | h
      · exact .inr ⟨piece, List.mem_cons_self, h⟩
      · exact .inl h
      · rcases ih h with h | ⟨other, ho, hc⟩
        · exact .inl h
        · exact .inr ⟨other, List.mem_cons_of_mem _ ho, hc⟩
      · exact List.cons_ne_nil _ _

theorem not_mem_of_mem_cut {text piece : List Char} (h : piece ∈ cut mark text) : mark ∉ piece := by
  induction text generalizing piece with
  | nil =>
    cases List.mem_singleton.1 h
    exact List.not_mem_nil
  | cons c text ih =>
    rw [cut] at h
    cases ht : cut mark text with
    | nil => exact absurd ht (cut_ne_nil mark text)
    | cons first pieces =>
      rw [ht] at h ih
      dsimp only at h
      have plain : mark ∉ first := ih List.mem_cons_self
      split at h
      · rcases List.mem_cons.1 h with rfl | h
        · exact List.not_mem_nil
        · exact ih h
      · rename_i hc
        rcases List.mem_cons.1 h with rfl | h
        · rw [List.mem_cons, not_or]
          exact ⟨Ne.symm hc, plain⟩
        · exact ih (List.mem_cons_of_mem _ h)

/-- Every mark starts one more piece. -/
theorem length_cut (mark : Char) (text : List Char) :
    (cut mark text).length = text.count mark + 1 := by
  induction text with
  | nil => rfl
  | cons c text ih =>
    rw [cut]
    cases ht : cut mark text with
    | nil => exact absurd ht (cut_ne_nil mark text)
    | cons first pieces =>
      rw [ht, List.length_cons] at ih
      dsimp only
      split
      · rename_i hc
        rw [hc, List.count_cons_self, List.length_cons, List.length_cons, ih]
      · rename_i hc
        rw [List.count_cons_of_ne hc, List.length_cons, ih]

theorem after?_append (lead rest : List Char) : after? lead (lead ++ rest) = some rest := by
  rw [after?, if_pos (List.isPrefixOf_iff_prefix.2 (List.prefix_append lead rest)), List.drop_left]

theorem after?_eq_some {lead text rest : List Char} (h : after? lead text = some rest) :
    text = lead ++ rest := by
  unfold after? at h
  split at h
  · rename_i hp
    cases h
    obtain ⟨rest, rfl⟩ := List.isPrefixOf_iff_prefix.1 hp
    rw [List.drop_left]
  · cases h

end ServiceModel.Text

/-
Cutting a text at the occurrences of one character, and joining the pieces again. The pieces
joined by the character are the text, and no piece holds the character.
-/
namespace ServiceModel.Text

/-- The pieces between the occurrences of `mark`; a text without it is one piece. -/
def cut (mark : Char) : List Char → List (List Char)
  | [] => [[]]
  | c :: rest =>
    match cut mark rest with
    | [] => [[c]]
    | piece :: pieces => if c = mark then [] :: piece :: pieces else (c :: piece) :: pieces

/-- The pieces one after another, with `mark` between neighbours. -/
def join (mark : Char) : List (List Char) → List Char
  | [] => []
  | [piece] => piece
  | piece :: pieces => piece ++ mark :: join mark pieces

theorem cut_ne_nil (mark : Char) (text : List Char) : cut mark text ≠ [] := by
  cases text with
  | nil => simp [cut]
  | cons c rest =>
    simp only [cut]
    split
    · simp
    · split <;> simp

theorem join_cut (mark : Char) (text : List Char) : join mark (cut mark text) = text := by
  induction text with
  | nil => rfl
  | cons c rest ih =>
    rw [cut]
    cases h : cut mark rest with
    | nil => exact absurd h (cut_ne_nil mark rest)
    | cons piece pieces =>
      rw [h] at ih
      by_cases hc : c = mark
      · subst hc; simp [join, ih]
      · cases pieces <;> simp_all [join]

/-- The text after `lead`, when it starts with `lead`. -/
def after? (lead : List Char) (text : List Char) : Option (List Char) :=
  if lead.isPrefixOf text then some (text.drop lead.length) else none

end ServiceModel.Text

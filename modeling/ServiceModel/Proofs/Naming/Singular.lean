/-
The singular of a word and the case of its letters. Which answer stands for a word is decided by
the word in lower case alone, and the answer is then given in the case style of the word. So for
words of the basic alphabet the singular in lower case is the singular of the word in lower case,
and the singular of a word in capitals is in capitals.
-/
import ServiceModel.Proofs.Naming.Recasing
import ServiceModel.Proofs.Naming.Endings

namespace ServiceModel.Naming

open ServiceModel.Text

/-! ## Answers -/

/-- The first ending rule that a text fits. -/
def ruleFor? (text : List Char) : Option EndingRule :=
  endingRules.find? fun rule => rule.fits (splitLineFeed text).1

/-- What stands for a word, which is in lower case, if anything does. -/
def answer? (text : List Char) : Option (List Char) :=
  if uncountable.contains (String.ofList text) then none
  else match irregular.lookup (String.ofList text) with
    | some answer => some answer.toList
    | none => (ruleFor? text).map fun rule =>
      rule.apply (splitLineFeed text).1 ++ (splitLineFeed text).2

theorem ruleFor?_congr {text text' : List Char}
    (h : sound (splitLineFeed text).1 = sound (splitLineFeed text').1) :
    ruleFor? text = ruleFor? text' := by
  rw [ruleFor?, ruleFor?]
  refine List.find?_congr fun rule hr => ?_
  exact (wellFormed_of_mem rule hr).fits_congr h

theorem ruleFor?_lowers {text lowered : List Char} (h : List.Forall₂ Lowers text lowered) :
    ruleFor? text = ruleFor? lowered :=
  ruleFor?_congr (sound_of_lowers (splitLineFeed_lowers h).1).symm

/-- The singular is the answer to the word in lower case, in the case style of the word. -/
theorem singular_eq {word : String}
    (low : List.Forall₂ Lowers word.toList (lowercase word.toList)) :
    singular word = match answer? (lowercase word.toList) with
      | some answer => String.ofList (restoreCase word.toList answer)
      | none => word := by
  have rule := ruleFor?_lowers low
  rw [ruleFor?] at rule
  rw [singular, answer?]
  dsimp only
  split
  · rfl
  · cases irregular.lookup (String.ofList (lowercase word.toList)) with
    | some answer => rfl
    | none =>
      rw [rule]
      cases ruleFor? (lowercase word.toList) with
      | none => rfl
      | some rule => rfl

theorem modest_of_isLower {c : Char} (h : c.isLower = true) : Modest c :=
  ⟨isLower_lt h, Bool.eq_false_iff.2 (Char.not_isUpper_of_isLower h)⟩

theorem irregular_isLower : ∀ entry ∈ irregular,
    (∀ c ∈ entry.1.toList, c.isLower = true) ∧ ∀ c ∈ entry.2.toList, c.isLower = true := by
  have all : (irregular.all fun entry =>
      entry.1.toList.all Char.isLower && entry.2.toList.all Char.isLower) = true := by
    decide +kernel
  intro entry he
  have known := List.all_eq_true.1 all entry he
  rwa [Bool.and_eq_true, List.all_eq_true, List.all_eq_true] at known

theorem mem_of_lookup {α β : Type} [BEq α] [LawfulBEq α] {key : α} {value : β} :
    ∀ {table : List (α × β)}, table.lookup key = some value → (key, value) ∈ table
  | [], h => by cases h
  | (k, v) :: table, h => by
    rw [List.lookup_cons] at h
    split at h
    · rename_i he
      cases h
      rw [eq_of_beq he]
      exact List.mem_cons_self
    · exact List.mem_cons_of_mem _ (mem_of_lookup h)

/-- The answers: the singular of an irregular plural, or what the first rule that fits gives. -/
inductive Answers (text : List Char) : List Char → Prop where
  | irregular (h : uncountable.contains (String.ofList text) = false) {answer : String}
      (found : irregular.lookup (String.ofList text) = some answer) : Answers text answer.toList
  | ending (h : uncountable.contains (String.ofList text) = false)
      (none : irregular.lookup (String.ofList text) = none) {rule : EndingRule}
      (found : ruleFor? text = some rule) :
      Answers text (rule.apply (splitLineFeed text).1 ++ (splitLineFeed text).2)

theorem answers_of_answer? {text answer : List Char} (h : answer? text = some answer) :
    Answers text answer := by
  rw [answer?] at h
  split at h
  · cases h
  · rename_i countable
    have countable := Bool.eq_false_iff.2 countable
    split at h
    · rename_i found
      cases h
      exact .irregular countable found
    · rename_i none
      obtain ⟨rule, found, rfl⟩ := Option.map_eq_some_iff.1 h
      exact .ending countable none found

theorem isAnswer_of_answer? {text answer : List Char} (h : answer? text = some answer) :
    IsAnswer text answer := by
  cases answers_of_answer? h with
  | irregular _ found =>
    refine ⟨0, _, rfl, fun c hc => modest_of_isLower ?_⟩
    exact (irregular_isLower _ (mem_of_lookup found)).2 c hc
  | @ending _ _ rule found =>
    have fits := List.find?_some found
    have formed := wellFormed_of_mem rule (List.mem_of_find?_eq_some found)
    obtain ⟨front, ending, hb, -, -, ha⟩ := formed.apply_eq fits
    refine ⟨front.length, rule.singular.toList ++ (splitLineFeed text).2, ?_, ?_⟩
    · have head : text.take front.length = front := by
        conv => lhs; rw [← splitLineFeed_append text, hb, List.append_assoc]
        exact List.take_left
      rw [ha, head, List.append_assoc]
    · intro c hc
      rcases List.mem_append.1 hc with hc | hc
      · exact modest_of_isLower (formed.singular c hc)
      · rcases splitLineFeed_feed text with feed | feed
        · rw [feed] at hc
          cases hc
        · rw [feed] at hc
          cases List.mem_singleton.1 hc
          exact ⟨by decide, by decide⟩

/-! ## The basic alphabet -/

theorem lowers_unique {text lowered other : List Char} (h : List.Forall₂ Lowers text lowered)
    (h' : List.Forall₂ Lowers text other) (hl : ∀ d ∈ lowered, d.toNat < 128) :
    other = lowered := by
  induction h generalizing other with
  | nil => cases h'; rfl
  | cons hc _ ih =>
    cases h' with
    | cons hc' hr =>
      obtain ⟨first, others⟩ := List.forall_mem_cons.1 hl
      rw [hc.unique hc' first, ih hr others]

theorem IsAnswer.lt {text answer : List Char} (h : IsAnswer text answer)
    (ht : ∀ c ∈ text, c.toNat < 128) : ∀ c ∈ answer, c.toNat < 128 := by
  obtain ⟨k, ending, rfl, modest⟩ := h
  intro c hc
  rcases List.mem_append.1 hc with hc | hc
  · exact ht c (List.mem_of_mem_take hc)
  · exact (modest c hc).lt

/-- A word without capitals is answered in lower case. -/
theorem restoreCase_of_lowercase {text answer : List Char} (hl : lowercase text = text)
    (hu : ∀ c ∈ text, isUpperChar c = false) : restoreCase text answer = answer := by
  have style := recased_restoreCase text answer
  generalize restoreCase text answer = given at style ⊢
  cases style with
  | capitals h =>
    rw [isUppercase, Bool.and_eq_true, List.any_eq_true] at h
    obtain ⟨⟨c, hc, upper⟩, -⟩ := h
    rw [hu c hc] at upper
    cases upper
  | leading _ hm hc =>
    rw [hm] at hu
    rw [hu _ List.mem_cons_self] at hc
    cases hc
  | small _ _ => rfl
  | mixed _ =>
    rw [hl]
    exact (take_commonLength text answer).symm

theorem not_isUpperChar_of_mem_lowercase {text : List Char} (h : ∀ c ∈ text, c.toNat < 128) :
    ∀ c ∈ lowercase text, isUpperChar c = false := by
  rw [lowercase_of_lt h]
  refine List.forall_mem_map.2 fun c hc => ?_
  rw [isUpperChar_of_lt (toLower_lt (h c hc)), Char.isUpper_toLower_eq_false]

/-- A text with a letter and without small letters is in capitals. -/
theorem isUppercase_of_not_isLower {text : List Char} (h : ∀ c ∈ text, c.toNat < 128)
    (letter : ∃ c ∈ text, c.isAlpha = true) (small : ∀ c ∈ text, c.isLower = false) :
    isUppercase text = true := by
  obtain ⟨c, hc, letter⟩ := letter
  rw [isUppercase, Bool.and_eq_true, Bool.not_eq_true', List.any_eq_true, List.any_eq_false]
  refine ⟨⟨c, hc, ?_⟩, fun d hd => ?_⟩
  · rw [isUpperChar_of_lt (h c hc)]
    rwa [Char.isAlpha, small c hc, Bool.or_false] at letter
  · rw [isLowerChar_of_lt (h d hd), small d hd]
    exact Bool.false_ne_true

/-- Putting a word of the basic alphabet in lower case and taking its singular can be done in
either order, and the singular of a word in capitals has no small letter. -/
theorem singular_lowercase {word : String} (h : ∀ c ∈ word.toList, c.toNat < 128) :
    String.ofList (lowercase (singular word).toList) =
        singular (String.ofList (lowercase word.toList)) ∧
      ((∃ c ∈ word.toList, c.isAlpha = true) → (∀ c ∈ word.toList, c.isLower = false) →
        ∀ c ∈ (singular word).toList, c.isLower = false) := by
  have capitals := capitalsReturn_of_lt h
  have low := capitals.lowers
  have settled := settled_of_lowers low
  have lt : ∀ c ∈ lowercase word.toList, c.toNat < 128 := by
    rw [lowercase_of_lt h]
    exact List.forall_mem_map.2 fun c hc => toLower_lt (h c hc)
  have again : lowercase (lowercase word.toList) = lowercase word.toList :=
    lowerAfter_of_settled settled []
  have low' : List.Forall₂ Lowers (String.ofList (lowercase word.toList)).toList
      (lowercase (String.ofList (lowercase word.toList)).toList) := by
    rw [String.toList_ofList, again]
    exact lowers_refl settled
  rw [singular_eq low, singular_eq low', String.toList_ofList, again]
  cases ha : answer? (lowercase word.toList) with
  | none => exact ⟨rfl, fun _ small => small⟩
  | some answer =>
    have isAnswer := isAnswer_of_answer? ha
    have given := lowers_restoreCase low (returns_of_capitalsReturn capitals) isAnswer
    dsimp only
    rw [String.toList_ofList]
    constructor
    · rw [lowers_unique given (lowers_lowercase given) (isAnswer.lt lt),
        restoreCase_of_lowercase again (not_isUpperChar_of_mem_lowercase h)]
    · intro letter small
      rw [restoreCase, if_pos (isUppercase_of_not_isLower h letter small),
        uppercase_of_lt (isAnswer.lt lt)]
      exact List.forall_mem_map.2 fun d _ => Char.isLower_toUpper_eq_false d

theorem singular_lowercase_categories :
    singular "CATEGORIES" = "CATEGORY" ∧
      String.ofList (lowercase (singular "CATEGORIES").toList) =
        singular (String.ofList (lowercase "CATEGORIES".toList)) ∧
      ∀ c ∈ (singular "CATEGORIES").toList, c.isLower = false := by
  have lt : ("CATEGORIES".toList.all fun c => decide (c.toNat < 128)) = true := by decide +kernel
  have letter : ("CATEGORIES".toList.any Char.isAlpha) = true := by decide +kernel
  have small : ("CATEGORIES".toList.all fun c => c.isLower == false) = true := by decide +kernel
  simp only [List.all_eq_true, List.any_eq_true, decide_eq_true_eq, beq_iff_eq] at lt letter small
  obtain ⟨lower, capitals⟩ := singular_lowercase lt
  exact ⟨by decide +kernel, lower, capitals letter small⟩

example : singular "subCategories" = "subCategory" := by decide +kernel

end ServiceModel.Naming

/-
The spellings of a text in camel case, Pascal case and kebab case. All three have the letters and
digits of the text, in order and but for their case. Kebab case is a normal form: the words of a
text in kebab case are the words of the text in lower case, so that two texts have one spelling in
kebab case just when they have the same words but for their case.
-/
import ServiceModel.Proofs.Naming.Words
import ServiceModel.Proofs.Text.Case

namespace ServiceModel.Naming

open ServiceModel.Text

/-! ## Words are uniform -/

theorem mem_stretchWords {stretch word : List Char} (h : ∀ c ∈ stretch, isWordChar c = true)
    (hw : word ∈ stretchWords stretch) : ∃ rest, FirstWord word rest := by
  induction stretch using stretchWords.induct with
  | case1 => rw [stretchWords] at hw; cases hw
  | case2 c rest ih =>
    rw [stretchWords] at hw
    rcases List.mem_cons.1 hw with rfl | hw
    · exact ⟨_, firstWord_wordLength (h c List.mem_cons_self)⟩
    · exact ih (fun d hd => h d (List.mem_of_mem_drop hd)) hw

theorem isWordChar_of_mem_stretches {text stretch : List Char} (h : stretch ∈ stretches text) :
    ∀ c ∈ stretch, isWordChar c = true := by
  induction text using stretches.induct with
  | case1 => rw [stretches] at h; cases h
  | case2 c rest hc ih =>
    rw [stretches, if_pos hc] at h
    rcases List.mem_cons.1 h with rfl | h
    · exact List.forall_mem_cons.2 ⟨hc, fun d hd => List.mem_takeWhile_imp hd⟩
    · exact ih h
  | case3 c rest hc ih =>
    rw [stretches, if_neg hc] at h
    exact ih h

/-- Every word of a text is the first word of some stretch of letters and digits. -/
theorem firstWord_of_mem_pieces {text word : List Char} (h : word ∈ pieces text) :
    ∃ rest, FirstWord word rest := by
  rw [pieces_eq] at h
  obtain ⟨stretch, hs, hw⟩ := List.mem_flatMap.1 h
  exact mem_stretchWords (isWordChar_of_mem_stretches hs) hw

theorem FirstWord.ne_nil {word rest : List Char} (h : FirstWord word rest) : word ≠ [] := by
  cases h with
  | digits ne_nil _ _ => exact ne_nil
  | small _ _ _ => exact List.cons_ne_nil _ _
  | capitals ne_nil _ _ => exact ne_nil

theorem FirstWord.digits_or_letters {word rest : List Char} (h : FirstWord word rest) :
    (∀ c ∈ word, c.isDigit = true) ∨ ∀ c ∈ word, c.isAlpha = true := by
  cases h with
  | digits _ run _ => exact .inl run
  | small first run _ =>
    refine .inr (List.forall_mem_cons.2 ⟨?_, fun d hd => isAlpha_of_isLower (run d hd)⟩)
    exact first.elim isAlpha_of_isLower fun h => isAlpha_of_isUpper h.1
  | capitals _ run _ => exact .inr fun c hc => isAlpha_of_isUpper (run c hc)

/-- A word in lower case is a word by itself. -/
theorem FirstWord.lowered {word rest : List Char} (h : FirstWord word rest) :
    FirstWord (word.map Char.toLower) [] := by
  have ne_nil := h.ne_nil
  rcases h.digits_or_letters with run | run
  · refine .digits (by simpa using ne_nil) (List.forall_mem_map.2 fun c hc => ?_) fun d hd => ?_
    · have digit := run c hc
      rwa [Char.toLower_eq_of_not_isUpper (by simp [not_isAlpha_of_isDigit digit])]
    · cases hd
  · cases word with
    | nil => exact absurd rfl ne_nil
    | cons c word =>
      have lower : ∀ d ∈ c :: word, d.toLower.isLower = true := fun d hd => by
        rw [Char.isLower_toLower_eq_isAlpha, run d hd]
      refine .small (.inl (lower c List.mem_cons_self)) (List.forall_mem_map.2 fun d hd => ?_)
        fun d hd => ?_
      · exact lower d (List.mem_cons_of_mem _ hd)
      · cases hd

/-! ## Kebab case -/

theorem ended_nil : Ended [] := by
  intro d hd
  cases hd

theorem ended_hyphen (rest : List Char) : Ended ('-' :: rest) := by
  intro d hd
  cases hd
  rfl

/-- Words that are joined by hyphens are cut apart again. -/
theorem pieces_intercalate {list : List (List Char)} (h : ∀ word ∈ list, FirstWord word []) :
    pieces (['-'].intercalate list) = list := by
  induction list with
  | nil => rfl
  | cons word list ih =>
    obtain ⟨first, others⟩ := List.forall_mem_cons.1 h
    cases list with
    | nil =>
      have alone := (first.isWordBefore ended_nil).pieces
      rwa [List.append_nil] at alone
    | cons next list =>
      have joined := (first.isWordBefore (ended_hyphen (['-'].intercalate (next :: list)))).pieces
      rw [List.nil_append, pieces_cons_of_not_word _ rfl, ih others] at joined
      rw [List.intercalate_cons_cons, List.append_assoc]
      exact joined

theorem toList_lowerWord (word : String) : (lowerWord word).toList = word.toList.map Char.toLower :=
  String.toList_ofList

theorem lowerWord_lowerWord (word : String) : lowerWord (lowerWord word) = lowerWord word := by
  apply String.toList_inj.1
  rw [toList_lowerWord, toList_lowerWord, List.map_map]
  exact List.map_congr_left fun c _ => Char.toLower_toLower_eq_toLower c

theorem toList_kebab (text : String) :
    (kebab text).toList = ['-'].intercalate ((pieces text.toList).map (List.map Char.toLower)) := by
  rw [kebab, words_eq_pieces, String.toList_intercalate, List.map_map, List.map_map]
  refine congrArg _ (List.map_congr_left fun word _ => ?_)
  exact (toList_lowerWord _).trans (congrArg _ String.toList_ofList)

theorem words_kebab (text : String) : words (kebab text) = (words text).map lowerWord := by
  have lowered : ∀ word ∈ (pieces text.toList).map (List.map Char.toLower), FirstWord word [] :=
    List.forall_mem_map.2 fun word hw => (firstWord_of_mem_pieces hw).choose_spec.lowered
  rw [words_eq_pieces, toList_kebab, pieces_intercalate lowered, words_eq_pieces, List.map_map,
    List.map_map]
  refine List.map_congr_left fun word _ => String.toList_inj.1 ?_
  rw [Function.comp, Function.comp, toList_lowerWord, String.toList_ofList, String.toList_ofList]

theorem kebab_kebab (text : String) : kebab (kebab text) = kebab text := by
  rw [kebab, words_kebab, List.map_map, kebab]
  exact congrArg _ (List.map_congr_left fun word _ => lowerWord_lowerWord word)

theorem kebab_eq_iff {text other : String} :
    kebab text = kebab other ↔ (words text).map lowerWord = (words other).map lowerWord := by
  constructor
  · intro h
    rw [← words_kebab, h, words_kebab]
  · intro h
    rw [kebab, h, kebab]

/-! ## Camel case and Pascal case -/

/-- The letters and digits of a text in lower case. -/
def letters (text : String) : List Char := (text.toList.filter isWordChar).map Char.toLower

theorem letters_eq (text : String) :
    letters text = (words text).flatMap fun word => word.toList.map Char.toLower := by
  rw [letters, ← flatten_pieces, words_eq_pieces, List.flatMap_map, List.map_flatten,
    ← List.flatMap_def]
  simp only [String.toList_ofList]

theorem toLower_capitalize (word : String) :
    (capitalize word).toList.map Char.toLower = word.toList.map Char.toLower := by
  rw [capitalize]
  cases h : word.toList with
  | nil => rfl
  | cons c rest =>
    rw [String.toList_ofList, List.map_cons, List.map_cons, Char.toLower_toUpper_eq_toLower,
      List.map_map]
    exact congrArg _ (List.map_congr_left fun d _ => Char.toLower_toLower_eq_toLower d)

theorem toLower_lowerWord (word : String) :
    (lowerWord word).toList.map Char.toLower = word.toList.map Char.toLower := by
  rw [← toList_lowerWord, lowerWord_lowerWord, toList_lowerWord]

/-- Joined words whose letters are re-cased spell the letters of the text. -/
theorem toLower_join {recase : String → String}
    (h : ∀ word, (recase word).toList.map Char.toLower = word.toList.map Char.toLower)
    (list : List String) :
    (String.join (list.map recase)).toList.map Char.toLower =
      list.flatMap fun word => word.toList.map Char.toLower := by
  rw [String.toList_join, List.map_flatMap, List.flatMap_map]
  simp only [h]

theorem toLower_pascal (text : String) : (pascal text).toList.map Char.toLower = letters text := by
  rw [pascal, toLower_join toLower_capitalize, letters_eq]

theorem toLower_camel (text : String) : (camel text).toList.map Char.toLower = letters text := by
  rw [camel, letters_eq]
  cases words text with
  | nil => rfl
  | cons first others =>
    dsimp only
    rw [String.toList_append, List.map_append, toLower_join toLower_capitalize, toLower_lowerWord,
      List.flatMap_cons]

/-- Taking away the hyphens of joined words leaves the words. -/
theorem filter_intercalate {list : List (List Char)} (h : ∀ word ∈ list, ∀ c ∈ word, c ≠ '-') :
    (['-'].intercalate list).filter (· ≠ '-') = list.flatten := by
  induction list with
  | nil => rfl
  | cons word list ih =>
    obtain ⟨first, others⟩ := List.forall_mem_cons.1 h
    have whole : word.filter (· ≠ '-') = word := List.filter_eq_self.2 (by simpa using first)
    cases list with
    | nil => simpa using whole
    | cons next list =>
      rw [List.intercalate_cons_cons, List.filter_append, ih others, List.filter_append, whole,
        List.flatten_cons]
      simp

/-- A character that is a letter or a digit in lower case is one. -/
theorem isWordChar_toLower (c : Char) : isWordChar c.toLower = isWordChar c := by
  by_cases h : c.isUpper = true
  · rw [isWordChar_of_isAlpha (isAlpha_of_isUpper h), isWordChar_of_isAlpha]
    rw [Char.isAlpha_toLower_eq_isAlpha, isAlpha_of_isUpper h]
  · rw [Char.toLower_eq_of_not_isUpper h]

theorem isWordChar_of_mem_letters {text : String} {c : Char} (h : c ∈ letters text) :
    isWordChar c = true := by
  obtain ⟨d, hd, rfl⟩ := List.mem_map.1 h
  rw [isWordChar_toLower]
  exact (List.mem_filter.1 hd).2

/-- What spells the letters of a text but for their case is made of letters and digits. -/
theorem isWordChar_of_toLower_eq {spelling : List Char} {text : String}
    (h : spelling.map Char.toLower = letters text) : ∀ c ∈ spelling, isWordChar c = true := by
  intro c hc
  have letter : c.toLower ∈ letters text := h ▸ List.mem_map_of_mem hc
  rw [← isWordChar_toLower]
  exact isWordChar_of_mem_letters letter

theorem lt_of_isWordChar {c : Char} (h : isWordChar c = true) : c.toNat < 128 := by
  simp only [isWordChar, Char.isAlphanum, Char.isAlpha, Char.isUpper, Char.isLower, Char.isDigit,
    Bool.or_eq_true, Bool.and_eq_true, decide_eq_true_eq, UInt32.le_iff_toNat_le] at h
  simp at h
  omega

theorem lowercase_eq_letters {spelling : List Char} {text : String}
    (h : spelling.map Char.toLower = letters text) : lowercase spelling = letters text := by
  rw [lowercase_of_lt fun c hc => lt_of_isWordChar (isWordChar_of_toLower_eq h c hc), h]

theorem filter_kebab (text : String) : (kebab text).toList.filter (· ≠ '-') = letters text := by
  rw [toList_kebab, filter_intercalate, ← List.map_flatten, flatten_pieces, letters]
  refine List.forall_mem_map.2 fun word hw c hc => ?_
  obtain ⟨d, hd, rfl⟩ := List.mem_map.1 hc
  obtain ⟨rest, first⟩ := firstWord_of_mem_pieces hw
  intro he
  have char := first.isWordChar d hd
  rw [← isWordChar_toLower, he] at char
  exact absurd char (by decide)

theorem camel_head {text : String} {c : Char} (h : c ∈ (camel text).toList.head?) :
    c.isUpper = false := by
  rw [camel, words_eq_pieces] at h
  cases hp : pieces text.toList with
  | nil => rw [hp] at h; cases h
  | cons first others =>
    rw [hp, List.map_cons] at h
    obtain ⟨rest, word⟩ := firstWord_of_mem_pieces (hp ▸ List.mem_cons_self)
    cases first with
    | nil => exact absurd rfl word.ne_nil
    | cons d first =>
      rw [String.toList_append, toList_lowerWord, String.toList_ofList] at h
      cases h
      exact Char.isUpper_toLower_eq_false d

/-! ## All spellings -/

/-- What the spellings of a text have in common. -/
structure Spelled (text : String) : Prop where
  words_kebab : words (kebab text) = (words text).map lowerWord
  kebab_kebab : kebab (kebab text) = kebab text
  isWordChar_camel : ∀ c ∈ (camel text).toList, isWordChar c = true
  isWordChar_pascal : ∀ c ∈ (pascal text).toList, isWordChar c = true
  camel_head : ∀ c ∈ (camel text).toList.head?, c.isUpper = false
  lowercase_camel : lowercase (camel text).toList = letters text
  lowercase_pascal : lowercase (pascal text).toList = letters text
  lowercase_kebab : lowercase ((kebab text).toList.filter (· ≠ '-')) = letters text

/-- Kebab case is a normal form of texts up to the case of their words, and no spelling loses a
letter or a digit. -/
theorem kebab_normal (text : String) :
    Spelled text ∧ ∀ other, kebab text = kebab other ↔
      (words text).map lowerWord = (words other).map lowerWord := by
  refine ⟨⟨words_kebab text, kebab_kebab text, ?_, ?_, fun c => camel_head, ?_, ?_, ?_⟩,
    fun other => kebab_eq_iff⟩
  · exact isWordChar_of_toLower_eq (toLower_camel text)
  · exact isWordChar_of_toLower_eq (toLower_pascal text)
  · exact lowercase_eq_letters (toLower_camel text)
  · exact lowercase_eq_letters (toLower_pascal text)
  · refine lowercase_eq_letters ?_
    rw [filter_kebab, letters, List.map_map]
    exact List.map_congr_left fun c _ => Char.toLower_toLower_eq_toLower c

end ServiceModel.Naming

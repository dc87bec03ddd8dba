/-
Endings of words. In the patterns of the ending rules a character counts as one small letter at
most, so that a text ends with a pattern just when the pattern is a suffix of the letters that the
characters of the text count as. A rule that fits a text is one of its forms, a stem with the plural
ending, at the end of the text; it leaves the stem with the singular ending there.
-/
import ServiceModel.Naming.Singular
import ServiceModel.Proofs.Text.Lowering

namespace ServiceModel.Naming

open ServiceModel.Text

/-! ## Letters -/

/-- The small letter that a character counts as, if it counts as any. -/
def letter? (c : Char) : Option Char :=
  if c.toNat = 0x131 then some 'i'
  else if c.toNat = 0x17f then some 's'
  else
    let folded := (lowerChar c).headD c
    if folded.isLower then some folded else none

/-- The letters that the characters of a text count as. -/
def sound (text : List Char) : List (Option Char) := text.map letter?

/-- The letters of a pattern. -/
def spelt (pattern : List Char) : List (Option Char) := pattern.map some

theorem headD_lowerChar_likeLetters :
    ∀ n ∈ CaseTable.likeLetters, (lowerChar (Char.ofNat n)) = [Char.ofNat n] := by
  decide +kernel

/-- The two characters that count as other letters are small letters. -/
theorem headD_of_likeLetter {c : Char} (h : c.toNat ∈ CaseTable.likeLetters) :
    lowerChar c = [c] := by
  have known := headD_lowerChar_likeLetters c.toNat h
  rwa [Char.ofNat_toNat] at known

theorem matchesLetter_iff {p c : Char} (hp : p.isLower = true) :
    matchesLetter p c = true ↔ letter? c = some p := by
  have lt := isLower_lt hp
  have other (hc : c.toNat ∈ CaseTable.likeLetters) : ((lowerChar c).headD c == p) = false := by
    rw [headD_of_likeLetter hc, List.headD_cons, beq_eq_false_iff_ne]
    rintro rfl
    simp [CaseTable.likeLetters] at hc
    omega
  rw [matchesLetter, letter?]
  by_cases hi : c.toNat = 0x131
  · have folded := other (by rw [hi]; decide)
    simp only [folded, hi, beq_self_eq_true, Bool.and_true, Bool.false_or, if_true]
    simpa using eq_comm
  · by_cases hs : c.toNat = 0x17f
    · have folded := other (by rw [hs]; decide)
      simp only [folded, hs, beq_self_eq_true, Bool.and_true, Bool.false_or, if_true]
      simpa using eq_comm
    · simp only [hi, hs, if_false, beq_iff_eq, Bool.or_eq_true, Bool.and_eq_true, and_false,
        or_false]
      split
      · simp
      · rename_i hl
        refine iff_of_false (fun he => hl (he ▸ hp)) fun he => ?_
        cases he

theorem matchesText_iff {pattern text : List Char} (hp : ∀ p ∈ pattern, p.isLower = true) :
    matchesText pattern text = true ↔ sound text = spelt pattern := by
  induction pattern generalizing text with
  | nil => cases text <;> simp [matchesText, sound, spelt]
  | cons p pattern ih =>
    obtain ⟨first, others⟩ := List.forall_mem_cons.1 hp
    cases text with
    | nil => simp [matchesText, sound, spelt]
    | cons c text =>
      rw [matchesText, Bool.and_eq_true, matchesLetter_iff first, ih others, sound, sound,
        spelt, spelt, List.map_cons, List.map_cons, List.cons.injEq]

theorem endsWithText_iff {pattern text : List Char} (hp : ∀ p ∈ pattern, p.isLower = true) :
    endsWithText pattern text = true ↔ spelt pattern <:+ sound text := by
  have lengths : (sound text).length = text.length ∧ (spelt pattern).length = pattern.length :=
    ⟨List.length_map _, List.length_map _⟩
  rw [endsWithText, Bool.and_eq_true, decide_eq_true_eq, matchesText_iff hp,
    List.suffix_iff_eq_drop, lengths.1, lengths.2, sound, sound, ← List.map_drop]
  constructor
  · exact fun h => h.2.symm
  · intro h
    refine ⟨?_, h.symm⟩
    have := congrArg List.length h
    rw [lengths.2, List.length_map, List.length_drop] at this
    omega

theorem letter?_of_isLower {c : Char} (h : c.isLower = true) : letter? c = some c := by
  have small := small_of_isLower h
  have plain := small.plain
  simp only [CaseTable.likeLetters, List.mem_cons, List.not_mem_nil, or_false, not_or] at plain
  simp [letter?, plain, small.lowerChar, h]

theorem sound_of_isLower {text : List Char} (h : ∀ c ∈ text, c.isLower = true) :
    sound text = spelt text :=
  List.map_congr_left fun c hc => letter?_of_isLower (h c hc)

/-- A character and what stands for it in lower case count as the same letter. -/
theorem letter?_of_lowers {c d : Char} (h : Lowers c d) : letter? d = letter? c := by
  rcases h.same_or_small with same | small
  · rw [same]
  · cases h with
    | plain h =>
      have plain := small.plain
      have plain' : c.toNat ∉ CaseTable.likeLetters := fun hc => by
        rw [headD_of_likeLetter hc] at h
        cases h
        exact plain hc
      simp only [CaseTable.likeLetters, List.mem_cons, List.not_mem_nil, or_false, not_or]
        at plain plain'
      simp [letter?, plain, plain', small.lowerChar, h]
    | final h =>
      subst h
      decide +kernel

theorem sound_of_lowers {text lowered : List Char} (h : List.Forall₂ Lowers text lowered) :
    sound lowered = sound text := by
  induction h with
  | nil => rfl
  | cons hc _ ih => rw [sound, List.map_cons, letter?_of_lowers hc, ← sound, ih]; rfl

/-! ## Rules -/

/-- The texts of a stem; before any single consonant there is no text. -/
def Stem.texts : Stem → List String
  | .oneOf texts => texts
  | .consonant => [""]

/-- The endings that a rule takes away, each with what it puts in its place. -/
def EndingRule.forms (rule : EndingRule) : List (List Char × List Char) :=
  rule.stem.texts.map fun stem =>
    (stem.toList ++ rule.plural.toList, stem.toList ++ rule.singular.toList)

/-- A rule is written in small letters. It leaves texts as they are, or it puts in something else
than what it takes away. -/
structure EndingRule.WellFormed (rule : EndingRule) : Prop where
  stems : ∀ stem ∈ rule.stem.texts, ∀ c ∈ stem.toList, c.isLower = true
  plural : ∀ c ∈ rule.plural.toList, c.isLower = true
  singular : ∀ c ∈ rule.singular.toList, c.isLower = true
  keeps : rule.plural = "" → rule.singular = ""
  changes : rule.plural ≠ "" → rule.plural.toList ≠ rule.singular.toList

theorem wellFormed_of_mem : ∀ rule ∈ endingRules, rule.WellFormed := by
  have all : (endingRules.all fun rule =>
      (rule.stem.texts.all fun stem => stem.toList.all Char.isLower) &&
        rule.plural.toList.all Char.isLower && rule.singular.toList.all Char.isLower &&
        (if rule.plural = "" then rule.singular == ""
          else rule.plural.toList != rule.singular.toList)) = true := by
    decide +kernel
  intro rule hr
  have known := List.all_eq_true.1 all rule hr
  simp only [Bool.and_eq_true, List.all_eq_true] at known
  obtain ⟨⟨⟨stems, plural⟩, singular⟩, change⟩ := known
  refine ⟨stems, plural, singular, fun hp => ?_, fun hp => ?_⟩
  · rw [if_pos hp] at change
    exact eq_of_beq change
  · rw [if_neg hp] at change
    exact bne_iff_ne.1 change

theorem isConsonant_congr {c d : Char} (h : letter? c = letter? d) :
    isConsonant c = isConsonant d := by
  have small : vowels.all Char.isLower = true := by decide
  have vowel : ∀ p ∈ vowels, matchesLetter p c = matchesLetter p d := by
    intro p hp
    have small := List.all_eq_true.1 small p hp
    rw [Bool.eq_iff_iff, matchesLetter_iff small, matchesLetter_iff small, h]
  rw [isConsonant, isConsonant, Bool.not_inj_iff, Bool.eq_iff_iff, List.any_eq_true,
    List.any_eq_true]
  constructor
  · rintro ⟨p, hp, hm⟩
    exact ⟨p, hp, vowel p hp ▸ hm⟩
  · rintro ⟨p, hp, hm⟩
    exact ⟨p, hp, (vowel p hp).symm ▸ hm⟩

theorem endsWithText_congr {pattern text text' : List Char} (hp : ∀ p ∈ pattern, p.isLower = true)
    (h : sound text = sound text') : endsWithText pattern text = endsWithText pattern text' := by
  rw [Bool.eq_iff_iff, endsWithText_iff hp, endsWithText_iff hp, h]

theorem Stem.exists_text {stem : Stem} {text : List Char}
    (hs : ∀ s ∈ stem.texts, ∀ c ∈ s.toList, c.isLower = true)
    (h : stem.endsText text = true) : ∃ s ∈ stem.texts, spelt s.toList <:+ sound text := by
  cases stem with
  | oneOf texts =>
    obtain ⟨s, hm, he⟩ := List.any_eq_true.1 h
    exact ⟨s, hm, (endsWithText_iff (hs s hm)).1 he⟩
  | consonant => exact ⟨"", List.mem_singleton_self _, List.nil_suffix⟩

namespace EndingRule

variable {rule : EndingRule} {text text' : List Char}

/-- What a text counts as decides which rules it fits. -/
theorem WellFormed.fits_congr (hr : rule.WellFormed) (h : sound text = sound text') :
    rule.fits text = rule.fits text' := by
  have length : text.length = text'.length := by simpa [sound] using congrArg List.length h
  rw [fits, fits, endsWithText_congr hr.plural h, length]
  congr 1
  have front : sound (text.take (text'.length - rule.plural.length)) =
      sound (text'.take (text'.length - rule.plural.length)) := by
    rw [sound, sound, List.map_take, List.map_take, ← sound, ← sound, h]
  generalize text.take (text'.length - rule.plural.length) = a,
    text'.take (text'.length - rule.plural.length) = b at front ⊢
  have stems := hr.stems
  cases hs : rule.stem with
  | oneOf texts =>
    rw [hs] at stems
    dsimp only [Stem.endsText]
    rw [Bool.eq_iff_iff, List.any_eq_true, List.any_eq_true]
    constructor
    · rintro ⟨s, hm, he⟩
      exact ⟨s, hm, endsWithText_congr (stems s hm) front ▸ he⟩
    · rintro ⟨s, hm, he⟩
      exact ⟨s, hm, (endsWithText_congr (stems s hm) front).symm ▸ he⟩
  | consonant =>
    have last : a.getLast?.map letter? = b.getLast?.map letter? := by
      rw [← List.getLast?_map, ← List.getLast?_map, ← sound, ← sound, front]
    dsimp only [Stem.endsText]
    cases ha : a.getLast? with
    | none =>
      rw [ha] at last
      rw [Option.map_eq_none_iff.1 last.symm]
    | some c =>
      rw [ha] at last
      obtain ⟨d, hb, hd⟩ := Option.map_eq_some_iff.1 last.symm
      rw [hb]
      exact isConsonant_congr hd.symm

/-- A rule that fits a text puts the singular ending in place of the plural one. -/
theorem WellFormed.apply_eq (hr : rule.WellFormed) (h : rule.fits text = true) :
    ∃ front ending, text = front ++ ending ∧ sound ending = spelt rule.plural.toList ∧
      rule.stem.endsText front = true ∧ rule.apply text = front ++ rule.singular.toList := by
  have fits := h
  rw [EndingRule.fits, Bool.and_eq_true, endsWithText_iff hr.plural, List.suffix_iff_eq_drop] at h
  obtain ⟨ending, stem⟩ := h
  rw [sound, List.length_map, spelt, List.length_map, ← List.map_drop, String.length_toList]
    at ending
  refine ⟨_, _, (List.take_append_drop (text.length - rule.plural.length) text).symm, ending.symm,
    stem, ?_⟩
  rw [apply, if_pos fits]

/-- A rule that fits a text has a form at its end, and puts the other half of the form there. -/
theorem WellFormed.exists_form (hr : rule.WellFormed) (h : rule.fits text = true) :
    ∃ form ∈ rule.forms,
      spelt form.1 <:+ sound text ∧ spelt form.2 <:+ sound (rule.apply text) := by
  obtain ⟨front, ending, rfl, he, hs, ha⟩ := hr.apply_eq h
  obtain ⟨s, hm, front', hf⟩ := Stem.exists_text hr.stems hs
  refine ⟨_, List.mem_map_of_mem hm, ⟨front', ?_⟩, ⟨front', ?_⟩⟩
  · rw [spelt, List.map_append, ← spelt, ← spelt, ← List.append_assoc, hf, ← he, sound, sound,
      sound, List.map_append]
  · rw [ha, spelt, List.map_append, ← spelt, ← spelt, ← List.append_assoc, hf,
      ← sound_of_isLower hr.singular, sound, sound, sound, List.map_append]

theorem WellFormed.forms_isLower (hr : rule.WellFormed) {form : List Char × List Char}
    (hf : form ∈ rule.forms) :
    (∀ c ∈ form.1, c.isLower = true) ∧ ∀ c ∈ form.2, c.isLower = true := by
  obtain ⟨s, hm, rfl⟩ := List.mem_map.1 hf
  exact ⟨List.forall_mem_append.2 ⟨hr.stems s hm, hr.plural⟩,
    List.forall_mem_append.2 ⟨hr.stems s hm, hr.singular⟩⟩

/-- A rule that says which texts its stem may be fits every text with one of its forms. -/
theorem WellFormed.fits_of_form (hr : rule.WellFormed) {texts : List String}
    (hs : rule.stem = .oneOf texts) {form : List Char × List Char} (hf : form ∈ rule.forms)
    (h : spelt form.1 <:+ sound text) : rule.fits text = true := by
  obtain ⟨s, hm, rfl⟩ := List.mem_map.1 hf
  obtain ⟨front, hf⟩ := h
  rw [spelt, List.map_append, ← spelt, ← spelt, ← List.append_assoc] at hf
  have length := congrArg List.length hf
  simp only [List.length_append, spelt, sound, List.length_map, String.length_toList] at length
  have head : (front ++ spelt s.toList).length = text.length - rule.plural.length := by
    simp only [List.length_append, spelt, List.length_map, String.length_toList]
    omega
  have stem : spelt s.toList <:+ sound (text.take (text.length - rule.plural.length)) := by
    rw [sound, List.map_take, ← sound, ← hf, List.take_left' head]
    exact List.suffix_append _ _
  rw [fits, Bool.and_eq_true, endsWithText_iff hr.plural, hs]
  refine ⟨⟨_, hf⟩, List.any_eq_true.2 ⟨s, ?_, (endsWithText_iff (hr.stems s hm)).2 stem⟩⟩
  rwa [hs] at hm

/-- A rule that does not leave texts as they are changes what they count as. -/
theorem WellFormed.sound_apply_ne (hr : rule.WellFormed) (hp : rule.plural ≠ "")
    (h : rule.fits text = true) : sound (rule.apply text) ≠ sound text := by
  obtain ⟨front, ending, rfl, he, -, ha⟩ := hr.apply_eq h
  intro same
  rw [ha, sound, sound, List.map_append, List.map_append] at same
  have same := List.append_cancel_left same
  rw [← sound, ← sound, he, sound_of_isLower hr.singular] at same
  exact hr.changes hp (List.map_injective_iff.2 (Option.some_injective _) same).symm

/-- A rule without a plural ending leaves texts as they are. -/
theorem WellFormed.apply_eq_self (hr : rule.WellFormed) (hp : rule.plural = "") :
    rule.apply text = text := by
  have plural : rule.plural.length = 0 := by rw [hp]; rfl
  have singular : rule.singular.toList = [] := by rw [hr.keeps hp]; rfl
  rw [apply, plural, singular, Nat.sub_zero, List.take_length, List.append_nil, ite_self]

end EndingRule

/-! ## Line feeds -/

theorem splitLineFeed_concat (front : List Char) (c : Char) :
    splitLineFeed (front ++ [c]) =
      if c = '\n' then (front, ['\n']) else (front ++ [c], []) := by
  rw [splitLineFeed, List.getLast?_concat, List.dropLast_concat]
  split
  · rename_i he
    cases he
    rfl
  · rename_i hne
    rw [if_neg fun he => hne (by rw [he])]

theorem splitLineFeed_append (text : List Char) :
    (splitLineFeed text).1 ++ (splitLineFeed text).2 = text := by
  rcases List.eq_nil_or_concat' text with rfl | ⟨front, c, rfl⟩
  · rfl
  · rw [splitLineFeed_concat]
    split
    · rename_i hc
      rw [hc]
    · exact List.append_nil _

theorem splitLineFeed_feed (text : List Char) :
    (splitLineFeed text).2 = [] ∨ (splitLineFeed text).2 = ['\n'] := by
  rcases List.eq_nil_or_concat' text with rfl | ⟨front, c, rfl⟩
  · exact .inl rfl
  · rw [splitLineFeed_concat]
    split
    · exact .inr rfl
    · exact .inl rfl

/-- A line feed at the end is taken off, and nothing else. -/
theorem splitLineFeed_of_letter {front : List Char} {c : Char} {feed : List Char} (hc : c ≠ '\n')
    (hf : feed = [] ∨ feed = ['\n']) :
    splitLineFeed (front ++ [c] ++ feed) = (front ++ [c], feed) := by
  rcases hf with rfl | rfl
  · rw [List.append_nil, splitLineFeed_concat, if_neg hc]
  · rw [splitLineFeed_concat, if_pos rfl]

/-- A text in lower case has a line feed at its end just when the text has. -/
theorem splitLineFeed_lowers {text lowered : List Char} (h : List.Forall₂ Lowers text lowered) :
    List.Forall₂ Lowers (splitLineFeed text).1 (splitLineFeed lowered).1 ∧
      (splitLineFeed text).2 = (splitLineFeed lowered).2 := by
  rcases List.eq_nil_or_concat' text with rfl | ⟨front, c, rfl⟩
  · cases h
    exact ⟨.nil, rfl⟩
  · rcases List.eq_nil_or_concat' lowered with rfl | ⟨front', d, rfl⟩
    · exact absurd h.length_eq (by simp)
    · have reversed := List.forall₂_reverse_iff.2 h
      rw [List.reverse_concat, List.reverse_concat, List.forall₂_cons] at reversed
      have fronts := List.forall₂_reverse_iff.1 reversed.2
      rw [splitLineFeed_concat, splitLineFeed_concat]
      by_cases hc : c = '\n'
      · rw [if_pos hc, if_pos (reversed.1.eq_lineFeed_iff.2 hc)]
        exact ⟨fronts, rfl⟩
      · rw [if_neg hc, if_neg (mt reversed.1.eq_lineFeed_iff.1 hc)]
        exact ⟨h, rfl⟩

end ServiceModel.Naming

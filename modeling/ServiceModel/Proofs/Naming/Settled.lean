/-
When the singular of a word is its own singular. To take the singular once more is to look up its
letters again, and for nearly all words nothing is found there, or only the rule that leaves
endings as they are. What is found otherwise is an irregular plural that had an s behind it, the
word alias, and a plural that a line feed kept apart from the end of the word.

The rules are compared by their forms: of two patterns at the end of one text, the shorter one is at
the end of the longer one, which can be read off the list of rules.
-/
import ServiceModel.Proofs.Naming.Singular
import ServiceModel.Proofs.Interfaces.Sites

namespace ServiceModel.Naming

open ServiceModel.Text

/-! ## Words that are singular -/

/-- The endings with an s that are no plural endings. -/
def keptEndings : List (List Char) := [['s', 's'], ['u', 's'], ['i', 's']]

/-- Does the text end with an s that the rules take for a plural ending? -/
def hasLooseS (text : List Char) : Bool :=
  endsWithText ['s'] text && !keptEndings.any fun ending => endsWithText ending text

/-- Is a text in lower case its own singular? -/
def isOwnSingular (text : List Char) : Bool :=
  uncountable.contains (String.ofList text) ||
    (irregular.lookup (String.ofList text)).isNone && !hasLooseS (splitLineFeed text).1

/-- Is a text in lower case an irregular plural, or a plural and a line feed, with an s behind? -/
def isPluralWithS (text : List Char) : Bool :=
  endsWithText ['s'] text &&
    ((irregular.lookup (String.ofList text.dropLast)).isSome ||
      (splitLineFeed text.dropLast).2 == ['\n'] && hasLooseS (splitLineFeed text.dropLast).1)

/-- Is the singular of a text in lower case a plural again? The singular of `aliases` is, since no
rule keeps the ending of `alias`. -/
def isDoublePlural (text : List Char) : Bool :=
  endsWithText "aliases".toList (splitLineFeed text).1 || isPluralWithS text

/-! ## Patterns at the end of a text -/

theorem suffix_of_spelt {pattern other : List Char} (h : spelt pattern <:+ spelt other) :
    pattern <:+ other := by
  rw [List.suffix_iff_eq_drop, spelt, spelt, ← List.map_drop] at h
  rw [List.map_injective_iff.2 (Option.some_injective Char) h]
  exact List.drop_suffix _ _

theorem endsWithText_of_suffix {pattern ending text : List Char}
    (hl : ∀ c ∈ pattern, c.isLower = true) (he : ∀ c ∈ ending, c.isLower = true)
    (h : spelt pattern <:+ sound text) (length : ending.length ≤ pattern.length) :
    endsWithText ending text = endsWithText ending pattern := by
  rw [Bool.eq_iff_iff, endsWithText_iff he, endsWithText_iff he, sound_of_isLower hl]
  refine ⟨fun h' => List.suffix_of_suffix_length_le h' h ?_, fun h' => h'.trans h⟩
  rwa [spelt, spelt, List.length_map, List.length_map]

theorem keptEndings_isLower :
    ∀ ending ∈ keptEndings, (∀ c ∈ ending, c.isLower = true) ∧ ending.length = 2 := by
  have all : (keptEndings.all fun ending =>
      ending.all Char.isLower && ending.length == 2) = true := by
    decide
  intro ending he
  have known := List.all_eq_true.1 all ending he
  rwa [Bool.and_eq_true, List.all_eq_true, beq_iff_eq] at known

theorem aliases_isLower : ∀ c ∈ "aliases".toList, c.isLower = true := by
  have all : "aliases".toList.all Char.isLower = true := by decide +kernel
  exact List.all_eq_true.1 all

theorem s_isLower : ∀ c ∈ ['s'], c.isLower = true :=
  List.forall_mem_singleton.2 (by decide)

theorem hasLooseS_of_endings {text text' : List Char}
    (h : endsWithText ['s'] text = endsWithText ['s'] text')
    (h' : ∀ ending ∈ keptEndings, endsWithText ending text = endsWithText ending text') :
    hasLooseS text = hasLooseS text' := by
  rw [hasLooseS, hasLooseS, h]
  congr 2
  rw [Bool.eq_iff_iff, List.any_eq_true, List.any_eq_true]
  exact exists_congr fun ending => and_congr_right fun he => by rw [h' ending he]

theorem hasLooseS_congr {text text' : List Char} (h : sound text = sound text') :
    hasLooseS text = hasLooseS text' :=
  hasLooseS_of_endings (endsWithText_congr s_isLower h)
    fun ending he => endsWithText_congr (keptEndings_isLower ending he).1 h

/-- Every pattern at the end of a text but a single s decides whether the text has a loose s. -/
theorem hasLooseS_of_suffix {pattern text : List Char} (hl : ∀ c ∈ pattern, c.isLower = true)
    (hp : pattern ≠ [] ∧ pattern ≠ ['s']) (h : spelt pattern <:+ sound text) :
    hasLooseS text = hasLooseS pattern := by
  have one := endsWithText_of_suffix hl s_isLower h (List.length_pos_iff.2 hp.1)
  by_cases long : 2 ≤ pattern.length
  · refine hasLooseS_of_endings one fun ending he => ?_
    obtain ⟨lower, two⟩ := keptEndings_isLower ending he
    exact endsWithText_of_suffix hl lower h (two ▸ long)
  · obtain ⟨c, rfl⟩ : ∃ c, pattern = [c] := by
      rw [← List.length_eq_one_iff]
      have pos := List.length_pos_iff.2 hp.1
      omega
    have none : endsWithText ['s'] [c] = false := by
      rw [Bool.eq_false_iff, ne_eq, endsWithText_iff s_isLower, sound_of_isLower hl]
      exact fun hs => hp.2 ((suffix_of_spelt hs).eq_of_length rfl).symm
    rw [hasLooseS, hasLooseS, one, none, Bool.false_and, Bool.false_and]

/-- A text with a pattern at its end has its last letter at its end. -/
theorem exists_concat_of_suffix {pattern text : List Char} {d : Char}
    (h : spelt (pattern ++ [d]) <:+ sound text) :
    ∃ front c, text = front ++ [c] ∧ letter? c = some d ∧ spelt pattern <:+ sound front := by
  rw [spelt, List.map_append, ← spelt] at h
  rcases List.eq_nil_or_concat' text with rfl | ⟨front, c, rfl⟩
  · exact absurd (List.suffix_nil.1 h) (by simp)
  · rw [sound, List.map_append, List.map_singleton, ← sound] at h
    rcases List.suffix_concat_iff.1 h with none | ⟨letters, same, front'⟩
    · exact absurd none (by simp)
    · obtain ⟨rfl, last⟩ := List.append_inj' same rfl
      exact ⟨front, c, rfl, (List.singleton_inj.1 last).symm, front'⟩

theorem exists_concat_of_s {text : List Char} (h : endsWithText ['s'] text = true) :
    ∃ front c, text = front ++ [c] ∧ letter? c = some 's' := by
  have ending : spelt ([] ++ ['s']) <:+ sound text := (endsWithText_iff s_isLower).1 h
  obtain ⟨front, c, he, letter, -⟩ := exists_concat_of_suffix ending
  exact ⟨front, c, he, letter⟩

theorem ne_lineFeed_of_letter {c d : Char} (h : letter? c = some d) : c ≠ '\n' := by
  rintro rfl
  have none : letter? '\n' = none := by decide +kernel
  rw [none] at h
  cases h

/-- A line feed behind a pattern is taken off, and nothing else. -/
theorem splitLineFeed_of_suffix {pattern text feed : List Char} (h : spelt pattern <:+ sound text)
    (hp : pattern ≠ []) (hf : feed = [] ∨ feed = ['\n']) :
    splitLineFeed (text ++ feed) = (text, feed) := by
  rw [← List.dropLast_concat_getLast hp] at h
  obtain ⟨front, c, rfl, letter, -⟩ := exists_concat_of_suffix h
  exact splitLineFeed_of_letter (ne_lineFeed_of_letter letter) hf

/-! ## Rules in front of the last one -/

/-- The rule that takes an s away from any text. -/
def lastRule : EndingRule := ⟨.oneOf [""], "s", ""⟩

/-- The rules in front of it. -/
def firstRules : List EndingRule := endingRules.take 10

theorem endingRules_eq : endingRules = firstRules ++ [lastRule] := rfl

/-- What the lists say about a form of a rule in front of the last one. -/
structure FirstForm (rule : EndingRule) (form : List Char × List Char) : Prop where
  plural_eq : form.1 = form.1.dropLast ++ ['s'] ∧ form.1.dropLast ≠ []
  singular_ne : form.2 ≠ [] ∧ form.2 ≠ ['s']
  plural_loose : hasLooseS form.1 = (rule.plural != "")
  /-- Only `aliases` has a singular with a loose s. -/
  singular_loose : hasLooseS form.2 = endsWithText "aliases".toList form.1
  aliases : endsWithText form.1 "aliases".toList = endsWithText "aliases".toList form.1
  uncountable : hasLooseS form.2 = true →
    ∀ noun ∈ uncountable, endsWithText form.2 noun.toList = false
  /-- No irregular plural ends like a singular, and none ends like a plural when it has one more
  s. -/
  irregular : ∀ entry ∈ irregular,
    endsWithText form.2 entry.1.toList = false ∧ endsWithText form.1.dropLast entry.1.toList = false

theorem firstForm_of_mem {rule : EndingRule} (hr : rule ∈ firstRules) {form : List Char × List Char}
    (hf : form ∈ rule.forms) : FirstForm rule form := by
  have all : (firstRules.all fun rule => rule.forms.all fun form =>
      (form.1 == form.1.dropLast ++ ['s'] && form.1.dropLast != []) &&
      (form.2 != [] && form.2 != ['s']) &&
      (hasLooseS form.1 == (rule.plural != "")) &&
      (hasLooseS form.2 == endsWithText "aliases".toList form.1) &&
      (endsWithText form.1 "aliases".toList == endsWithText "aliases".toList form.1) &&
      (!hasLooseS form.2 || uncountable.all fun noun => !endsWithText form.2 noun.toList) &&
      (irregular.all fun entry => !endsWithText form.2 entry.1.toList &&
        !endsWithText form.1.dropLast entry.1.toList)) = true := by
    decide +kernel
  have known := List.all_eq_true.1 (List.all_eq_true.1 all rule hr) form hf
  simp only [Bool.and_eq_true, Bool.or_eq_true, List.all_eq_true, beq_iff_eq, bne_iff_ne, ne_eq,
    Bool.not_eq_true'] at known
  obtain ⟨⟨⟨⟨⟨⟨plural, singular⟩, loose⟩, alone⟩, aliases⟩, nouns⟩, keys⟩ := known
  exact ⟨plural, singular, loose, alone, aliases,
    fun h => nouns.resolve_left (ne_false_of_eq_true h), keys⟩

theorem FirstForm.plural_ne {rule : EndingRule} {form : List Char × List Char}
    (h : FirstForm rule form) : form.1 ≠ [] ∧ form.1 ≠ ['s'] := by
  obtain ⟨he, hn⟩ := h.plural_eq
  constructor
  · intro none
    rw [none] at hn
    exact hn rfl
  · intro one
    rw [one] at hn
    exact hn rfl

/-- A rule in front of the last one that fits a text has a form at its end, and puts the other half
of the form there. -/
theorem exists_firstForm {rule : EndingRule} (hr : rule ∈ firstRules) {text : List Char}
    (h : rule.fits text = true) : ∃ form, FirstForm rule form ∧
      (∀ c ∈ form.1, c.isLower = true) ∧ (∀ c ∈ form.2, c.isLower = true) ∧
      spelt form.1 <:+ sound text ∧ spelt form.2 <:+ sound (rule.apply text) := by
  have formed := wellFormed_of_mem rule (List.mem_of_mem_take hr)
  obtain ⟨form, hf, ending, given⟩ := formed.exists_form h
  obtain ⟨plural, singular⟩ := formed.forms_isLower hf
  exact ⟨form, firstForm_of_mem hr hf, plural, singular, ending, given⟩

/-! ## The rule for a text -/

/-- The rule that leaves endings as they are. -/
def keepRule : EndingRule := ⟨.oneOf ["ss", "us", "is"], "", ""⟩

theorem keepRule_mem : keepRule ∈ firstRules := by
  simp [firstRules, endingRules, keepRule]

theorem keptEndings_eq : keptEndings = keepRule.forms.map (·.1) := rfl

/-- The rule for `aliases`. -/
def aliasRule : EndingRule := ⟨.oneOf ["alias", "status", "bus"], "es", ""⟩

theorem aliasRule_mem : aliasRule ∈ firstRules := by
  simp [firstRules, endingRules, aliasRule]

/-- Which rule is the first that a text fits. -/
inductive FirstRule (text : List Char) : Option EndingRule → Prop where
  | first {rule : EndingRule} (hr : rule ∈ firstRules) (fits : rule.fits text = true) :
      FirstRule text (some rule)
  | last (loose : hasLooseS text = true)
      (other : endsWithText "aliases".toList text = false) : FirstRule text (some lastRule)
  | none (h : endsWithText ['s'] text = false) : FirstRule text none

/-- A rule in front of the last one that does not fit a text has no form at its end. -/
theorem not_suffix_of_not_fits {rule : EndingRule} (hr : rule ∈ firstRules) {texts : List String}
    (hs : rule.stem = .oneOf texts) {text : List Char} (h : rule.fits text = false)
    {form : List Char × List Char} (hf : form ∈ rule.forms) : endsWithText form.1 text = false := by
  have formed := wellFormed_of_mem rule (List.mem_of_mem_take hr)
  rw [Bool.eq_false_iff, ne_eq, endsWithText_iff (formed.forms_isLower hf).1]
  exact fun he => Bool.eq_false_iff.1 h (formed.fits_of_form hs hf he)

theorem lastRule_wellFormed : lastRule.WellFormed :=
  wellFormed_of_mem lastRule (List.mem_append_right firstRules (List.mem_singleton_self lastRule))

theorem lastRule_fits {text : List Char} :
    lastRule.fits text = endsWithText ['s'] text := by
  rw [Bool.eq_iff_iff, endsWithText_iff s_isLower]
  constructor
  · intro fits
    obtain ⟨form, hf, ending, -⟩ := lastRule_wellFormed.exists_form fits
    cases List.mem_singleton.1 hf
    exact ending
  · exact lastRule_wellFormed.fits_of_form rfl (List.mem_singleton_self (['s'], []))

theorem firstRule (text : List Char) : FirstRule (splitLineFeed text).1 (ruleFor? text) := by
  generalize hb : (splitLineFeed text).1 = body
  rw [ruleFor?, endingRules_eq, List.find?_append, hb]
  cases found : firstRules.find? fun rule => rule.fits body with
  | some rule =>
    exact .first (List.mem_of_find?_eq_some found)
      (List.find?_some (p := fun rule : EndingRule => rule.fits body) found)
  | none =>
    have unfit : ∀ rule ∈ firstRules, rule.fits body = false := fun rule hr =>
      Bool.eq_false_iff.2 (List.find?_eq_none.1 found rule hr)
    rw [Option.none_or, List.find?_singleton, lastRule_fits]
    split
    · -- the kept endings and `aliases` are forms of rules that were tried before
      rename_i hs
      refine .last ?_ (not_suffix_of_not_fits aliasRule_mem rfl (unfit _ aliasRule_mem)
        (List.mem_cons_self (a := ("aliases".toList, "alias".toList))))
      rw [hasLooseS, hs, Bool.true_and, Bool.not_eq_true', List.any_eq_false, keptEndings_eq]
      refine List.forall_mem_map.2 fun form hf => Bool.eq_false_iff.1 ?_
      exact not_suffix_of_not_fits keepRule_mem rfl (unfit _ keepRule_mem) hf
    · exact .none (Bool.eq_false_iff.2 (by assumption))

/-- A rule is found that changes a text just when the text has a loose s. -/
theorem all_ruleFor? (text : List Char) :
    ((ruleFor? text).all fun rule => rule.plural == "") = !hasLooseS (splitLineFeed text).1 := by
  have known := firstRule text
  generalize ruleFor? text = rule? at known
  cases known with
  | @first rule hr fits =>
    obtain ⟨form, checked, lower, -, ending, -⟩ := exists_firstForm hr fits
    rw [hasLooseS_of_suffix lower checked.plural_ne ending, checked.plural_loose, bne, Bool.not_not]
    rfl
  | last loose => rw [loose]; rfl
  | none h => rw [hasLooseS, h]; rfl

/-! ## Listed nouns -/

/-- A text that differs from all nouns without plural is none of them. -/
theorem contains_eq_false {text : List Char} {p : List Char → Prop}
    (hu : ∀ noun ∈ uncountable, p noun.toList) (h : ¬p text) :
    uncountable.contains (String.ofList text) = false := by
  rw [Bool.eq_false_iff]
  intro listed
  have known := hu _ (List.contains_iff_mem.1 listed)
  rw [String.toList_ofList] at known
  exact h known

/-- A text that differs from all irregular plurals is none of them. -/
theorem lookup_eq_none {text : List Char} {p : List Char → Prop}
    (hi : ∀ entry ∈ irregular, p entry.1.toList) (h : ¬p text) :
    irregular.lookup (String.ofList text) = none := by
  cases found : irregular.lookup (String.ofList text) with
  | none => rfl
  | some value =>
    have known := hi _ (mem_of_lookup found)
    rw [String.toList_ofList] at known
    exact absurd known h

theorem lookup_of_suffix {pattern text : List Char} (lower : ∀ c ∈ pattern, c.isLower = true)
    (h : spelt pattern <:+ sound text)
    (hi : ∀ entry ∈ irregular, endsWithText pattern entry.1.toList = false) :
    irregular.lookup (String.ofList text) = none :=
  lookup_eq_none (p := (endsWithText pattern · = false)) hi
    (ne_false_of_eq_true ((endsWithText_iff lower).2 h))

theorem listed_feed : (∀ noun ∈ uncountable, (splitLineFeed noun.toList).2 = []) ∧
    ∀ entry ∈ irregular, (splitLineFeed entry.1.toList).2 = [] := by
  decide +kernel

/-- No listed noun has a line feed at its end. -/
theorem unlisted_of_feed (front : List Char) :
    uncountable.contains (String.ofList (front ++ ['\n'])) = false ∧
      irregular.lookup (String.ofList (front ++ ['\n'])) = none := by
  have feed : ¬(splitLineFeed (front ++ ['\n'])).2 = [] := by
    rw [splitLineFeed_concat, if_pos rfl]
    exact List.cons_ne_nil _ _
  exact ⟨contains_eq_false (p := fun text => (splitLineFeed text).2 = []) listed_feed.1 feed,
    lookup_eq_none (p := fun text => (splitLineFeed text).2 = []) listed_feed.2 feed⟩

theorem not_endsWithText_feed (front : List Char) :
    endsWithText ['s'] (front ++ ['\n']) = false := by
  rw [Bool.eq_false_iff]
  intro h
  obtain ⟨front', c, same, letter⟩ := exists_concat_of_s h
  obtain ⟨-, last⟩ := List.append_inj' same rfl
  exact ne_lineFeed_of_letter letter (List.singleton_inj.1 last).symm

/-! ## Answers of the rules in front of the last one -/

section FirstForm

variable {rule : EndingRule} {form : List Char × List Char} (checked : FirstForm rule form)
  {body feed : List Char} (hf : feed = [] ∨ feed = ['\n'])

include checked hf

/-- A text with a singular form at its end is its own singular, unless the form is `alias`. -/
theorem isOwnSingular_of_form (lower : ∀ c ∈ form.2, c.isLower = true)
    (h : spelt form.2 <:+ sound body) : isOwnSingular (body ++ feed) = !hasLooseS form.2 := by
  have split := splitLineFeed_of_suffix h checked.singular_ne.1 hf
  have loose := hasLooseS_of_suffix lower checked.singular_ne h
  have unknown : irregular.lookup (String.ofList (body ++ feed)) = none := by
    rcases hf with rfl | rfl
    · rw [List.append_nil]
      exact lookup_of_suffix lower h fun entry he => (checked.irregular entry he).1
    · exact (unlisted_of_feed body).2
  rw [isOwnSingular, split, unknown, loose]
  cases single : hasLooseS form.2 with
  | false => exact Bool.or_true _
  | true =>
    have countable : uncountable.contains (String.ofList (body ++ feed)) = false := by
      rcases hf with rfl | rfl
      · rw [List.append_nil]
        exact contains_eq_false (p := (endsWithText form.2 · = false)) (checked.uncountable single)
          (ne_false_of_eq_true ((endsWithText_iff lower).2 h))
      · exact (unlisted_of_feed body).1
    rw [countable]
    rfl

/-- A text with a plural form at its end is no plural twice, unless the form is `aliases`. -/
theorem isDoublePlural_of_form (lower : ∀ c ∈ form.1, c.isLower = true)
    (h : spelt form.1 <:+ sound body) :
    isDoublePlural (body ++ feed) = endsWithText "aliases".toList form.1 := by
  obtain ⟨he, hd⟩ := checked.plural_eq
  have split := splitLineFeed_of_suffix h checked.plural_ne.1 hf
  have aliases : endsWithText "aliases".toList body = endsWithText "aliases".toList form.1 := by
    rw [Bool.eq_iff_iff, endsWithText_iff aliases_isLower, endsWithText_iff aliases_isLower,
      sound_of_isLower lower]
    refine ⟨fun ha => ?_, fun ha => ha.trans h⟩
    rcases List.suffix_or_suffix_of_suffix ha h with inside | around
    · exact inside
    · rw [← sound_of_isLower aliases_isLower, ← endsWithText_iff lower, checked.aliases,
        endsWithText_iff aliases_isLower, sound_of_isLower lower] at around
      exact around
  have single : isPluralWithS (body ++ feed) = false := by
    rw [isPluralWithS]
    rcases hf with rfl | rfl
    · have ending := h
      rw [he] at ending
      obtain ⟨front, c, rfl, -, ending⟩ := exists_concat_of_suffix ending
      have unknown : irregular.lookup (String.ofList front) = none :=
        lookup_of_suffix (fun c hc => lower c (List.mem_of_mem_dropLast hc)) ending
          fun entry he => (checked.irregular entry he).2
      have split := splitLineFeed_of_suffix ending hd (.inl rfl)
      rw [List.append_nil] at split
      rw [List.append_nil, List.dropLast_concat, unknown, split]
      exact Bool.and_false _
    · rw [not_endsWithText_feed, Bool.false_and]
  rw [isDoublePlural, split, aliases, single, Bool.or_false]

end FirstForm

theorem isOwnSingular_apply {rule : EndingRule} (hr : rule ∈ firstRules) {text : List Char}
    (fits : rule.fits (splitLineFeed text).1 = true) :
    isOwnSingular (rule.apply (splitLineFeed text).1 ++ (splitLineFeed text).2) =
      !isDoublePlural text := by
  obtain ⟨form, checked, plural, singular, ending, given⟩ := exists_firstForm hr fits
  have hf := splitLineFeed_feed text
  rw [isOwnSingular_of_form checked hf singular given, checked.singular_loose,
    ← isDoublePlural_of_form checked hf plural ending, splitLineFeed_append]

/-! ## Answers of the last rule -/

theorem lastRule_apply {front : List Char} {c : Char}
    (h : endsWithText ['s'] (front ++ [c]) = true) : lastRule.apply (front ++ [c]) = front := by
  have one : lastRule.plural.length = 1 := rfl
  have nothing : lastRule.singular.toList = [] := rfl
  rw [EndingRule.apply, if_pos (lastRule_fits.trans h), one, nothing, List.length_append,
    List.length_singleton, Nat.add_sub_cancel, List.take_left, List.append_nil]

/-- No s stands in front of a loose s. -/
theorem not_endsWithText_of_loose {front : List Char} {c : Char} (letter : letter? c = some 's')
    (loose : hasLooseS (front ++ [c]) = true) : endsWithText ['s'] front = false := by
  rw [hasLooseS, Bool.and_eq_true, Bool.not_eq_true', List.any_eq_false] at loose
  obtain ⟨lower, -⟩ := keptEndings_isLower ['s', 's'] List.mem_cons_self
  have single := loose.2 ['s', 's'] List.mem_cons_self
  rw [endsWithText_iff lower] at single
  rw [Bool.eq_false_iff, ne_eq, endsWithText_iff s_isLower]
  rintro ⟨letters, he⟩
  refine single ⟨letters, ?_⟩
  rw [sound, List.map_append, ← sound, ← he, List.map_singleton, letter, List.append_assoc]
  rfl

theorem irregular_not_uncountable : ∀ entry ∈ irregular, uncountable.contains entry.1 = false := by
  decide +kernel

theorem isOwnSingular_lastRule {text : List Char} (loose : hasLooseS (splitLineFeed text).1 = true)
    (other : endsWithText "aliases".toList (splitLineFeed text).1 = false) :
    isOwnSingular (lastRule.apply (splitLineFeed text).1 ++ (splitLineFeed text).2) =
      !isDoublePlural text := by
  have ending : endsWithText ['s'] (splitLineFeed text).1 = true := by
    rw [hasLooseS, Bool.and_eq_true] at loose
    exact loose.1
  obtain ⟨front, c, body, letter⟩ := exists_concat_of_s ending
  have whole := splitLineFeed_append text
  rw [body] at loose whole ending
  have before := not_endsWithText_of_loose letter loose
  have still : hasLooseS front = false := by rw [hasLooseS, before, Bool.false_and]
  rw [isDoublePlural, other, Bool.false_or, body, lastRule_apply ending]
  rcases splitLineFeed_feed text with feed | feed <;> rw [feed] at whole ⊢
  · rw [List.append_nil] at whole ⊢
    rw [← whole, isPluralWithS, ending, Bool.true_and, List.dropLast_concat, isOwnSingular]
    rcases splitLineFeed_feed front with feed | feed
    · -- what stood in front of the s has no s itself, but it may be an irregular plural
      have same := splitLineFeed_append front
      rw [feed, List.append_nil] at same
      rw [feed, same, still]
      cases found : irregular.lookup (String.ofList front) with
      | none => exact Bool.or_true _
      | some value => rw [irregular_not_uncountable _ (mem_of_lookup found)]; rfl
    · -- a line feed behind what stood in front of the s lets the rules see its ending
      have same := splitLineFeed_append front
      rw [feed] at same
      obtain ⟨countable, unknown⟩ := unlisted_of_feed (splitLineFeed front).1
      rw [same] at countable unknown
      rw [countable, unknown, feed]
      rfl
  · obtain ⟨countable, unknown⟩ := unlisted_of_feed front
    rw [← whole, isPluralWithS, not_endsWithText_feed, Bool.false_and, isOwnSingular, countable,
      unknown, splitLineFeed_concat, if_pos rfl, still]
    rfl

/-! ## Answers -/

theorem listed_settles : (∀ noun ∈ uncountable, isDoublePlural noun.toList = false) ∧
    ∀ entry ∈ irregular, isDoublePlural entry.1.toList = false ∧
      isOwnSingular entry.2.toList = true := by
  decide +kernel

/-- An answer is its own singular, unless the text is a plural twice. -/
theorem isOwnSingular_of_answers {text answer : List Char} (h : Answers text answer) :
    isOwnSingular answer = !isDoublePlural text := by
  cases h with
  | irregular _ found =>
    obtain ⟨single, settled⟩ := listed_settles.2 _ (mem_of_lookup found)
    rw [String.toList_ofList] at single
    rw [single, settled]
    rfl
  | ending _ _ found =>
    have known := firstRule text
    rw [found] at known
    cases known with
    | first hr fits => exact isOwnSingular_apply hr fits
    | last loose other => exact isOwnSingular_lastRule loose other

/-- A text without an s at its end is no plural twice. -/
theorem isDoublePlural_of_not_s {text : List Char}
    (h : endsWithText ['s'] (splitLineFeed text).1 = false) : isDoublePlural text = false := by
  have aliases : endsWithText "aliases".toList (splitLineFeed text).1 = false := by
    rw [Bool.eq_false_iff, ne_eq, endsWithText_iff s_isLower] at h
    rw [Bool.eq_false_iff, ne_eq, endsWithText_iff aliases_isLower]
    exact fun ha => h (List.IsSuffix.trans (by decide +kernel) ha)
  have single : endsWithText ['s'] text = false := by
    have whole := splitLineFeed_append text
    rcases splitLineFeed_feed text with feed | feed <;> rw [feed] at whole
    · rw [List.append_nil] at whole
      rwa [whole] at h
    · rw [← whole]
      exact not_endsWithText_feed _
  rw [isDoublePlural, aliases, isPluralWithS, single]
  rfl

/-- A text that is left as it is is no plural twice. -/
theorem not_isDoublePlural_of_answer? {text : List Char} (h : answer? text = none) :
    isDoublePlural text = false := by
  rw [answer?] at h
  split at h
  · rename_i listed
    have single := listed_settles.1 _ (List.contains_iff_mem.1 listed)
    rwa [String.toList_ofList] at single
  · split at h
    · cases h
    · have known := firstRule text
      rw [Option.map_eq_none_iff.1 h] at known
      cases known with
      | none still => exact isDoublePlural_of_not_s still

theorem irregular_ne : ∀ entry ∈ irregular, entry.1 ≠ entry.2 := by
  decide +kernel

theorem uncountable_lt : ∀ noun ∈ uncountable, ∀ c ∈ noun.toList, c.toNat < 128 := by
  have all : (uncountable.all fun noun =>
      noun.toList.all fun c => decide (c.toNat < 128)) = true := by
    decide +kernel
  intro noun hn c hc
  exact of_decide_eq_true (List.all_eq_true.1 (List.all_eq_true.1 all noun hn) c hc)

theorem unlisted_of_not_lt {text : List Char} (h : ¬∀ c ∈ text, c.toNat < 128) :
    uncountable.contains (String.ofList text) = false ∧
      irregular.lookup (String.ofList text) = none := by
  have plurals : ∀ entry ∈ irregular, ∀ c ∈ entry.1.toList, c.toNat < 128 :=
    fun entry he c hc => isLower_lt ((irregular_isLower entry he).1 c hc)
  exact ⟨contains_eq_false (p := fun text => ∀ c ∈ text, c.toNat < 128) uncountable_lt h,
    lookup_eq_none (p := fun text => ∀ c ∈ text, c.toNat < 128) plurals h⟩

/-- All texts that stand in lower case for one text are their own singulars, or none is. -/
theorem isOwnSingular_lowers {text lowered other : List Char} (h : List.Forall₂ Lowers text lowered)
    (h' : List.Forall₂ Lowers text other) : isOwnSingular lowered = isOwnSingular other := by
  by_cases same : other = lowered
  · rw [same]
  · -- Only texts outside the basic alphabet differ, and these are not listed.
    have basic : ¬∀ c ∈ lowered, c.toNat < 128 := fun lt => same (lowers_unique h h' lt)
    have basic' : ¬∀ c ∈ other, c.toNat < 128 := fun lt => same (lowers_unique h' h lt).symm
    have ending := (sound_of_lowers (splitLineFeed_lowers h).1).trans
      (sound_of_lowers (splitLineFeed_lowers h').1).symm
    rw [isOwnSingular, isOwnSingular, (unlisted_of_not_lt basic).1, (unlisted_of_not_lt basic).2,
      (unlisted_of_not_lt basic').1, (unlisted_of_not_lt basic').2, hasLooseS_congr ending]

/-- A text that is left as it is is its own singular. -/
theorem isOwnSingular_of_answer? {text : List Char} (h : answer? text = none) :
    isOwnSingular text = true := by
  rw [answer?] at h
  rw [isOwnSingular]
  split at h
  · rename_i listed
    rw [listed]
    rfl
  · split at h
    · cases h
    · rename_i unknown
      rw [unknown, ← all_ruleFor?, Option.map_eq_none_iff.1 h]
      exact Bool.or_true _

/-- A text in a case style is its own singular just when it is in lower case. -/
theorem singular_eq_self_iff {text lowered : List Char} (style : Styled text)
    (h : List.Forall₂ Lowers text lowered) :
    singular (String.ofList text) = String.ofList text ↔ isOwnSingular lowered = true := by
  have low := lowers_lowercase h
  rw [isOwnSingular_lowers h low, singular_eq (by rwa [String.toList_ofList]),
    String.toList_ofList]
  cases ha : answer? (lowercase text) with
  | none => exact iff_of_true rfl (isOwnSingular_of_answer? ha)
  | some answer =>
    have given := lowers_restoreCase low style.toReturns (isAnswer_of_answer? ha)
    dsimp only
    rw [String.ofList_inj]
    cases answers_of_answer? ha with
    | @irregular countable value found =>
      have entry := mem_of_lookup found
      rw [isOwnSingular, countable, found]
      refine iff_of_false (fun he => irregular_ne _ entry ?_) Bool.false_ne_true
      rw [he] at given
      have lt : ∀ c ∈ value.toList, c.toNat < 128 := fun c hc =>
        isLower_lt ((irregular_isLower _ entry).2 c hc)
      rw [lowers_unique given low lt, String.ofList_toList]
    | @ending countable unknown rule found =>
      have fits := List.find?_some (p := fun rule : EndingRule => rule.fits _) found
      have formed := wellFormed_of_mem rule (List.mem_of_find?_eq_some found)
      have known := all_ruleFor? (lowercase text)
      rw [found] at known
      rw [isOwnSingular, countable, unknown, ← known, Option.isNone_none, Bool.false_or,
        Bool.true_and, Option.all_some, beq_iff_eq]
      constructor
      · intro he
        by_contra changes
        rw [he] at given
        have same := (sound_of_lowers given).trans (sound_of_lowers low).symm
        conv at same => rhs; rw [← splitLineFeed_append (lowercase text)]
        rw [sound, sound, List.map_append, List.map_append] at same
        exact formed.sound_apply_ne changes fits (List.append_cancel_right same)
      · intro keeps
        rw [formed.apply_eq_self keeps, splitLineFeed_append]
        exact style.restoreCase_lowercase low

/-! ## Singulars of singulars -/

/-- The singular of a word is its own singular just when the word is no plural twice, and just then
operations with the one as source name are in the interface of operations with the other. -/
theorem singular_singular {word : String} (h : CapitalsReturn word.toList) :
    (singular (singular word) = singular word ↔
      isDoublePlural (lowercase word.toList) = false) ∧
    ∀ s s' : OpenApi.Site, OpenApi.sourceNameOf s.path s.operation = .ok word →
      OpenApi.sourceNameOf s'.path s'.operation = .ok (singular word) →
      (s'.interfaceName = s.interfaceName ↔ isDoublePlural (lowercase word.toList) = false) := by
  have low := h.lowers
  have settles : singular (singular word) = singular word ↔
      isDoublePlural (lowercase word.toList) = false := by
    have given := singular_eq low
    cases ha : answer? (lowercase word.toList) with
    | none =>
      rw [ha] at given
      dsimp only at given
      rw [given, given, not_isDoublePlural_of_answer? ha]
      exact iff_of_true rfl rfl
    | some answer =>
      rw [ha] at given
      dsimp only at given
      have isAnswer := isAnswer_of_answer? ha
      have lowers := lowers_restoreCase low (returns_of_capitalsReturn h) isAnswer
      rw [given, singular_eq_self_iff (styled_restoreCase h isAnswer) lowers,
        isOwnSingular_of_answers (answers_of_answer? ha), Bool.not_eq_true']
  refine ⟨settles, fun s s' hs hs' => ?_⟩
  have name : s.interfaceName = .ok (singular word) := by
    rw [OpenApi.Site.interfaceName, hs]
    rfl
  have name' : s'.interfaceName = .ok (singular (singular word)) := by
    rw [OpenApi.Site.interfaceName, hs']
    rfl
  rw [name, name', Except.ok.injEq, settles]

/-- An operation with a tag. -/
def tagged (tag : String) : OpenApi.Site where
  path := "/"
  item := ⟨⟨[], default⟩⟩
  verb := "get"
  operation := ⟨⟨[(⟨"tags", default⟩, .array [.literal ⟨.text tag, default⟩] default)], default⟩⟩

theorem singular_singular_categories :
    singular (singular "Categories") = singular "Categories" ∧
      (tagged (singular "Categories")).interfaceName = (tagged "Categories").interfaceName := by
  have lt : ("Categories".toList.all fun c => decide (c.toNat < 128)) = true := by decide +kernel
  simp only [List.all_eq_true, decide_eq_true_eq] at lt
  have single : isDoublePlural (lowercase "Categories".toList) = false := by decide +kernel
  obtain ⟨settled, together⟩ := singular_singular (capitalsReturn_of_lt lt)
  exact ⟨settled.2 single,
    (together (tagged "Categories") (tagged (singular "Categories")) rfl rfl).2 single⟩

/-- The singular of `aliases` is a plural once more. -/
theorem singular_singular_aliases : singular (singular "aliases") ≠ singular "aliases" := by
  decide +kernel

end ServiceModel.Naming

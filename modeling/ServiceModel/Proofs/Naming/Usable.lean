/-
When a name that is made of other names is empty. Camel case keeps the letters and digits of a text
and nothing else, so that the name of a shape is empty just when neither its parent nor its place
has any. The singular of a word is empty for a lone s, which the last rule takes for an ending, and
for no other word but the empty one.
-/
import ServiceModel.Proofs.Naming.Settled
import ServiceModel.Proofs.Naming.Spellings
import ServiceModel.Synthesis.Descriptor

namespace ServiceModel.Naming

open ServiceModel.Text

/-! ## Camel case -/

/-- The text has a letter or a digit of the basic alphabet. -/
def Worded (text : String) : Prop := ∃ c ∈ text.toList, isWordChar c = true

instance : DecidablePred Worded := fun text =>
  decidable_of_iff (text.toList.any isWordChar = true) List.any_eq_true

theorem worded_append {text other : String} :
    Worded (text ++ other) ↔ Worded text ∨ Worded other := by
  simp only [Worded, String.toList_append, List.mem_append, or_and_right, exists_or]

theorem worded_underscore : ¬Worded "_" := by decide

theorem worded_camel {text : String} : Worded (camel text) ↔ Worded text := by
  have spelt : ∀ c : Char, c ∈ letters text ↔ ∃ d ∈ (camel text).toList, d.toLower = c := by
    intro c
    rw [← toLower_camel, List.mem_map]
  constructor
  · rintro ⟨c, hc, -⟩
    obtain ⟨d, hd, -⟩ := List.mem_map.1 ((spelt _).2 ⟨c, hc, rfl⟩)
    exact ⟨d, List.mem_filter.1 hd⟩
  · rintro ⟨d, hd, char⟩
    obtain ⟨c, hc, -⟩ := (spelt _).1 (List.mem_map_of_mem (List.mem_filter.2 ⟨hd, char⟩))
    exact ⟨c, hc, isWordChar_of_toLower_eq (toLower_camel text) c hc⟩

theorem Worded.ne_empty {text : String} (h : Worded text) : text ≠ "" := by
  rintro rfl
  obtain ⟨c, hc, -⟩ := h
  cases hc

theorem worded_ofShape {parent name : String} :
    Worded (ofShape parent name) ↔ Worded parent ∨ Worded name := by
  rw [ofShape, worded_camel, worded_append, worded_append, or_iff_left worded_underscore]

theorem worded_ofEnum {parent name : String} :
    Worded (ofEnum parent name) ↔ Worded parent ∨ Worded (singular name) :=
  worded_ofShape

/-- The name tells something, and so does its singular. -/
structure Telling (name : String) : Prop where
  worded : Worded name
  singular : Worded (Naming.singular name)

theorem telling_response : Telling "response" := ⟨by decide, by decide +kernel⟩

/-! ## Singular -/

/-- The words of which nothing is left in the singular: the letter s, a small, a capital or a long
one, and no word at all. -/
def lostWords : List String := ["", "s", "S", "\u017f"]

/-- The characters that count as an s. -/
theorem lost_of_letter {c : Char} (h : letter? c = some 's') : String.ofList [c] ∈ lostWords := by
  have named {n : Nat} (hn : c.toNat = n) : c = Char.ofNat n := by rw [← hn, Char.ofNat_toNat]
  by_cases long : c.toNat = 0x17f
  · rw [named long]
    decide
  · have dotted : c.toNat ≠ CaseTable.dottedI := by
      intro dotted
      rw [named dotted] at h
      exact absurd h (by decide)
    obtain ⟨d, hd, -⟩ := lowerChar_cases dotted
    have folded : d = 's' := by
      rw [letter?, hd, if_neg long] at h
      dsimp only [List.headD_cons] at h
      split at h
      · cases h
      · split at h
        · exact Option.some.inj h
        · cases h
    subst folded
    have lt := lt_of_lowerChar hd dotted (by decide) (by decide)
    have small : ∀ n < 128, lowerChar (Char.ofNat n) = ['s'] →
        String.ofList [Char.ofNat n] ∈ lostWords := by
      decide
    have code := small c.toNat lt
    rw [Char.ofNat_toNat] at code
    exact code hd

/-- A rule that leaves nothing of a text has taken away a lone s. -/
theorem lone_of_apply {rule : EndingRule} (hr : rule ∈ endingRules) {text : List Char}
    (some : text ≠ []) (h : rule.apply text = []) : ∃ c, text = [c] ∧ letter? c = .some 's' := by
  by_cases fits : rule.fits text = true
  · rw [endingRules_eq, List.mem_append, List.mem_singleton] at hr
    rcases hr with hr | rfl
    · obtain ⟨form, checked, -, -, -, given⟩ := exists_firstForm hr fits
      rw [h] at given
      exact absurd (List.map_eq_nil_iff.1 (List.suffix_nil.1 given)) checked.singular_ne.1
    · rw [lastRule_fits] at fits
      obtain ⟨front, c, rfl, letter⟩ := exists_concat_of_s fits
      rw [lastRule_apply fits] at h
      exact ⟨c, by rw [h]; rfl, letter⟩
  · rw [EndingRule.apply, if_neg fits] at h
    exact absurd h some

/-- A rule that leaves nothing of a word in lower case is used on one of the lost words. -/
theorem lost_of_apply {rule : EndingRule} (hr : rule ∈ endingRules) {text : List Char}
    (h : rule.apply (splitLineFeed (lowercase text)).1 ++ (splitLineFeed (lowercase text)).2 = []) :
    String.ofList text ∈ lostWords := by
  obtain ⟨none, feed⟩ := List.append_eq_nil_iff.1 h
  have body := splitLineFeed_append (lowercase text)
  rw [feed, List.append_nil] at body
  rw [body] at none
  by_cases empty : text = []
  · rw [empty]
    exact List.mem_cons_self
  · obtain ⟨d, low, letter⟩ := lone_of_apply hr (mt lowerAfter_eq_nil.1 empty) none
    obtain ⟨c, rfl, lowers⟩ := lowers_of_lowercase low
    exact lost_of_letter ((letter?_of_lowers lowers).symm.trans letter)

theorem irregular_ne_nil : ∀ entry ∈ irregular, entry.2.toList ≠ [] := by
  decide

/-- Nothing is left in the singular of the lost words only. -/
theorem singular_eq_empty {word : String} : singular word = "" ↔ word ∈ lostWords := by
  constructor
  · intro h
    have nothing {answer : List Char} (he : String.ofList (restoreCase word.toList answer) = "") :
        answer = [] := by
      by_contra some
      exact restoreCase_ne_nil some (String.ofList_eq_empty_iff.1 he)
    rw [singular] at h
    dsimp only at h
    split at h
    · rw [h]
      exact List.mem_cons_self
    · split at h
      · rename_i answer found
        exact absurd (nothing h) (irregular_ne_nil _ (mem_of_lookup found))
      · split at h
        · rename_i rule found
          rw [← String.ofList_toList (s := word)]
          exact lost_of_apply (List.mem_of_find?_eq_some found) (nothing h)
        · rw [h]
          exact List.mem_cons_self
  · intro h
    revert word
    decide

end ServiceModel.Naming

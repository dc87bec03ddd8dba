/-
Giving an answer in the case style of a word. The answer is put together from the head of the word
in lower case and of small letters; whatever the style, what comes out is the answer again when it
is put in lower case, and a text that is in a case style of its own keeps it.
-/
import ServiceModel.Naming.Singular
import ServiceModel.Proofs.Text.Lowering

namespace ServiceModel.Naming

open ServiceModel.Text

/-! ## Common heads -/

theorem commonLength_self (text : List Char) : commonLength text text = text.length := by
  induction text with
  | nil => rfl
  | cons c rest ih => rw [commonLength, if_pos rfl, ih, List.length_cons]

theorem take_commonLength (text other : List Char) :
    other = text.take (commonLength text other) ++ other.drop (commonLength text other) := by
  induction text generalizing other with
  | nil => simp [commonLength]
  | cons c rest ih =>
    cases other with
    | nil => simp [commonLength]
    | cons d other =>
      rw [commonLength]
      split
      · rename_i he
        rw [he, List.take_succ_cons, List.drop_succ_cons, List.cons_append, ← ih]
      · rfl

theorem commonLength_pos {c : Char} {rest other : List Char} :
    commonLength (c :: rest) (c :: other) ≠ 0 := by
  rw [commonLength, if_pos rfl]
  exact Nat.succ_ne_zero _

/-! ## Answers -/

/-- A character of the basic alphabet that is no capital. -/
structure Modest (c : Char) : Prop where
  lt : c.toNat < 128
  not_isUpper : c.isUpper = false

namespace Modest

variable {c : Char}

theorem lowerChar (h : Modest c) : lowerChar c = [c] := by
  rw [lowerChar_of_lt h.lt, Char.toLower_eq_of_not_isUpper (by simp [h.not_isUpper])]

theorem upperChar (h : Modest c) : upperChar c = [c.toUpper] := upperChar_of_lt h.lt

theorem lowers_toUpper (h : Modest c) : Lowers c.toUpper c := by
  refine .plain ?_
  rw [lowerChar_of_lt (toUpper_lt h.lt), Char.toLower_toUpper_eq_toLower,
    Char.toLower_eq_of_not_isUpper (by simp [h.not_isUpper])]

theorem not_isUpperChar (h : Modest c) : isUpperChar c = false := by
  rw [isUpperChar_of_lt h.lt, h.not_isUpper]

theorem returns (h : Modest c) (hl : isLowerChar c = false) :
    uppercase (Text.lowerChar c) = [c] :=
  returns_of_lt h.lt (isLowerChar_of_lt h.lt ▸ hl)

theorem returns_toUpper (h : Modest c) : uppercase (Text.lowerChar c.toUpper) = [c.toUpper] :=
  returns_of_lt (toUpper_lt h.lt) (Char.isLower_toUpper_eq_false c)

theorem not_isLowerChar_toUpper (h : Modest c) : isLowerChar c.toUpper = false := by
  rw [isLowerChar_of_lt (toUpper_lt h.lt), Char.isLower_toUpper_eq_false]

end Modest

/-- An answer for a word that is `lowered` in lower case: a head of it with an ending of modest
characters. -/
def IsAnswer (lowered answer : List Char) : Prop :=
  ∃ k ending, answer = lowered.take k ++ ending ∧ ∀ c ∈ ending, Modest c

theorem settled_of_lowers {text lowered : List Char} (h : List.Forall₂ Lowers text lowered) :
    ∀ d ∈ lowered, lowerChar d = [d] := by
  intro d hd
  obtain ⟨i, hi, rfl⟩ := List.getElem_of_mem hd
  exact (h.get (h.length_eq ▸ hi) hi).settled

theorem IsAnswer.settled {text lowered answer : List Char} (h : IsAnswer lowered answer)
    (low : List.Forall₂ Lowers text lowered) : ∀ d ∈ answer, lowerChar d = [d] := by
  obtain ⟨k, ending, rfl, modest⟩ := h
  intro d hd
  rcases List.mem_append.1 hd with hd | hd
  · exact settled_of_lowers low d (List.mem_of_mem_take hd)
  · exact (modest d hd).lowerChar

theorem lowers_refl {text : List Char} (h : ∀ d ∈ text, lowerChar d = [d]) :
    List.Forall₂ Lowers text text :=
  List.forall₂_same.2 fun d hd => .plain (h d hd)

/-! ## Styles -/

/-- The case styles: what stands for `word` in the style of `model`. -/
inductive Recased (model word : List Char) : List Char → Prop where
  | capitals (h : isUppercase model = true) : Recased model word (uppercase word)
  | leading (h : isUppercase model = false) {c : Char} {rest : List Char} (hm : model = c :: rest)
      (hc : isUpperChar c = true) : Recased model word (upperFirst word)
  | small (hm : ∀ c ∈ model.head?, isUpperChar c = false) (h : model = lowercase model) :
      Recased model word word
  | mixed (hm : ∀ c ∈ model.head?, isUpperChar c = false) : Recased model word
      (model.take (commonLength (lowercase model) word) ++
        word.drop (commonLength (lowercase model) word))

theorem recased_restoreCase (model word : List Char) :
    Recased model word (restoreCase model word) := by
  rw [restoreCase]
  split
  · rename_i h
    exact .capitals h
  · rename_i h
    cases model with
    | nil =>
      rw [if_neg (by simp)]
      split
      · refine .small (fun c hc => ?_) (by assumption)
        cases hc
      · refine .mixed fun c hc => ?_
        cases hc
    | cons c rest =>
      split
      · rename_i hc
        exact .leading (Bool.eq_false_iff.2 h) rfl (by simpa using hc)
      · rename_i hc
        have head : ∀ d ∈ (c :: rest).head?, isUpperChar d = false := by
          intro d hd
          cases hd
          simpa using hc
        split
        · exact .small head (by assumption)
        · exact .mixed head

theorem restoreCase_ne_nil {model word : List Char} (h : word ≠ []) :
    restoreCase model word ≠ [] := by
  obtain ⟨c, rest, rfl⟩ := List.exists_cons_of_ne_nil h
  have recased := recased_restoreCase model (c :: rest)
  generalize restoreCase model (c :: rest) = given at recased
  cases recased with
  | capitals _ => exact List.append_ne_nil_of_left_ne_nil (upperChar_ne_nil c) _
  | leading _ _ _ => exact List.append_ne_nil_of_left_ne_nil (upperChar_ne_nil c) _
  | small _ _ => exact h
  | mixed _ =>
    rw [ne_eq, List.append_eq_nil_iff, List.take_eq_nil_iff]
    rintro ⟨none | rfl, dropped⟩
    · rw [none] at dropped
      exact h dropped
    · exact h dropped

/-- The characters of a word that its case style puts in upper case come back. -/
structure Returns (model : List Char) : Prop where
  all : isUppercase model = true → ∀ c ∈ model, uppercase (lowerChar c) = [c]
  head : ∀ c ∈ model.head?, isUpperChar c = true → uppercase (lowerChar c) = [c]

theorem not_isLowerChar_of_isUppercase {text : List Char} (h : isUppercase text = true) :
    ∀ c ∈ text, isLowerChar c = false := by
  rw [isUppercase, Bool.and_eq_true, Bool.not_eq_true', List.any_eq_false] at h
  exact fun c hc => Bool.eq_false_iff.2 (h.2 c hc)

theorem returns_of_capitalsReturn {model : List Char} (h : CapitalsReturn model) : Returns model :=
  ⟨fun hu c hc => h c hc (.inr (not_isLowerChar_of_isUppercase hu c hc)),
    fun c hc hu => h c (List.mem_of_mem_head? hc) (.inl hu)⟩

section Answer

variable {model answer : List Char} (low : List.Forall₂ Lowers model (lowercase model))

include low

/-- An answer in capitals is a head of the word and the ending in capitals. -/
theorem uppercase_answer {k : Nat} {ending : List Char} (he : ∀ c ∈ ending, Modest c)
    (hr : ∀ c ∈ model, uppercase (lowerChar c) = [c]) :
    uppercase ((lowercase model).take k ++ ending) = model.take k ++ ending.map Char.toUpper := by
  have head := uppercase_of_lowers (List.forall₂_take k low)
    fun c hc => hr c (List.mem_of_mem_take hc)
  rw [uppercase, List.flatMap_append, ← uppercase, ← uppercase, head,
    uppercase_of_lt fun c hc => (he c hc).lt]

/-- An answer with a leading capital: its first character comes back, the others stay. -/
theorem upperFirst_answer (ha : IsAnswer (lowercase model) answer) {c : Char} {rest : List Char}
    (hm : model = c :: rest) (hc : uppercase (lowerChar c) = [c]) :
    answer = [] ∨ ∃ u d others, answer = d :: others ∧ upperFirst answer = u :: others ∧
      Lowers u d ∧ uppercase (lowerChar u) = [u] := by
  obtain ⟨k, ending, rfl, modest⟩ := ha
  subst hm
  cases hl : lowercase (c :: rest) with
  | nil => rw [hl] at low; cases low
  | cons d others =>
    rw [hl] at low
    cases low with
    | cons first _ =>
      cases k with
      | zero =>
        cases ending with
        | nil => exact .inl rfl
        | cons e ending =>
          have small := modest e List.mem_cons_self
          exact .inr ⟨e.toUpper, e, ending, rfl, by
            rw [List.take_zero, List.nil_append, upperFirst, small.upperChar]; rfl,
            small.lowers_toUpper, small.returns_toUpper⟩
      | succ k =>
        exact .inr ⟨c, d, others.take k ++ ending, rfl, by
          rw [List.take_succ_cons, List.cons_append, upperFirst, first.upperChar hc]; rfl,
          first, hc⟩

/-- In whatever case style an answer is given, it stands for what is given in lower case. -/
theorem lowers_restoreCase (hr : Returns model) (ha : IsAnswer (lowercase model) answer) :
    List.Forall₂ Lowers (restoreCase model answer) answer := by
  have settled := ha.settled low
  have style := recased_restoreCase model answer
  generalize restoreCase model answer = given at style ⊢
  cases style with
  | capitals h =>
    obtain ⟨k, ending, rfl, modest⟩ := ha
    rw [uppercase_answer low modest (hr.all h)]
    refine List.rel_append (List.forall₂_take k low) ?_
    exact List.forall₂_map_left_iff.2 (List.forall₂_same.2 fun c hc => (modest c hc).lowers_toUpper)
  | @leading h c rest hm hc =>
    rcases upperFirst_answer low ha hm (hr.head c (by rw [hm]; rfl) hc) with
      rfl | ⟨u, d, others, rfl, hu, first, -⟩
    · exact .nil
    · rw [hu]
      exact .cons first (lowers_refl fun e he => settled e (List.mem_cons_of_mem _ he))
  | small hm h => exact lowers_refl settled
  | mixed hm =>
    generalize hn : commonLength (lowercase model) answer = n
    have common : answer = (lowercase model).take n ++ answer.drop n :=
      hn ▸ take_commonLength _ _
    conv => rhs; rw [common]
    exact List.rel_append (List.forall₂_take n low)
      (lowers_refl fun d hd => settled d (List.mem_of_mem_drop hd))

/-- A character of an answer that is no small letter comes back. -/
theorem returns_of_mem_answer (h : CapitalsReturn model) (ha : IsAnswer (lowercase model) answer)
    {d : Char} (hd : d ∈ answer) (hl : isLowerChar d = false) : uppercase (lowerChar d) = [d] := by
  obtain ⟨k, ending, rfl, modest⟩ := ha
  rcases List.mem_append.1 hd with hd | hd
  · obtain ⟨i, hi, rfl⟩ := List.getElem_of_mem (List.mem_of_mem_take hd)
    have hi' : i < model.length := low.length_eq ▸ hi
    rcases (low.get hi' hi).same_or_small with same | small
    · rw [List.get_eq_getElem, List.get_eq_getElem] at same
      rw [same] at hl ⊢
      exact h _ (List.getElem_mem hi') (.inr hl)
    · exact absurd small.isLowerChar (by simpa using hl)
  · exact (modest d hd).returns hl

end Answer

theorem head_answer {lowered answer : List Char} (ha : IsAnswer lowered answer) {d : Char}
    (hd : d ∈ answer.head?) : d ∈ lowered.head? ∨ Modest d := by
  obtain ⟨k, ending, rfl, modest⟩ := ha
  rw [List.head?_append, Option.mem_def, Option.or_eq_some_iff] at hd
  rcases hd with hd | ⟨-, hd⟩
  · cases k with
    | zero => cases hd
    | succ k => exact .inl (by rwa [List.head?_take, if_neg (Nat.succ_ne_zero k)] at hd)
  · exact .inr (modest d (List.mem_of_mem_head? hd))

/-- What is given to a word without a leading capital has none. -/
theorem mixed_head {model answer : List Char} (hm : ∀ c ∈ model.head?, isUpperChar c = false)
    (ha : IsAnswer (lowercase model) answer) {n : Nat}
    (hn : commonLength (lowercase model) answer = n) :
    ∀ c ∈ (model.take n ++ answer.drop n).head?, isUpperChar c = false := by
  intro c hc
  rw [List.head?_append, Option.mem_def, Option.or_eq_some_iff] at hc
  rcases hc with hc | ⟨none, hc⟩
  · rw [List.head?_take] at hc
    split at hc
    · cases hc
    · exact hm c hc
  · have zero : n = 0 := by
      cases model with
      | nil => exact hn.symm
      | cons d rest => simpa [List.head?_take] using none
    rw [zero, List.drop_zero] at hc
    rcases head_answer ha hc with hl | small
    · obtain ⟨rest, hl⟩ := List.head?_eq_some_iff.1 hl
      obtain ⟨others, hc⟩ := List.head?_eq_some_iff.1 hc
      rw [hl, hc, zero] at hn
      exact absurd hn commonLength_pos
    · exact small.not_isUpperChar

/-! ## Texts in a style -/

/-- A text in a case style: what its style puts in upper case comes back, and behind a leading
capital everything stands in lower case, unless all is in capitals. -/
structure Styled (text : List Char) : Prop extends Returns text where
  behind : ∀ c rest, text = c :: rest → isUpperChar c = true →
    isUppercase text = true ∨ ∀ d ∈ rest, lowerChar d = [d]

theorem isUppercase_of_head {c : Char} {rest : List Char} (hc : isUpperChar c = true)
    (h : ∀ d ∈ c :: rest, isLowerChar d = false) : isUppercase (c :: rest) = true := by
  rw [isUppercase, List.any_cons, hc, Bool.true_or, Bool.true_and, Bool.not_eq_true',
    List.any_eq_false]
  exact fun d hd => Bool.eq_false_iff.1 (h d hd)

/-- A text without a leading capital is styled when what is no small letter comes back. -/
theorem styled_of_head {text : List Char}
    (hr : ∀ c ∈ text, isLowerChar c = false → uppercase (lowerChar c) = [c])
    (hh : ∀ c ∈ text.head?, isUpperChar c = false) : Styled text where
  all hu c hc := hr c hc (not_isLowerChar_of_isUppercase hu c hc)
  head c hc hu := absurd hu (Bool.eq_false_iff.1 (hh c hc))
  behind c rest ht hu := absurd hu (Bool.eq_false_iff.1 (hh c (by rw [ht]; rfl)))

theorem styled_nil : Styled [] :=
  styled_of_head (fun _ hc => absurd hc List.not_mem_nil) fun c hc => by cases hc

/-- What is given in the style of a word is in a case style itself. -/
theorem styled_restoreCase {model answer : List Char} (h : CapitalsReturn model)
    (ha : IsAnswer (lowercase model) answer) : Styled (restoreCase model answer) := by
  have low := h.lowers
  have returns := returns_of_capitalsReturn h
  have settled := ha.settled low
  have style := recased_restoreCase model answer
  generalize restoreCase model answer = given at style ⊢
  cases style with
  | capitals hu =>
    have plain := not_isLowerChar_of_isUppercase hu
    obtain ⟨k, ending, rfl, modest⟩ := ha
    rw [uppercase_answer low modest (returns.all hu)]
    have each : ∀ c ∈ model.take k ++ ending.map Char.toUpper,
        isLowerChar c = false ∧ uppercase (lowerChar c) = [c] := by
      intro c hc
      rcases List.mem_append.1 hc with hc | hc
      · have hc := List.mem_of_mem_take hc
        exact ⟨plain c hc, returns.all hu c hc⟩
      · obtain ⟨e, he, rfl⟩ := List.mem_map.1 hc
        exact ⟨(modest e he).not_isLowerChar_toUpper, (modest e he).returns_toUpper⟩
    refine ⟨⟨fun _ c hc => (each c hc).2, fun c hc _ => (each c (List.mem_of_mem_head? hc)).2⟩, ?_⟩
    intro c rest ht hc
    rw [ht] at each ⊢
    exact .inl (isUppercase_of_head hc fun d hd => (each d hd).1)
  | @leading hu c rest hm hc =>
    rcases upperFirst_answer low ha hm (returns.head c (by rw [hm]; rfl) hc) with
      rfl | ⟨u, d, others, rfl, hf, -, back⟩
    · exact styled_nil
    · rw [hf]
      refine ⟨⟨fun hu' => List.forall_mem_cons.2 ⟨back, fun e he => ?_⟩, fun e he _ => ?_⟩,
        fun e rest ht _ => ?_⟩
      · exact returns_of_mem_answer low h ha (List.mem_cons_of_mem _ he)
          (not_isLowerChar_of_isUppercase hu' e (List.mem_cons_of_mem _ he))
      · cases he
        exact back
      · cases ht
        exact .inr fun e he => settled e (List.mem_cons_of_mem _ he)
  | small hm hl =>
    refine styled_of_head (fun c hc => returns_of_mem_answer low h ha hc) fun c hc => ?_
    rcases head_answer ha hc with hc | small
    · exact hm c (hl ▸ hc)
    · exact small.not_isUpperChar
  | mixed hm =>
    refine styled_of_head (fun c hc hl => ?_) (mixed_head hm ha rfl)
    rcases List.mem_append.1 hc with hc | hc
    · exact h c (List.mem_of_mem_take hc) (.inr hl)
    · exact returns_of_mem_answer low h ha (List.mem_of_mem_drop hc) hl

/-- A text keeps its case style. -/
theorem Styled.restoreCase_lowercase {text : List Char} (h : Styled text)
    (low : List.Forall₂ Lowers text (lowercase text)) :
    restoreCase text (lowercase text) = text := by
  have style := recased_restoreCase text (lowercase text)
  generalize restoreCase text (lowercase text) = given at style ⊢
  cases style with
  | capitals hu => exact uppercase_of_lowers low (h.all hu)
  | @leading hu c rest hm hc =>
    have settled := (h.behind c rest hm hc).resolve_left (Bool.eq_false_iff.1 hu)
    have back := h.head c (by rw [hm]; rfl) hc
    subst hm
    obtain ⟨_, _, first, -, -⟩ := List.forall₂_cons_left_iff.1 low
    obtain ⟨d, hd, he⟩ := lowerAfter_cons first.ne_dottedI [] rest
    rw [lowercase, he, lowerAfter_of_settled settled, upperFirst, hd.upperChar back]
    rfl
  | small hm hl => exact hl.symm
  | mixed hm =>
    rw [commonLength_self, ← low.length_eq, List.take_length, low.length_eq, List.drop_length,
      List.append_nil]

end ServiceModel.Naming

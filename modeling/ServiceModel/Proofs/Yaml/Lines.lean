/-
Plain scalars that stand on one line: what follows such a scalar has no part in what it is, as long
as it ends the scalar.
-/
import ServiceModel.Proofs.Yaml.Strings

namespace ServiceModel.Yaml

/-- The whole text is one plain scalar of a block, and written as it is read. -/
structure PlainLine (text : List Char) : Prop where
  starts : ∃ c rest, text = c :: rest ∧ startsPlain false c rest = true
  whole : plain false 1 text = (text, text.length)

/-- A plain scalar stands in front of the rest. -/
structure Spans (flow : Bool) (indent : Nat) (word rest : List Char) : Prop where
  starts : ∃ c more, word = c :: more ∧ startsPlain flow c (more ++ rest) = true
  whole : plain flow indent (word ++ rest) = (word, word.length)
  line : ∀ c ∈ word, isBreak c = false

/-! ## Gaps -/

namespace PlainGap

/-- A gap in which nothing was passed is empty, and what it amounts to is no longer than it: with
a line end in it, at least as much shorter as its last line is long. -/
structure Sound (gap : PlainGap) : Prop where
  empty : gap.width = 0 → gap = .empty
  blanks : gap.breaks = none → gap.blanks.length ≤ gap.width
  breaks : ∀ broken, gap.breaks = some broken →
    1 ≤ gap.column ∧ broken.2.length + gap.column ≤ gap.width

theorem sound_empty : empty.Sound := ⟨fun _ => rfl, fun _ => Nat.le_refl _, nofun⟩

theorem Sound.space {gap : PlainGap} (h : gap.Sound) : gap.space.Sound := by
  refine ⟨nofun, fun none => Nat.succ_le_succ (h.blanks none), fun broken hb => ?_⟩
  obtain ⟨some, fits⟩ := h.breaks broken hb
  exact ⟨Nat.le_succ_of_le some, Nat.succ_le_succ fits⟩

theorem Sound.lineEnd {gap : PlainGap} (h : gap.Sound) (c : Char) {width : Nat}
    (hw : 0 < width) : (gap.lineEnd c width).Sound := by
  refine ⟨fun hz => absurd hz (Nat.ne_of_gt (Nat.add_pos_right _ hw)), nofun, ?_⟩
  rintro broken hb
  refine ⟨Nat.le_refl 1, ?_⟩
  obtain ⟨blanks, breaks?, column, passed⟩ := gap
  show broken.2.length + 1 ≤ passed + width
  cases breaks? with
  | none =>
    cases hb
    exact Nat.le_trans hw (Nat.le_add_left _ _)
  | some before =>
    have fits : 1 ≤ column ∧ before.2.length + column ≤ passed := h.breaks before rfl
    cases hb
    show before.2.length + 1 + 1 ≤ passed + width
    omega

/-- Where a line ended, the blanks in front of the next character are lost. -/
theorem Sound.folded_lines {gap : PlainGap} (h : gap.Sound) (hb : gap.breaks ≠ none) :
    gap.folded.length + gap.column ≤ gap.width + 1 := by
  unfold PlainGap.folded
  split
  · exact absurd ‹_› hb
  · obtain ⟨-, fits⟩ := h.breaks _ ‹_›
    dsimp only at fits
    split_ifs
    · rw [List.length_append, List.length_singleton]
      omega
    · rw [List.length_singleton]
      omega
    · omega

theorem Sound.folded {gap : PlainGap} (h : gap.Sound) : gap.folded.length ≤ gap.width := by
  cases hb : gap.breaks with
  | none =>
    unfold PlainGap.folded
    rw [hb]
    exact h.blanks hb
  | some broken =>
    have first := (h.breaks broken hb).1
    have fits := h.folded_lines (by rw [hb]; exact nofun)
    omega

end PlainGap

theorem atDocumentMark_iff {text : List Char} : atDocumentMark text = true ↔
    ∃ c rest, (c = '-' ∨ c = '.') ∧ text = c :: c :: c :: rest ∧ atBlank rest = true := by
  constructor
  · intro h
    unfold atDocumentMark at h
    split at h
    · exact ⟨'-', _, .inl rfl, rfl, h⟩
    · exact ⟨'.', _, .inr rfl, rfl, h⟩
    · cases h
  · rintro ⟨c, rest, rfl | rfl, rfl, h⟩ <;> exact h

theorem atDocumentMark_append {rest tail : List Char} (h : atDocumentMark rest ≠ true)
    (ht : ∀ c ∈ tail.head?, c ≠ '-' ∧ c ≠ '.') : atDocumentMark (rest ++ tail) ≠ true := by
  refine fun marked => h ?_
  obtain ⟨c, more, mark, text, blank⟩ := atDocumentMark_iff.1 marked
  have apart {others : List Char} (same : tail = c :: others) : False := by
    have head := ht c (by rw [same]; rfl)
    exact mark.elim head.1 head.2
  match rest with
  | [] => exact (apart text).elim
  | [_] => exact (apart (List.cons.inj text).2).elim
  | [_, _] => exact (apart (List.cons.inj (List.cons.inj text).2).2).elim
  | _ :: _ :: _ :: rest =>
    cases text
    refine atDocumentMark_iff.2 ⟨c, rest, mark, rfl, ?_⟩
    cases rest with
    | nil => rfl
    | cons d rest => exact blank

theorem endsPlain_append {c : Char} {rest : List Char} (h : endsPlain false c rest ≠ true)
    (tail : List Char) : endsPlain false c (rest ++ tail) ≠ true := by
  cases rest with
  | nil =>
    rw [← Bool.eq_false_iff] at h ⊢
    simp only [endsPlain, atBlank, endsOr, Bool.false_and, Bool.or_false, Bool.and_true,
      Bool.or_eq_false_iff] at h
    simp [endsPlain, h]
  | cons d rest => exact h

/-! ## What a plain scalar takes -/

/-- A plain scalar takes no more than there is, and what it is too short already it stays too
short of what it takes. -/
theorem plainFrom_bounds {flow : Bool} {indent count short : Nat} {gap : PlainGap}
    {done text : List Char} (hg : gap.Sound) (hd : done.length + short ≤ count) :
    (plainFrom flow indent done gap count text).1.length + short ≤
        (plainFrom flow indent done gap count text).2 ∧
      (plainFrom flow indent done gap count text).2 ≤ count + gap.width + text.length := by
  fun_induction plainFrom flow indent done gap count text
  case case3 ih =>
    obtain ⟨lacks, fits⟩ := ih (hg.lineEnd _ Nat.two_pos) hd
    refine ⟨lacks, Nat.le_trans fits ?_⟩
    simp only [PlainGap.lineEnd, List.length_cons]
    omega
  case case4 ih =>
    obtain ⟨lacks, fits⟩ := ih hg.space hd
    refine ⟨lacks, Nat.le_trans fits ?_⟩
    simp only [PlainGap.space, List.length_cons]
    omega
  case case6 ih =>
    obtain ⟨lacks, fits⟩ := ih (hg.lineEnd _ Nat.one_pos) hd
    refine ⟨lacks, Nat.le_trans fits ?_⟩
    simp only [PlainGap.lineEnd, List.length_cons]
    omega
  case case9 ih =>
    have folded := hg.folded
    obtain ⟨lacks, fits⟩ := ih PlainGap.sound_empty (by
      rw [List.length_cons, List.length_append]
      omega)
    refine ⟨lacks, Nat.le_trans fits ?_⟩
    simp only [PlainGap.empty, List.length_cons]
    omega
  all_goals
    dsimp only
    rw [List.length_reverse]
    omega

/-- A plain scalar that is as long as the text it takes stands on one line: a line end in it would
be lost, or the blanks behind it. -/
theorem plainFrom_line {indent total count : Nat} {gap : PlainGap} {done whole text : List Char}
    (hi : 1 ≤ indent) (hg : gap.Sound) (hd : done.length ≤ count)
    (h : plainFrom false indent done gap count text = (whole, total))
    (hc : total = count + gap.width + text.length) (hl : total ≤ whole.length) :
    gap.breaks = none ∧ ∀ c ∈ text, isBreak c = false := by
  fun_induction plainFrom false indent done gap count text
  case case1 =>
    obtain ⟨rfl, rfl⟩ := Prod.mk.inj h
    rw [hg.empty (by simpa using hc)]
    exact ⟨rfl, fun _ hm => absurd hm List.not_mem_nil⟩
  case case3 ih =>
    have none := (ih (hg.lineEnd _ Nat.two_pos) hd h (by
      rw [hc]
      simp only [PlainGap.lineEnd, List.length_cons]
      omega)).1
    cases none
  case case4 ih =>
    obtain ⟨none, line⟩ := ih hg.space hd h (by
      rw [hc]
      simp only [PlainGap.space, List.length_cons]
      omega)
    exact ⟨none, List.forall_mem_cons.2 ⟨by decide, line⟩⟩
  case case6 ih =>
    have none := (ih (hg.lineEnd _ Nat.one_pos) hd h (by
      rw [hc]
      simp only [PlainGap.lineEnd, List.length_cons]
      omega)).1
    cases none
  case case9 done gap count c rest single space line goes stays ih =>
    have folded := hg.folded
    have text : total = count + gap.width + 1 + PlainGap.empty.width + rest.length := by
      rw [hc]
      simp only [PlainGap.empty, List.length_cons]
      omega
    have inLine := (ih PlainGap.sound_empty (by
      rw [List.length_cons, List.length_append]
      omega) h text).2
    refine ⟨?_, List.forall_mem_cons.2 ⟨Bool.eq_false_iff.2 line, inLine⟩⟩
    refine Decidable.byContradiction fun broken => ?_
    have beyond : 1 < gap.column := by
      refine Nat.lt_of_not_le fun low => stays ?_
      have wide : gap.width ≠ 0 := fun none => broken (by rw [hg.empty none]; rfl)
      simp [wide, Option.isSome_iff_ne_none.2 broken, Nat.le_trans low hi]
    have lost := hg.folded_lines broken
    have shorter := (@plainFrom_bounds false indent (count + gap.width + 1) 1 .empty
      (c :: (gap.folded ++ done)) rest PlainGap.sound_empty (by
        rw [List.length_cons, List.length_append]
        omega)).1
    rw [h] at shorter
    exact absurd (Nat.le_trans shorter hl) (Nat.not_succ_le_self _)
  all_goals
    have less := (Prod.mk.inj h).2
    simp at hc
    omega

/-- What a plain scalar takes of a text, it takes whatever stands behind it, also where lines need
less indentation. -/
theorem plainFrom_append {indent other total count : Nat} {gap : PlainGap}
    {done tail whole text : List Char} (hi : other ≤ indent)
    (ht : ∀ c ∈ tail.head?, c ≠ '-' ∧ c ≠ '.') (hg : gap.Sound)
    (h : plainFrom false indent done gap count text = (whole, total))
    (hc : total = count + gap.width + text.length) :
    plainFrom false other done gap count (text ++ tail) =
      plainFrom false other whole.reverse .empty total tail := by
  fun_induction plainFrom false indent done gap count text
  case case1 =>
    obtain ⟨rfl, rfl⟩ := Prod.mk.inj h
    rw [hg.empty (by simpa using hc), List.reverse_reverse]
    rfl
  case case3 rest unmarked ih =>
    have more := ih (hg.lineEnd _ Nat.two_pos) h (by
      rw [hc]
      simp only [PlainGap.lineEnd, List.length_cons]
      omega)
    rw [← more, List.cons_append, List.cons_append, plainFrom,
      if_neg (atDocumentMark_append unmarked ht)]
  case case4 ih =>
    refine ih hg.space h ?_
    rw [hc]
    simp only [PlainGap.space, List.length_cons]
    omega
  case case6 c rest single space line unmarked ih =>
    have more := ih (hg.lineEnd _ Nat.one_pos) h (by
      rw [hc]
      simp only [PlainGap.lineEnd, List.length_cons]
      omega)
    -- the line end is not the last character, for then it would not be taken
    cases rest with
    | nil =>
      have short := (Prod.mk.inj h).2
      simp at hc
      omega
    | cons d rest =>
      rw [← more, List.cons_append, plainFrom, if_neg space, if_pos line,
        if_neg (atDocumentMark_append unmarked ht)]
      exact fun more carriage same => single rest carriage (by cases same; rfl)
  case case9 done gap count c rest single space line goes stays ih =>
    have more := ih PlainGap.sound_empty h (by
      rw [hc]
      simp only [PlainGap.empty, List.length_cons]
      omega)
    have carriage : c ≠ '\r' := by
      rintro rfl
      exact line (by decide)
    have stays' : ¬ (decide (gap.width ≠ 0) && (c == '#' || !false && gap.breaks.isSome &&
        decide (gap.column ≤ other))) = true := by
      refine fun ends => stays ?_
      simp only [Bool.and_eq_true, Bool.or_eq_true, decide_eq_true_eq] at ends ⊢
      exact ends.imp_right fun either => either.imp_right fun low => ⟨low.1, low.2.trans hi⟩
    rw [← more, List.cons_append, plainFrom, if_neg space, if_neg line,
      if_neg (endsPlain_append goes tail), if_neg stays']
    exact fun _ same => absurd same carriage
  all_goals
    have short := (Prod.mk.inj h).2
    simp at hc
    omega

section

variable {flow : Bool} {indent : Nat} {done : List Char} {count : Nat}

/-- A colon in front of something blank ends a plain scalar. -/
theorem plainFrom_colon {rest : List Char} (hb : atBlank rest = true) :
    plainFrom flow indent done .empty count (':' :: rest) = (done.reverse, count) := by
  have ends : endsPlain flow ':' rest = true := by simp [endsPlain, hb]
  rw [plainFrom, if_neg (by decide), if_neg (by decide), if_pos ends]
  exact fun _ same => absurd same (by decide)

/-- A line that starts in the column of the block ends a plain scalar. -/
theorem plainFrom_nextLine {rest : List Char}
    (hr : ∀ c ∈ rest.head?, c ≠ ' ' ∧ isBreak c = false) :
    plainFrom false 1 done .empty count ('\n' :: rest) = (done.reverse, count) := by
  have step : plainFrom false 1 done .empty count ('\n' :: rest) =
      if atDocumentMark rest then (done.reverse, count)
      else plainFrom false 1 done (PlainGap.empty.lineEnd '\n' 1) count rest := by
    rw [plainFrom, if_neg (by decide), if_pos (by decide)]
    exact fun _ same => absurd same (by decide)
  rw [step]
  split
  · rfl
  · cases rest with
    | nil => rfl
    | cons c rest =>
      obtain ⟨space, line⟩ := hr c rfl
      have carriage : c ≠ '\r' := by
        rintro rfl
        exact absurd line (by decide)
      rw [plainFrom, if_neg space, line, if_neg Bool.false_ne_true]
      · split
        · rfl
        · exact if_pos (by simp [PlainGap.lineEnd, PlainGap.empty])
      · exact fun _ same => absurd same carriage

end

/-! ## Scalars on one line -/

/-- The first character of a plain scalar is no indicator, or one that nothing blank follows. -/
theorem startsPlain_cases {flow : Bool} {c : Char} {rest : List Char}
    (h : startsPlain flow c rest = true) :
    (c ≠ ' ' ∧ isBreak c = false ∧ ∀ d ∈ ['%', '[', ']', '{', '}', ',', '#', '*', '&', '!', '|',
        '>', '\'', '"'], c ≠ d) ∧
      (c = '-' → atBlank rest = false) ∧
      (c = '?' ∨ c = ':' → flow = false ∧ atBlank rest = false) := by
  simp only [startsPlain, Bool.or_eq_true, Bool.not_eq_true', Bool.or_eq_false_iff,
    Bool.and_eq_true, beq_iff_eq] at h
  rcases h with ⟨⟨blank, line⟩, mark⟩ | ⟨goes, rfl | ⟨block, rfl | rfl⟩⟩
  · simp [isBlank] at blank mark
    simp [blank, line, mark]
  all_goals
    simp_all
    try decide

theorem startsPlain_append {flow : Bool} {c : Char} {rest : List Char}
    (h : startsPlain flow c rest = true) (tail : List Char) :
    startsPlain flow c (rest ++ tail) = true := by
  cases rest with
  | nil =>
    simp only [startsPlain, atBlank, endsOr, Bool.not_true, Bool.false_and, Bool.or_false] at h
    rw [startsPlain, h, Bool.true_or]
  | cons d rest => exact h

namespace PlainLine

variable {text : List Char} (h : PlainLine text)

include h

/-- It stands on one line. -/
theorem line : ∀ c ∈ text, isBreak c = false :=
  (plainFrom_line (Nat.le_refl 1) PlainGap.sound_empty (Nat.le_refl 0) h.whole
    (by simp [PlainGap.empty]) (Nat.le_refl _)).2

theorem append {indent : Nat} (hi : indent ≤ 1) {tail : List Char}
    (ht : ∀ c ∈ tail.head?, c ≠ '-' ∧ c ≠ '.') :
    plain false indent (text ++ tail) =
      plainFrom false indent text.reverse .empty text.length tail :=
  plainFrom_append hi ht PlainGap.sound_empty h.whole (by simp [PlainGap.empty])

theorem starts_append (tail : List Char) :
    ∃ c more, text = c :: more ∧ startsPlain false c (more ++ tail) = true := by
  obtain ⟨c, more, rfl, starts⟩ := h.starts
  exact ⟨c, more, rfl, startsPlain_append starts tail⟩

/-- In front of a colon the scalar is over. -/
theorem before_colon {indent : Nat} (hi : indent ≤ 1) {rest : List Char}
    (hb : atBlank rest = true) : Spans false indent text (':' :: rest) where
  starts := h.starts_append _
  whole := by
    rw [h.append hi (by rintro c ⟨⟩; decide), plainFrom_colon hb, List.reverse_reverse]
  line := h.line

/-- In front of a line that starts in the column of the block the scalar is over. -/
theorem before_line {rest : List Char} (hr : ∀ c ∈ rest.head?, c ≠ ' ' ∧ isBreak c = false) :
    Spans false 1 text ('\n' :: rest) where
  starts := h.starts_append _
  whole := by
    rw [h.append (Nat.le_refl 1) (by rintro c ⟨⟩; decide), plainFrom_nextLine hr,
      List.reverse_reverse]
  line := h.line

end PlainLine

/-! ## Words -/

theorem alphanum_ne {c d : Char} (hc : c.isAlphanum = true) (hd : d.isAlphanum = false) :
    c ≠ d := by
  rintro rfl
  rw [hc] at hd
  cases hd

theorem startsPlain_alphanum {flow : Bool} {c : Char} (hc : c.isAlphanum = true)
    (rest : List Char) : startsPlain flow c rest = true := by
  have marks : ∀ d ∈ ['-', '?', ':', ',', '[', ']', '{', '}', '#', '&', '*', '!', '|', '>', '\'',
      '"', '%', '@', '\x60', ' ', '\t'], d.isAlphanum = false :=
    List.all_iff_forall_prop.1 (by decide)
  have other := fun d hd => alphanum_ne hc (marks d hd)
  simp only [List.forall_mem_cons] at other
  have word : isWordChar c = true := by rw [isWordChar, hc]; rfl
  simp [startsPlain, isBlank, isBreak_wordChar word, other]

theorem atDocumentMark_alphanum {c : Char} (hc : c.isAlphanum = true) (rest : List Char) :
    atDocumentMark (c :: rest) = false := by
  unfold atDocumentMark
  split
  · exact absurd (List.cons.inj (by assumption)).1 (alphanum_ne hc (by decide))
  · exact absurd (List.cons.inj (by assumption)).1 (alphanum_ne hc (by decide))
  · rfl

/-- A word of letters and digits. -/
structure IsWord (word : List Char) : Prop where
  letters : ∀ c ∈ word, c.isAlphanum = true
  some : word ≠ []
  near : word.length ≤ 1024

namespace IsWord

variable {word : List Char} (h : IsWord word)

include h

theorem wordChars : ∀ c ∈ word, isWordChar c = true := fun c hc => by
  rw [isWordChar, h.letters c hc]
  rfl

theorem starts (flow : Bool) (rest : List Char) :
    ∃ c more, word = c :: more ∧ startsPlain flow c (more ++ rest) = true := by
  obtain ⟨c, more, rfl⟩ := List.exists_cons_of_ne_nil h.some
  exact ⟨c, more, rfl, startsPlain_alphanum (h.letters c List.mem_cons_self) _⟩

theorem line : ∀ c ∈ word, isBreak c = false := fun c hc => isBreak_wordChar (h.wordChars c hc)

theorem unmarked (rest : List Char) : atDocumentMark (word ++ rest) = false := by
  obtain ⟨c, more, rfl⟩ := List.exists_cons_of_ne_nil h.some
  exact atDocumentMark_alphanum (h.letters c List.mem_cons_self) _

theorem plainLine : PlainLine word where
  starts := by
    obtain ⟨c, more, rfl, starts⟩ := h.starts false []
    exact ⟨c, more, rfl, List.append_nil more ▸ starts⟩
  whole := by
    have whole := @plain_word false 1 word [] h.wordChars (.inl rfl)
    rwa [List.append_nil] at whole

/-- In front of a colon a word is over, also inside a flow collection. -/
theorem before_colon (flow : Bool) (indent : Nat) {rest : List Char} (hb : atBlank rest = true) :
    Spans flow indent word (':' :: rest) where
  starts := h.starts flow _
  whole := by
    rw [plain, plainFrom_word h.wordChars, plainFrom_colon hb, List.append_nil,
      List.reverse_reverse, Nat.zero_add]
  line := h.line

/-- In front of a closing brace a word is over. -/
theorem before_brace (indent : Nat) (rest : List Char) :
    Spans true indent word ('\x7d' :: rest) where
  starts := h.starts true _
  whole := plain_word h.wordChars
    (.inr ⟨rfl, '\x7d', rest, List.dropWhile_cons_of_neg (by decide), .inr (.inr rfl)⟩)
  line := h.line

end IsWord

end ServiceModel.Yaml

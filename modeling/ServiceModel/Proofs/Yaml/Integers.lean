/-
Which integers have a value: all that look like one, but those that announce a base and have no
digits behind it, and those that have too many digits.
-/
import ServiceModel.Proofs.Double.Read
import ServiceModel.Proofs.Text.Split
import ServiceModel.Yaml.Scalar
import Mathlib.Data.List.Basic

namespace ServiceModel.Yaml.Scalar

open ServiceModel.Text

/-! ## Forms -/

/-- Nothing, or a line feed: what may stand behind a form. -/
inductive Ending : List Char → Prop
  | none : Ending []
  | line : Ending ['\n']

theorem Ending.padding {ending : List Char} (h : Ending ending) :
    ∀ c ∈ ending, c.toNat < 127 ∧ Numeral.isPadding c = true := by
  cases h
  · exact nofun
  · exact List.forall_mem_singleton.2 (by decide)

theorem fits_iff {form : List Char → Bool} {text : List Char} :
    fits form text = true ↔ ∃ body ending, Ending ending ∧ text = body ++ ending ∧
      form body = true := by
  unfold fits
  rw [Bool.or_eq_true, Bool.and_eq_true, beq_iff_eq]
  constructor
  · rintro (hf | ⟨hl, hf⟩)
    · exact ⟨text, [], .none, (List.append_nil _).symm, hf⟩
    · exact ⟨text.dropLast, ['\n'], .line, (List.dropLast_append_getLast? _ hl).symm, hf⟩
  · rintro ⟨body, ending, he, rfl, hf⟩
    cases he with
    | none =>
      rw [List.append_nil]
      exact .inl hf
    | line =>
      refine .inr ⟨List.getLast?_concat, ?_⟩
      rw [List.dropLast_concat]
      exact hf

/-- The text after the underscores are taken out. -/
abbrev bare (text : List Char) : List Char := text.filter (· ≠ '_')

theorem bare_of_forall {text : List Char} (h : ∀ c ∈ text, c ≠ '_') : bare text = text :=
  List.filter_eq_self.2 fun c hc => decide_eq_true (h c hc)

theorem bare_ending {text ending : List Char} (h : Ending ending) :
    bare (text ++ ending) = bare text ++ ending := by
  rw [bare, List.filter_append]
  congr 1
  cases h <;> rfl

/-- A sign, or nothing. -/
inductive Sign : List Char → Prop
  | none : Sign []
  | plus : Sign ['+']
  | minus : Sign ['-']

/-- A text is an optional sign and the text after it. -/
theorem unsigned_split (text : List Char) :
    ∃ sign, Sign sign ∧ text = sign ++ unsigned text := by
  unfold unsigned
  split
  · exact ⟨['-'], .minus, rfl⟩
  · exact ⟨['+'], .plus, rfl⟩
  · exact ⟨[], .none, rfl⟩

theorem digitOrLow_bare {text : List Char} (h : ∀ c ∈ text, isDigitOrLow c = true) :
    ∀ c ∈ bare text, c.isDigit = true := by
  intro c hc
  obtain ⟨hm, low⟩ := List.mem_filter.1 hc
  have either := h c hm
  rw [isDigitOrLow, Bool.or_eq_true, beq_iff_eq] at either
  exact either.resolve_right (of_decide_eq_true low)

/-! ## Integers -/

theorem valueOf_ten {figures : List Char} (h : ∀ c ∈ figures, c.isDigit = true) :
    Numeral.valueOf 10 figures = Double.digitsValue figures := by
  rw [Numeral.valueOf_digits h, Nat.ofDigitChars_eq_foldl]
  simp only [Double.digitsValue, Nat.mul_comm 10]

/-- The integer behind a sign. -/
theorem readInteger_signed {text sign body : List Char} (hs : Sign sign)
    (hb : ∀ c ∈ body.head?, c ≠ '-' ∧ c ≠ '+') (ht : bare text = sign ++ body) :
    readInteger text =
      (readMagnitude body).map fun i => .int (if sign = ['-'] then -i else i) := by
  unfold readInteger
  rw [show text.filter (· ≠ '_') = sign ++ body from ht]
  cases hs with
  | plus =>
    simp only [List.cons_append, List.nil_append, List.cons.injEq, Char.reduceEq, false_and, if_false]
    cases readMagnitude body <;> rfl
  | minus =>
    simp only [List.cons_append, List.nil_append, if_true]
    cases readMagnitude body <;> rfl
  | none =>
    rw [List.nil_append]
    split
    · rfl
    · exact absurd rfl (hb '-' rfl).1
    · exact absurd rfl (hb '+' rfl).2
    · cases readMagnitude body <;> rfl

/-- A number that does not start with a zero, in base ten or sixty. -/
theorem readMagnitude_of_head {text : List Char} (hn : text ≠ []) (hz : text.head? ≠ some '0') :
    readMagnitude text =
      if text.contains ':' then
        ((cut ':' text).mapM place).map fun places => sexagesimal places.reverse
      else place text := by
  unfold readMagnitude
  split
  · exact absurd rfl hn
  · exact absurd rfl hz
  · exact absurd rfl hz
  · exact absurd rfl hz
  · exact absurd rfl hz
  · split
    · show ((cut ':' text).mapM place >>= fun places => .ok (sexagesimal places.reverse)) = _
      cases (cut ':' text).mapM place <;> rfl
    · rfl

section

variable {figures ending : List Char} (he : Ending ending)

include he

theorem readMagnitude_binary (hn : figures ≠ [])
    (hf : ∀ c ∈ figures, Numeral.isFigure 2 c = true) :
    readMagnitude ('0' :: 'b' :: (figures ++ ending)) = .ok (Numeral.valueOf 2 figures) := by
  simp only [readMagnitude, Numeral.readInt_figures hn hf he.padding, expected]

theorem readMagnitude_hexadecimal (hn : figures ≠ [])
    (hf : ∀ c ∈ figures, Numeral.isFigure 16 c = true) :
    readMagnitude ('0' :: 'x' :: (figures ++ ending)) = .ok (Numeral.valueOf 16 figures) := by
  simp only [readMagnitude, Numeral.readInt_figures hn hf he.padding, expected]

theorem readMagnitude_octal (hf : ∀ c ∈ figures, Numeral.isFigure 8 c = true) :
    readMagnitude ('0' :: (figures ++ ending)) = .ok (Numeral.valueOf 8 ('0' :: figures)) := by
  have all : ∀ c ∈ '0' :: figures, Numeral.isFigure 8 c = true := by
    rintro c (_ | ⟨_, hc⟩)
    · decide
    · exact hf c hc
  have read := Numeral.readInt_figures (List.cons_ne_nil _ _) all he.padding
  have second : ∀ c ∈ (figures ++ ending).head?, c ≠ 'b' ∧ c ≠ 'x' := by
    intro c hc
    rcases List.mem_append.1 (List.mem_of_mem_head? hc) with hm | hm
    · have figure := hf c hm
      constructor <;> rintro rfl <;> exact absurd figure (by decide)
    · cases he with
      | none => cases hm
      | line => rw [List.mem_singleton.1 hm]; decide
  rw [List.cons_append] at read
  cases hm : figures ++ ending with
  | nil =>
    obtain ⟨rfl, rfl⟩ := List.append_eq_nil_iff.1 hm
    rfl
  | cons c rest =>
    rw [hm] at read second
    obtain ⟨binary, hexadecimal⟩ := second c rfl
    unfold readMagnitude
    split
    · cases ‹_›
    · cases ‹_›
    · cases ‹_›
      exact absurd rfl binary
    · cases ‹_›
      exact absurd rfl hexadecimal
    · simp only [read, expected]
    · rename_i other
      exact (other _ rfl).elim

/-- Digits are a place, if there are not too many of them. -/
theorem place_of_digits (hn : figures ≠ []) (hd : ∀ c ∈ figures, c.isDigit = true)
    (hl : figures.length ≤ Numeral.mostDigits) :
    place (figures ++ ending) = .ok (Double.digitsValue figures) := by
  have figure : ∀ c ∈ figures, Numeral.isFigure 10 c = true := fun c hc =>
    Numeral.isFigure_digit (hd c hc) (by have := isDigit_iff.1 (hd c hc); omega)
  have short : Numeral.isOverlong (figures ++ ending) = false := by
    rw [Numeral.isOverlong_digits hd he.padding]
    exact decide_eq_false (Nat.not_lt.2 hl)
  rw [place, Numeral.readDecimal, short, if_neg Bool.false_ne_true,
    Numeral.readInt_figures hn figure he.padding, expected, valueOf_ten hd]

theorem readMagnitude_decimal (hn : figures ≠ []) (hd : ∀ c ∈ figures, c.isDigit = true)
    (hl : figures.length ≤ Numeral.mostDigits) (hz : figures.head? ≠ some '0') :
    readMagnitude (figures ++ ending) = .ok (Double.digitsValue figures) := by
  have colonless : (figures ++ ending).contains ':' = false := by
    refine Bool.eq_false_iff.2 fun hc => ?_
    rcases List.mem_append.1 (List.contains_iff_mem.1 hc) with hm | hm
    · exact absurd (hd ':' hm) (by decide)
    · cases he with
      | none => cases hm
      | line => exact absurd (List.mem_singleton.1 hm) (by decide)
  have head : (figures ++ ending).head? ≠ some '0' := by
    rwa [List.head?_append_of_ne_nil _ hn]
  rw [readMagnitude_of_head (List.append_ne_nil_of_left_ne_nil hn _) head, colonless,
    if_neg Bool.false_ne_true, place_of_digits he hn hd hl]

end

/-- Digits and underscores, at least one of them. -/
def Figures (base : Nat) (text : List Char) : Prop :=
  text ≠ [] ∧ ∀ c ∈ text, Numeral.isFigure base c = true ∨ c = '_'

/-- A place of a number in base sixty: one digit or two. -/
structure Sixtieth (piece : List Char) : Prop where
  nonempty : piece ≠ []
  digits : ∀ c ∈ piece, c.isDigit = true
  short : piece.length ≤ 2

/-- Places behind colons. -/
def Places (pieces : List (List Char)) : Prop := ∀ piece ∈ pieces, Sixtieth piece

theorem isSexagesimal_shape {after : List Char → Bool} {least : Nat} {text : List Char}
    (h : isSexagesimal after least text = true) :
    ∃ pieces rest, text = pieces.flatMap (':' :: ·) ++ rest ∧ Places pieces ∧
      after rest = true ∧ least ≤ pieces.length := by
  have more (piece : List Char) {rest text : List Char} {least : Nat} (hp : Sixtieth piece)
      (ht : text = ':' :: (piece ++ rest))
      (ih : ∃ pieces tail, rest = pieces.flatMap (':' :: ·) ++ tail ∧ Places pieces ∧
        after tail = true ∧ least - 1 ≤ pieces.length) :
      ∃ pieces tail, text = pieces.flatMap (':' :: ·) ++ tail ∧ Places pieces ∧
        after tail = true ∧ least ≤ pieces.length := by
    obtain ⟨pieces, tail, rfl, places, accepted, length⟩ := ih
    exact ⟨piece :: pieces, tail, by simp [ht], List.forall_mem_cons.2 ⟨hp, places⟩, accepted,
      by rw [List.length_cons]; omega⟩
  fun_induction isSexagesimal after least text with
  | case1 least a b rest hb ih =>
    simp only [Bool.and_eq_true, decide_eq_true_eq] at h
    obtain ⟨⟨low, high⟩, h⟩ := h
    have digit : a.isDigit = true := by
      have low : 48 ≤ a.toNat := UInt32.le_iff_toNat_le.1 low
      have high : a.toNat ≤ 53 := UInt32.le_iff_toNat_le.1 high
      exact isDigit_iff.2 ⟨low, by omega⟩
    exact more [a, b] ⟨List.cons_ne_nil _ _, by simp [digit, hb], Nat.le_refl 2⟩ rfl (ih h)
  | case2 least a b rest hb ih =>
    rw [Bool.and_eq_true] at h
    exact more [a] ⟨List.cons_ne_nil _ _, by simp [h.1], Nat.le_succ 1⟩ rfl (ih h.2)
  | case3 least a =>
    simp only [Bool.and_eq_true, decide_eq_true_eq] at h
    obtain ⟨⟨digit, length⟩, accepted⟩ := h
    exact ⟨[[a]], [], rfl,
      List.forall_mem_singleton.2 ⟨List.cons_ne_nil _ _, by simp [digit], Nat.le_succ 1⟩,
      accepted, length⟩
  | case4 least rest _ _ =>
    rw [Bool.and_eq_true, beq_iff_eq] at h
    exact ⟨[], rest, rfl, nofun, h.2, h.1 ▸ Nat.zero_le _⟩

/-- The forms of integers without sign. -/
inductive IntegerForm : List Char → Prop
  | zero : IntegerForm ['0']
  | binary {digits : List Char} : Figures 2 digits → IntegerForm ('0' :: 'b' :: digits)
  | hexadecimal {digits : List Char} : Figures 16 digits → IntegerForm ('0' :: 'x' :: digits)
  | octal {digits : List Char} : Figures 8 digits → IntegerForm ('0' :: digits)
  | decimal {c : Char} {digits : List Char} {pieces : List (List Char)} : c.isDigit = true →
      c ≠ '0' → (∀ d ∈ digits, isDigitOrLow d = true) → Places pieces →
      IntegerForm (c :: (digits ++ pieces.flatMap (':' :: ·)))

theorem someAll_figures {base : Nat} {p : Char → Bool} {text : List Char}
    (h : someAll p text = true)
    (hp : ∀ c, p c = true → Numeral.isFigure base c = true ∨ c = '_') : Figures base text := by
  rw [someAll, Bool.and_eq_true, Bool.not_eq_true', List.isEmpty_eq_false_iff, List.all_eq_true] at h
  exact ⟨h.1, fun c hc => hp c (h.2 c hc)⟩

theorem isInteger_form {text : List Char} (h : isInteger text = true) :
    IntegerForm (unsigned text) := by
  unfold isInteger at h
  generalize unsigned text = body at h ⊢
  split at h
  · exact .zero
  · refine .binary (someAll_figures h fun c hc => ?_)
    simp only [Bool.or_eq_true, beq_iff_eq] at hc
    rcases hc with (rfl | rfl) | rfl
    · exact .inl (by decide)
    · exact .inl (by decide)
    · exact .inr rfl
  · refine .hexadecimal (someAll_figures h fun c hc => ?_)
    rw [Bool.or_eq_true, beq_iff_eq] at hc
    exact hc
  · refine .octal (someAll_figures h fun c hc => ?_)
    simp only [Bool.or_eq_true, Bool.and_eq_true, decide_eq_true_eq, beq_iff_eq] at hc
    refine hc.imp_left fun ⟨low, high⟩ => ?_
    have low : 48 ≤ c.toNat := UInt32.le_iff_toNat_le.1 low
    have high : c.toNat ≤ 55 := UInt32.le_iff_toNat_le.1 high
    exact Numeral.isFigure_digit (isDigit_iff.2 ⟨low, by omega⟩) (by omega)
  · rename_i c rest _ _ _ first
    rw [Bool.and_eq_true, Bool.or_eq_true] at h
    obtain ⟨digit, h⟩ := h
    have split := List.takeWhile_append_dropWhile (p := isDigitOrLow) (l := rest)
    have lows : ∀ d ∈ rest.takeWhile isDigitOrLow, isDigitOrLow d = true :=
      fun d hd => List.mem_takeWhile_imp hd
    have shape : ∃ pieces, rest.dropWhile isDigitOrLow = pieces.flatMap (':' :: ·) ∧
        Places pieces := by
      rcases h with h | h
      · exact ⟨[], List.isEmpty_iff.1 h, nofun⟩
      · obtain ⟨pieces, tail, ht, places, empty, -⟩ := isSexagesimal_shape h
        rw [List.isEmpty_iff.1 empty, List.append_nil] at ht
        exact ⟨pieces, ht, places⟩
    obtain ⟨pieces, ht, places⟩ := shape
    rw [← split, ht]
    exact .decimal digit first lows places
  · cases h

/-- A base is announced, and there are no digits behind. -/
def Digitless (text : List Char) : Prop :=
  ∃ base rest, unsigned text = '0' :: base :: rest ∧ (base = 'b' ∨ base = 'x') ∧
    ∀ c ∈ rest, c = '_' ∨ c = '\n'

theorem bare_figures {base : Nat} {text : List Char}
    (h : ∀ c ∈ text, Numeral.isFigure base c = true ∨ c = '_') :
    ∀ c ∈ bare text, Numeral.isFigure base c = true := by
  intro c hc
  obtain ⟨hm, low⟩ := List.mem_filter.1 hc
  exact (h c hm).resolve_right (of_decide_eq_true low)

theorem bare_flatMap {pieces : List (List Char)} (h : Places pieces) :
    bare (pieces.flatMap (':' :: ·)) = pieces.flatMap (':' :: ·) := by
  refine bare_of_forall fun c hc => ?_
  obtain ⟨piece, hp, hc⟩ := List.mem_flatMap.1 hc
  rcases List.mem_cons.1 hc with rfl | hc
  · decide
  · exact Double.digit_ne ((h piece hp).digits c hc) (by decide)

theorem mapM_ok {α β ε : Type} {f : α → Except ε β} {xs : List α}
    (h : ∀ x ∈ xs, ∃ y, f x = .ok y) : ∃ ys, xs.mapM f = .ok ys ∧ ys.length = xs.length := by
  induction xs with
  | nil => exact ⟨[], rfl, rfl⟩
  | cons x xs ih =>
    obtain ⟨y, hy⟩ := h x List.mem_cons_self
    obtain ⟨ys, hys, length⟩ := ih fun z hz => h z (List.mem_cons_of_mem _ hz)
    refine ⟨y :: ys, ?_, by rw [List.length_cons, List.length_cons, length]⟩
    rw [List.mapM_cons, hy, hys]
    rfl

/-- What stands behind the last place belongs to it. -/
theorem cut_places {first ending : List Char} {pieces : List (List Char)}
    (hf : ':' ∉ first) (hp : ∀ piece ∈ pieces, ':' ∉ piece) (he : ':' ∉ ending) :
    ∃ init last, first :: pieces = init ++ [last] ∧
      cut ':' (first ++ (pieces.flatMap (':' :: ·) ++ ending)) = init ++ [last ++ ending] := by
  rcases List.eq_nil_or_concat pieces with rfl | ⟨init, last, rfl⟩
  · refine ⟨[], first, rfl, ?_⟩
    rw [List.flatMap_nil, List.nil_append, cut_of_not_mem]
    · rfl
    · exact fun hm => (List.mem_append.1 hm).elim hf he
  · rw [List.concat_eq_append] at hp ⊢
    have shape : (init ++ [last]).flatMap (':' :: ·) ++ ending =
        (init ++ [last ++ ending]).flatMap (':' :: ·) := by simp
    refine ⟨first :: init, last, rfl, ?_⟩
    rw [shape, cut_flatMap _ hf, List.cons_append]
    intro piece hm
    rcases List.mem_append.1 hm with hm | hm
    · exact hp piece (List.mem_append_left _ hm)
    · rw [List.mem_singleton.1 hm]
      have last := hp last (List.mem_append_right _ List.mem_cons_self)
      exact fun hc => (List.mem_append.1 hc).elim last he

/-- Places that are read one by one have values, if the last one has one together with what stands
behind it. -/
theorem places_read {β ε : Type} {f : List Char → Except ε β} {first ending : List Char}
    {pieces : List (List Char)} (hd : ∀ piece ∈ first :: pieces, ∀ c ∈ piece, c.isDigit = true)
    (he : ':' ∉ ending) (inner : ∀ piece ∈ first :: pieces, ∃ x, f piece = .ok x)
    (outer : ∀ piece ∈ first :: pieces, ∃ x, f (piece ++ ending) = .ok x) :
    ∃ values, (cut ':' (first ++ (pieces.flatMap (':' :: ·) ++ ending))).mapM f = .ok values ∧
      values.length = pieces.length + 1 := by
  have colonless : ∀ piece ∈ first :: pieces, ':' ∉ piece :=
    fun piece hm hc => absurd (hd piece hm ':' hc) (by decide)
  obtain ⟨init, last, whole, pieced⟩ := cut_places (colonless first List.mem_cons_self)
    (fun piece hm => colonless piece (List.mem_cons_of_mem _ hm)) he
  have count : init.length = pieces.length := by
    have same := congrArg List.length whole
    simp only [List.length_cons, List.length_append, List.length_nil] at same
    omega
  rw [whole] at inner outer
  have read : ∀ piece ∈ init ++ [last ++ ending], ∃ x, f piece = .ok x := by
    intro piece hm
    rcases List.mem_append.1 hm with hm | hm
    · exact inner piece (List.mem_append_left _ hm)
    · rw [List.mem_singleton.1 hm]
      exact outer last (List.mem_append_right _ List.mem_cons_self)
  obtain ⟨values, hv, length⟩ := mapM_ok read
  exact ⟨values, by rw [pieced, hv], by simp [length, count]⟩

theorem Places.all_digits {first : List Char} {pieces : List (List Char)} (hp : Places pieces)
    (hf : ∀ c ∈ first, c.isDigit = true) :
    ∀ piece ∈ first :: pieces, ∀ c ∈ piece, c.isDigit = true :=
  List.forall_mem_cons.2 ⟨hf, fun piece hm => (hp piece hm).digits⟩

theorem Ending.colonless {ending : List Char} (h : Ending ending) : ':' ∉ ending := by
  cases h <;> decide

/-- A number does not start with a zero, and has more digits in front of its first colon than an
integer may have. -/
def Overlong (text : List Char) : Prop :=
  (∃ c ∈ (unsigned text).head?, c.isDigit = true ∧ c ≠ '0') ∧
    Numeral.mostDigits < ((unsigned text).takeWhile (· ≠ ':')).countP Char.isDigit

/-- A number that has too many digits in its first place has no value. -/
theorem readMagnitude_overlong {text : List Char} (hz : text.head? ≠ some '0')
    (hl : Numeral.mostDigits < (text.takeWhile (· ≠ ':')).countP Char.isDigit) :
    readMagnitude text = .error .number := by
  have nonempty : text ≠ [] := by
    rintro rfl
    exact absurd hl (by decide)
  have refused : place (text.takeWhile (· ≠ ':')) = .error .number := by
    rw [place, Numeral.readDecimal, Numeral.isOverlong_of_digits hl, if_pos rfl, expected]
  rw [readMagnitude_of_head nonempty hz]
  split
  · obtain ⟨rest, cut⟩ := cut_head ':' text
    rw [cut, List.mapM_cons, refused]
    rfl
  · rename_i colonless
    have whole : text.takeWhile (· ≠ ':') = text := by
      refine List.takeWhile_eq_self_iff.2 fun c hc => decide_eq_true ?_
      rintro rfl
      exact colonless (List.contains_iff_mem.2 hc)
    rwa [whole] at refused

theorem countP_bare (text : List Char) : (bare text).countP Char.isDigit = text.countP Char.isDigit := by
  rw [bare, List.countP_filter]
  refine List.countP_congr fun c _ => ?_
  have low (digit : c.isDigit = true) : c ≠ '_' := Double.digit_ne digit (by decide)
  simpa using low

/-- Underscores stand in no way between the places. -/
theorem bare_takeWhile (text : List Char) :
    (bare text).takeWhile (· ≠ ':') = bare (text.takeWhile (· ≠ ':')) := by
  induction text with
  | nil => rfl
  | cons c rest ih =>
    by_cases low : c = '_'
    · subst low
      rw [bare, List.filter_cons_of_neg (by decide), List.takeWhile_cons_of_pos (by decide),
        bare, List.filter_cons_of_neg (by decide)]
      exact ih
    · have kept (l : List Char) : bare (c :: l) = c :: bare l :=
        List.filter_cons_of_pos (by simpa using low)
      by_cases colon : c = ':'
      · subst colon
        rw [kept, List.takeWhile_cons_of_neg (by decide), List.takeWhile_cons_of_neg (by decide)]
        rfl
      · rw [kept, List.takeWhile_cons_of_pos (by simpa using colon),
          List.takeWhile_cons_of_pos (by simpa using colon), kept, ih]

/-- A decimal integer has a value, and so has a number in base sixty, place by place, unless the
first place is too long. -/
theorem readMagnitude_places {c : Char} {digits ending : List Char} {pieces : List (List Char)}
    (he : Ending ending) (hc : c.isDigit = true) (hz : c ≠ '0')
    (hd : ∀ d ∈ digits, isDigitOrLow d = true) (hp : Places pieces)
    (hl : (c :: bare digits).length ≤ Numeral.mostDigits) :
    ∃ i, readMagnitude (bare (c :: (digits ++ pieces.flatMap (':' :: ·))) ++ ending) = .ok i := by
  have digit : c ≠ '_' := Double.digit_ne hc (by decide)
  have first : ∀ d ∈ c :: bare digits, d.isDigit = true :=
    List.forall_mem_cons.2 ⟨hc, digitOrLow_bare hd⟩
  have shape : bare (c :: (digits ++ pieces.flatMap (':' :: ·))) ++ ending =
      (c :: bare digits) ++ (pieces.flatMap (':' :: ·) ++ ending) := by
    rw [bare, List.filter_cons_of_pos (by simpa using digit), List.filter_append,
      show (pieces.flatMap (':' :: ·)).filter (· ≠ '_') = _ from bare_flatMap hp]
    simp [bare]
  -- behind the first place there are two digits at most, which are never too many
  have read {behind : List Char} (hb : Ending behind) :
      ∀ piece ∈ (c :: bare digits) :: pieces, ∃ i, place (piece ++ behind) = .ok i := by
    refine List.forall_mem_cons.2
      ⟨⟨_, place_of_digits hb (List.cons_ne_nil _ _) first hl⟩, fun piece hm => ?_⟩
    have good := hp piece hm
    exact ⟨_, place_of_digits hb good.nonempty good.digits (good.short.trans (by decide))⟩
  have inner : ∀ piece ∈ (c :: bare digits) :: pieces, ∃ i, place piece = .ok i := by
    intro piece hm
    have whole := read .none piece hm
    rwa [List.append_nil] at whole
  obtain ⟨values, all, -⟩ := places_read (hp.all_digits first) he.colonless inner (read he)
  rw [shape, readMagnitude_of_head (by simp) (by simpa using hz), all]
  split
  · exact ⟨_, rfl⟩
  · rename_i colonless
    cases pieces with
    | nil => exact read he _ List.mem_cons_self
    | cons => simp at colonless

/-- An integer without sign has a value, unless its digits are missing or too many. -/
inductive IntegerForm.Reading (body ending : List Char) : Prop
  | value {i : Int} : readMagnitude (bare body ++ ending) = .ok i → Reading body ending
  | digitless {base : Char} {digits : List Char} : body = '0' :: base :: digits →
      base = 'b' ∨ base = 'x' → (∀ c ∈ digits, c = '_') → Reading body ending
  | overlong : body.head? ≠ some '0' →
      Numeral.mostDigits < (body.takeWhile (· ≠ ':')).countP Char.isDigit → Reading body ending

theorem IntegerForm.read {body ending : List Char} (h : IntegerForm body) (he : Ending ending) :
    IntegerForm.Reading body ending := by
  have announced {base : Char} {digits : List Char} (hb : base ≠ '_') :
      bare ('0' :: base :: digits) = '0' :: base :: bare digits := by
    simp [bare, hb]
  have missing {digits : List Char} (hd : bare digits = []) : ∀ c ∈ digits, c = '_' := by
    simpa [bare, List.filter_eq_nil_iff] using hd
  cases h with
  | zero => exact .value (readMagnitude_octal he nofun)
  | @binary digits hf =>
    by_cases hn : bare digits = []
    · exact .digitless rfl (.inl rfl) (missing hn)
    · refine .value (i := Numeral.valueOf 2 (bare digits)) ?_
      rw [announced (by decide)]
      exact readMagnitude_binary he hn (bare_figures hf.2)
  | @hexadecimal digits hf =>
    by_cases hn : bare digits = []
    · exact .digitless rfl (.inr rfl) (missing hn)
    · refine .value (i := Numeral.valueOf 16 (bare digits)) ?_
      rw [announced (by decide)]
      exact readMagnitude_hexadecimal he hn (bare_figures hf.2)
  | @octal digits hf =>
    refine .value (i := Numeral.valueOf 8 ('0' :: bare digits)) ?_
    rw [show bare ('0' :: digits) = '0' :: bare digits by simp [bare]]
    exact readMagnitude_octal he (bare_figures hf.2)
  | @decimal c digits pieces hc hz hd hp =>
    by_cases hl : (c :: bare digits).length ≤ Numeral.mostDigits
    · obtain ⟨i, read⟩ := readMagnitude_places he hc hz hd hp hl
      exact .value read
    · refine .overlong (by simpa using hz) ?_
      have colon : c ≠ ':' := Double.digit_ne hc (by decide)
      have low : c ≠ '_' := Double.digit_ne hc (by decide)
      have front : ∀ d ∈ c :: digits, decide (d ≠ ':') = true :=
        List.forall_mem_cons.2 ⟨decide_eq_true colon, fun d hm => decide_eq_true fun same =>
          absurd (same ▸ hd d hm) (by decide)⟩
      have behind : (pieces.flatMap (':' :: ·)).takeWhile (· ≠ ':') = [] := by
        cases pieces <;> rfl
      have kept : bare (c :: digits) = c :: bare digits := List.filter_cons_of_pos (by simpa using low)
      have all : ∀ d ∈ c :: bare digits, d.isDigit = true :=
        List.forall_mem_cons.2 ⟨hc, digitOrLow_bare hd⟩
      rw [← List.cons_append, List.takeWhile_append_of_pos front, behind, List.append_nil,
        ← countP_bare, kept, List.countP_eq_length.2 all]
      exact Nat.lt_of_not_le hl

theorem IntegerForm.head {body : List Char} (h : IntegerForm body) :
    ∃ c rest, body = c :: rest ∧ c.isDigit = true := by
  cases h with
  | zero => exact ⟨_, _, rfl, by decide⟩
  | binary => exact ⟨_, _, rfl, by decide⟩
  | hexadecimal => exact ⟨_, _, rfl, by decide⟩
  | octal => exact ⟨_, _, rfl, by decide⟩
  | decimal hc => exact ⟨_, _, rfl, hc⟩

theorem Sign.bare {sign body : List Char} (h : Sign sign) :
    bare (sign ++ body) = sign ++ Scalar.bare body := by
  cases h <;> simp [Scalar.bare]

theorem Sign.unsigned {sign : List Char} {c : Char} {rest : List Char} (h : Sign sign)
    (hm : c ≠ '-') (hp : c ≠ '+') : unsigned (sign ++ c :: rest) = c :: rest := by
  cases h with
  | plus => rfl
  | minus => rfl
  | none =>
    unfold Scalar.unsigned
    split
    · cases ‹_›
      exact absurd rfl hm
    · cases ‹_›
      exact absurd rfl hp
    · rfl

/-- An integer has a value, unless its digits are missing or too many. -/
theorem readInteger_of_fits {text : List Char} (h : fits isInteger text = true) :
    (∃ i, readInteger text = .ok (.int i)) ∨ Digitless text ∨ Overlong text := by
  obtain ⟨body, ending, he, rfl, hb⟩ := fits_iff.1 h
  have form := isInteger_form hb
  obtain ⟨sign, hs, split⟩ := unsigned_split body
  generalize unsigned body = u at form split
  subst split
  obtain ⟨c, rest, head, digit⟩ := form.head
  have minus : c ≠ '-' := Double.digit_ne digit (by decide)
  have plus : c ≠ '+' := Double.digit_ne digit (by decide)
  have low : c ≠ '_' := Double.digit_ne digit (by decide)
  have number : unsigned (sign ++ u ++ ending) = u ++ ending := by
    rw [List.append_assoc, head, List.cons_append, hs.unsigned minus plus]
  cases form.read he with
  | value read =>
    left
    have signed : bare (sign ++ u ++ ending) = sign ++ (bare u ++ ending) := by
      rw [List.append_assoc, hs.bare, bare_ending he]
    have first : ∀ d ∈ (bare u ++ ending).head?, d ≠ '-' ∧ d ≠ '+' := by
      have kept : bare (c :: rest) = c :: bare rest := List.filter_cons_of_pos (by simpa using low)
      rw [head, kept]
      rintro d ⟨⟩
      exact ⟨minus, plus⟩
    rw [readInteger_signed hs first signed, read]
    exact ⟨_, rfl⟩
  | @digitless base digits shape hb hd =>
    refine .inr (.inl ⟨base, digits ++ ending, ?_, hb, ?_⟩)
    · rw [number, shape]
      rfl
    · intro d hm
      rcases List.mem_append.1 hm with hm | hm
      · exact .inl (hd d hm)
      · cases he with
        | none => cases hm
        | line => exact .inr (List.mem_singleton.1 hm)
  | overlong zero long =>
    refine .inr (.inr ⟨⟨c, ?_, digit, ?_⟩, ?_⟩)
    · rw [number, head]
      rfl
    · rintro rfl
      exact zero (by rw [head]; rfl)
    · rw [number, List.takeWhile_append]
      split
      · exact Nat.lt_of_lt_of_le long
          ((List.takeWhile_prefix _).trans (List.prefix_append _ _)).sublist.countP_le
      · exact long

/-- With too many digits there is no integer. -/
theorem readInteger_overlong {text : List Char} (h : Overlong text) :
    readInteger text = .error .number := by
  obtain ⟨⟨c, hc, digit, zero⟩, long⟩ := h
  obtain ⟨sign, hs, split⟩ := unsigned_split text
  obtain ⟨rest, head⟩ := List.head?_eq_some_iff.1 hc
  have kept : bare (c :: rest) = c :: bare rest :=
    List.filter_cons_of_pos (by simpa using Double.digit_ne digit (by decide : '_'.isDigit = false))
  have signed : bare text = sign ++ bare (c :: rest) := by
    rw [split, hs.bare, head]
  have first : ∀ d ∈ (bare (c :: rest)).head?, d ≠ '-' ∧ d ≠ '+' := by
    rw [kept]
    rintro d ⟨⟩
    exact ⟨Double.digit_ne digit (by decide), Double.digit_ne digit (by decide)⟩
  have refused : readMagnitude (bare (c :: rest)) = .error .number := by
    refine readMagnitude_overlong (by rw [kept]; simpa using zero) ?_
    rw [bare_takeWhile, countP_bare, ← head]
    exact long
  rw [readInteger_signed hs first signed, refused]
  rfl

/-- Without digits there is no integer. -/
theorem readInteger_digitless {text : List Char} (h : Digitless text) :
    readInteger text = .error .number := by
  obtain ⟨base, rest, shape, hb, lines⟩ := h
  obtain ⟨sign, hs, split⟩ := unsigned_split text
  rw [shape] at split
  have blank : ∀ c ∈ bare rest, c.toNat < 127 ∧ Numeral.isPadding c = true := by
    intro c hc
    obtain ⟨hm, low⟩ := List.mem_filter.1 hc
    rw [(lines c hm).resolve_left (of_decide_eq_true low)]
    decide
  have empty (n : Nat) : Numeral.readInt n (bare rest) = none := by
    have trimmed : Numeral.trim (bare rest) = [] :=
      trimWhere_append [] nofun fun c hc => (blank c hc).2
    rw [Numeral.readInt, Numeral.mapM_plain? fun c hc => (blank c hc).1, Option.bind_eq_bind,
      Option.bind_some, trimmed]
    rfl
  have announced : bare text = sign ++ '0' :: base :: bare rest := by
    rw [split, hs.bare]
    rcases hb with rfl | rfl <;> simp [bare]
  rw [readInteger_signed hs (by rintro c ⟨⟩; decide) announced]
  rcases hb with rfl | rfl <;> simp only [readMagnitude, empty, expected] <;> rfl

end ServiceModel.Yaml.Scalar

/-
Numbers and words in the notation of JSON are typed as JSON has it: a number without fraction and
exponent is an integer, every other one is the nearest double precision number.
-/
import ServiceModel.Proofs.Json.Notation
import ServiceModel.Proofs.Yaml.Doubles

namespace ServiceModel

namespace Double

/-! ## Signs -/

theorem ofMantissa_neg (mantissa : Nat) (exponent : Int) :
    (ofMantissa false mantissa exponent).neg = ofMantissa true mantissa exponent := by
  unfold ofMantissa
  split
  split <;> rfl

theorem ofRatio_neg (num den : Nat) : (ofRatio false num den).neg = ofRatio true num den := by
  unfold ofRatio
  split
  · rfl
  · exact ofMantissa_neg _ _

theorem ofDecimal_neg (digits : Nat) (exponent : Int) :
    (ofDecimal false digits exponent).neg = ofDecimal true digits exponent := by
  unfold ofDecimal
  split
  · rfl
  · dsimp only
    split_ifs
    · rfl
    · rfl
    · exact ofRatio_neg _ _
    · exact ofRatio_neg _ _

theorem Decimal.nearest_neg (d : Decimal) : (d.nearest false).neg = d.nearest true :=
  ofDecimal_neg _ _

/-! ## Marks -/

theorem ofMantissa_withMark (mark : Nat) (negative : Bool) (mantissa : Nat) (exponent : Int) :
    (ofMantissa negative mantissa exponent).withMark mark =
      ofMantissa negative mantissa exponent := by
  unfold ofMantissa
  split
  split <;> rfl

theorem ofRatio_withMark (mark : Nat) (negative : Bool) (num den : Nat) :
    (ofRatio negative num den).withMark mark = ofRatio negative num den := by
  unfold ofRatio
  split
  · rfl
  · exact ofMantissa_withMark _ _ _ _

/-- A decimal is a number. -/
theorem Decimal.nearest_withMark (d : Decimal) (mark : Nat) (negative : Bool) :
    (d.nearest negative).withMark mark = d.nearest negative := by
  unfold Decimal.nearest ofDecimal
  split
  · rfl
  · dsimp only
    split_ifs
    · rfl
    · rfl
    · exact ofRatio_withMark _ _ _ _
    · exact ofRatio_withMark _ _ _ _

end Double

namespace Yaml.Scalar

open Notation (sign numberOf spelling)

/-! ## Kinds -/

theorem fits_of_lineless {form : List Char → Bool} {text : List Char} (h : '\n' ∉ text) :
    fits form text = form text := by
  have last : (text.getLast? == some '\n') = false :=
    beq_eq_false_iff_ne.2 fun hl => h (List.mem_of_getLast? hl)
  rw [fits, last, Bool.false_and, Bool.or_false]

theorem contains_of_digit (words : List String) {text : List Char}
    (hw : (words.flatMap String.toList).all (!Char.isDigit ·) = true)
    (hd : ∃ c ∈ text, c.isDigit = true) : words.contains (String.ofList text) = false := by
  obtain ⟨c, hc, digit⟩ := hd
  refine Bool.eq_false_iff.2 fun hm => ?_
  have among : c ∈ words.flatMap String.toList :=
    List.mem_flatMap.2 ⟨_, List.contains_iff_mem.1 hm, by rwa [String.toList_ofList]⟩
  have plain := List.all_eq_true.1 hw c among
  rw [digit] at plain
  cases plain

/-- A text with digits on one line is no word. -/
theorem kindOf_of_digit {text : List Char} (hl : '\n' ∉ text) (hd : ∃ c ∈ text, c.isDigit = true) :
    kindOf text =
      if isDouble text then .double else if isInteger text then .int
      else if isJsonNumber text then .double else .text := by
  have bool := contains_of_digit boolWords (by decide) hd
  have reserved := contains_of_digit ["<<", "="] (by decide) hd
  have null := contains_of_digit nullWords (by decide) hd
  have some : text.isEmpty = false := by
    obtain ⟨c, hc, -⟩ := hd
    exact List.isEmpty_eq_false_iff.2 (List.ne_nil_of_mem hc)
  unfold kindOf
  simp only [fits_of_lineless hl, bool, reserved, null, some, Bool.false_eq_true, if_false,
    Bool.and_false, Bool.or_false]

/-- All forms of double precision numbers have a point. -/
theorem DoubleForm.point {body : List Char} (h : DoubleForm body) : '.' ∈ body := by
  cases h with
  | pointed => exact List.mem_append_right _ List.mem_cons_self
  | leading => exact List.mem_cons_self
  | sexagesimal =>
    exact List.mem_append_right _ (List.mem_append_right _ List.mem_cons_self)
  | @infinite word hw =>
    have all : ∀ word ∈ [".inf", ".Inf", ".INF"], '.' ∈ word.toList := by decide
    exact all word hw
  | @nan word hw =>
    have all : ∀ word ∈ [".nan", ".NaN", ".NAN"], '.' ∈ word.toList := by decide
    exact all word hw

theorem isDouble_pointless {text : List Char} (h : '.' ∉ text) : isDouble text = false := by
  refine Bool.eq_false_iff.2 fun hd => ?_
  obtain ⟨sign, body, -, rfl, form⟩ := isDouble_form hd
  exact h (List.mem_append_right _ form.point)

/-! ## Numbers -/

theorem sign_cases (negative : Bool) : Sign (sign negative) ∧ '+' ∉ sign negative := by
  cases negative
  · exact ⟨.none, nofun⟩
  · exact ⟨.minus, by decide⟩

section

variable {d : Double.Decimal} (h : d.Strict) (negative : Bool)

include h

/-- A number is written with digits and the marks of numbers. -/
theorem number_lacks {c : Char} (hc : c.isDigit = false ∧ Double.isMark c = false) :
    c ∉ sign negative ++ d.text := by
  intro hm
  rcases List.mem_append.1 hm with hm | hm
  · cases negative
    · cases hm
    · rw [List.mem_singleton.1 hm] at hc
      exact absurd hc.2 (by decide)
  · rcases h.spelled.chars c hm with digit | mark
    · rw [hc.1] at digit
      cases digit
    · rw [hc.2] at mark
      cases mark

theorem number_digit : ∃ c ∈ sign negative ++ d.text, c.isDigit = true := by
  obtain ⟨c, hc⟩ := List.exists_mem_of_ne_nil _ h.nonempty
  exact ⟨c, List.mem_append_right _ (List.mem_append_left _ hc), h.spelled.whole c hc⟩

theorem strict_head : ∃ c rest, d.text = c :: rest ∧ c.isDigit = true := by
  obtain ⟨c, rest, hw⟩ := List.exists_cons_of_ne_nil h.nonempty
  exact ⟨c, rest ++ (d.pointText ++ d.exponentText), by rw [Double.Decimal.text, hw]; rfl,
    h.spelled.whole c (hw ▸ List.mem_cons_self)⟩

theorem strict_mark (hd : ¬ (d.fraction? = none ∧ d.exponent? = none)) :
    ∃ c ∈ d.text, c = '.' ∨ c = 'e' ∨ c = 'E' := by
  unfold Double.Decimal.text
  cases hf : d.fraction? with
  | some fraction =>
    refine ⟨'.', ?_, .inl rfl⟩
    simp [Double.Decimal.pointText, hf]
  | none =>
    cases hx : d.exponent? with
    | none => exact absurd ⟨hf, hx⟩ hd
    | some x =>
      refine ⟨x.letter, ?_, .inr (h.spelled.exponent x hx).letter⟩
      simp [Double.Decimal.exponentText, hx, Double.Exponent.text]

theorem unsigned_number : unsigned (sign negative ++ d.text) = d.text := by
  obtain ⟨c, rest, shape, digit⟩ := strict_head h
  rw [shape]
  exact (sign_cases negative).1.unsigned (Double.digit_ne digit (by decide))
    (Double.digit_ne digit (by decide))

theorem isJsonNumber_number : isJsonNumber (sign negative ++ d.text) = true := by
  have magnitude : isJsonMagnitude d.text = true := isJsonMagnitude_iff.2 ⟨d, h, rfl⟩
  cases negative with
  | true => exact (isJsonNumber_minus d.text).trans magnitude
  | false =>
    obtain ⟨c, rest, shape, digit⟩ := strict_head h
    refine (isJsonNumber_of_ne fun more same => ?_).trans magnitude
    have minus : c = '-' := congrArg (·.headD c) (shape.symm.trans same)
    exact Double.digit_ne digit (by decide) minus

omit h in
theorem text_whole (hf : d.fraction? = none) (hx : d.exponent? = none) : d.text = d.whole := by
  rw [Double.Decimal.text, Double.Decimal.pointText, Double.Decimal.exponentText, hf, hx]
  simp

/-- The pattern of integers accepts a number without fraction and exponent. -/
theorem isInteger_number (hf : d.fraction? = none) (hx : d.exponent? = none) :
    isInteger (sign negative ++ d.text) = true := by
  have digits := h.spelled.whole
  have lows : ∀ c ∈ d.whole, isDigitOrLow c = true := fun c hc => by
    rw [isDigitOrLow, digits c hc, Bool.true_or]
  rw [isInteger, unsigned_number h, text_whole hf hx]
  obtain ⟨c, rest, whole⟩ := List.exists_cons_of_ne_nil h.nonempty
  by_cases zero : c = '0'
  · rw [h.zero (by rw [whole, zero]; rfl)]
    rfl
  · have behind : rest.dropWhile isDigitOrLow = [] :=
      List.dropWhile_eq_nil_iff.2 fun e he => lows e (whole ▸ List.mem_cons_of_mem _ he)
    rw [whole]
    split <;> rename_i same
    · exact absurd (List.cons.inj same).1 zero
    · exact absurd (List.cons.inj same).1 zero
    · exact absurd (List.cons.inj same).1 zero
    · exact absurd (List.cons.inj same).1 zero
    · cases same
      rw [digits c (whole ▸ List.mem_cons_self), behind]
      rfl
    · cases same

/-- A number without fraction and exponent looks like an integer. -/
theorem kindOf_integer (hf : d.fraction? = none) (hx : d.exponent? = none) :
    kindOf (sign negative ++ d.text) = .int := by
  have pointless : '.' ∉ sign negative ++ d.text := by
    rw [text_whole hf hx]
    intro hm
    rcases List.mem_append.1 hm with hm | hm
    · cases negative
      · cases hm
      · exact absurd (List.mem_singleton.1 hm) (by decide)
    · exact absurd (h.spelled.whole '.' hm) (by decide)
  rw [kindOf_of_digit (number_lacks h negative (by decide)) (number_digit h negative),
    isDouble_pointless pointless, isInteger_number h negative hf hx]
  rfl

/-- A number without fraction and exponent is an integer, if it has not too many digits. -/
theorem ofText_integer (mark : Nat) (hf : d.fraction? = none) (hx : d.exponent? = none)
    (hl : d.whole.length ≤ Text.Numeral.mostDigits) :
    ofText mark (sign negative ++ d.text) = .ok (numberOf negative d) := by
  have text := text_whole hf hx
  have digits := h.spelled.whole
  have magnitude : readMagnitude d.whole = .ok (Double.digitsValue d.whole) := by
    by_cases zero : d.whole.head? = some '0'
    · rw [h.zero zero]
      rfl
    · have read := readMagnitude_decimal .none h.nonempty digits hl zero
      rwa [List.append_nil] at read
  have bare : bare (sign negative ++ d.text) = sign negative ++ d.whole := by
    rw [text]
    refine bare_of_forall fun c hc => ?_
    rintro rfl
    exact number_lacks h negative (c := '_') (by decide) (text ▸ hc)
  obtain ⟨c, rest, shape, digit⟩ := strict_head h
  have first : ∀ e ∈ d.whole.head?, e ≠ '-' ∧ e ≠ '+' := by
    rw [← text, shape]
    rintro e ⟨⟩
    exact ⟨Double.digit_ne digit (by decide), Double.digit_ne digit (by decide)⟩
  rw [ofText, kindOf_integer h negative hf hx]
  dsimp only
  rw [readInteger_signed (sign_cases negative).1 first bare, magnitude, numberOf, if_pos ⟨hf, hx⟩]
  cases negative <;> rfl

/-- With too many digits it has no value. -/
theorem ofText_long (mark : Nat) (hf : d.fraction? = none) (hx : d.exponent? = none)
    (hl : Text.Numeral.mostDigits < d.whole.length) :
    ofText mark (sign negative ++ d.text) = .error .number := by
  obtain ⟨c, rest, whole⟩ := List.exists_cons_of_ne_nil h.nonempty
  have digit : c.isDigit = true := h.spelled.whole c (whole ▸ List.mem_cons_self)
  have long : Overlong (sign negative ++ d.text) := by
    unfold Overlong
    rw [unsigned_number h, text_whole hf hx]
    refine ⟨⟨c, by rw [whole]; rfl, digit, ?_⟩, ?_⟩
    · rintro rfl
      rw [h.zero (by rw [whole]; rfl)] at hl
      exact absurd hl (by decide)
    · have colonless : d.whole.takeWhile (· ≠ ':') = d.whole :=
        List.takeWhile_eq_self_iff.2 fun e he =>
          decide_eq_true (Double.digit_ne (h.spelled.whole e he) (by decide))
      rwa [colonless, List.countP_eq_length.2 h.spelled.whole]
  rw [ofText, kindOf_integer h negative hf hx]
  exact readInteger_overlong long

/-- A number with fraction or exponent has a character that no integer has. -/
theorem isInteger_number_eq_false (hd : ¬ (d.fraction? = none ∧ d.exponent? = none)) :
    isInteger (sign negative ++ d.text) = false := by
  refine Bool.eq_false_iff.2 fun hi => ?_
  have form := isInteger_form hi
  rw [unsigned_number h] at form
  obtain ⟨c, hc, other⟩ := strict_mark h hd
  have marked : c.isDigit = false ∧ c ≠ '_' ∧ c ≠ ':' := by
    rcases other with rfl | rfl | rfl <;> decide
  have chars := h.spelled.chars
  generalize d.text = body at form hc chars
  cases form with
  | zero =>
    rw [List.mem_singleton.1 hc] at marked
    exact absurd marked.1 (by decide)
  | binary => exact absurd (chars 'b' (by simp)) (by decide)
  | hexadecimal => exact absurd (chars 'x' (by simp)) (by decide)
  | octal hf =>
    rcases List.mem_cons.1 hc with rfl | hc
    · exact absurd marked.1 (by decide)
    · rcases hf.2 c hc with figure | low
      · rcases other with rfl | rfl | rfl <;> exact absurd figure (by decide)
      · exact marked.2.1 low
  | decimal hd _ hl hp =>
    rcases List.mem_cons.1 hc with rfl | hc
    · rw [marked.1] at hd
      cases hd
    · rcases List.mem_append.1 hc with hc | hc
      · have low := hl c hc
        rw [isDigitOrLow, marked.1, Bool.false_or, beq_iff_eq] at low
        exact marked.2.1 low
      · obtain ⟨piece, hm, hc⟩ := List.mem_flatMap.1 hc
        rcases List.mem_cons.1 hc with colon | hc
        · exact marked.2.2 colon
        · have digit := (hp piece hm).digits c hc
          rw [marked.1] at digit
          cases digit

/-- A number with fraction or exponent is a double precision number. -/
theorem ofText_double (mark : Nat) (hd : ¬ (d.fraction? = none ∧ d.exponent? = none)) :
    ofText mark (sign negative ++ d.text) = .ok (numberOf negative d) := by
  have signed := (sign_cases negative).1
  have kind : kindOf (sign negative ++ d.text) = .double := by
    rw [kindOf_of_digit (number_lacks h negative (by decide)) (number_digit h negative),
      isInteger_number_eq_false h negative hd, isJsonNumber_number h]
    cases isDouble (sign negative ++ d.text) <;> rfl
  have lower : lowered (sign negative ++ d.text) = sign negative ++ ((small d).text ++ []) := by
    rw [lowered_append, signed.lowered, lowered_decimal h.spelled, List.append_nil]
  rw [ofText, kind]
  dsimp only
  rw [readDouble_decimal signed (small_spelled h.spelled) .none lower, numberOf, if_neg hd,
    nearest_small]
  cases negative
  · rw [if_neg (by decide), Double.Decimal.nearest_withMark]
  · rw [if_pos (show sign true = ['-'] from rfl), Double.Decimal.nearest_neg,
      Double.Decimal.nearest_withMark]

/-- A number in the notation of JSON has the value that JSON gives it. -/
theorem ofText_number (hb : d.Bounded) (mark : Nat) :
    ofText mark (sign negative ++ d.text) = .ok (numberOf negative d) := by
  by_cases hd : d.fraction? = none ∧ d.exponent? = none
  · exact ofText_integer h negative mark hd.1 hd.2 (hb hd.1 hd.2)
  · exact ofText_double h negative mark hd

end

/-- The words of JSON are truth values and nothing. -/
theorem ofText_spelling (mark : Nat) (value? : Option Bool) :
    ofText mark (spelling value?) = .ok ((value?.map Primitive.bool).getD .null) := by
  rcases value? with _ | _ | _
  · rfl
  · rfl
  · rfl

end Yaml.Scalar

end ServiceModel

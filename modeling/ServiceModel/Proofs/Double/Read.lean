/-
Reading double precision numbers: digits with a point among them and an exponent behind them read
as the number nearest to what they say, with or without white space behind.
-/
import ServiceModel.Double.Read
import ServiceModel.Proofs.Text.Numeral

namespace ServiceModel.Double

open ServiceModel.Text

/-! ## Spellings -/

/-- An exponent: a letter, a sign if there is one, and digits. -/
structure Exponent where
  letter : Char
  sign? : Option Char
  digits : List Char
  deriving DecidableEq, Repr

namespace Exponent

/-- The exponent as it is written. -/
def text (x : Exponent) : List Char := x.letter :: (x.sign?.toList ++ x.digits)

/-- The power of ten that the exponent stands for. -/
def value (x : Exponent) : Int :=
  if x.sign? = some '-' then -(digitsValue x.digits : Int) else digitsValue x.digits

/-- What is written is an exponent. -/
structure Spelled (x : Exponent) : Prop where
  letter : x.letter = 'e' ∨ x.letter = 'E'
  sign : ∀ c ∈ x.sign?, c = '-' ∨ c = '+'
  digits : ∀ c ∈ x.digits, c.isDigit = true
  nonempty : x.digits ≠ []

end Exponent

/-- A number without sign: digits before the point and after it, and an exponent. -/
structure Decimal where
  whole : List Char
  fraction? : Option (List Char)
  exponent? : Option Exponent
  deriving DecidableEq, Repr

namespace Decimal

/-- The digits after the point. -/
def fraction (d : Decimal) : List Char := d.fraction?.getD []

/-- The point and the digits after it, as they are written. -/
def pointText (d : Decimal) : List Char :=
  match d.fraction? with
  | none => []
  | some fraction => '.' :: fraction

/-- The exponent as it is written. -/
def exponentText (d : Decimal) : List Char := (d.exponent?.map Exponent.text).getD []

/-- The number as it is written. -/
def text (d : Decimal) : List Char := d.whole ++ (d.pointText ++ d.exponentText)

/-- The power of ten that the exponent stands for. -/
def exponent (d : Decimal) : Int := (d.exponent?.map Exponent.value).getD 0

/-- The double precision number nearest to the number with a sign. -/
def nearest (d : Decimal) (negative : Bool) : Double :=
  ofDecimal negative (digitsValue (d.whole ++ d.fraction)) (d.exponent - d.fraction.length)

/-- What is written is a number. -/
structure Spelled (d : Decimal) : Prop where
  whole : ∀ c ∈ d.whole, c.isDigit = true
  fraction : ∀ c ∈ d.fraction, c.isDigit = true
  nonempty : d.whole ≠ [] ∨ d.fraction ≠ []
  exponent : ∀ x ∈ d.exponent?, x.Spelled

/-- What is written is a number in the notation of JSON: there are digits before the point, and
behind it if it is there, and no needless zeros in front. -/
structure Strict (d : Decimal) : Prop where
  spelled : d.Spelled
  nonempty : d.whole ≠ []
  zero : d.whole.head? = some '0' → d.whole = ['0']
  fraction : d.fraction? ≠ some []

/-- Without fraction and exponent there are not more digits than an integer may have. -/
def Bounded (d : Decimal) : Prop :=
  d.fraction? = none → d.exponent? = none → d.whole.length ≤ Numeral.mostDigits

end Decimal

/-! ## Reading -/

theorem digit_ne {c d : Char} (h : c.isDigit = true) (hd : d.isDigit = false) : c ≠ d := by
  rintro rfl
  rw [h] at hd
  cases hd

theorem toLower_digit {c : Char} (h : c.isDigit = true) : c.toLower = c := by
  have range := isDigit_iff.1 h
  have small : ¬ (c.val ≥ 'A'.val ∧ c.val ≤ 'Z'.val) := by
    rintro ⟨hl, -⟩
    have : 65 ≤ c.toNat := UInt32.le_iff_toNat_le.1 hl
    omega
  exact dif_neg small

theorem span_digits {digits : List Char} (rest : List Char) (h : ∀ c ∈ digits, c.isDigit = true)
    (hr : ∀ c ∈ rest.head?, c.isDigit = false) :
    (digits ++ rest).takeWhile Char.isDigit = digits ∧
      (digits ++ rest).dropWhile Char.isDigit = rest := by
  rw [List.takeWhile_append_of_pos h, List.dropWhile_append_of_pos h]
  cases rest with
  | nil => exact ⟨List.append_nil _, rfl⟩
  | cons c rest =>
    have plain := Bool.eq_false_iff.1 (hr c rfl)
    rw [List.takeWhile_cons_of_neg plain, List.dropWhile_cons_of_neg plain]
    exact ⟨List.append_nil _, rfl⟩

theorem Exponent.Spelled.read {x : Exponent} (h : x.Spelled) :
    readExponent? x.text = some x.value := by
  obtain ⟨letter, sign?, digits⟩ := x
  obtain ⟨hl, hs, hd, nonempty⟩ := h
  have letter : (letter = 'e' || letter = 'E') = true := by simpa using hl
  have all : (digits.isEmpty || !digits.all Char.isDigit) = false := by simp_all
  unfold readExponent? text value
  cases sign? with
  | some c => rcases hs c rfl with rfl | rfl <;> simp [letter, all]
  | none =>
    simp only [letter, if_true, Option.toList_none, List.nil_append]
    split
    · exact absurd (hd '-' List.mem_cons_self) (by decide)
    · exact absurd (hd '+' List.mem_cons_self) (by decide)
    · simp [all]

/-- The characters of numbers that are no digits. -/
def isMark (c : Char) : Bool := ['.', 'e', 'E', '-', '+'].contains c

theorem Exponent.Spelled.chars {x : Exponent} (h : x.Spelled) :
    ∀ c ∈ x.text, c.isDigit = true ∨ isMark c = true := by
  intro c hc
  rcases List.mem_cons.1 hc with rfl | hc
  · rcases h.letter with hl | hl <;> rw [hl] <;> exact .inr rfl
  · rcases List.mem_append.1 hc with hc | hc
    · rcases h.sign c (Option.mem_toList.1 hc) with rfl | rfl <;> exact .inr rfl
    · exact .inl (h.digits c hc)

namespace Decimal

variable {d : Decimal} (h : d.Spelled)

include h

theorem Spelled.exponent_head : ∀ c ∈ d.exponentText.head?, c = 'e' ∨ c = 'E' := by
  intro c hc
  cases hx : d.exponent? with
  | none =>
    rw [exponentText, hx] at hc
    cases hc
  | some x =>
    rw [exponentText, hx] at hc
    cases hc
    exact (h.exponent x hx).letter

theorem Spelled.readExponent : readExponent? d.exponentText = some d.exponent := by
  unfold exponentText Decimal.exponent
  cases hx : d.exponent? with
  | none => rfl
  | some x => exact (h.exponent x hx).read

theorem Spelled.chars : ∀ c ∈ d.text, c.isDigit = true ∨ isMark c = true := by
  intro c hc
  rcases List.mem_append.1 hc with hc | hc
  · exact .inl (h.whole c hc)
  · rcases List.mem_append.1 hc with hc | hc
    · have fraction := h.fraction
      unfold pointText at hc
      unfold Decimal.fraction at fraction
      split at hc
      · cases hc
      · rename_i digits hf
        rw [hf] at fraction
        rcases List.mem_cons.1 hc with rfl | hc
        · exact .inr rfl
        · exact .inl (fraction c hc)
    · unfold exponentText at hc
      cases hx : d.exponent? with
      | none =>
        rw [hx] at hc
        cases hc
      | some x =>
        rw [hx] at hc
        exact (h.exponent x hx).chars c hc

/-- A number starts with a digit or a point, and so with no sign and with no name. -/
theorem Spelled.head : ∃ c rest, d.text = c :: rest ∧ (c.isDigit = true ∨ c = '.') := by
  cases hw : d.whole with
  | cons c rest =>
    exact ⟨c, _, by rw [text, hw, List.cons_append], .inl (h.whole c (hw ▸ List.mem_cons_self))⟩
  | nil =>
    cases hf : d.fraction? with
    | some fraction =>
      exact ⟨'.', _, by rw [text, hw, pointText, hf, List.nil_append, List.cons_append], .inr rfl⟩
    | none => exact absurd h.nonempty (by simp [hw, hf, Decimal.fraction])

/-- A number does not start with what is neither a digit nor a point, such as a sign. -/
theorem Spelled.text_ne {c : Char} {rest : List Char} (hc : c.isDigit = false ∧ c ≠ '.') :
    d.text ≠ c :: rest := by
  intro same
  obtain ⟨c', rest', shape, head⟩ := h.head
  rw [shape] at same
  cases same
  rcases head with digit | point
  · rw [hc.1] at digit
    cases digit
  · exact hc.2 point

/-- Nor does it in lower case, so that it is the name of no number. -/
theorem Spelled.lower_ne (name : List Char)
    (hn : ∀ c ∈ name.head?, c.isDigit = false ∧ c ≠ '.') : d.text.map Char.toLower ≠ name := by
  rintro rfl
  obtain ⟨c', rest', shape, head⟩ := h.head
  have lower : c'.toLower = c' := by
    rcases head with digit | rfl
    · exact toLower_digit digit
    · decide
  exact h.text_ne (hn c' (by rw [shape, List.map_cons, lower]; rfl)) shape

theorem Spelled.not_padding : ∀ c ∈ d.text, c.toNat < 127 ∧ Numeral.isPadding c = false := by
  intro c hc
  rcases h.chars c hc with digit | mark
  · have range := isDigit_iff.1 digit
    have blank : c ≠ ' ' := digit_ne digit (by decide)
    simp only [Numeral.isPadding, beq_eq_false_iff_ne.2 blank, Bool.false_or,
      Bool.and_eq_false_iff, decide_eq_false_iff_not]
    omega
  · have all : ∀ c ∈ ['.', 'e', 'E', '-', '+'], c.toNat < 127 ∧ Numeral.isPadding c = false :=
      List.all_iff_forall_prop.1 (by decide)
    exact all c (List.contains_iff_mem.1 mark)

theorem readDecimal?_text (negative : Bool) :
    readDecimal? negative d.text = some (d.nearest negative) := by
  have letter : ∀ c ∈ d.exponentText.head?, c.isDigit = false ∧ c ≠ '.' := by
    intro c hc
    rcases h.exponent_head c hc with rfl | rfl <;> decide
  have exponent := h.readExponent
  have nonempty := h.nonempty
  have hf := h.fraction
  unfold readDecimal? text pointText nearest
  unfold Decimal.fraction at hf nonempty ⊢
  generalize d.exponentText = exponentText at letter exponent ⊢
  generalize d.fraction? = fraction? at hf nonempty ⊢
  cases fraction? with
  | none =>
    obtain ⟨before, after⟩ := span_digits _ h.whole fun c hc => (letter c hc).1
    have some : d.whole.isEmpty = false := by simpa using nonempty
    simp only [List.nil_append, before, after]
    split
    · exact absurd rfl (letter '.' rfl).2
    · simp [some, exponent]
  | some fraction =>
    obtain ⟨before, after⟩ := span_digits ('.' :: (fraction ++ exponentText)) h.whole
      fun c hc => by cases hc; decide
    obtain ⟨inner, behind⟩ := span_digits _ hf fun c hc => (letter c hc).1
    have some : (d.whole.isEmpty && fraction.isEmpty) = false := by
      rcases nonempty with hn | hn
      · simp [hn]
      · simp [show fraction ≠ [] from hn]
    simp only [Option.getD_some] at inner behind
    simp only [List.cons_append, before, after, inner, behind, some]
    simp [exponent]

theorem readMagnitude?_text : readMagnitude? false d.text = some (d.nearest false) := by
  have inf := h.lower_ne "inf".toList (by rintro _ ⟨⟩; decide)
  have infinity := h.lower_ne "infinity".toList (by rintro _ ⟨⟩; decide)
  have nan := h.lower_ne "nan".toList (by rintro _ ⟨⟩; decide)
  unfold readMagnitude?
  dsimp only
  rw [decide_eq_false inf, decide_eq_false infinity, Bool.or_self, if_neg Bool.false_ne_true,
    if_neg nan, readDecimal?_text h]

theorem readSigned?_text : readSigned? d.text = some (d.nearest false) := by
  unfold readSigned?
  split
  · exact absurd (by assumption) (h.text_ne (by decide))
  · exact absurd (by assumption) (h.text_ne (by decide))
  · exact readMagnitude?_text h

/-- A number with white space behind it reads as the nearest double precision number. -/
theorem read?_text {ending : List Char}
    (he : ∀ c ∈ ending, c.toNat < 127 ∧ Numeral.isPadding c = true) :
    read? (d.text ++ ending) = some (d.nearest false) := by
  have plain : ∀ c ∈ d.text ++ ending, c.toNat < 127 := fun c hc =>
    (List.mem_append.1 hc).elim (fun hc => (h.not_padding c hc).1) fun hc => (he c hc).1
  have trimmed : Numeral.trim (d.text ++ ending) = d.text :=
    trimWhere_append _ (fun c hc => (h.not_padding c hc).2) fun c hc => (he c hc).2
  rw [read?, Numeral.mapM_plain? plain, Option.bind_eq_bind, Option.bind_some, trimmed]
  exact readSigned?_text h

end Decimal

end ServiceModel.Double

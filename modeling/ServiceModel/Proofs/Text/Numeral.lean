/-
Reading integers: a run of digits reads as its value in every base, with or without white space
behind it.
-/
import ServiceModel.Text.Numeral
import Mathlib.Data.Bool.AllAny
import Mathlib.Data.List.TakeWhile

namespace ServiceModel.Text

theorem isDigit_iff {c : Char} : c.isDigit = true ↔ 48 ≤ c.toNat ∧ c.toNat ≤ 57 := by
  simp only [Char.isDigit, ge_iff_le, Bool.and_eq_true, decide_eq_true_eq, UInt32.le_iff_toNat_le]
  exact Iff.rfl

theorem trimWhere_append {p : Char → Bool} (body : List Char) {ending : List Char}
    (hb : ∀ c ∈ body, p c = false) (he : ∀ c ∈ ending, p c = true) :
    trimWhere p (body ++ ending) = body := by
  -- nothing is dropped from a text of which no character satisfies `p`
  have kept : ∀ {text : List Char}, (∀ c ∈ text, p c = false) → text.dropWhile p = text := by
    intro text ht
    cases text with
    | nil => rfl
    | cons c rest => rw [List.dropWhile_cons_of_neg (Bool.eq_false_iff.1 (ht c List.mem_cons_self))]
  unfold trimWhere
  have reversed : (body ++ ending).reverse.dropWhile p = body.reverse := by
    rw [List.reverse_append, List.dropWhile_append, List.dropWhile_eq_nil_iff.2 fun c hc => he c (List.mem_reverse.1 hc)]
    exact kept fun c hc => hb c (List.mem_reverse.1 hc)
  cases body with
  | nil => rw [List.nil_append, List.dropWhile_eq_nil_iff.2 he]; rfl
  | cons c rest =>
    have head : (c :: rest ++ ending).dropWhile p = c :: rest ++ ending := by
      rw [List.cons_append,
        List.dropWhile_cons_of_neg (Bool.eq_false_iff.1 (hb c List.mem_cons_self))]
    rw [head, reversed, List.reverse_reverse]

namespace Numeral

/-- A digit of the base. -/
def isFigure (base : Nat) (c : Char) : Bool := (digitIn? base c).isSome

/-- The value of a run of digits. -/
def valueOf (base : Nat) (figures : List Char) : Nat :=
  figures.foldl (fun n c => n * base + (digitIn? base c).getD 0) 0

/-! ## Characters -/

theorem plain?_of_lt {c : Char} (h : c.toNat < 127) : plain? c = some c := by
  rw [plain?, if_pos h]

theorem mapM_plain? {text : List Char} (h : ∀ c ∈ text, c.toNat < 127) :
    text.mapM plain? = some text := by
  induction text with
  | nil => rfl
  | cons c rest ih =>
    rw [List.mapM_cons, plain?_of_lt (h c List.mem_cons_self),
      ih fun d hd => h d (List.mem_cons_of_mem _ hd)]
    rfl

theorem isFigure_cases {base : Nat} {c : Char} (h : isFigure base c = true) :
    (48 ≤ c.toNat ∧ c.toNat ≤ 57) ∨ (97 ≤ c.toNat ∧ c.toNat ≤ 102) ∨
      (65 ≤ c.toNat ∧ c.toNat ≤ 70) := by
  obtain ⟨d, hd⟩ := Option.isSome_iff_exists.1 h
  have found := (Option.filter_eq_some_iff.1 hd).1
  have between (a b : Char) (hc : (a ≤ c && c ≤ b) = true) :
      a.toNat ≤ c.toNat ∧ c.toNat ≤ b.toNat := by
    rw [Bool.and_eq_true, decide_eq_true_eq, decide_eq_true_eq] at hc
    exact hc
  split at found
  · exact .inl (isDigit_iff.1 (by assumption))
  · split at found
    · exact .inr (.inl (between 'a' 'f' (by assumption)))
    · split at found
      · exact .inr (.inr (between 'A' 'F' (by assumption)))
      · cases found

theorem isFigure_lt {base : Nat} {c : Char} (h : isFigure base c = true) : c.toNat < 127 := by
  have := isFigure_cases h
  omega

theorem isFigure_padding {base : Nat} {c : Char} (h : isFigure base c = true) :
    isPadding c = false := by
  have range := isFigure_cases h
  have blank : c ≠ ' ' := by
    rintro rfl
    revert range
    decide
  simp only [isPadding, beq_eq_false_iff_ne.2 blank, Bool.false_or, Bool.and_eq_false_iff,
    decide_eq_false_iff_not]
  omega

/-- What is no digit in base sixteen is none in any base. -/
theorem ne_of_isFigure {base : Nat} {c d : Char} (h : isFigure base c = true)
    (hd : ¬ ((48 ≤ d.toNat ∧ d.toNat ≤ 57) ∨ (97 ≤ d.toNat ∧ d.toNat ≤ 102) ∨
      (65 ≤ d.toNat ∧ d.toNat ≤ 70))) : c ≠ d := by
  rintro rfl
  exact hd (isFigure_cases h)

/-! ## Digits -/

theorem digitIn?_digit {base : Nat} {c : Char} (h : c.isDigit = true) :
    digitIn? base c = if c.toNat - 48 < base then some (c.toNat - 48) else none := by
  unfold digitIn?
  simp only [h, if_true]
  rw [Option.filter_some]
  simp only [decide_eq_true_eq]
  rfl

theorem isFigure_digit {base : Nat} {c : Char} (h : c.isDigit = true) (hb : c.toNat < 48 + base) :
    isFigure base c = true := by
  have := isDigit_iff.1 h
  rw [isFigure, digitIn?_digit h, if_pos (by omega)]
  rfl

theorem foldl_digits {figures : List Char} (h : ∀ c ∈ figures, c.isDigit = true) : ∀ sofar : Nat,
    figures.foldl (fun n c => n * 10 + (digitIn? 10 c).getD 0) sofar =
      Nat.ofDigitChars 10 figures sofar := by
  induction figures with
  | nil => exact fun _ => Nat.ofDigitChars_nil.symm
  | cons c rest ih =>
    intro sofar
    have digit := h c List.mem_cons_self
    have range := isDigit_iff.1 digit
    rw [List.foldl_cons, Nat.ofDigitChars_cons, digitIn?_digit digit, if_pos (by omega),
      Nat.mul_comm 10]
    exact ih (fun d hd => h d (List.mem_cons_of_mem _ hd)) _

/-- Decimal digits of the usual script have the value that they have everywhere. -/
theorem valueOf_digits {figures : List Char} (h : ∀ c ∈ figures, c.isDigit = true) :
    valueOf 10 figures = Nat.ofDigitChars 10 figures 0 :=
  foldl_digits h 0

theorem digitsFrom_figures {base : Nat} {figures : List Char}
    (h : ∀ c ∈ figures, isFigure base c = true) : ∀ sofar : Nat,
      digitsFrom base sofar figures =
        some (figures.foldl (fun n c => n * base + (digitIn? base c).getD 0) sofar) := by
  induction figures with
  | nil => exact fun _ => rfl
  | cons c rest ih =>
    intro sofar
    have low : c ≠ '_' := ne_of_isFigure (h c List.mem_cons_self) (by decide)
    obtain ⟨d, hd⟩ := Option.isSome_iff_exists.1 (h c List.mem_cons_self)
    rw [digitsFrom, hd]
    · simp only [List.foldl_cons, hd, Option.getD_some]
      exact ih (fun e he => h e (List.mem_cons_of_mem _ he)) _
    · exact fun _ _ he => absurd he low

theorem digits_figures {base : Nat} {figures : List Char} (hn : figures ≠ [])
    (h : ∀ c ∈ figures, isFigure base c = true) :
    digits base figures = some (valueOf base figures) := by
  cases figures with
  | nil => exact absurd rfl hn
  | cons c rest =>
    obtain ⟨d, hd⟩ := Option.isSome_iff_exists.1 (h c List.mem_cons_self)
    rw [digits, hd, valueOf, List.foldl_cons, hd, Nat.zero_mul, Nat.zero_add, Option.getD_some]
    exact digitsFrom_figures (fun e he => h e (List.mem_cons_of_mem _ he)) d

/-- A digit announces no base. -/
theorem announces_figure {base : Nat} {c : Char} (h : isFigure base c = true) :
    announces base c = false := by
  by_contra announced
  rw [Bool.not_eq_false, announces] at announced
  simp only [Bool.or_eq_true, Bool.and_eq_true, beq_iff_eq] at announced
  rcases announced with (⟨rfl, rfl | rfl⟩ | ⟨rfl, rfl | rfl⟩) | ⟨rfl, rfl | rfl⟩
  all_goals
    revert h
    decide

theorem magnitude_figures {base : Nat} {figures : List Char} (hn : figures ≠ [])
    (h : ∀ c ∈ figures, isFigure base c = true) :
    magnitude base figures = some (valueOf base figures) := by
  unfold magnitude
  split
  · rename_i c rest
    have plain := announces_figure (h c (List.mem_cons_of_mem _ List.mem_cons_self))
    rw [plain, if_neg Bool.false_ne_true]
    exact digits_figures hn h
  · exact digits_figures hn h

/-- A run of digits with white space behind it reads as its value. -/
theorem readInt_figures {base : Nat} {figures ending : List Char} (hn : figures ≠ [])
    (h : ∀ c ∈ figures, isFigure base c = true)
    (he : ∀ c ∈ ending, c.toNat < 127 ∧ isPadding c = true) :
    readInt base (figures ++ ending) = some (valueOf base figures : Int) := by
  have plain : (figures ++ ending).mapM plain? = some (figures ++ ending) := by
    refine mapM_plain? fun c hc => ?_
    rcases List.mem_append.1 hc with hc | hc
    · exact isFigure_lt (h c hc)
    · exact (he c hc).1
  have trimmed : trim (figures ++ ending) = figures :=
    trimWhere_append _ (fun c hc => isFigure_padding (h c hc)) fun c hc => (he c hc).2
  unfold readInt
  rw [plain, Option.bind_eq_bind, Option.bind_some, trimmed]
  split
  · exact absurd rfl (ne_of_isFigure (h '-' List.mem_cons_self) (by decide))
  · exact absurd rfl (ne_of_isFigure (h '+' List.mem_cons_self) (by decide))
  · rw [magnitude_figures hn h]
    rfl

/-- A run of digits behind a minus reads as the negated value. -/
theorem readInt_minus {base : Nat} {figures : List Char} (hn : figures ≠ [])
    (h : ∀ c ∈ figures, isFigure base c = true) :
    readInt base ('-' :: figures) = some (-(valueOf base figures : Int)) := by
  have plain : ('-' :: figures).mapM plain? = some ('-' :: figures) :=
    mapM_plain? (List.forall_mem_cons.2 ⟨by decide, fun c hc => isFigure_lt (h c hc)⟩)
  have unpadded : ∀ c ∈ '-' :: figures, isPadding c = false :=
    List.forall_mem_cons.2 ⟨by decide, fun c hc => isFigure_padding (h c hc)⟩
  have trimmed : trim ('-' :: figures) = '-' :: figures := by
    have := trimWhere_append _ unpadded (List.forall_mem_nil _)
    rwa [List.append_nil] at this
  unfold readInt
  rw [plain, Option.bind_eq_bind, Option.bind_some, trimmed]
  show (magnitude base figures).bind (fun n => some (-(n : Int))) = _
  rw [magnitude_figures hn h, Option.bind_some]

/-! ## Numbers that are too long -/

theorem countP_digits {digits : List Char} (h : ∀ c ∈ digits, c.isDigit = true) :
    digits.countP (fun c => (digit? c).isSome) = digits.length := by
  refine List.countP_eq_length.2 fun c hc => ?_
  rw [digit?, if_pos (h c hc)]
  rfl

/-- Decimal digits of the usual script count among those of every script. -/
theorem isOverlong_of_digits {text : List Char} (h : mostDigits < text.countP Char.isDigit) :
    isOverlong text = true := by
  refine decide_eq_true (Nat.lt_of_lt_of_le h (List.countP_mono_left fun c _ digit => ?_))
  rw [digit?, if_pos digit]
  rfl

/-- A run of digits is too long if it has too many of them, with white space behind it or not. -/
theorem isOverlong_digits {digits ending : List Char} (h : ∀ c ∈ digits, c.isDigit = true)
    (he : ∀ c ∈ ending, c.toNat < 127 ∧ isPadding c = true) :
    isOverlong (digits ++ ending) = decide (mostDigits < digits.length) := by
  have behind : ending.countP (fun c => (digit? c).isSome) = 0 := by
    refine List.countP_eq_zero.2 fun c hc => ?_
    obtain ⟨-, padding⟩ := he c hc
    have low : c.toNat ≤ 32 := by
      simp only [isPadding, Bool.or_eq_true, beq_iff_eq, Bool.and_eq_true, decide_eq_true_eq] at padding
      rcases padding with rfl | range
      · decide
      · omega
    have digit : ¬ c.isDigit = true := fun digit => by
      have := isDigit_iff.1 digit
      omega
    rw [digit?, if_neg digit, if_pos (by omega)]
    exact Bool.false_ne_true
  rw [isOverlong, List.countP_append, countP_digits h, behind, Nat.add_zero]

end Numeral

end ServiceModel.Text

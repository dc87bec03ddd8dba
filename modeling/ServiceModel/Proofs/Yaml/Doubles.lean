/-
Double precision numbers in the markup language: a decimal has the nearest number as its value,
and a number in base sixty has one as long as a double precision number can count its places.
-/
import ServiceModel.Proofs.Yaml.Integers
import Mathlib.Algebra.Group.Nat.Defs

namespace ServiceModel.Yaml.Scalar

open ServiceModel.Text

/-! ## Double precision numbers -/

/-- The text without underscores, in small letters. -/
abbrev lowered (text : List Char) : List Char := (bare text).map Char.toLower

theorem lowered_append (first second : List Char) :
    lowered (first ++ second) = lowered first ++ lowered second := by
  rw [lowered, bare, List.filter_append, List.map_append]

theorem lowered_of_forall {text : List Char} (h : ∀ c ∈ text, c ≠ '_' ∧ c.toLower = c) :
    lowered text = text := by
  rw [lowered, bare_of_forall fun c hc => (h c hc).1]
  exact (List.map_congr_left fun c hc => (h c hc).2).trans (List.map_id _)

theorem lowered_digits {text : List Char} (h : ∀ c ∈ text, isDigitOrLow c = true) :
    lowered text = bare text :=
  (List.map_congr_left fun c hc => Double.toLower_digit (digitOrLow_bare h c hc)).trans
    (List.map_id _)

theorem Ending.lowered {ending : List Char} (h : Ending ending) : lowered ending = ending := by
  cases h <;> decide

theorem Sign.lowered {sign : List Char} (h : Sign sign) : lowered sign = sign := by
  cases h <;> decide

/-- The size of a number behind its sign. -/
def size (body : List Char) : Except Fault Double :=
  if body = ".inf".toList then .ok (.infinite false)
  else if body.contains ':' then
    (cut ':' body).mapM placeOf >>= fun places =>
      sumPlaces (Double.zero false) 1 places.reverse
  else placeOf body
where
  placeOf (digits : List Char) : Except Fault Double :=
    match Double.read? digits with
    | some x => .ok x
    | none => .error .number

theorem size_bind {α : Type} (body : List Char) (next : Double → Except Fault α) :
    (if body = ".inf".toList then Except.ok (.infinite false) >>= next
      else if body.contains ':' then
        (cut ':' body).mapM size.placeOf >>= fun places =>
          sumPlaces (Double.zero false) 1 places.reverse >>= next
      else size.placeOf body >>= next) = size body >>= next := by
  unfold size
  split
  · rfl
  · split
    · rw [bind_assoc]
    · rfl

theorem sign_bind {α : Type} (signed : List Char) (next : Bool × List Char → Except Fault α) :
    (match signed with
      | [] => Except.error Fault.emptyNumber >>= next
      | '-' :: rest => Except.ok (true, rest) >>= next
      | '+' :: rest => Except.ok (false, rest) >>= next
      | rest => Except.ok (false, rest) >>= next) =
    match signed with
      | [] => .error .emptyNumber
      | '-' :: rest => next (true, rest)
      | '+' :: rest => next (false, rest)
      | rest => next (false, rest) := by
  split <;> rfl

/-- The number with the given sign. -/
def signedDouble (mark : Nat) (negative : Bool) (body : List Char) : Except Fault Primitive :=
  if body = ".nan".toList then .ok (.double (.nan 0))
  else (size body).map fun x => .double ((if negative then x.neg else x).withMark mark)

theorem readDouble_eq (mark : Nat) (text : List Char) :
    readDouble mark text = match lowered text with
      | [] => .error .emptyNumber
      | '-' :: rest => signedDouble mark true rest
      | '+' :: rest => signedDouble mark false rest
      | rest => signedDouble mark false rest := by
  have made (negative : Bool) (body : List Char) : signedDouble mark negative body =
      if body = ".nan".toList then .ok (.double (.nan 0))
      else size body >>= fun x =>
        .ok (.double ((if negative then x.neg else x).withMark mark)) := by
    unfold signedDouble
    cases size body <;> rfl
  unfold readDouble
  simp only [made, ← size_bind, lowered, bare]
  exact sign_bind _ _

/-- What a text says is nothing, or a number with a sign. -/
theorem readDouble_cases (text : List Char) :
    (∀ mark, readDouble mark text = .error .emptyNumber) ∨
      ∃ negative body, ∀ mark, readDouble mark text = signedDouble mark negative body := by
  simp only [readDouble_eq]
  cases lowered text with
  | nil => exact .inl fun _ => rfl
  | cons c rest =>
    right
    by_cases minus : c = '-'
    · subst minus
      exact ⟨true, rest, fun _ => rfl⟩
    · by_cases plus : c = '+'
      · subst plus
        exact ⟨false, rest, fun _ => rfl⟩
      · refine ⟨false, c :: rest, fun mark => ?_⟩
        split
        · contradiction
        · cases ‹_ = _›
          exact absurd rfl minus
        · cases ‹_ = _›
          exact absurd rfl plus
        · rfl

/-- The double precision number behind a sign. -/
theorem readDouble_signed {mark : Nat} {text sign body : List Char} (hs : Sign sign)
    (hn : body ≠ []) (hb : ∀ c ∈ body.head?, c ≠ '-' ∧ c ≠ '+')
    (ht : lowered text = sign ++ body) :
    readDouble mark text = signedDouble mark (sign = ['-']) body := by
  rw [readDouble_eq, ht]
  cases hs with
  | plus => rfl
  | minus => rfl
  | none =>
    rw [List.nil_append]
    split
    · exact absurd rfl hn
    · exact absurd rfl (hb '-' rfl).1
    · exact absurd rfl (hb '+' rfl).2
    · rfl

/-- Digits and underscores that start with a digit. -/
def Run (text : List Char) : Prop :=
  (∃ c ∈ text.head?, c.isDigit = true) ∧ ∀ c ∈ text, isDigitOrLow c = true

/-- The forms of double precision numbers behind their sign. -/
inductive DoubleForm : List Char → Prop
  | pointed {whole fraction exponent : List Char} : Run whole →
      (∀ c ∈ fraction, isDigitOrLow c = true) → isSignedExponent exponent = true →
      DoubleForm (whole ++ '.' :: (fraction ++ exponent))
  | leading {fraction exponent : List Char} : Run fraction → isSignedExponent exponent = true →
      DoubleForm ('.' :: (fraction ++ exponent))
  | sexagesimal {whole fraction : List Char} {pieces : List (List Char)} : Run whole →
      Places pieces → (∀ c ∈ fraction, isDigitOrLow c = true) →
      DoubleForm (whole ++ (pieces.flatMap (':' :: ·) ++ '.' :: fraction))
  | infinite {word : String} : word ∈ [".inf", ".Inf", ".INF"] → DoubleForm word.toList
  | nan {word : String} : word ∈ [".nan", ".NaN", ".NAN"] → DoubleForm word.toList

theorem isDouble_form {text : List Char} (h : isDouble text = true) :
    ∃ sign body, Sign sign ∧ text = sign ++ body ∧ DoubleForm body := by
  obtain ⟨sign, hs, split⟩ := unsigned_split text
  unfold isDouble at h
  simp only [Bool.or_eq_true, Bool.and_eq_true] at h
  have cut (rest : List Char) :
      rest = rest.takeWhile isDigitOrLow ++ rest.dropWhile isDigitOrLow :=
    List.takeWhile_append_dropWhile.symm
  have lows {rest : List Char} : ∀ c ∈ rest.takeWhile isDigitOrLow, isDigitOrLow c = true :=
    fun c hc => List.mem_takeWhile_imp hc
  have run {rest : List Char} (head : rest.head?.any Char.isDigit = true) :
      Run (rest.takeWhile isDigitOrLow) := by
    refine ⟨?_, lows⟩
    cases rest with
    | nil => cases head
    | cons c rest =>
      have digit : c.isDigit = true := head
      rw [List.takeWhile_cons_of_pos (by rw [isDigitOrLow, digit, Bool.true_or])]
      exact ⟨c, rfl, digit⟩
  rcases h with ((⟨head, pointed | places⟩ | leading) | infinite) | nan
  · refine ⟨sign, unsigned text, hs, split, ?_⟩
    split at pointed
    · rename_i rest tail
      rw [cut (unsigned text), tail, cut rest]
      exact .pointed (run head) lows pointed
    · cases pointed
  · refine ⟨sign, unsigned text, hs, split, ?_⟩
    obtain ⟨pieces, rest, shape, good, accepted, -⟩ := isSexagesimal_shape places
    split at accepted
    · rw [cut (unsigned text), shape]
      exact .sexagesimal (run head) good (List.all_eq_true.1 accepted)
    · cases accepted
  · refine ⟨[], text, .none, rfl, ?_⟩
    split at leading
    · rename_i d rest
      rw [Bool.and_eq_true] at leading
      have first : (d :: rest).takeWhile isDigitOrLow = d :: rest.takeWhile isDigitOrLow :=
        List.takeWhile_cons_of_pos (by rw [isDigitOrLow, leading.1, Bool.true_or])
      rw [cut rest, ← List.cons_append, ← first]
      exact .leading (run leading.1) leading.2
    · cases leading
  · have word := DoubleForm.infinite (List.contains_iff_mem.1 infinite)
    rw [String.toList_ofList] at word
    exact ⟨sign, unsigned text, hs, split, word⟩
  · have word := DoubleForm.nan (List.contains_iff_mem.1 nan)
    rw [String.toList_ofList] at word
    exact ⟨[], text, .none, rfl, word⟩

theorem Run.bare {text : List Char} (h : Run text) :
    bare text ≠ [] ∧ ∀ c ∈ bare text, c.isDigit = true := by
  obtain ⟨⟨c, hc, digit⟩, lows⟩ := h
  refine ⟨List.ne_nil_of_mem (a := c) ?_, digitOrLow_bare lows⟩
  refine List.mem_filter.2 ⟨List.mem_of_mem_head? hc, decide_eq_true ?_⟩
  exact Double.digit_ne digit (by decide)

/-- An exponent with a sign, in small letters. -/
theorem isSignedExponent_spelled {text : List Char} (h : isSignedExponent text = true) :
    ∃ x? : Option Double.Exponent, (∀ x ∈ x?, x.Spelled) ∧
      lowered text = (x?.map Double.Exponent.text).getD [] := by
  unfold isSignedExponent at h
  split at h
  · exact ⟨none, nofun, rfl⟩
  · rename_i e sign digits
    simp only [Bool.and_eq_true, Bool.or_eq_true, beq_iff_eq] at h
    obtain ⟨⟨letter, signed⟩, h⟩ := h
    rw [someAll, Bool.and_eq_true, Bool.not_eq_true', List.isEmpty_eq_false_iff,
      List.all_eq_true] at h
    have behind : lowered digits = digits := lowered_of_forall fun c hc =>
      ⟨Double.digit_ne (h.2 c hc) (by decide), Double.toLower_digit (h.2 c hc)⟩
    refine ⟨some ⟨'e', some sign, digits⟩, ?_, ?_⟩
    · rintro x ⟨⟩
      exact ⟨.inl rfl, by rintro c ⟨⟩; exact signed, h.2, h.1⟩
    · have front : lowered [e, sign] = ['e', sign] := by
        rcases letter with rfl | rfl <;> rcases signed with rfl | rfl <;> decide
      have whole := lowered_append [e, sign] digits
      rw [front, behind] at whole
      exact whole
  · cases h

/-- The characters of decimals and of what may stand behind them. -/
theorem decimal_chars {d : Double.Decimal} {ending : List Char} (hd : d.Spelled)
    (he : Ending ending) :
    ∀ c ∈ d.text ++ ending, c.isDigit = true ∨ Double.isMark c = true ∨ c = '\n' := by
  intro c hc
  rcases List.mem_append.1 hc with hc | hc
  · rcases hd.chars c hc with digit | mark
    · exact .inl digit
    · exact .inr (.inl mark)
  · cases he with
    | none => cases hc
    | line => exact .inr (.inr (List.mem_singleton.1 hc))

theorem decimal_lacks {d : Double.Decimal} {ending : List Char} (hd : d.Spelled)
    (he : Ending ending) {c : Char}
    (hc : c.isDigit = false ∧ Double.isMark c = false ∧ c ≠ '\n') : c ∉ d.text ++ ending := by
  intro hm
  rcases decimal_chars hd he c hm with h | h | h
  · rw [hc.1] at h
    cases h
  · rw [hc.2.1] at h
    cases h
  · exact hc.2.2 h

theorem placeOf_decimal {d : Double.Decimal} {ending : List Char} (hd : d.Spelled)
    (he : Ending ending) : size.placeOf (d.text ++ ending) = .ok (d.nearest false) := by
  rw [size.placeOf, Double.Decimal.read?_text hd he.padding]

/-- A decimal with white space behind it reads as the nearest double precision number. -/
theorem readDouble_decimal {mark : Nat} {text sign ending : List Char} {d : Double.Decimal}
    (hs : Sign sign) (hd : d.Spelled) (he : Ending ending)
    (ht : lowered text = sign ++ (d.text ++ ending)) :
    readDouble mark text = .ok (.double
      ((if sign = ['-'] then (d.nearest false).neg else d.nearest false).withMark mark)) := by
  obtain ⟨c, rest, shape, head⟩ := hd.head
  have first : ∀ e ∈ (d.text ++ ending).head?, e ≠ '-' ∧ e ≠ '+' := by
    rw [shape]
    rintro e ⟨⟩
    rcases head with digit | rfl
    · exact ⟨Double.digit_ne digit (by decide), Double.digit_ne digit (by decide)⟩
    · decide
  have unnamed (word : String) (hw : 'n' ∈ word.toList) : d.text ++ ending ≠ word.toList :=
    fun same => decimal_lacks hd he (c := 'n') (by decide) (same ▸ hw)
  have colonless : (d.text ++ ending).contains ':' = false :=
    Bool.eq_false_iff.2 fun hc =>
      decimal_lacks hd he (c := ':') (by decide) (List.contains_iff_mem.1 hc)
  have sized : size (d.text ++ ending) = .ok (d.nearest false) := by
    rw [size, if_neg (unnamed ".inf" (by decide)), colonless, if_neg Bool.false_ne_true,
      placeOf_decimal hd he]
  rw [readDouble_signed hs (by rw [shape]; exact List.cons_ne_nil _ _) first ht, signedDouble,
    if_neg (unnamed ".nan" (by decide)), sized]
  simp only [decide_eq_true_eq]
  rfl

/-! ## Base sixty -/

/-- How many places of a number in base sixty a double precision number can count. -/
def mostPlaces : Nat := 174

theorem unit_fits : ∀ k < mostPlaces, (Double.ofNat? (60 ^ k)).isSome = true := by
  decide +kernel

theorem unit_exceeds : Double.ofNat? (60 ^ mostPlaces) = none := by
  decide +kernel

theorem sumPlaces_few {places : List Double} : ∀ {sum : Double} {k : Nat},
    k + places.length ≤ mostPlaces → ∃ x, sumPlaces sum (60 ^ k) places = .ok x := by
  induction places with
  | nil => exact fun _ => ⟨_, rfl⟩
  | cons place rest ih =>
    intro sum k hk
    rw [List.length_cons] at hk
    obtain ⟨u, hu⟩ := Option.isSome_iff_exists.1 (unit_fits k (by omega))
    rw [sumPlaces, hu]
    exact ih (k := k + 1) (by omega)

theorem sumPlaces_many {places : List Double} : ∀ {sum : Double} {k : Nat},
    k ≤ mostPlaces → mostPlaces < k + places.length →
      sumPlaces sum (60 ^ k) places = .error .tooManyPlaces := by
  induction places with
  | nil =>
    intro sum k hk hl
    rw [List.length_nil] at hl
    omega
  | cons place rest ih =>
    intro sum k hk hl
    rw [List.length_cons] at hl
    rw [sumPlaces]
    rcases Nat.lt_or_eq_of_le hk with hk | rfl
    · obtain ⟨u, hu⟩ := Option.isSome_iff_exists.1 (unit_fits k hk)
      rw [hu]
      exact ih (k := k + 1) (by omega) (by omega)
    · rw [unit_exceeds]

theorem placeOf_digits {digits : List Char} (hn : digits ≠ [])
    (hd : ∀ c ∈ digits, c.isDigit = true) : ∃ x, size.placeOf digits = .ok x := by
  have spelled : (⟨digits, none, none⟩ : Double.Decimal).Spelled :=
    ⟨hd, nofun, .inl hn, nofun⟩
  have read := placeOf_decimal spelled .none
  rw [List.append_nil, Double.Decimal.text] at read
  exact ⟨_, (List.append_nil digits ▸ read)⟩

theorem placeOf_pointed {digits fraction ending : List Char} (hn : digits ≠ [])
    (hd : ∀ c ∈ digits, c.isDigit = true) (hf : ∀ c ∈ fraction, c.isDigit = true)
    (he : Ending ending) :
    ∃ x, size.placeOf (digits ++ '.' :: (fraction ++ ending)) = .ok x := by
  have spelled : (⟨digits, some fraction, none⟩ : Double.Decimal).Spelled :=
    ⟨hd, hf, .inl hn, nofun⟩
  have shape : (⟨digits, some fraction, none⟩ : Double.Decimal).text ++ ending =
      digits ++ '.' :: (fraction ++ ending) := by
    simp [Double.Decimal.text, Double.Decimal.pointText, Double.Decimal.exponentText]
  exact ⟨_, shape ▸ placeOf_decimal spelled he⟩

/-- A number in base sixty has a value if it has not too many places. -/
theorem size_sexagesimal {first fraction ending : List Char} {pieces : List (List Char)}
    (hn : first ≠ []) (hf : ∀ c ∈ first, c.isDigit = true) (hp : Places pieces)
    (hx : ∀ c ∈ fraction, c.isDigit = true) (he : Ending ending) {body : List Char}
    (hb : body = first ++ (pieces.flatMap (':' :: ·) ++ '.' :: (fraction ++ ending))) :
    (pieces.length < mostPlaces → ∃ x, size body = .ok x) ∧
      (mostPlaces ≤ pieces.length → size body = .error .tooManyPlaces) := by
  have named : body ≠ ".inf".toList := by
    cases first with
    | nil => exact absurd rfl hn
    | cons c rest =>
      rw [hb]
      intro same
      have point : c = '.' := congrArg (·.headD c) same
      exact absurd (hf c List.mem_cons_self) (by rw [point]; decide)
  have colonless {piece : List Char} (h : ∀ d ∈ piece, d.isDigit = true) : ':' ∉ piece :=
    fun hm => absurd (h ':' hm) (by decide)
  have behind : ':' ∉ '.' :: (fraction ++ ending) := by
    simp [colonless hx, he.colonless]
  have nonempty : ∀ piece ∈ first :: pieces, piece ≠ [] :=
    List.forall_mem_cons.2 ⟨hn, fun piece hm => (hp piece hm).nonempty⟩
  have digits := hp.all_digits hf
  obtain ⟨values, read, length⟩ := places_read digits behind
    (fun piece hm => placeOf_digits (nonempty piece hm) (digits piece hm))
    fun piece hm => placeOf_pointed (nonempty piece hm) (digits piece hm) hx he
  rw [← List.length_reverse] at length
  rw [size, if_neg named, hb]
  cases pieces with
  | nil =>
    have single :
        (first ++ ([].flatMap (':' :: ·) ++ '.' :: (fraction ++ ending))).contains ':' = false := by
      simp [colonless hf, colonless hx, he.colonless]
    rw [single, if_neg Bool.false_ne_true]
    exact ⟨fun _ => placeOf_pointed hn hf hx he, fun h => absurd h (by decide)⟩
  | cons piece rest =>
    rw [if_pos (by simp), read]
    constructor
    · intro few
      exact sumPlaces_few (k := 0) (by omega)
    · intro many
      exact sumPlaces_many (k := 0) (by decide) (by omega)

/-! ## Numbers in the notation of JSON -/

/-- The decimal with the letter of its exponent in the small form. -/
def small (d : Double.Decimal) : Double.Decimal :=
  { d with exponent? := d.exponent?.map fun x => { x with letter := 'e' } }

theorem small_spelled {d : Double.Decimal} (h : d.Spelled) : (small d).Spelled where
  whole := h.whole
  fraction := h.fraction
  nonempty := h.nonempty
  exponent := by
    rintro x hx
    obtain ⟨y, hy, rfl⟩ := Option.map_eq_some_iff.1 hx
    have spelled := h.exponent y hy
    exact ⟨.inl rfl, spelled.sign, spelled.digits, spelled.nonempty⟩

theorem nearest_small (d : Double.Decimal) (negative : Bool) :
    (small d).nearest negative = d.nearest negative := by
  have exponent : (small d).exponent = d.exponent := by
    unfold Double.Decimal.exponent small
    cases d.exponent? <;> rfl
  unfold Double.Decimal.nearest
  rw [exponent]
  rfl

theorem lowered_decimal {d : Double.Decimal} (h : d.Spelled) : lowered d.text = (small d).text := by
  have digits (text : List Char) (hd : ∀ c ∈ text, c.isDigit = true) : lowered text = text :=
    lowered_of_forall fun c hc =>
      ⟨Double.digit_ne (hd c hc) (by decide), Double.toLower_digit (hd c hc)⟩
  have point : lowered d.pointText = d.pointText := by
    have behind := h.fraction
    unfold Double.Decimal.pointText
    unfold Double.Decimal.fraction at behind
    cases hf : d.fraction? with
    | none => rfl
    | some fraction =>
      rw [hf] at behind
      have whole := lowered_append ['.'] fraction
      rw [digits fraction behind] at whole
      exact whole
  have exponent : lowered d.exponentText = (small d).exponentText := by
    unfold Double.Decimal.exponentText small
    cases hx : d.exponent? with
    | none => rfl
    | some x =>
      have spelled := h.exponent x hx
      have front : lowered (x.letter :: x.sign?.toList) = 'e' :: x.sign?.toList := by
        cases hs : x.sign? with
        | none => rcases spelled.letter with hl | hl <;> rw [hl] <;> decide
        | some c =>
          rcases spelled.sign c hs with rfl | rfl <;>
            rcases spelled.letter with hl | hl <;> rw [hl] <;> decide
      have whole := lowered_append (x.letter :: x.sign?.toList) x.digits
      rw [front, digits _ spelled.digits] at whole
      exact whole
  rw [Double.Decimal.text, lowered_append, lowered_append, digits _ h.whole, point, exponent]
  rfl

/-- The digits after a point, if there is one, and the text after them. -/
def fractionAt (text : List Char) : Option (List Char) × List Char :=
  match text with
  | '.' :: more => (some (more.takeWhile Char.isDigit), more.dropWhile Char.isDigit)
  | _ => (none, text)

/-- Nothing, or an exponent. -/
def isExponent (text : List Char) : Bool :=
  match text with
  | [] => true
  | e :: more => (e == 'e' || e == 'E') && someAll Char.isDigit (unsigned more)

/-- A number in the notation of JSON behind its sign. -/
def isJsonMagnitude (body : List Char) : Bool :=
  let whole := body.takeWhile Char.isDigit
  let rest := body.dropWhile Char.isDigit
  !whole.isEmpty && (whole.head? != some '0' || whole.length == 1) &&
    (fractionAt rest).1 != some [] && isExponent (fractionAt rest).2

theorem drop_takeWhile (p : Char → Bool) (text : List Char) :
    text.drop (text.takeWhile p).length = text.dropWhile p := by
  calc text.drop (text.takeWhile p).length
    _ = (text.takeWhile p ++ text.dropWhile p).drop (text.takeWhile p).length := by
      rw [List.takeWhile_append_dropWhile]
    _ = text.dropWhile p := List.drop_left

theorem isJsonMagnitude_eq (body : List Char) : isJsonMagnitude body =
    (let whole := body.takeWhile Char.isDigit
    let rest := body.drop whole.length
    let (fraction?, rest) := match rest with
      | '.' :: more => (some (more.takeWhile Char.isDigit), more.dropWhile Char.isDigit)
      | _ => (none, rest)
    let exponent := match rest with
      | [] => true
      | e :: more => (e == 'e' || e == 'E') && someAll Char.isDigit (unsigned more)
    !whole.isEmpty && (whole.head? != some '0' || whole.length == 1) && fraction? != some [] &&
      exponent) := by
  dsimp only
  rw [drop_takeWhile]
  rfl

theorem isJsonNumber_minus (rest : List Char) :
    isJsonNumber ('-' :: rest) = isJsonMagnitude rest := (isJsonMagnitude_eq rest).symm

theorem isJsonNumber_of_ne {text : List Char} (h : ∀ rest, text ≠ '-' :: rest) :
    isJsonNumber text = isJsonMagnitude text := by
  rw [isJsonMagnitude_eq]
  unfold isJsonNumber
  split
  · exact absurd rfl (h _)
  · rfl

theorem isJsonNumber_split (text : List Char) :
    ∃ sign body, (sign = [] ∨ sign = ['-']) ∧ text = sign ++ body ∧
      isJsonNumber text = isJsonMagnitude body := by
  by_cases h : ∃ rest, text = '-' :: rest
  · obtain ⟨rest, rfl⟩ := h
    exact ⟨['-'], rest, .inr rfl, rfl, isJsonNumber_minus rest⟩
  · exact ⟨[], text, .inl rfl, rfl, isJsonNumber_of_ne fun rest same => h ⟨rest, same⟩⟩

/-- An exponent is nothing, or a letter, a sign if there is one, and digits. -/
theorem isExponent_iff {text : List Char} :
    isExponent text = true ↔ ∃ x? : Option Double.Exponent, (∀ x ∈ x?, x.Spelled) ∧
      text = (x?.map Double.Exponent.text).getD [] := by
  constructor
  · intro h
    unfold isExponent at h
    split at h
    · exact ⟨none, by simp, rfl⟩
    · rename_i e more
      simp only [Bool.and_eq_true, Bool.or_eq_true, beq_iff_eq, someAll, Bool.not_eq_true',
        List.isEmpty_eq_false_iff, List.all_eq_true] at h
      obtain ⟨letter, nonempty, digits⟩ := h
      have made (sign? : Option Char) (hs : ∀ c ∈ sign?, c = '-' ∨ c = '+')
          (shape : more = sign?.toList ++ unsigned more) :
          ∃ x? : Option Double.Exponent, (∀ x ∈ x?, x.Spelled) ∧
            e :: more = (x?.map Double.Exponent.text).getD [] := by
        refine ⟨some ⟨e, sign?, unsigned more⟩, ?_, congrArg (e :: ·) shape⟩
        rintro x ⟨⟩
        exact ⟨letter, hs, digits, nonempty⟩
      obtain ⟨sign, hs, shape⟩ := unsigned_split more
      cases hs with
      | none => exact made none (by simp) shape
      | plus => exact made (some '+') (by simp) shape
      | minus => exact made (some '-') (by simp) shape
  · rintro ⟨x?, hx, rfl⟩
    cases x? with
    | none => rfl
    | some x =>
      obtain ⟨letter, sign?, digits⟩ := x
      obtain ⟨hl, hs, hd, nonempty⟩ := hx _ rfl
      obtain ⟨c, rest, rfl⟩ := List.exists_cons_of_ne_nil nonempty
      have digit := hd c List.mem_cons_self
      have bare : unsigned (sign?.toList ++ c :: rest) = c :: rest := by
        have sign : Sign sign?.toList := by
          cases sign? with
          | none => exact .none
          | some s => rcases hs s rfl with rfl | rfl <;> constructor
        exact sign.unsigned (Double.digit_ne digit (by decide)) (Double.digit_ne digit (by decide))
      simp only [isExponent, Option.map_some, Option.getD_some, Double.Exponent.text, bare, someAll,
        Bool.and_eq_true, Bool.or_eq_true, beq_iff_eq, List.all_eq_true]
      exact ⟨hl, rfl, hd⟩

theorem fractionAt_append {digits rest : List Char} (hd : ∀ c ∈ digits, c.isDigit = true)
    (hr : ∀ c ∈ rest.head?, c.isDigit = false) :
    fractionAt ('.' :: (digits ++ rest)) = (some digits, rest) := by
  obtain ⟨inner, behind⟩ := Double.span_digits _ hd hr
  rw [fractionAt, inner, behind]

theorem fractionAt_of_ne {text : List Char} (h : ∀ c ∈ text.head?, c ≠ '.') :
    fractionAt text = (none, text) := by
  unfold fractionAt
  split
  · exact absurd rfl (h '.' rfl)
  · rfl

/-- What is at the point is its text, and the digits behind it are digits. -/
theorem fractionAt_eq {d : Double.Decimal} {text : List Char}
    (h : d.fraction? = (fractionAt text).1) :
    (∀ c ∈ d.fraction, c.isDigit = true) ∧ text = d.pointText ++ (fractionAt text).2 := by
  rw [Double.Decimal.fraction, Double.Decimal.pointText, h]
  fun_cases fractionAt text with
  | case1 more =>
    refine ⟨fun c hc => List.mem_takeWhile_imp hc, ?_⟩
    exact congrArg ('.' :: ·) List.takeWhile_append_dropWhile.symm
  | case2 => exact ⟨fun c hc => absurd hc List.not_mem_nil, rfl⟩

theorem isJsonMagnitude_eq_true {body : List Char} : isJsonMagnitude body = true ↔
    (body.takeWhile Char.isDigit ≠ [] ∧
      ((body.takeWhile Char.isDigit).head? = some '0' →
        (body.takeWhile Char.isDigit).length = 1)) ∧
      (fractionAt (body.dropWhile Char.isDigit)).1 ≠ some [] ∧
      isExponent (fractionAt (body.dropWhile Char.isDigit)).2 = true := by
  simp [isJsonMagnitude, and_assoc, imp_iff_not_or]

theorem exists_decimal {body : List Char} (h : isJsonMagnitude body = true) :
    ∃ d : Double.Decimal, d.Strict ∧ body = d.text := by
  obtain ⟨⟨nonempty, zero⟩, fraction, exponent⟩ := isJsonMagnitude_eq_true.1 h
  obtain ⟨x?, hx, behind⟩ := isExponent_iff.1 exponent
  let d : Double.Decimal :=
    ⟨body.takeWhile Char.isDigit, (fractionAt (body.dropWhile Char.isDigit)).1, x?⟩
  obtain ⟨digits, pointed⟩ := fractionAt_eq (d := d) rfl
  have whole : ∀ c ∈ d.whole, c.isDigit = true := fun c hc => List.mem_takeWhile_imp hc
  refine ⟨d, ⟨⟨whole, digits, .inl nonempty, hx⟩, nonempty, fun head => ?_, fraction⟩, ?_⟩
  · obtain ⟨c, single⟩ : ∃ c, d.whole = [c] := List.length_eq_one_iff.1 (zero head)
    rw [single] at head ⊢
    cases head
    rfl
  · calc body
      _ = d.whole ++ body.dropWhile Char.isDigit := List.takeWhile_append_dropWhile.symm
      _ = d.whole ++ (d.pointText ++ (fractionAt (body.dropWhile Char.isDigit)).2) := by
        rw [← pointed]
      _ = d.text := by
        rw [behind]
        rfl

theorem isJsonMagnitude_text {d : Double.Decimal} (strict : d.Strict) :
    isJsonMagnitude d.text = true := by
  have letter : ∀ c ∈ d.exponentText.head?, c.isDigit = false ∧ c ≠ '.' := by
    intro c hc
    rcases strict.spelled.exponent_head c hc with rfl | rfl <;> decide
  have exponent : isExponent d.exponentText = true :=
    isExponent_iff.2 ⟨d.exponent?, strict.spelled.exponent, rfl⟩
  have zero : d.whole.head? = some '0' → d.whole.length = 1 :=
    fun head => by rw [strict.zero head]; rfl
  have behind : ∀ c ∈ (d.pointText ++ d.exponentText).head?, c.isDigit = false := by
    intro c hc
    unfold Double.Decimal.pointText at hc
    split at hc
    · exact (letter c hc).1
    · cases hc
      decide
  obtain ⟨before, after⟩ := Double.span_digits _ strict.spelled.whole behind
  have parts : fractionAt (d.pointText ++ d.exponentText) = (d.fraction?, d.exponentText) := by
    have digits := strict.spelled.fraction
    unfold Double.Decimal.pointText
    unfold Double.Decimal.fraction at digits
    cases hf : d.fraction? with
    | none => exact fractionAt_of_ne fun c hc => (letter c hc).2
    | some fraction =>
      rw [hf] at digits
      exact fractionAt_append digits fun c hc => (letter c hc).1
  rw [isJsonMagnitude_eq_true, Double.Decimal.text, before, after, parts]
  exact ⟨⟨strict.nonempty, zero⟩, strict.fraction, exponent⟩

theorem isJsonMagnitude_iff {body : List Char} :
    isJsonMagnitude body = true ↔ ∃ d : Double.Decimal, d.Strict ∧ body = d.text := by
  refine ⟨exists_decimal, ?_⟩
  rintro ⟨d, strict, rfl⟩
  exact isJsonMagnitude_text strict

end ServiceModel.Yaml.Scalar

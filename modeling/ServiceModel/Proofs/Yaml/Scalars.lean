/-
Which plain scalars have no value. A text that looks like a truth value or a number is one, with
few exceptions: a base that is announced without digits behind it, an integer with too many digits,
a word with a line feed at its end, and a number with a point in base sixty that has more places
than any double precision number can count.
-/
import ServiceModel.Proofs.Yaml.Doubles

namespace ServiceModel.Yaml.Scalar

open ServiceModel.Text

/-! ## Misreading -/

/-- A text that looks like a number or a truth value and has no value: a number in base sixty with
more places than a double precision number can count, or a word with a line feed behind it. -/
def Misread (text : List Char) : Prop :=
  mostPlaces ≤ text.count ':' ∨
    (text.getLast? = some '\n' ∧ ∀ c ∈ text, c.isDigit = false)

theorem not_misread {text : List Char} (hd : ∃ c ∈ text, c.isDigit = true)
    (hc : text.count ':' < mostPlaces) : ¬ Misread text := by
  rintro (many | ⟨-, digitless⟩)
  · omega
  · obtain ⟨c, hm, digit⟩ := hd
    rw [digitless c hm] at digit
    cases digit

/-- A number ends in a value, or its text is misread. -/
inductive Settles {α : Type} (text : List Char) : Except Fault α → Prop
  | value {x : α} : ¬ Misread text → Settles text (.ok x)
  | fault {fault : Fault} : Misread text → fault ≠ .malformed → Settles text (.error fault)

theorem Run.digit {text : List Char} (h : Run text) (rest : List Char) :
    ∃ c ∈ text ++ rest, c.isDigit = true := by
  obtain ⟨⟨c, hc, digit⟩, -⟩ := h
  exact ⟨c, List.mem_append_left _ (List.mem_of_mem_head? hc), digit⟩

theorem colonless_of_lows {text : List Char} (h : ∀ c ∈ text, isDigitOrLow c = true) :
    ':' ∉ text :=
  fun hm => absurd (h ':' hm) (by decide)

theorem Sign.colonless {sign : List Char} (h : Sign sign) : ':' ∉ sign := by
  cases h <;> decide

theorem isSignedExponent_colonless {text : List Char} (h : isSignedExponent text = true) :
    ':' ∉ text := by
  intro hm
  unfold isSignedExponent at h
  split at h
  · cases hm
  · simp only [someAll, Bool.and_eq_true, Bool.or_eq_true, beq_iff_eq, List.all_eq_true] at h
    obtain ⟨⟨letter, sign⟩, -, digits⟩ := h
    simp only [List.mem_cons] at hm
    rcases hm with rfl | rfl | hm
    · revert letter; decide
    · revert sign; decide
    · exact absurd (digits ':' hm) (by decide)
  · cases h

theorem Places.lowered {pieces : List (List Char)} (hp : Places pieces) :
    lowered (pieces.flatMap (':' :: ·)) = pieces.flatMap (':' :: ·) := by
  rw [Scalar.lowered, bare_flatMap hp]
  refine (List.map_congr_left fun c hc => ?_).trans (List.map_id _)
  obtain ⟨piece, hm, hc⟩ := List.mem_flatMap.1 hc
  rcases List.mem_cons.1 hc with rfl | hc
  · rfl
  · exact Double.toLower_digit ((hp piece hm).digits c hc)

theorem Places.count_colons {pieces : List (List Char)} (hp : Places pieces) :
    (pieces.flatMap (':' :: ·)).count ':' = pieces.length := by
  have each : ∀ piece ∈ pieces, (':' :: piece).count ':' = 1 := by
    intro piece hm
    have none : ':' ∉ piece := fun hc => absurd ((hp piece hm).digits ':' hc) (by decide)
    rw [List.count_cons_self, List.count_eq_zero.2 none]
  rw [List.count_flatMap]
  exact (congrArg List.sum (List.map_congr_left each)).trans (by simp)

section

variable {mark : Nat} {sign ending : List Char} (hs : Sign sign) (he : Ending ending)

include hs he

theorem readDouble_pointed {body fraction exponent : List Char} (whole : List Char)
    (hw : ∀ c ∈ whole, isDigitOrLow c = true) (hf : ∀ c ∈ fraction, isDigitOrLow c = true)
    (hr : Run whole ∨ Run fraction) (hx : isSignedExponent exponent = true)
    (hb : body = whole ++ '.' :: (fraction ++ exponent)) :
    Settles (sign ++ body ++ ending) (readDouble mark (sign ++ body ++ ending)) := by
  obtain ⟨x?, spelled, lower⟩ := isSignedExponent_spelled hx
  have nonempty : bare whole ≠ [] ∨ bare fraction ≠ [] := hr.imp (·.bare.1) (·.bare.1)
  have decimal : (⟨bare whole, some (bare fraction), x?⟩ : Double.Decimal).Spelled :=
    ⟨digitOrLow_bare hw, digitOrLow_bare hf, nonempty, spelled⟩
  have text : lowered (sign ++ body ++ ending) = sign ++
      ((⟨bare whole, some (bare fraction), x?⟩ : Double.Decimal).text ++ ending) := by
    rw [hb, List.append_assoc, lowered_append, lowered_append, lowered_append, hs.lowered,
      he.lowered, lowered_digits hw]
    have behind : lowered ('.' :: (fraction ++ exponent)) =
        '.' :: (bare fraction ++ (x?.map Double.Exponent.text).getD []) := by
      rw [show '.' :: (fraction ++ exponent) = ['.'] ++ (fraction ++ exponent) from rfl,
        lowered_append, lowered_append, lowered_digits hf, lower]
      rfl
    rw [behind]
    rfl
  have digit : ∃ c ∈ sign ++ body ++ ending, c.isDigit = true := by
    have front : ∃ c ∈ body, c.isDigit = true := by
      rw [hb]
      rcases hr with hr | hr
      · exact hr.digit _
      · obtain ⟨c, hm, digit⟩ := hr.digit exponent
        exact ⟨c, List.mem_append_right _ (List.mem_cons_of_mem _ hm), digit⟩
    obtain ⟨c, hm, digit⟩ := front
    exact ⟨c, List.mem_append_left _ (List.mem_append_right _ hm), digit⟩
  have count : (sign ++ body ++ ending).count ':' = 0 := by
    rw [List.count_eq_zero, hb]
    simp [hs.colonless, he.colonless, colonless_of_lows hw, colonless_of_lows hf,
      isSignedExponent_colonless hx]
  rw [readDouble_decimal hs decimal he text]
  exact .value (not_misread digit (by rw [count]; decide))

/-- A number in base sixty settles as the count of its colons says. -/
theorem readDouble_sexagesimal {whole fraction : List Char} {pieces : List (List Char)}
    {body : List Char} (hw : Run whole) (hp : Places pieces)
    (hf : ∀ c ∈ fraction, isDigitOrLow c = true)
    (hb : body = whole ++ (pieces.flatMap (':' :: ·) ++ '.' :: fraction)) :
    Settles (sign ++ body ++ ending) (readDouble mark (sign ++ body ++ ending)) := by
  have text : lowered (sign ++ body ++ ending) = sign ++
      (bare whole ++ (pieces.flatMap (':' :: ·) ++ '.' :: (bare fraction ++ ending))) := by
    rw [hb, List.append_assoc, lowered_append, lowered_append, lowered_append, lowered_append,
      hs.lowered, he.lowered, lowered_digits hw.2, hp.lowered,
      show '.' :: fraction = ['.'] ++ fraction from rfl, lowered_append, lowered_digits hf]
    simp only [List.append_assoc]
    rfl
  have digit : ∃ c ∈ sign ++ body ++ ending, c.isDigit = true := by
    obtain ⟨c, hm, digit⟩ := hw.digit (pieces.flatMap (':' :: ·) ++ '.' :: fraction)
    rw [← hb] at hm
    exact ⟨c, List.mem_append_left _ (List.mem_append_right _ hm), digit⟩
  have count : (sign ++ body ++ ending).count ':' = pieces.length := by
    rw [hb]
    simp [List.count_append, hp.count_colons, List.count_eq_zero.2 hs.colonless,
      List.count_eq_zero.2 he.colonless, List.count_eq_zero.2 (colonless_of_lows hw.2),
      List.count_eq_zero.2 (colonless_of_lows hf)]
  obtain ⟨nonempty, digits⟩ := hw.bare
  obtain ⟨few, many⟩ := size_sexagesimal nonempty digits hp (digitOrLow_bare hf) he rfl
  obtain ⟨c, rest, first⟩ := List.exists_cons_of_ne_nil nonempty
  have head : c.isDigit = true := digits c (first ▸ List.mem_cons_self)
  rw [readDouble_signed hs (List.append_ne_nil_of_left_ne_nil nonempty _) ?_ text,
    signedDouble, if_neg ?_]
  · rcases Nat.lt_or_ge pieces.length mostPlaces with less | more
    · obtain ⟨x, hx⟩ := few less
      rw [hx]
      exact .value (not_misread digit (by omega))
    · rw [many more]
      exact .fault (.inl (by omega)) (by decide)
  · rw [first]
    intro same
    have point : c = '.' := congrArg (·.headD c) same
    exact absurd head (by rw [point]; decide)
  · rw [first]
    rintro d ⟨⟩
    exact ⟨Double.digit_ne head (by decide), Double.digit_ne head (by decide)⟩

theorem misread_word {word : List Char} (hd : ∀ c ∈ word, c.isDigit = false ∧ c ≠ ':' ∧ c ≠ '\n')
    (hw : word ≠ []) : Misread (sign ++ word ++ ending) ↔ ending = ['\n'] := by
  have colonless : ':' ∉ sign ++ word ++ ending := by
    simp only [List.mem_append, not_or]
    exact ⟨⟨hs.colonless, fun hm => (hd _ hm).2.1 rfl⟩, he.colonless⟩
  have digitless : ∀ c ∈ sign ++ word ++ ending, c.isDigit = false := by
    intro c hc
    rcases List.mem_append.1 hc with hc | hc
    · rcases List.mem_append.1 hc with hc | hc
      · cases hs <;> simp at hc <;> rw [hc] <;> decide
      · exact (hd c hc).1
    · cases he <;> simp at hc
      rw [hc]
      decide
  unfold Misread
  rw [List.count_eq_zero.2 colonless, and_iff_left digitless,
    or_iff_right (show ¬ mostPlaces ≤ 0 by decide)]
  cases he with
  | line => simp
  | none =>
    rw [List.append_nil, List.getLast?_append_of_ne_nil _ hw]
    exact ⟨fun h => absurd rfl (hd _ (List.mem_of_getLast? h)).2.2, nofun⟩

theorem readDouble_word {word : String}
    (hw : word ∈ [".inf", ".Inf", ".INF", ".nan", ".NaN", ".NAN"]) :
    Settles (sign ++ word.toList ++ ending) (readDouble mark (sign ++ word.toList ++ ending)) := by
  have shape : ∀ word ∈ [".inf", ".Inf", ".INF", ".nan", ".NaN", ".NAN"],
      (lowered word.toList = ".inf".toList ∨ lowered word.toList = ".nan".toList) ∧
        word.toList ≠ [] ∧ word.toList.all (fun c => c.isDigit = false ∧ c ≠ ':' ∧ c ≠ '\n') := by
    decide
  obtain ⟨lower, nonempty, plain⟩ := shape word hw
  have broken := misread_word hs he (List.all_iff_forall_prop.1 plain) nonempty
  have text : lowered (sign ++ word.toList ++ ending) = sign ++ (lowered word.toList ++ ending) := by
    rw [List.append_assoc, lowered_append, lowered_append, hs.lowered, he.lowered]
  generalize lowered word.toList = name at lower text
  rw [readDouble_signed hs (by rcases lower with rfl | rfl <;> simp)
    (by rcases lower with rfl | rfl <;> simp) text]
  cases he with
  | none =>
    have sound : ¬ Misread (sign ++ word.toList ++ []) :=
      fun misread => List.cons_ne_nil _ _ (broken.1 misread).symm
    rcases lower with rfl | rfl
    · exact .value sound
    · exact .value sound
  | line =>
    rcases lower with rfl | rfl
    · exact .fault (broken.2 rfl) (by decide)
    · exact .fault (broken.2 rfl) (by decide)

end

/-- A text that fits the forms of double precision numbers is a number or misread. -/
theorem readDouble_of_fits {mark : Nat} {text : List Char} (h : fits isDouble text = true) :
    Settles text (readDouble mark text) := by
  obtain ⟨body, ending, he, rfl, hb⟩ := fits_iff.1 h
  obtain ⟨sign, body, hs, rfl, form⟩ := isDouble_form hb
  cases form with
  | pointed hw hf hx => exact readDouble_pointed hs he _ hw.2 hf (.inl hw) hx rfl
  | leading hf hx => exact readDouble_pointed hs he [] nofun hf.2 (.inr hf) hx rfl
  | sexagesimal hw hp hf => exact readDouble_sexagesimal hs he hw hp hf rfl
  | infinite hw => exact readDouble_word hs he (by revert hw; simp +contextual; tauto)
  | nan hw => exact readDouble_word hs he (by revert hw; simp; tauto)

/-- A number in the notation of JSON has a value. -/
theorem readDouble_of_json {mark : Nat} {text : List Char} (h : fits isJsonNumber text = true) :
    Settles text (readDouble mark text) := by
  obtain ⟨whole, ending, he, rfl, hb⟩ := fits_iff.1 h
  obtain ⟨sign, body, hs, rfl, magnitude⟩ := isJsonNumber_split whole
  have hs : Sign sign := by
    rcases hs with rfl | rfl
    · exact .none
    · exact .minus
  obtain ⟨d, strict, rfl⟩ := isJsonMagnitude_iff.1 (magnitude ▸ hb)
  have text : lowered (sign ++ d.text ++ ending) = sign ++ ((small d).text ++ ending) := by
    rw [List.append_assoc, lowered_append, lowered_append, hs.lowered, he.lowered,
      lowered_decimal strict.spelled]
  have digit : ∃ c ∈ sign ++ d.text ++ ending, c.isDigit = true := by
    obtain ⟨c, hc⟩ := List.exists_mem_of_ne_nil _ strict.nonempty
    refine ⟨c, ?_, strict.spelled.whole c hc⟩
    exact List.mem_append_left _ (List.mem_append_right _ (List.mem_append_left _ hc))
  have colonless : ':' ∉ sign ++ d.text ++ ending := by
    have inner : ':' ∉ d.text ++ ending := decimal_lacks strict.spelled he (by decide)
    rw [List.append_assoc]
    simp only [List.mem_append, not_or] at inner ⊢
    exact ⟨hs.colonless, inner⟩
  rw [readDouble_decimal hs (small_spelled strict.spelled) he text]
  exact .value (not_misread digit (by rw [List.count_eq_zero.2 colonless]; decide))

/-- A truth value with nothing behind it is read; with a line feed behind it, it is misread. -/
theorem readBool_of_fits {text : List Char}
    (h : fits (fun t => boolWords.contains (String.ofList t)) text = true) :
    Settles text (readBool text) := by
  obtain ⟨body, ending, he, rfl, hb⟩ := fits_iff.1 h
  have words : ∀ word ∈ boolWords, word.toList ≠ [] ∧
      word.toList.all (fun c => c.isDigit = false ∧ c ≠ ':' ∧ c ≠ '\n') ∧
      (readBool word.toList).isOk = true ∧
        readBool (word.toList ++ ['\n']) = .error .boolean := by
    decide
  obtain ⟨nonempty, plain, read, line⟩ := words _ (List.contains_iff_mem.1 hb)
  rw [String.toList_ofList] at nonempty plain read line
  have broken := misread_word .none he (List.all_iff_forall_prop.1 plain) nonempty
  rw [List.nil_append] at broken
  cases he with
  | none =>
    rw [List.append_nil] at broken ⊢
    cases hr : readBool body with
    | ok x => exact .value fun misread => List.cons_ne_nil _ _ (broken.1 misread).symm
    | error e =>
      rw [hr] at read
      cases read
  | line =>
    rw [line]
    exact .fault (broken.2 rfl) (by decide)

/-! ## Misfits -/

theorem kindOf_bool {text : List Char} (h : kindOf text = .bool) :
    fits (fun t => boolWords.contains (String.ofList t)) text = true := by
  unfold kindOf at h
  dsimp only at h
  split_ifs at h with fit
  exact fit

theorem kindOf_double {text : List Char} (h : kindOf text = .double) :
    fits isDouble text = true ∨ fits isJsonNumber text = true := by
  unfold kindOf at h
  dsimp only at h
  split_ifs at h with _ double _ _ _ json
  · exact .inl double
  · exact .inr json

theorem kindOf_int {text : List Char} (h : kindOf text = .int) : fits isInteger text = true := by
  unfold kindOf at h
  dsimp only at h
  split_ifs at h with _ _ int
  exact int

/-- A plain scalar that looks like a value of some kind and has none. -/
inductive Deceptive (text : List Char) : Prop
  | misread : kindOf text = .bool ∨ kindOf text = .double → Misread text → Deceptive text
  | digitless : kindOf text = .int → Digitless text → Deceptive text
  | overlong : kindOf text = .int → Overlong text → Deceptive text

/-- The failure is that a text is not what it is said to be. -/
def Fails {α : Type} (read : Except Fault α) : Prop :=
  ∃ fault, read = .error fault ∧ fault ≠ .malformed

theorem Settles.fails_iff {α : Type} {text : List Char} {read : Except Fault α}
    (h : Settles text read) : Fails read ↔ Misread text := by
  cases h with
  | value sound => exact ⟨nofun, fun misread => absurd misread sound⟩
  | fault misread other => exact ⟨fun _ => misread, fun _ => ⟨_, rfl, other⟩⟩

/-- The plain scalars without value are the deceptive ones. -/
theorem ofText_fails_iff {mark : Nat} {text : List Char} :
    Fails (ofText mark text) ↔ Deceptive text := by
  have simple : Deceptive text → kindOf text = .bool ∨ kindOf text = .double ∨
      kindOf text = .int := by
    rintro (⟨kind | kind, -⟩ | ⟨kind, -⟩ | ⟨kind, -⟩)
    · exact .inl kind
    · exact .inr (.inl kind)
    · exact .inr (.inr kind)
    · exact .inr (.inr kind)
  have settled {read : Except Fault Primitive} (h : Settles text read)
      (kind : kindOf text = .bool ∨ kindOf text = .double) : Fails read ↔ Deceptive text := by
    rw [h.fails_iff]
    refine ⟨.misread kind, ?_⟩
    rintro (⟨-, misread⟩ | ⟨int, -⟩ | ⟨int, -⟩)
    · exact misread
    all_goals
      rw [int] at kind
      rcases kind with kind | kind <;> cases kind
  unfold ofText
  cases kind : kindOf text with
  | bool => exact settled (readBool_of_fits (kindOf_bool kind)) (.inl kind)
  | double =>
    rcases kindOf_double kind with fit | fit
    · exact settled (readDouble_of_fits fit) (.inr kind)
    · exact settled (readDouble_of_json fit) (.inr kind)
  | int =>
    constructor
    · rintro ⟨fault, failed, -⟩
      rcases readInteger_of_fits (kindOf_int kind) with ⟨i, read⟩ | digitless | overlong
      · rw [read] at failed
        cases failed
      · exact .digitless kind digitless
      · exact .overlong kind overlong
    · rintro (⟨other, -⟩ | ⟨-, digitless⟩ | ⟨-, overlong⟩)
      · rw [kind] at other
        rcases other with other | other <;> cases other
      · exact ⟨_, readInteger_digitless digitless, nofun⟩
      · exact ⟨_, readInteger_overlong overlong, nofun⟩
  | reserved => exact ⟨by rintro ⟨_, ⟨⟩, other⟩; exact absurd rfl other, fun h => by simpa [kind] using simple h⟩
  | null => exact ⟨nofun, fun h => by simpa [kind] using simple h⟩
  | text => exact ⟨nofun, fun h => by simpa [kind] using simple h⟩

/-- A scalar that is not what its tag, or its form if it has none, says. -/
inductive Misfit : ScalarTag → List Char → Prop
  | plain {text : List Char} : Deceptive text → Misfit .byText text
  | boolean {text : List Char} {fault : Fault} : readBool text = .error fault →
      Misfit (.named "tag:yaml.org,2002:bool") text
  | integer {text : List Char} {fault : Fault} : readInteger text = .error fault →
      Misfit (.named "tag:yaml.org,2002:int") text
  | double {text : List Char} {fault : Fault} : readDouble 0 text = .error fault →
      Misfit (.named "tag:yaml.org,2002:float") text
  | halvedNumber {tag : String} {text : List Char} : tag ∈ numberTags → Misfit (.halved tag) text
  | halvedBoolean {text : List Char} {fault : Fault} : readBool text = .error fault →
      Misfit (.halved "tag:yaml.org,2002:bool") text

theorem readBool_error {text : List Char} {fault : Fault} (h : readBool text = .error fault) :
    fault ≠ .malformed := by
  unfold readBool at h
  dsimp only at h
  split_ifs at h
  cases h
  exact nofun

theorem mapM_error {α β ε : Type} {f : α → Except ε β} {xs : List α} {e : ε}
    (h : xs.mapM f = .error e) : ∃ x ∈ xs, f x = .error e := by
  induction xs with
  | nil => cases h
  | cons x xs ih =>
    rw [List.mapM_cons] at h
    cases hx : f x with
    | error e' =>
      rw [hx] at h
      cases h
      exact ⟨x, List.mem_cons_self, hx⟩
    | ok y =>
      rw [hx] at h
      cases hxs : xs.mapM f with
      | ok ys =>
        rw [hxs] at h
        cases h
      | error e' =>
        rw [hxs] at h
        cases h
        obtain ⟨z, hz, hf⟩ := ih hxs
        exact ⟨z, List.mem_cons_of_mem _ hz, hf⟩

theorem expected_error {value? : Option Int} {fault : Fault}
    (h : expected value? = .error fault) : fault ≠ .malformed := by
  cases value? <;> cases h
  decide

theorem readMagnitude_error {text : List Char} {fault : Fault}
    (h : readMagnitude text = .error fault) : fault ≠ .malformed := by
  by_cases hn : text = []
  · subst hn
    cases h
    decide
  · by_cases hz : text.head? = some '0'
    · unfold readMagnitude at h
      split at h
      · cases h
        decide
      · cases h
      · exact expected_error h
      · exact expected_error h
      · exact expected_error h
      · rename_i other
        obtain ⟨c, rest, rfl⟩ := List.exists_cons_of_ne_nil hn
        cases hz
        exact absurd rfl (other rest)
    · rw [readMagnitude_of_head hn hz] at h
      split at h
      · cases hp : (cut ':' text).mapM place with
        | ok places =>
          rw [hp] at h
          cases h
        | error e =>
          rw [hp] at h
          cases h
          obtain ⟨piece, -, failed⟩ := mapM_error hp
          exact expected_error failed
      · exact expected_error h

theorem bind_error {α β : Type} {read : Except Fault α} {next : α → Except Fault β}
    {fault : Fault} (h : read >>= next = .error fault)
    (hr : ∀ fault, read = .error fault → fault ≠ .malformed)
    (hn : ∀ x fault, next x = .error fault → fault ≠ .malformed) : fault ≠ .malformed := by
  cases hx : read with
  | ok x =>
    rw [hx] at h
    exact hn x fault h
  | error e =>
    rw [hx] at h
    cases h
    exact hr _ hx

theorem readInteger_error {text : List Char} {fault : Fault}
    (h : readInteger text = .error fault) : fault ≠ .malformed := by
  unfold readInteger at h
  split at h
  · cases h
    decide
  all_goals exact bind_error h (fun _ => readMagnitude_error) nofun

theorem sumPlaces_error {places : List Double} : ∀ {sum : Double} {unit : Nat} {fault : Fault},
    sumPlaces sum unit places = .error fault → fault ≠ .malformed := by
  induction places with
  | nil => exact nofun
  | cons place rest ih =>
    intro sum unit fault h
    rw [sumPlaces] at h
    split at h
    · exact ih h
    · cases h
      decide

theorem readDouble_error {mark : Nat} {text : List Char} {fault : Fault}
    (h : readDouble mark text = .error fault) : fault ≠ .malformed := by
  have placed {digits : List Char} : ∀ fault, size.placeOf digits = .error fault →
      fault ≠ .malformed := by
    intro fault h
    unfold size.placeOf at h
    split at h <;> cases h
    decide
  have sized {body : List Char} : ∀ fault, size body = .error fault → fault ≠ .malformed := by
    intro fault h
    unfold size at h
    split_ifs at h
    · refine bind_error h (fun fault failed => ?_) fun _ _ => sumPlaces_error
      obtain ⟨piece, -, failed⟩ := mapM_error failed
      exact placed _ failed
    · exact placed _ h
  rcases readDouble_cases text with empty | ⟨negative, body, signed⟩
  · rw [empty] at h
    cases h
    decide
  · rw [signed, signedDouble] at h
    split at h
    · cases h
    · cases hx : size body with
      | ok x =>
        rw [hx] at h
        cases h
      | error e =>
        rw [hx] at h
        cases h
        exact sized _ hx

theorem readDouble_error_mark {mark other : Nat} {text : List Char} {fault : Fault}
    (h : readDouble mark text = .error fault) : readDouble other text = .error fault := by
  rcases readDouble_cases text with empty | ⟨negative, body, signed⟩
  · rw [empty] at h ⊢
    exact h
  · rw [signed, signedDouble] at h ⊢
    split
    · rename_i named
      rw [if_pos named] at h
      cases h
    · rename_i named
      rw [if_neg named] at h
      cases hx : size body with
      | ok x =>
        rw [hx] at h
        cases h
      | error e =>
        rw [hx] at h
        exact h

/-- A tag with the lead of the standard ones is known by the name behind the lead. -/
theorem ofTag_standard (mark : Nat) (name : String) (text : List Char) :
    ofTag mark ("tag:yaml.org,2002:" ++ name) text =
      if textTags.contains name then .ok (.text (String.ofList text))
      else if name = "null" then .ok .null
      else if name = "bool" then readBool text
      else if name = "int" then readInteger text
      else if name = "float" then readDouble mark text
      else if name = "binary" then
        if text.all (·.toNat < 128) && isCompleteBase64 0 0 text then
          .ok (.text (String.ofList text))
        else .error .malformed
      else .error .malformed := by
  rw [ofTag, String.toList_append, after?_append]
  simp only [String.ofList_toList]

theorem ofTag_bool (mark : Nat) (text : List Char) :
    ofTag mark "tag:yaml.org,2002:bool" text = readBool text := by
  have standard := ofTag_standard mark "bool" text
  rwa [if_neg (by decide), if_neg (by decide), if_pos rfl] at standard

theorem ofTag_int (mark : Nat) (text : List Char) :
    ofTag mark "tag:yaml.org,2002:int" text = readInteger text := by
  have standard := ofTag_standard mark "int" text
  rwa [if_neg (by decide), if_neg (by decide), if_neg (by decide), if_pos rfl] at standard

theorem ofTag_float (mark : Nat) (text : List Char) :
    ofTag mark "tag:yaml.org,2002:float" text = readDouble mark text := by
  have standard := ofTag_standard mark "float" text
  rwa [if_neg (by decide), if_neg (by decide), if_neg (by decide), if_neg (by decide),
    if_pos rfl] at standard

/-- The scalars with a tag that have no value are the misfits among them. -/
theorem ofTag_fails_iff (mark : Nat) {tag : String} {text : List Char} :
    Fails (ofTag mark tag text) ↔ Misfit (.named tag) text := by
  constructor
  · rintro ⟨fault, failed, other⟩
    cases lead : after? "tag:yaml.org,2002:".toList tag.toList with
    | none =>
      rw [ofTag, lead] at failed
      cases failed
      exact absurd rfl other
    | some rest =>
      have spelled : tag = "tag:yaml.org,2002:" ++ String.ofList rest := by
        rw [← String.toList_inj, after?_eq_some lead, String.toList_append,
          String.toList_ofList (l := rest)]
      rw [spelled, ofTag_standard] at failed
      rw [spelled]
      split_ifs at failed with _ _ boolean integer double
      · rw [boolean]
        exact .boolean failed
      · rw [integer]
        exact .integer failed
      · rw [double]
        exact .double (readDouble_error_mark failed)
      all_goals
        cases failed
        exact absurd rfl other
  · intro misfit
    cases misfit with
    | boolean failed => exact ⟨_, (ofTag_bool mark _).trans failed, readBool_error failed⟩
    | integer failed => exact ⟨_, (ofTag_int mark _).trans failed, readInteger_error failed⟩
    | double failed =>
      exact ⟨_, (ofTag_float mark _).trans (readDouble_error_mark failed), readDouble_error failed⟩

/-- The scalars without value are the misfits. -/
theorem value_fails_iff (mark : Nat) {tag : ScalarTag} {text : String} :
    Fails (value mark tag text) ↔ Misfit tag text.toList := by
  cases tag with
  | byText => exact ofText_fails_iff.trans ⟨.plain, fun h => by cases h; assumption⟩
  | text => exact ⟨nofun, nofun⟩
  | named tag => exact ofTag_fails_iff mark
  | halved tag =>
    rw [value]
    by_cases number : tag ∈ numberTags
    · rw [if_pos (List.contains_iff_mem.2 number)]
      exact ⟨fun _ => .halvedNumber number, fun _ => ⟨.number, rfl, nofun⟩⟩
    · rw [if_neg (mt List.contains_iff_mem.1 number), ofTag_fails_iff]
      constructor
      · intro misfit
        cases misfit with
        | boolean failed => exact .halvedBoolean failed
        | integer => exact absurd List.mem_cons_self number
        | double => exact absurd (List.mem_cons_of_mem _ List.mem_cons_self) number
      · intro misfit
        cases misfit with
        | halvedNumber known => exact absurd known number
        | halvedBoolean failed => exact .boolean failed

end ServiceModel.Yaml.Scalar

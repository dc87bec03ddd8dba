/-
Scalars as JSON writes them: a string between double quotes is read piece by piece, and a number or
a word ends where JSON lets it end.
-/
import ServiceModel.Proofs.Json.Notation
import ServiceModel.Proofs.Text.Numeral
import ServiceModel.Proofs.Yaml.Faults
import ServiceModel.Yaml.Plain

namespace ServiceModel

namespace Yaml

open Notation (Piece shorts charsOf textOf)
open Text (Numeral.valueOf Numeral.isFigure Numeral.digitIn?)

/-! ## Strings -/

/-- The gap is no line end. -/
def Gap.InLine : Gap → Prop
  | .none | .blanks _ => True
  | _ => False

theorem close_blank {gap : Gap} (h : gap.InLine) (c : Char) (done : List Nat) :
    (gap.blank c).InLine ∧ close (gap.blank c) done = c.toNat :: close gap done := by
  cases gap with
  | none => exact ⟨trivial, rfl⟩
  | blanks reversed => exact ⟨trivial, rfl⟩
  | breaks => exact h.elim
  | escaped => exact h.elim

theorem mapM_figures {figures : List Char} (h : ∀ c ∈ figures, Numeral.isFigure 16 c = true) :
    ∃ values, figures.mapM (Numeral.digitIn? 16) = some values ∧
      ∀ sofar : Nat, values.foldl (fun n d => n * 16 + d) sofar =
        figures.foldl (fun n c => n * 16 + (Numeral.digitIn? 16 c).getD 0) sofar := by
  induction figures with
  | nil => exact ⟨[], rfl, fun _ => rfl⟩
  | cons c rest ih =>
    obtain ⟨d, hd⟩ := Option.isSome_iff_exists.1 (h c List.mem_cons_self)
    obtain ⟨values, hv, sum⟩ := ih fun e he => h e (List.mem_cons_of_mem _ he)
    refine ⟨d :: values, by rw [List.mapM_cons, hd, hv]; rfl, fun sofar => ?_⟩
    rw [List.foldl_cons, List.foldl_cons, hd]
    exact sum _

theorem codeOf_figures {figures : List Char} (hl : figures.length = 4)
    (h : ∀ c ∈ figures, Numeral.isFigure 16 c = true) :
    codeOf figures = .ok (Numeral.valueOf 16 figures) := by
  obtain ⟨values, hv, sum⟩ := mapM_figures h
  obtain ⟨length, below⟩ := mapM_digitIn?_lt hv
  have small := foldl_digits_lt below (show 0 < 1 by decide)
  rw [length, hl] at small
  have code : values.foldl (fun n d => n * 16 + d) 0 = Numeral.valueOf 16 figures := sum 0
  rw [codeOf, hv]
  dsimp only
  rw [if_pos (by omega), code]

/-- The letters behind backslashes are those that the markup language has. -/
theorem escape?_short {letter : Char} (h : letter ∈ shorts.map (·.1)) :
    escape? letter = some ((shorts.lookup letter).getD 0) ∧ letter ≠ 'x' ∧ letter ≠ 'u' ∧
      letter ≠ 'U' ∧ letter ≠ '\r' := by
  have all : ∀ letter ∈ shorts.map (·.1), escape? letter = some ((shorts.lookup letter).getD 0) ∧
      letter ≠ 'x' ∧ letter ≠ 'u' ∧ letter ≠ 'U' ∧ letter ≠ '\r' :=
    List.all_iff_forall_prop.1 (by decide)
  exact all letter h

section

variable {done : List Nat} {gap : Gap} {count : Nat} {rest : List Char}

theorem doubleQuoted_quote :
    doubleQuoted done gap count ('"' :: rest) = .ok ((close gap done).reverse, count + 1) := by
  rw [doubleQuoted]
  · rw [if_pos rfl]
  all_goals simp

theorem doubleQuoted_raw (done : List Nat) (gap : Gap) (count : Nat) (rest : List Char) {c : Char}
    (hq : c ≠ '"') (hb : c ≠ '\\') (hl : isBreak c = false) :
    doubleQuoted done gap count (c :: rest) =
      if isBlank c then doubleQuoted done (gap.blank c) (count + 1) rest
      else doubleQuoted (c.toNat :: close gap done) .none (count + 1) rest := by
  have feed : c ≠ '\r' := by
    rintro rfl
    exact absurd hl (by decide)
  rw [doubleQuoted]
  · rw [if_neg hq, if_neg hb, hl]
    simp
  all_goals simp [hb, feed]

theorem doubleQuoted_short {letter : Char} (h : letter ∈ shorts.map (·.1)) :
    doubleQuoted done gap count ('\\' :: letter :: rest) =
      doubleQuoted ((shorts.lookup letter).getD 0 :: close gap done) .none (count + 2) rest := by
  obtain ⟨code, x, u, wide, feed⟩ := escape?_short h
  rw [doubleQuoted]
  · rw [code]
  all_goals simp [x, u, wide, feed]

theorem doubleQuoted_code {digits : List Char} (hl : digits.length = 4)
    (h : ∀ c ∈ digits, Numeral.isFigure 16 c = true) :
    doubleQuoted done gap count ('\\' :: 'u' :: (digits ++ rest)) =
      doubleQuoted (Numeral.valueOf 16 digits :: close gap done) .none (count + 6) rest := by
  obtain ⟨a, b, c, d, rfl⟩ : ∃ a b c d, digits = [a, b, c, d] := by
    match digits, hl with
    | [a, b, c, d], _ => exact ⟨a, b, c, d, rfl⟩
  rw [show [a, b, c, d] ++ rest = a :: b :: c :: d :: rest from rfl, doubleQuoted,
    codeOf_figures hl h]

end

/-- A string is read piece by piece. -/
theorem doubleQuoted_pieces {pieces : List Piece} (hs : ∀ piece ∈ pieces, piece.Spelled)
    (ha : ∀ piece ∈ pieces, piece.Admitted) : ∀ (gap : Gap) {done : List Nat} {count : Nat}
      {rest : List Char}, gap.InLine →
        doubleQuoted done gap count (pieces.flatMap Piece.text ++ '"' :: rest) =
          .ok ((close gap done).reverse ++ pieces.map Piece.unit,
            count + (pieces.flatMap Piece.text).length + 1) := by
  induction pieces with
  | nil =>
    intro gap done count rest _
    rw [List.flatMap_nil, List.nil_append, doubleQuoted_quote, List.map_nil, List.append_nil]
    rfl
  | cons piece pieces ih =>
    have ih := @ih (fun p hp => hs p (List.mem_cons_of_mem _ hp))
      fun p hp => ha p (List.mem_cons_of_mem _ hp)
    have spelled := hs piece List.mem_cons_self
    have admitted := ha piece List.mem_cons_self
    intro gap done count rest hg
    have goal (gap' : Gap) {done' : List Nat} (hg' : gap'.InLine)
        (closed : close gap' done' = piece.unit :: close gap done)
        (step : doubleQuoted done gap count
            (piece.text ++ (pieces.flatMap Piece.text ++ '"' :: rest)) =
          doubleQuoted done' gap' (count + piece.text.length)
            (pieces.flatMap Piece.text ++ '"' :: rest)) :
        doubleQuoted done gap count ((piece :: pieces).flatMap Piece.text ++ '"' :: rest) =
          .ok ((close gap done).reverse ++ (piece :: pieces).map Piece.unit,
            count + ((piece :: pieces).flatMap Piece.text).length + 1) := by
      rw [List.flatMap_cons, List.append_assoc, step, ih gap' hg', closed, List.length_append,
        Nat.add_assoc count, List.reverse_cons, List.append_assoc]
      rfl
    cases piece with
    | raw c =>
      have read := doubleQuoted_raw done gap count (pieces.flatMap Piece.text ++ '"' :: rest)
        spelled.2.1 spelled.2.2 admitted.2
      cases blank : isBlank c with
      | true =>
        obtain ⟨inLine, closed⟩ := close_blank hg c done
        rw [blank, if_pos rfl] at read
        exact goal _ inLine closed read
      | false =>
        rw [blank, if_neg Bool.false_ne_true] at read
        exact goal .none trivial rfl read
    | short letter => exact goal .none trivial rfl (doubleQuoted_short spelled)
    | code digits =>
      refine goal .none trivial rfl ?_
      rw [Piece.text, List.cons_append, List.cons_append, List.length_cons, List.length_cons,
        spelled.1]
      exact doubleQuoted_code spelled.1 spelled.2

/-- The text between quotes is the text that the string denotes. -/
theorem doubleQuoted_quoted {pieces : List Piece} (hs : ∀ piece ∈ pieces, piece.Spelled)
    (ha : ∀ piece ∈ pieces, piece.Admitted) {rest : List Char} :
    doubleQuoted [] .none 0 (pieces.flatMap Piece.text ++ '"' :: rest) =
      .ok (pieces.map Piece.unit, (pieces.flatMap Piece.text).length + 1) := by
  rw [doubleQuoted_pieces hs ha .none trivial, Nat.zero_add]
  rfl

/-! ## Halves of characters -/

theorem isHalf_eq_false {code : Nat} : isHalf code = false ↔ code < 0xd800 ∨ 0xdfff < code := by
  simp only [isHalf, Bool.and_eq_false_iff, decide_eq_false_iff_not]
  omega

/-- A piece of a string that is admitted stands for a character of its own. -/
theorem isHalf_unit {piece : Piece} (hs : piece.Spelled) (ha : piece.Admitted) :
    isHalf piece.unit = false := by
  cases piece with
  | raw c => exact isHalf_eq_false.2 (c.valid.imp_right And.left)
  | short letter =>
    have all : ∀ letter ∈ shorts.map (·.1), isHalf ((shorts.lookup letter).getD 0) = false :=
      List.all_iff_forall_prop.1 (by decide)
    exact all letter hs
  | code digits =>
    refine isHalf_eq_false.2 ?_
    have apart : ¬ (0xd800 ≤ Numeral.valueOf 16 digits ∧ Numeral.valueOf 16 digits ≤ 0xdfff) := ha
    show Numeral.valueOf 16 digits < 0xd800 ∨ 0xdfff < Numeral.valueOf 16 digits
    omega

theorem charsOfCodes_whole : ∀ {codes : List Nat}, (∀ code ∈ codes, isHalf code = false) →
    charsOfCodes codes = codes.map Char.ofNat
  | [], _ => rfl
  | [code], h => by
    rw [charsOfCodes, charsOfCodes.charOfCode, h code List.mem_cons_self,
      if_neg Bool.false_ne_true, List.map_singleton]
  | first :: second :: rest, h => by
    have own := h first List.mem_cons_self
    have whole := isHalf_eq_false.1 own
    rw [charsOfCodes, if_neg (by simp; omega), charsOfCodes.charOfCode, own,
      if_neg Bool.false_ne_true, charsOfCodes_whole fun code hc => h code (List.mem_cons_of_mem _ hc)]
    rfl

theorem charsOf_whole : ∀ {codes : List Nat}, (∀ code ∈ codes, isHalf code = false) →
    charsOf codes = codes.map Char.ofNat
  | [], _ => rfl
  | [_], _ => rfl
  | first :: second :: rest, h => by
    have whole := isHalf_eq_false.1 (h first List.mem_cons_self)
    rw [charsOf, if_neg (by omega), charsOf_whole fun code hc => h code (List.mem_cons_of_mem _ hc)]
    rfl

/-- A string without halves of characters is read as the text that it denotes. -/
theorem betweenQuotes_quoted {pieces : List Piece} (hs : ∀ piece ∈ pieces, piece.Spelled)
    (ha : ∀ piece ∈ pieces, piece.Admitted) {rest : List Char} :
    Lexer.betweenQuotes true (pieces.flatMap Piece.text ++ '"' :: rest) =
      .ok ((charsOf (pieces.map Piece.unit), .marked), (pieces.flatMap Piece.text).length + 1) := by
  have whole : ∀ code ∈ pieces.map Piece.unit, isHalf code = false := by
    intro code hc
    obtain ⟨piece, hp, rfl⟩ := List.mem_map.1 hc
    exact isHalf_unit (hs piece hp) (ha piece hp)
  -- without halves the joining of neighbours does nothing, on the side of JSON as well
  have none : (pieces.map Piece.unit).any isHalf = false :=
    List.any_eq_false.2 fun code hc => Bool.eq_false_iff.1 (whole code hc)
  rw [Lexer.betweenQuotes, if_pos rfl, doubleQuoted_quoted hs ha, charsOf_whole whole,
    ← charsOfCodes_whole whole]
  show Except.ok ((_, if _ then _ else _), _) = _
  rw [none, if_neg Bool.false_ne_true]

/-! ## Plain scalars -/

/-- A character of numbers and words. -/
def isWordChar (c : Char) : Bool := c.isAlphanum || c == '.' || c == '-' || c == '+'

/-- White space without tabs. -/
def isGap (c : Char) : Bool := c == ' ' || c == '\n' || c == '\r'

/-- The text ends behind white space, or, inside a flow collection, the item does. -/
def EndsItem (flow : Bool) (text : List Char) : Prop :=
  text.dropWhile isGap = [] ∨
    (flow = true ∧ ∃ c rest, text.dropWhile isGap = c :: rest ∧ (c = ',' ∨ c = ']' ∨ c = '}'))

theorem wordChar_ne {c d : Char} (hc : isWordChar c = true) (hd : isWordChar d = false) : c ≠ d := by
  rintro rfl
  rw [hc] at hd
  cases hd

theorem wordChar_range {c : Char} (h : isWordChar c = true) : 0x2b ≤ c.toNat ∧ c.toNat ≤ 0x7a := by
  have between (low high : Char) (h : low.val ≤ c.val ∧ c.val ≤ high.val)
      (hl : 0x2b ≤ low.toNat) (hh : high.toNat ≤ 0x7a) : 0x2b ≤ c.toNat ∧ c.toNat ≤ 0x7a :=
    ⟨Nat.le_trans hl (UInt32.le_iff_toNat_le.1 h.1),
      Nat.le_trans (UInt32.le_iff_toNat_le.1 h.2) hh⟩
  have both {p q : Prop} [Decidable p] [Decidable q] (h : (decide p && decide q) = true) : p ∧ q := by
    rwa [← Bool.decide_and, decide_eq_true_eq] at h
  simp only [isWordChar, Bool.or_eq_true, beq_iff_eq] at h
  rcases h with ((word | rfl) | rfl) | rfl
  · rcases (Bool.or_eq_true _ _).mp word with letter | digit
    · rcases (Bool.or_eq_true _ _).mp letter with upper | lower
      · exact between 'A' 'Z' (of_decide_eq_true upper) (by decide) (by decide)
      · exact between 'a' 'z' (both lower) (by decide) (by decide)
    · exact between '0' '9' (both digit) (by decide) (by decide)
  all_goals decide

/-- The characters that end a line are layout controls or beyond the usual ones. -/
theorem isBreak_code {c : Char} (h : isBreak c = true) :
    c.toNat = 10 ∨ c.toNat = 13 ∨ 0x80 ≤ c.toNat := by
  simp only [isBreak, isKeptBreak, Bool.or_eq_true, beq_iff_eq] at h
  rcases h with ((rfl | rfl) | next) | line | paragraph
  · exact .inl rfl
  · exact .inr (.inl rfl)
  all_goals omega

theorem isBreak_wordChar {c : Char} (h : isWordChar c = true) : isBreak c = false := by
  have range := wordChar_range h
  refine Bool.eq_false_iff.2 fun line => ?_
  have code := isBreak_code line
  omega

theorem endsPlain_wordChar {flow : Bool} {c : Char} {rest : List Char} (h : isWordChar c = true) :
    endsPlain flow c rest = false := by
  have marks : ∀ d ∈ ['\t', ':', ',', '?', '[', ']', '{', '}'], isWordChar d = false :=
    List.all_iff_forall_prop.1 (by decide)
  have other : ∀ d ∈ ['\t', ':', ',', '?', '[', ']', '{', '}'], c ≠ d := fun d hd =>
    wordChar_ne h (marks d hd)
  simp only [List.forall_mem_cons] at other
  simp [endsPlain, other]

theorem plainFrom_word {flow : Bool} {indent : Nat} {word : List Char}
    (hw : ∀ c ∈ word, isWordChar c = true) : ∀ {done : List Char} {count : Nat} {rest : List Char},
      plainFrom flow indent done .empty count (word ++ rest) =
        plainFrom flow indent (word.reverse ++ done) .empty (count + word.length) rest := by
  induction word with
  | nil => exact rfl
  | cons c word ih =>
    intro done count rest
    have char := hw c List.mem_cons_self
    have step : plainFrom flow indent done .empty count (c :: (word ++ rest)) =
        plainFrom flow indent (c :: done) .empty (count + 1) (word ++ rest) := by
      rw [plainFrom]
      · rw [if_neg (wordChar_ne char (by decide)), isBreak_wordChar char,
          if_neg Bool.false_ne_true, endsPlain_wordChar char, if_neg Bool.false_ne_true]
        rfl
      · exact fun _ carriage => absurd carriage (wordChar_ne char (by decide))
    rw [List.cons_append, step, ih fun d hd => hw d (List.mem_cons_of_mem _ hd), List.reverse_cons,
      List.append_assoc, List.length_cons, Nat.add_assoc, Nat.add_comm 1]
    rfl

theorem EndsItem.tail {flow : Bool} {c : Char} {rest : List Char}
    (h : EndsItem flow (c :: rest)) (hc : c ≠ ',' ∧ c ≠ ']' ∧ c ≠ '}') : EndsItem flow rest := by
  unfold EndsItem at h
  cases gap : isGap c with
  | true =>
    rw [List.dropWhile_cons_of_pos gap] at h
    exact h
  | false =>
    rw [List.dropWhile_cons_of_neg (Bool.eq_false_iff.1 gap)] at h
    obtain ⟨-, d, more, same, closing⟩ := h.resolve_left (List.cons_ne_nil _ _)
    cases same
    rcases closing with rfl | rfl | rfl
    · exact absurd rfl hc.1
    · exact absurd rfl hc.2.1
    · exact absurd rfl hc.2.2

/-- A plain scalar ends where an item ends. -/
theorem plainFrom_ends {flow : Bool} {indent : Nat} {done : List Char} {gap : PlainGap}
    {count : Nat} {rest : List Char} (h : EndsItem flow rest) :
    plainFrom flow indent done gap count rest = (done.reverse, count) := by
  fun_induction plainFrom flow indent done gap count rest
  case case3 ih => exact ih ((h.tail (by decide)).tail (by decide))
  case case4 ih => exact ih (h.tail (by decide))
  case case6 c _ _ line _ ih =>
    refine ih (h.tail ?_)
    refine ⟨?_, ?_, ?_⟩ <;> rintro rfl <;> exact absurd line (by decide)
  case case9 c rest _ space line goes _ _ =>
    -- what ends an item ends a plain scalar
    exfalso
    have gap : ¬ isGap c = true := by
      intro hg
      simp only [isGap, Bool.or_eq_true, beq_iff_eq] at hg
      rcases hg with (rfl | rfl) | rfl
      · exact space rfl
      · exact line (by decide)
      · exact line (by decide)
    unfold EndsItem at h
    rw [List.dropWhile_cons_of_neg gap] at h
    obtain ⟨inFlow, d, more, same, closing⟩ := h.resolve_left (List.cons_ne_nil _ _)
    cases same
    refine goes ?_
    rw [inFlow]
    rcases closing with rfl | rfl | rfl <;> simp [endsPlain]
  all_goals rfl

/-- A word ends where an item ends. -/
theorem plain_word {flow : Bool} {indent : Nat} {word rest : List Char}
    (hw : ∀ c ∈ word, isWordChar c = true) (hr : EndsItem flow rest) :
    plain flow indent (word ++ rest) = (word, word.length) := by
  rw [plain, plainFrom_word hw, plainFrom_ends hr, List.append_nil, List.reverse_reverse,
    Nat.zero_add]

end Yaml

end ServiceModel

/-
Where the faults of a text come from. The lexer calls a text malformed wherever it breaks a rule,
and reports two things besides: an escape in a quoted scalar whose eight digits name a code point
beyond the last character, and a version with a number of too many digits. It never sees more than
the text, so both stand in the text.
-/
import ServiceModel.Yaml.Lexer
import ServiceModel.Proofs.Text.Numeral
import Mathlib.Algebra.Group.Nat.Defs

namespace ServiceModel.Yaml

/-! ## Escapes and versions -/

/-- The text holds an escape of eight digits, which fails as the fault says. -/
def HoldsEscape (fault : Fault) (text : List Char) : Prop :=
  ∃ lead digits rest, text = lead ++ '\\' :: 'U' :: (digits ++ rest) ∧ digits.length = 8 ∧
    codeOf digits = .error fault

/-- The text starts with a number of a version that has too many digits: the first one, or the one
behind it and a point. -/
def LongVersion (text : List Char) : Prop :=
  ∃ front digits rest, text = front ++ (digits ++ rest) ∧
    (front = [] ∨ ∃ major, front = major ++ ['.'] ∧ ∀ c ∈ major, c.isDigit = true) ∧
    (∀ c ∈ digits, c.isDigit = true) ∧ Text.Numeral.mostDigits < digits.length

/-- The text holds a directive that declares a version with a number of too many digits. -/
def HoldsVersion (text : List Char) : Prop :=
  ∃ lead spaces rest, text = lead ++ ("%YAML".toList ++ (spaces ++ rest)) ∧
    (∀ c ∈ spaces, c = ' ') ∧ LongVersion rest

/-- The fault is that of an escape or of a version in the text. -/
inductive Stated (text : List Char) : Fault → Prop
  | escape {fault : Fault} : HoldsEscape fault text → Stated text fault
  | version : HoldsVersion text → Stated text .number

/-- The fault is the one of malformed texts, or stated in the text. -/
def Ascribed (text : List Char) (fault : Fault) : Prop :=
  fault = .malformed ∨ Stated text fault

theorem Stated.of_suffix {fault : Fault} {part text : List Char} (h : Stated part fault)
    (hs : part <:+ text) : Stated text fault := by
  obtain ⟨front, rfl⟩ := hs
  cases h with
  | escape held =>
    obtain ⟨lead, digits, rest, rfl, length, code⟩ := held
    exact .escape ⟨front ++ lead, digits, rest, by rw [List.append_assoc], length, code⟩
  | version held =>
    obtain ⟨lead, spaces, rest, rfl, blank, long⟩ := held
    exact .version ⟨front ++ lead, spaces, rest, by rw [List.append_assoc], blank, long⟩

theorem Ascribed.of_suffix {fault : Fault} {part text : List Char} (h : Ascribed part fault)
    (hs : part <:+ text) : Ascribed text fault :=
  h.imp_right fun he => he.of_suffix hs

theorem digitIn?_lt {base d : Nat} {c : Char} (h : Text.Numeral.digitIn? base c = some d) :
    d < base := by
  have kept := (Option.filter_eq_some_iff.1 h).2
  exact of_decide_eq_true kept

theorem mapM_digitIn?_lt {base : Nat} {digits : List Char} :
    ∀ {values : List Nat}, digits.mapM (Text.Numeral.digitIn? base) = some values →
      values.length = digits.length ∧ ∀ d ∈ values, d < base := by
  induction digits with
  | nil =>
    intro values h
    cases h
    exact ⟨rfl, nofun⟩
  | cons c digits ih =>
    intro values h
    rw [List.mapM_cons] at h
    obtain ⟨d, hd, h⟩ := Option.bind_eq_some_iff.1 h
    obtain ⟨rest, hr, h⟩ := Option.bind_eq_some_iff.1 h
    cases h
    obtain ⟨length, below⟩ := ih hr
    refine ⟨by rw [List.length_cons, List.length_cons, length], fun e he => ?_⟩
    rcases List.mem_cons.1 he with rfl | he
    · exact digitIn?_lt hd
    · exact below e he

theorem foldl_digits_lt {values : List Nat} (h : ∀ d ∈ values, d < 16) :
    ∀ {sofar bound : Nat}, sofar < bound →
      values.foldl (fun n d => n * 16 + d) sofar < bound * 16 ^ values.length := by
  induction values with
  | nil =>
    intro sofar bound hb
    rwa [List.length_nil, Nat.pow_zero, Nat.mul_one]
  | cons d values ih =>
    intro sofar bound hb
    have hd := h d List.mem_cons_self
    have step : sofar * 16 + d < bound * 16 := by omega
    have rest := ih (fun e he => h e (List.mem_cons_of_mem _ he)) step
    rwa [List.length_cons, Nat.pow_succ', ← Nat.mul_assoc]

/-- Up to five digits name no code point beyond the last character. -/
theorem codeOf_error_of_short {digits : List Char} {fault : Fault} (hl : digits.length ≤ 4)
    (h : codeOf digits = .error fault) : fault = .malformed := by
  unfold codeOf at h
  split at h
  · cases h
    rfl
  · rename_i values hv
    obtain ⟨length, below⟩ := mapM_digitIn?_lt hv
    have small := foldl_digits_lt below (Nat.zero_lt_one)
    have : 16 ^ values.length ≤ 16 ^ 4 := Nat.pow_le_pow_right (by decide) (length ▸ hl)
    have fits : values.foldl (fun n d => n * 16 + d) 0 < 0x110000 := by omega
    dsimp only at h
    rw [if_pos fits] at h
    cases h

theorem Ascribed.cons {c : Char} {text : List Char} {fault : Fault} (h : Ascribed text fault) :
    Ascribed (c :: text) fault := h.of_suffix (List.suffix_cons c text)

/-- The rest of a scalar between quotes fails as malformed texts do, or at one of its escapes. -/
theorem doubleQuoted_ascribed {done : List Nat} {gap : Gap} {count : Nat} {text : List Char}
    {fault : Fault} (h : doubleQuoted done gap count text = .error fault) :
    Ascribed text fault := by
  fun_induction doubleQuoted done gap count text
  -- two digits and four are too few
  case case3 a b _ _ code =>
    cases h
    exact .inl (codeOf_error_of_short (by simp) code)
  case case5 a b c d _ _ code =>
    cases h
    exact .inl (codeOf_error_of_short (by simp) code)
  case case7 a b c d e f g i rest _ code =>
    cases h
    exact .inr (.escape ⟨[], [a, b, c, d, e, f, g, i], rest, rfl, rfl, code⟩)
  case case15 => cases h
  -- in all other cases the text is malformed, or the scalar goes on
  any_goals
    cases h
    exact .inl rfl
  all_goals
    rename_i ih
    have rest := ih h
    repeat first | exact rest | apply Ascribed.cons

theorem singleQuoted_ascribed {done : List Char} {gap : Gap} {count : Nat} {text : List Char}
    {fault : Fault} (h : singleQuoted done gap count text = .error fault) :
    fault = .malformed := by
  fun_induction singleQuoted done gap count text
  case case5 => cases h
  any_goals
    cases h
    rfl
  all_goals
    rename_i ih
    exact ih h

/-- A text between quotes is at fault as the quotes of its kind have it. -/
theorem betweenQuotes_ascribed {double : Bool} {text : List Char} {fault : Fault}
    (h : Lexer.betweenQuotes double text = .error fault) : Ascribed text fault := by
  cases double with
  | true =>
    cases hq : doubleQuoted [] .none 0 text with
    | error e =>
      rw [Lexer.betweenQuotes, if_pos rfl, hq] at h
      cases h
      exact doubleQuoted_ascribed hq
    | ok r =>
      rw [Lexer.betweenQuotes, if_pos rfl, hq] at h
      cases h
  | false =>
    cases hq : singleQuoted [] .none 0 text with
    | error e =>
      rw [Lexer.betweenQuotes, if_neg Bool.false_ne_true, hq] at h
      cases h
      exact .inl (singleQuoted_ascribed hq)
    | ok r =>
      rw [Lexer.betweenQuotes, if_neg Bool.false_ne_true, hq] at h
      cases h

/-! ## Directives -/

namespace Lexer

/-- A number of a version is missing, or it has too many digits. -/
theorem versionNumber_error {text : List Char} {fault : Fault}
    (h : versionNumber text = .error fault) :
    fault = .malformed ∨ fault = .number ∧ ∃ digits rest, text = digits ++ rest ∧
      (∀ c ∈ digits, c.isDigit = true) ∧ Text.Numeral.mostDigits < digits.length := by
  have digits : ∀ c ∈ text.takeWhile Char.isDigit, c.isDigit = true :=
    fun c hc => List.mem_takeWhile_imp hc
  unfold versionNumber at h
  dsimp only at h
  split at h
  · cases h
    exact .inl rfl
  · split at h
    · rename_i long
      cases h
      rw [Text.Numeral.isOverlong, Text.Numeral.countP_digits digits, decide_eq_true_eq] at long
      exact .inr ⟨rfl, _, _, (List.takeWhile_append_dropWhile (p := Char.isDigit)).symm, digits, long⟩
    · cases h

theorem versionNumber_ok {text rest : List Char} {n : Nat} (h : versionNumber text = .ok (n, rest)) :
    ∃ digits, text = digits ++ rest ∧ ∀ c ∈ digits, c.isDigit = true := by
  unfold versionNumber at h
  dsimp only at h
  split at h
  · cases h
  · split at h
    · cases h
    · cases h
      exact ⟨text.takeWhile Char.isDigit, (List.prefix_iff_eq_append.1 (List.takeWhile_prefix _)).symm,
        fun c hc => List.mem_takeWhile_imp hc⟩

theorem version_error {text : List Char} {fault : Fault} (h : version text = .error fault) :
    fault = .malformed ∨ fault = .number ∧ LongVersion text := by
  unfold version at h
  cases first : versionNumber text with
  | error e =>
    rw [first] at h
    cases h
    refine (versionNumber_error first).imp_right fun ⟨hf, digits, rest, shape, hd, long⟩ => ?_
    exact ⟨hf, [], digits, rest, shape, .inl rfl, hd, long⟩
  | ok r =>
    obtain ⟨n, rest⟩ := r
    obtain ⟨major, rfl, hm⟩ := versionNumber_ok first
    rw [first] at h
    dsimp only [bind, Except.bind] at h
    split at h
    · rename_i rest
      cases second : versionNumber rest with
      | error e =>
        rw [second] at h
        cases h
        refine (versionNumber_error second).imp_right fun ⟨hf, digits, rest, shape, hd, long⟩ => ?_
        exact ⟨hf, major ++ ['.'], digits, rest, by simp [shape], .inr ⟨major, rfl, hm⟩, hd, long⟩
      | ok r =>
        rw [second] at h
        dsimp only at h
        split at h
        · cases h
        · cases h
          exact .inl rfl
    · cases h
      exact .inl rfl

/-- A directive fails as a malformed text does, or for a number of its version. -/
theorem directiveText_error {rest : List Char} {fault : Fault}
    (h : directiveText rest = .error fault) : Ascribed ('%' :: rest) fault := by
  unfold directiveText at h
  dsimp only at h
  split at h
  · cases h
    exact .inl rfl
  · split at h
    · rename_i name
      refine (version_error h).imp_right fun ⟨hf, long⟩ => ?_
      subst hf
      have front : rest = "YAML".toList ++ rest.drop "YAML".toList.length := by
        have whole := List.prefix_iff_eq_append.1 (List.takeWhile_prefix isNameChar (l := rest))
        rw [name] at whole
        exact whole.symm
      rw [name] at long
      refine .version ⟨[], (rest.drop "YAML".toList.length).takeWhile (· == ' '), _, ?_, ?_, long⟩
      · rw [List.takeWhile_append_dropWhile, List.nil_append]
        exact congrArg ('%' :: ·) front
      · exact fun c hc => beq_iff_eq.1 (List.mem_takeWhile_imp (p := (· == ' ')) hc)
    · split at h
      · split at h <;> cases h
        exact .inl rfl
      · cases h

/-- A directive is a version, a shorthand or one without meaning. -/
theorem directiveText_cases {rest after : List Char} {kind : TokenKind}
    (h : directiveText rest = .ok (kind, after)) :
    (∃ major, kind = .version major) ∨ (∃ handle lead, kind = .shorthand handle lead) ∨
      kind = .otherDirective := by
  unfold directiveText at h
  dsimp only at h
  split at h
  · cases h
  · split at h
    · unfold version at h
      cases first : versionNumber ((rest.drop _).dropWhile (· == ' ')) with
      | error e =>
        rw [first] at h
        cases h
      | ok r =>
        rw [first] at h
        dsimp only [bind, Except.bind] at h
        split at h
        · split at h
          · cases h
          · split at h <;> cases h
            exact .inl ⟨_, rfl⟩
        · cases h
    · split at h
      · split at h
        · cases h
        · rename_i found
          cases h
          unfold shorthand? at found
          obtain ⟨⟨handle, more⟩, -, found⟩ := Option.bind_eq_some_iff.1 found
          dsimp only at found
          split at found
          · cases found
          · obtain ⟨⟨lead, after⟩, -, found⟩ := Option.bind_eq_some_iff.1 found
            dsimp only at found
            split at found <;> cases found
            exact .inr (.inl ⟨_, _, rfl⟩)
      · cases h
        exact .inr (.inr rfl)

theorem directiveText_ne_fault {rest after : List Char} {kind : TokenKind}
    (h : directiveText rest = .ok (kind, after)) (fault : Fault) : kind ≠ .fault fault := by
  rcases directiveText_cases h with ⟨_, rfl⟩ | ⟨_, _, rfl⟩ | rfl <;> nofun

end Lexer

/-! ## Steps of the lexer -/

theorem Cursor.next_suffix (c : Cursor) : c.next.rest <:+ c.rest := by
  unfold Cursor.next
  split
  · exact List.suffix_rfl
  · split
    · exact List.suffix_cons _ _
    · split <;> exact List.suffix_cons _ _

theorem Cursor.forward_suffix (n : Nat) : ∀ c : Cursor, (c.forward n).rest <:+ c.rest := by
  induction n with
  | zero => exact fun c => List.suffix_rfl
  | succ n ih => exact fun c => (ih c.next).trans c.next_suffix

namespace Lexer

variable {text : List Char}

/-- The lexer is inside the text, and found a token wherever it was so far. -/
structure Inside (text : List Char) (l : Lexer) : Prop where
  rest : l.cursor.rest <:+ text
  found : ∀ token ∈ l.reversed, ∀ fault, token.kind ≠ .fault fault

/-- The lexer that a step leads to is inside the text, and a fault is ascribed to it. -/
inductive Moves (text : List Char) : Except Fault Lexer → Prop
  | ok {l : Lexer} : l.Inside text → Moves text (.ok l)
  | error {fault : Fault} : Ascribed text fault → Moves text (.error fault)

theorem Moves.malformed : Moves text (.error .malformed) := .error (.inl rfl)

theorem Moves.iteOf {p : Prop} [Decidable p] {x y : Except Fault Lexer} (hx : p → Moves text x)
    (hy : Moves text y) : Moves text (if p then x else y) := by
  split
  · exact hx ‹p›
  · exact hy

theorem Moves.ite {p : Prop} [Decidable p] {x y : Except Fault Lexer} (hx : Moves text x)
    (hy : Moves text y) : Moves text (if p then x else y) := .iteOf (fun _ => hx) hy

theorem Moves.bind {x : Except Fault Lexer} {f : Lexer → Except Fault Lexer} (hx : Moves text x)
    (hf : ∀ l, l.Inside text → Moves text (f l)) : Moves text (x >>= f) := by
  cases hx with
  | ok h => exact hf _ h
  | error h => exact .error h

section

variable {l : Lexer} (h : l.Inside text)

include h

theorem Inside.forward (n : Nat) : ({ l with cursor := l.cursor.forward n } : Lexer).Inside text where
  rest := (Cursor.forward_suffix n l.cursor).trans h.rest
  found := h.found

theorem Inside.push (kind : TokenKind) (hk : ∀ fault, kind ≠ .fault fault)
    (start stop : Text.Position) : (l.push kind start stop).Inside text where
  rest := h.rest
  found := by
    rintro token (_ | ⟨_, hm⟩)
    · exact hk
    · exact h.found token hm

theorem Inside.take (kind : TokenKind) (hk : ∀ fault, kind ≠ .fault fault) (width : Nat) :
    (l.take kind width).Inside text where
  rest := (h.forward width).rest
  found := (h.push kind hk l.cursor.position (l.cursor.forward width).position).found

theorem Inside.insertAt {index : Nat} {added : List Token}
    (ha : ∀ token ∈ added, ∀ fault, token.kind ≠ .fault fault) :
    (l.insertAt index added).Inside text where
  rest := h.rest
  found := by
    intro token hm
    rcases List.mem_append.1 hm with hm | hm
    · exact h.found token (List.mem_of_mem_take hm)
    · rcases List.mem_append.1 hm with hm | hm
      · exact ha token hm
      · exact h.found token (List.mem_of_mem_drop hm)

theorem dropKey_moves : Moves text l.dropKey := by
  unfold dropKey
  split
  · split
    · exact .malformed
    · exact .ok ⟨h.rest, h.found⟩
  · exact .ok h

theorem markKey_moves : Moves text l.markKey := by
  unfold markKey
  split
  · exact (dropKey_moves h).bind fun m hm => .ok ⟨hm.rest, hm.found⟩
  · exact .ok h

theorem dropStale_moves : Moves text l.dropStale := by
  unfold dropStale
  dsimp only
  split
  · exact .malformed
  · exact .ok ⟨h.rest, h.found⟩

end

theorem closeBlocks_inside (column : Nat) (outer : List Nat) :
    ∀ {l : Lexer}, l.Inside text → (closeBlocks column l outer).Inside text := by
  induction outer with
  | nil => exact id
  | cons next outer ih =>
    intro l h
    rw [closeBlocks]
    split
    · have closed := h.push .blockEnd nofun l.cursor.position l.cursor.position
      exact ih ⟨closed.rest, closed.found⟩
    · exact h

section

variable {l : Lexer} (h : l.Inside text)

include h

theorem unwind_inside (column : Nat) : (l.unwind column).Inside text := by
  unfold unwind
  split
  · exact h
  · exact closeBlocks_inside _ _ h

theorem blockItem_moves (collection : TokenKind) (hk : ∀ fault, collection ≠ .fault fault) :
    Moves text (l.blockItem collection) := by
  unfold blockItem
  split
  · exact .ok h
  · split
    · exact .malformed
    · split
      · have opened : (l.openBlock l.cursor.column).Inside text := ⟨h.rest, h.found⟩
        exact .ok (opened.push collection hk _ _)
      · exact .ok h

theorem skipGap_inside : l.skipGap.Inside text := by
  have start : (if l.cursor.offset = 0 && l.cursor.rest.head? == some byteOrderMark then
      l.cursor.next else l.cursor).rest <:+ text := by
    split
    · exact l.cursor.next_suffix.trans h.rest
    · exact h.rest
  exact ⟨(Cursor.forward_suffix _ _).trans start, h.found⟩

/-! ## Tokens -/

theorem textEnd_moves : Moves text l.textEnd :=
  (dropKey_moves (unwind_inside h 0)).bind fun m hm =>
    .ok (Inside.push (l := { m with keyAllowed := false }) ⟨hm.rest, hm.found⟩ .textEnd nofun _ _)

theorem documentMark_moves (kind : TokenKind) (hk : ∀ fault, kind ≠ .fault fault) :
    Moves text (l.documentMark kind) :=
  (dropKey_moves (unwind_inside h 0)).bind fun m hm =>
    .ok (Inside.take (l := { m with keyAllowed := false }) ⟨hm.rest, hm.found⟩ kind hk 3)

theorem openFlow_moves (kind : TokenKind) (hk : ∀ fault, kind ≠ .fault fault) :
    Moves text (l.openFlow kind) :=
  (markKey_moves h).bind fun m hm =>
    .ok (Inside.take (l := { m with keyAllowed := true, key := none, outerKeys := m.key :: m.outerKeys })
      ⟨hm.rest, hm.found⟩ kind hk 1)

theorem closeFlow_moves (kind : TokenKind) (hk : ∀ fault, kind ≠ .fault fault) :
    Moves text (l.closeFlow kind) := by
  refine (dropKey_moves h).bind fun m hm => ?_
  split
  · exact .malformed
  · rename_i key outerKeys _
    exact .ok (Inside.take (l := { m with keyAllowed := false, key := key, outerKeys := outerKeys })
      ⟨hm.rest, hm.found⟩ kind hk 1)

theorem flowEntry_moves : Moves text l.flowEntry :=
  (dropKey_moves (l := { l with keyAllowed := true }) ⟨h.rest, h.found⟩).bind fun _ hm =>
    .ok (hm.take .flowEntry nofun 1)

theorem blockEntry_moves : Moves text l.blockEntry :=
  (blockItem_moves h .blockSequence nofun).bind fun m hm =>
    (dropKey_moves (l := { m with keyAllowed := true }) ⟨hm.rest, hm.found⟩).bind fun _ hn =>
      .ok (hn.take .blockEntry nofun 1)

theorem explicitKey_moves : Moves text l.explicitKey :=
  (blockItem_moves h .blockMapping nofun).bind fun m hm =>
    (dropKey_moves (l := { m with keyAllowed := !m.inFlow }) ⟨hm.rest, hm.found⟩).bind fun _ hn =>
      .ok (hn.take .key nofun 1)

theorem value_moves : Moves text l.value := by
  unfold value
  split
  · rename_i mark _
    have known : ({ l with key := none, keyAllowed := false } : Lexer).Inside text :=
      ⟨h.rest, h.found⟩
    dsimp only
    split
    · have opened : (({ l with key := none, keyAllowed := false } : Lexer).openBlock
          mark.column).Inside text := ⟨h.rest, h.found⟩
      refine .ok ((opened.insertAt ?_).take .value nofun 1)
      simp
    · refine .ok ((known.insertAt ?_).take .value nofun 1)
      simp
  · refine (blockItem_moves h .blockMapping nofun).bind fun m hm => ?_
    exact (dropKey_moves (l := { m with keyAllowed := !m.inFlow }) ⟨hm.rest, hm.found⟩).bind
      fun _ hn => .ok (hn.take .value nofun 1)

theorem named_moves {kind : String → TokenKind} (hk : ∀ name fault, kind name ≠ .fault fault) :
    Moves text (l.named kind) := by
  refine (markKey_moves h).bind fun m hm => ?_
  split
  · exact .malformed
  · exact .ok (Inside.take (l := { m with keyAllowed := false }) ⟨hm.rest, hm.found⟩ _ (hk _) _)

theorem tag_moves : Moves text l.tag := by
  refine (markKey_moves h).bind fun m hm => ?_
  dsimp only
  split
  · exact .malformed
  · split
    · exact .ok (Inside.take (l := { m with keyAllowed := false }) ⟨hm.rest, hm.found⟩ (.tag _ _) nofun _)
    · exact .malformed

end

theorem closeBlocks_cursor (column : Nat) (outer : List Nat) :
    ∀ l : Lexer, (closeBlocks column l outer).cursor = l.cursor := by
  induction outer with
  | nil => exact fun _ => rfl
  | cons next outer ih =>
    intro l
    rw [closeBlocks]
    split
    · exact ih _
    · rfl

theorem unwind_cursor (l : Lexer) (column : Nat) : (l.unwind column).cursor = l.cursor := by
  unfold unwind
  split
  · rfl
  · exact closeBlocks_cursor _ _ l

theorem dropKey_cursor {l m : Lexer} (h : l.dropKey = .ok m) : m.cursor = l.cursor := by
  unfold dropKey at h
  split at h
  · split at h
    · cases h
    · cases h
      rfl
  · cases h
    rfl

section

variable {l : Lexer} (h : l.Inside text)

include h

theorem directive_moves {rest : List Char} (hr : l.cursor.rest = '%' :: rest) :
    Moves text l.directive := by
  unfold directive
  cases hd : (l.unwind 0).dropKey with
  | error fault =>
    have moves := dropKey_moves (unwind_inside h 0)
    rw [hd] at moves
    cases moves with
    | error hf => exact .error hf
  | ok m =>
    have moves := dropKey_moves (unwind_inside h 0)
    rw [hd] at moves
    cases moves with
    | ok hm =>
      have cursor : m.cursor.rest = '%' :: rest := by
        rw [dropKey_cursor hd, unwind_cursor, hr]
      dsimp only [bind, Except.bind]
      rw [cursor, List.drop_one, List.tail_cons]
      cases ht : directiveText rest with
      | error fault => exact .error ((directiveText_error ht).of_suffix (cursor ▸ hm.rest))
      | ok r =>
        obtain ⟨kind, after⟩ := r
        dsimp only
        split
        · exact .malformed
        · have taken := Inside.take (l := { m with keyAllowed := false }) ⟨hm.rest, hm.found⟩ kind
            (directiveText_ne_fault ht) (1 + (rest.length - after.length))
          exact .ok (taken.forward _)

theorem blockScalar_moves (folding : Bool) : Moves text (l.blockScalar folding) := by
  refine (dropKey_moves (l := { l with keyAllowed := true }) ⟨h.rest, h.found⟩).bind fun m hm => ?_
  split
  · exact .malformed
  · exact .ok (hm.take (.scalar _ _) nofun _)

theorem quotedScalar_moves (double : Bool) : Moves text (l.quotedScalar double) := by
  refine (markKey_moves h).bind fun m hm => ?_
  have inside : (m.cursor.rest.drop 1) <:+ text := (List.drop_suffix _ _).trans hm.rest
  cases hq : betweenQuotes double (m.cursor.rest.drop 1) with
  | error fault => exact .error ((betweenQuotes_ascribed hq).of_suffix inside)
  | ok r =>
    exact .ok (Inside.take (l := { m with keyAllowed := false }) ⟨hm.rest, hm.found⟩
      (.scalar (String.ofList r.1.1) r.1.2) nofun _)

theorem plainScalar_moves : Moves text l.plainScalar := by
  refine (markKey_moves h).bind fun m hm => ?_
  have taken := hm.take (.scalar (String.ofList (plain m.inFlow m.indent m.cursor.rest).1) .plain)
    nofun (plain m.inFlow m.indent m.cursor.rest).2
  exact .ok ⟨(Cursor.forward_suffix _ _).trans taken.rest, taken.found⟩

/-! ## The text -/

theorem tokenAt_moves {c : Char} {rest : List Char} (hr : l.cursor.rest = c :: rest) :
    Moves text (l.tokenAt c rest) := by
  have mark : ∀ fault, (if c = '-' then TokenKind.documentStart else .documentEnd) ≠ .fault fault :=
    fun _ => by split <;> nofun
  have directive (hp : (c = '%' && l.cursor.column == 1) = true) : Moves text l.directive := by
    rw [Bool.and_eq_true, decide_eq_true_eq] at hp
    exact directive_moves h (hp.1 ▸ hr)
  unfold tokenAt
  dsimp only
  refine .iteOf directive (.ite (documentMark_moves h _ mark) ?_)
  refine .ite (openFlow_moves h _ nofun) (.ite (openFlow_moves h _ nofun) ?_)
  refine .ite (closeFlow_moves h _ nofun) (.ite (closeFlow_moves h _ nofun) ?_)
  refine .ite (flowEntry_moves h) (.ite (blockEntry_moves h) ?_)
  refine .ite (explicitKey_moves h) (.ite (value_moves h) ?_)
  refine .ite (named_moves h nofun) (.ite (named_moves h nofun) (.ite (tag_moves h) ?_))
  refine .ite (blockScalar_moves h false) (.ite (blockScalar_moves h true) ?_)
  refine .ite (quotedScalar_moves h false) (.ite (quotedScalar_moves h true) ?_)
  exact .ite (plainScalar_moves h) .malformed

theorem step_moves : Moves text l.step := by
  refine (dropStale_moves (skipGap_inside h)).bind fun m hm => ?_
  have inside := unwind_inside hm m.cursor.column
  dsimp only
  split
  · exact textEnd_moves inside
  · rename_i hr
    exact tokenAt_moves inside hr

/-- The fault that a run ends in is ascribed to the text. -/
theorem broken_ascribed {fault : Fault} (hf : Ascribed text fault) {token : Token}
    (hm : token ∈ l.broken fault) {found : Fault} (hk : token.kind = .fault found) :
    Ascribed text found := by
  rcases List.mem_cons.1 (List.mem_reverse.1 hm) with rfl | hm
  · cases hk
    exact hf
  · exact absurd hk (h.found token (List.mem_of_mem_drop hm) found)

end

theorem run_ascribed (fuel : Nat) : ∀ {l : Lexer}, l.Inside text → ∀ {token : Token},
    token ∈ l.run fuel → ∀ {fault : Fault}, token.kind = .fault fault → Ascribed text fault := by
  induction fuel with
  | zero => exact fun h _ hm _ hk => broken_ascribed h (.inl rfl) hm hk
  | succ fuel ih =>
    intro l h token hm fault hk
    have moves := step_moves h
    rw [run] at hm
    cases hs : l.step with
    | error e =>
      rw [hs] at moves hm
      cases moves with
      | error he => exact broken_ascribed h he hm hk
    | ok next =>
      rw [hs] at moves hm
      cases moves with
      | ok hn =>
        dsimp only at hm
        split at hm
        · exact absurd hk (hn.found token (List.mem_reverse.1 hm) fault)
        · exact ih hn hm hk

end Lexer

/-- A fault among the tokens of a text is ascribed to the text. -/
theorem Token.ofText_ascribed {text : List Char} {token : Token} (hm : token ∈ Token.ofText text)
    {fault : Fault} (hk : token.kind = .fault fault) : Ascribed text fault :=
  Lexer.run_ascribed _ ⟨List.suffix_rfl, fun _ hn => absurd hn List.not_mem_nil⟩ hm hk

end ServiceModel.Yaml

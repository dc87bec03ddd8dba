/-
Texts that are read as one plain scalar, both as an item of a block sequence and as a key of a
block mapping. They stand on one line, are no longer than a key, and are plain scalars from their
first character to their last.
-/
import ServiceModel.Proofs.Yaml.Added

namespace ServiceModel.Yaml

open Lexer

/-- A scalar that is written plainly. -/
def plainKind (text : List Char) : TokenKind := .scalar (String.ofList text) .plain

/-- The text is read as one plain scalar, behind the hyphen of an item and in front of the colon of
a key. -/
structure ReadsPlain (text : List Char) : Prop where
  allowed : ∀ c ∈ text, isAllowed c = true
  item : (Token.ofText ('-' :: ' ' :: text)).map (·.kind) =
    [.blockSequence, .blockEntry, plainKind text, .blockEnd, .textEnd]
  key : (Token.ofText (' ' :: ' ' :: (text ++ [':']))).map (·.kind) =
    [.blockMapping, .key, plainKind text, .value, .blockEnd, .textEnd]

variable {text : List Char} {l : Lexer}

theorem mem_of_subperm_append {kind : TokenKind} {old others all : List TokenKind}
    (h : (kind :: old).Subperm all) (hp : all.Perm (old ++ others)) : kind ∈ others := by
  have more : (old ++ [kind]).Subperm (old ++ others) :=
    ((List.perm_append_singleton kind old).subperm.trans h).trans hp.subperm
  exact ((List.subperm_append_left old).1 more).subset List.mem_cons_self

/-! ## Items -/

theorem le_gapFrom (text : List Char) : ∀ (inComment broke : Bool) (count : Nat),
    count ≤ (gapFrom inComment broke count text).1 := by
  induction text with
  | nil => exact fun _ _ _ => Nat.le_refl _
  | cons c rest ih =>
    intro inComment broke count
    rw [gapFrom]
    split_ifs
    · exact Nat.le_of_succ_le (ih _ _ _)
    · exact Nat.le_of_succ_le (ih _ _ _)
    · exact Nat.le_of_succ_le (ih _ _ _)
    · exact Nat.le_refl _

theorem forward_rest (count : Nat) : ∀ cursor : Cursor,
    (cursor.forward count).rest = cursor.rest.drop count := by
  induction count with
  | zero => exact fun _ => rfl
  | succ count ih =>
    rintro ⟨rest, line, column, offset⟩
    cases rest with
    | nil => exact (ih _).trans (List.drop_nil.trans List.drop_nil.symm)
    | cons c rest => exact (ih _).trans (congrArg _ (Cursor.next_cons c rest _ _ _).1)

/-- The lexer behind the hyphen of the first item. -/
def inItem (text : List Char) : Lexer where
  cursor := ⟨' ' :: text, 1, 2, 1⟩
  reversed := [⟨.blockEntry, ⟨1, 1, 0⟩, ⟨1, 2, 1⟩⟩, ⟨.blockSequence, ⟨1, 1, 0⟩, ⟨1, 1, 0⟩⟩]
  count := 2
  indent := 1
  outer := [0]
  keyAllowed := true
  key := none
  outerKeys := []

theorem start_inItem (text : List Char) :
    (Lexer.start ('-' :: ' ' :: text)).step = .ok (inItem text) := rfl

/-- The lexer in front of what follows the hyphen. -/
def atItem (text : List Char) : Lexer :=
  (inItem text).gathered.unwind (inItem text).gathered.cursor.column

theorem atItem_cases (text : List Char) : ∃ count, 1 ≤ count ∧
    (atItem text).cursor = (inItem text).cursor.forward count ∧ (atItem text).inFlow = false ∧
      ((atItem text).cursor.column < 1 ∨ (atItem text).indent = 1) := by
  refine ⟨_, @le_gapFrom text false false 1, ?_⟩
  unfold atItem
  rw [unwind, if_neg (show ¬ (inItem text).gathered.inFlow = true from Bool.false_ne_true)]
  show (closeBlocks _ _ [0]).cursor = _ ∧ (closeBlocks _ _ [0]).inFlow = false ∧
    ((closeBlocks _ _ [0]).cursor.column < 1 ∨ (closeBlocks _ _ [0]).indent = 1)
  rw [closeBlocks]
  split
  · rename_i outside
    exact ⟨rfl, rfl, .inl outside⟩
  · exact ⟨rfl, rfl, .inr rfl⟩

theorem atItem_kinds (text : List Char) : ∃ count,
    (atItem text).kinds = List.replicate count .blockEnd ++ [.blockEntry, .blockSequence] :=
  unwind_kinds _ _

theorem new_kind {kind : TokenKind} {next : Lexer}
    (ha : (kind :: (atItem text).kinds).Subperm next.kinds)
    (hn : next.kinds.Subperm [.blockSequence, .blockEntry, plainKind text, .blockEnd, .textEnd]) :
    kind ∈ [plainKind text, .blockEnd, .textEnd] := by
  obtain ⟨count, kinds⟩ := atItem_kinds text
  have fewer : [kind, .blockEntry, .blockSequence].Sublist (kind :: (atItem text).kinds) := by
    rw [kinds]
    exact (List.sublist_append_right _ _).cons_cons kind
  exact @mem_of_subperm_append kind [.blockEntry, .blockSequence] _ _
    ((fewer.subperm.trans ha).trans hn) (.swap _ _ _)

/-- What is passed in front of a scalar that is the whole text is the one space. -/
theorem atItem_whole {c : Char} {rest : List Char} (hs : (atItem text).cursor.rest = c :: rest)
    (hw : (plain false (atItem text).indent (atItem text).cursor.rest).1 = text) :
    (atItem text).cursor.rest = text ∧ plain false 1 text = (text, text.length) := by
  obtain ⟨count, some, cursor, -, place⟩ := atItem_cases text
  have behind : (atItem text).cursor.rest = (' ' :: text).drop count := by
    rw [cursor, forward_rest]
    rfl
  have bounds := @plainFrom_bounds false (atItem text).indent 0 0 .empty []
    (atItem text).cursor.rest PlainGap.sound_empty (Nat.le_refl 0)
  change (plain false _ _).1.length + 0 ≤ (plain false _ _).2 ∧
    (plain false _ _).2 ≤ 0 + 0 + _ at bounds
  have left := congrArg List.length (behind.symm.trans hs)
  have one : count = 1 := by
    rw [hw, behind] at bounds
    simp only [List.length_drop, List.length_cons] at bounds left
    omega
  subst one
  have inside : (atItem text).indent = 1 := by
    refine place.resolve_left ?_
    rw [cursor]
    exact Nat.not_lt.2 (show 1 ≤ 3 by decide)
  have same : (atItem text).cursor.rest = text := behind
  rw [same, inside] at hw bounds
  refine ⟨same, Prod.ext hw ?_⟩
  rw [hw] at bounds
  dsimp only
  omega

/-- An item that is one plain scalar starts behind the one space and is the whole text. -/
theorem item_whole (h : (Token.ofText ('-' :: ' ' :: text)).map (·.kind) =
      [.blockSequence, .blockEntry, plainKind text, .blockEnd, .textEnd]) :
    (∃ c rest, text = c :: rest ∧ startsPlain false c rest = true) ∧
      plain false 1 text = (text, text.length) := by
  have run : ((inItem text).run (text.length + 3)).map (·.kind) =
      [.blockSequence, .blockEntry, plainKind text, .blockEnd, .textEnd] := h
  obtain ⟨next, step, among, whole⟩ := @run_next (inItem text) (text.length + 3) (by
    rw [run]
    simp [Faultless, plainKind])
  rw [run] at among whole
  obtain ⟨count, some, cursor, block, place⟩ := atItem_cases text
  rcases step_ok step (show atItem text = _ from rfl) with ⟨-, ends⟩ | ⟨c, rest, shape, token⟩
  · -- the text cannot end here, for then there is no scalar
    obtain ⟨n, kinds⟩ := textEnd_kinds ends
    obtain ⟨m, before⟩ := atItem_kinds text
    rw [kinds, before] at whole
    have scalar : plainKind text ∈
        [.blockSequence, .blockEntry, plainKind text, .blockEnd, .textEnd] := by simp
    rw [whole rfl] at scalar
    simp [plainKind] at scalar
  · rcases tokenAt_adds (atItem text) c rest with ⟨starts, plain⟩ | adds
    · have kinds := plainScalar_kinds (plain.symm.trans token)
      have same := new_kind (by rw [kinds]) among
      rw [block] at same starts
      obtain ⟨whole, spans⟩ := atItem_whole shape
        (String.ofList_inj.1 (by simpa [plainKind] using same))
      exact ⟨⟨c, rest, whole.symm.trans shape, starts⟩, spans⟩
    · -- a token of another kind would be one more than those that are known
      obtain ⟨kind, telling, added⟩ := adds next token
      have same := new_kind added among
      simp only [List.mem_cons, List.not_mem_nil, or_false] at same
      rcases same with rfl | rfl | rfl <;> exact telling.elim

/-! ## Keys -/

theorem value_unkeyed (hk : l.key = none) (hb : l.inFlow = false)
    (ha : l.keyAllowed = false) : l.value = .error .malformed := by
  unfold value
  rw [hk]
  dsimp only
  unfold blockItem
  rw [hb, ha]
  rfl

theorem gathered_stale {mark : KeyMark} (hk : l.key = some mark)
    (hs : isStale l.skipGap.cursor mark = true) : l.gathered.key = none := by
  show l.key.filter _ = none
  rw [hk, Option.filter_some, hs]
  rfl

/-- What stands in front of a colon is a key only if it is short enough. -/
theorem key_near (hs : Spans false 0 text [':'])
    (h : (Token.ofText (' ' :: ' ' :: (text ++ [':']))).map (·.kind) =
      [.blockMapping, .key, plainKind text, .value, .blockEnd, .textEnd]) :
    text.length ≤ 1024 := by
  let start := Lexer.start (' ' :: ' ' :: (text ++ [':']))
  have rests : Rests start 1 ([' ', ' '] ++ (text ++ ([] ++ [':']))) [0] 0 [] true :=
    start_rests _
  have colon : ∀ c ∈ [':'].head?, Halts c := by
    rintro c ⟨⟩
    decide
  have empty : Fills [] [':'] := fills_nil (by decide) []
  obtain ⟨stands, step, column, moved, past⟩ := step_pastScalar rests hs
    (Fill.fills (by decide) _) (.inr (Nat.zero_le _)) (.inl (show 3 ≠ 1 by decide)) empty.fill colon
  have behind : Rests _ column ([] ++ ':' :: []) [0] 0 _ false :=
    ⟨past, stands.pastScalar (.inr (show 0 < 3 by decide)) text [], rfl⟩
  -- no fault is told of, so there is a step behind the scalar, too
  have faultless : Faultless
      [.blockMapping, .key, plainKind text, .value, .blockEnd, .textEnd] := by
    simp [Faultless, plainKind]
  have run : (start.run ((' ' :: ' ' :: (text ++ [':'])).length + 2)).map (·.kind) = _ := h
  obtain ⟨fuel, next, -, step', run'⟩ := @run_step start _ (by rw [run]; exact faultless)
  cases step.symm.trans step'
  rw [if_neg (by simp [Lexer.pastScalar, take, push])] at run'
  rw [run'] at run
  obtain ⟨-, last, -, value, -⟩ := @run_step _ fuel (by rw [run]; exact faultless)
  have token := (behind.step_eq empty (by decide) (.inr (Nat.zero_le _))).trans
    (tokenAt_value (.inr rfl))
  by_contra far
  have stale : isStale (start.gathered.pastScalar text []).skipGap.cursor start.gathered.here =
      true := by
    rw [skipGap_pastScalar past.rest, isStale, (Cursor.forward_append stands.rest).2.1, here]
    simp
    omega
  have unkeyed : (start.gathered.pastScalar text []).gathered.key = none :=
    gathered_stale (pastScalar_key (stands.allowed.trans (Bool.true_or _)) text []) stale
  obtain ⟨ahead, may⟩ := past.gathered empty colon
  rw [value_unkeyed unkeyed ahead.inFlow may] at token
  cases token.symm.trans value

namespace ReadsPlain

theorem plainLine (h : ReadsPlain text) : PlainLine text :=
  have read := item_whole h.item
  ⟨read.1, read.2⟩

theorem near (h : ReadsPlain text) : text.length ≤ 1024 :=
  key_near (h.plainLine.before_colon (Nat.zero_le 1) rfl) h.key

end ReadsPlain

/-! ## Texts that are read so -/

section

variable (h : PlainLine text)

include h

theorem item_read : (Token.ofText ('-' :: ' ' :: text)).map (·.kind) =
    [.blockSequence, .blockEntry, plainKind text, .blockEnd, .textEnd] := by
  have rests : Rests (inItem text) 2 ([' '] ++ (text ++ ([] ++ []))) [1, 0] 0
      [.blockEntry, .blockSequence] true :=
    ⟨⟨by simp [inItem], rfl, rfl, rfl, rfl, rfl⟩, by simp [inItem, Free], rfl⟩
  have spans : Spans false 1 text ([] ++ []) :=
    ⟨h.starts_append _, by rw [List.append_nil, List.append_nil]; exact h.whole, h.line⟩
  obtain ⟨next, column, moved, leads, behind⟩ := item_passes rests spans
    (Fill.fills (by decide) _) (.inr (show 1 < 3 by decide)) (.inl (show 3 ≠ 1 by decide))
    (by decide) (by simp)
  have started : Leads (Lexer.start ('-' :: ' ' :: text)) 1 (inItem text) :=
    .step (start_inItem text) rfl (by simp)
  have closed := @run_closed next column [] _ _ [] [1] behind (by decide)
    (List.forall_mem_nil _)
    (List.forall_mem_singleton.2 ⟨Nat.one_pos, Nat.le_trans (by decide) moved⟩) (text.length + 1)
  have length : ('-' :: ' ' :: text).length + 2 = text.length + 1 + 1 + (1 + 1) := rfl
  rw [Token.ofText, length, started.trans leads, closed]
  rfl

theorem key_read (near : text.length ≤ 1024) :
    (Token.ofText (' ' :: ' ' :: (text ++ [':']))).map (·.kind) =
      [.blockMapping, .key, plainKind text, .value, .blockEnd, .textEnd] := by
  have rests : Rests (Lexer.start (' ' :: ' ' :: (text ++ [':']))) 1
      ([' ', ' '] ++ (text ++ ':' :: [])) [0] 0 [] true := start_rests _
  obtain ⟨next, column, moved, leads, behind⟩ := label_opens rests
    (h.before_colon (Nat.zero_le 1) rfl) (Fill.fills (by decide) _) (.inl (show 3 ≠ 1 by decide))
    rfl near (.inr rfl) rfl (show 0 < 3 by decide)
  have closed := @run_closed next column [] _ _ [] [3] behind (by decide)
    (List.forall_mem_nil _)
    (List.forall_mem_singleton.2 ⟨by decide, moved⟩) (text.length + 2)
  have length : (' ' :: ' ' :: (text ++ [':'])).length + 2 = text.length + 2 + 1 + 2 := by simp
  rw [Token.ofText, length, leads, closed]
  rfl

end

/-- What is read as one plain scalar wherever it stands. -/
theorem readsPlain_iff : ReadsPlain text ↔
    (∀ c ∈ text, isAllowed c = true) ∧ PlainLine text ∧ text.length ≤ 1024 :=
  ⟨fun h => ⟨h.allowed, h.plainLine, h.near⟩,
    fun ⟨allowed, line, near⟩ => ⟨allowed, item_read line, key_read line near⟩⟩

theorem IsWord.readsPlain (h : IsWord text) : ReadsPlain text := by
  refine readsPlain_iff.2 ⟨fun c hc => ?_, h.plainLine, h.near⟩
  have range := wordChar_range (h.wordChars c hc)
  simp only [isAllowed, Bool.or_eq_true, Bool.and_eq_true, beq_iff_eq, decide_eq_true_eq]
  omega

end ServiceModel.Yaml

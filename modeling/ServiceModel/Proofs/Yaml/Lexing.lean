/-
How the lexer goes through a text that keeps to flow collections: it is never inside a block, no
place is required to be a key, and each token leaves the text behind it to be read. What stands
between two tokens is passed over with the next one.
-/
import ServiceModel.Proofs.Yaml.Lines
import ServiceModel.Yaml.Lexer

namespace ServiceModel.Yaml

open Notation (Piece quote textOf)

/-! ## Cursors -/

namespace Cursor

theorem next_cons (c : Char) (rest : List Char) (line column offset : Nat) :
    (Cursor.mk (c :: rest) line column offset).next.rest = rest ∧
      (Cursor.mk (c :: rest) line column offset).next.offset = offset + 1 ∧
      (0 < column → 0 < (Cursor.mk (c :: rest) line column offset).next.column) ∧
      (isBreak c = false → (Cursor.mk (c :: rest) line column offset).next.line = line) := by
  dsimp only [next]
  split_ifs with line mark
  · simp_all
  · simp_all
  · simp_all

theorem forward_append {part rest : List Char} : ∀ {cursor : Cursor},
    cursor.rest = part ++ rest →
      (cursor.forward part.length).rest = rest ∧
      (cursor.forward part.length).offset = cursor.offset + part.length ∧
      (0 < cursor.column → 0 < (cursor.forward part.length).column) ∧
      ((∀ c ∈ part, isBreak c = false) → (cursor.forward part.length).line = cursor.line) := by
  induction part with
  | nil => exact fun h => ⟨h, rfl, id, fun _ => rfl⟩
  | cons c part ih =>
    rintro ⟨text, line, column, offset⟩ rfl
    obtain ⟨next, offset', column', line'⟩ := next_cons c (part ++ rest) line column offset
    obtain ⟨rest', moved, right, same⟩ := ih next
    refine ⟨rest', moved.trans ?_, fun h => right (column' h), fun h => (same ?_).trans (line' ?_)⟩
    · rw [offset', List.length_cons, Nat.add_assoc, Nat.add_comm 1]
    · exact fun d hd => h d (List.mem_cons_of_mem _ hd)
    · exact h c List.mem_cons_self

end Cursor

namespace Lexer

/-! ## States -/

/-- The lexer stands in front of a text with `depth` flow collections open. It has added tokens of
the given kinds, the last one first. -/
structure Ready (l : Lexer) (depth : Nat) (text : List Char) (kinds : List TokenKind) : Prop where
  rest : l.cursor.rest = text
  kinds : l.reversed.map (·.kind) = kinds
  count : l.count = l.reversed.length
  indent : l.indent = 0
  outer : l.outer = []
  column : 0 < l.cursor.column
  depth : l.outerKeys.length = depth
  optional : ∀ mark? ∈ l.key :: l.outerKeys, ∀ mark ∈ mark?, mark.required = false

/-- The lexer stands in front of a text, but for white space; after the start of a collection and
after a comma a key may follow. -/
def At (l : Lexer) (depth : Nat) (fresh : Bool) (text : List Char) (kinds : List TokenKind) :
    Prop :=
  (∃ here, Ready l depth here kinds ∧ here.dropWhile isGap = text.dropWhile isGap) ∧
    (fresh = true → l.keyAllowed = true)

variable {l : Lexer} {depth : Nat} {text rest : List Char} {kinds : List TokenKind}

theorem Ready.at (h : Ready l depth text kinds) : At l depth false text kinds :=
  ⟨⟨text, h, rfl⟩, nofun⟩

theorem At.skip {fresh : Bool} {space : List Char} (hs : ∀ c ∈ space, isGap c = true)
    (h : At l depth fresh (space ++ text) kinds) : At l depth fresh text kinds := by
  obtain ⟨⟨here, ready, same⟩, allowed⟩ := h
  exact ⟨⟨here, ready, same.trans (List.dropWhile_append_of_pos hs)⟩, allowed⟩

theorem Ready.allow (h : Ready l depth text kinds) (b : Bool) :
    Ready { l with keyAllowed := b } depth text kinds :=
  ⟨h.rest, h.kinds, h.count, h.indent, h.outer, h.column, h.depth, h.optional⟩

theorem Ready.unkey (h : Ready l depth text kinds) :
    Ready { l with key := none } depth text kinds :=
  ⟨h.rest, h.kinds, h.count, h.indent, h.outer, h.column, h.depth, by
    rintro mark? (_ | ⟨_, hm⟩)
    · exact nofun
    · exact h.optional mark? (List.mem_cons_of_mem _ hm)⟩

theorem Ready.forward {part : List Char} (h : Ready l depth (part ++ rest) kinds) :
    Ready { l with cursor := l.cursor.forward part.length } depth rest kinds :=
  have moved := Cursor.forward_append h.rest
  ⟨moved.1, h.kinds, h.count, h.indent, h.outer, moved.2.2.1 h.column, h.depth, h.optional⟩

theorem Ready.take {part : List Char} (h : Ready l depth (part ++ rest) kinds) (kind : TokenKind)
    {width : Nat} (hw : width = part.length) :
    Ready (l.take kind width) depth rest (kind :: kinds) := by
  subst hw
  have moved := Cursor.forward_append h.rest
  exact ⟨moved.1, by simp [Lexer.take, push, h.kinds], by simp [Lexer.take, push, h.count],
    h.indent, h.outer, moved.2.2.1 h.column, h.depth, h.optional⟩

/-! ## The way to the next token -/

/-- Tokens start with such characters. -/
def Starts (c : Char) : Prop :=
  isGap c = false ∧ isBreak c = false ∧ c ≠ '#' ∧ c ≠ byteOrderMark

instance (c : Char) : Decidable (Starts c) := inferInstanceAs (Decidable (_ ∧ _))

/-- The lexer in front of its next token. -/
def gathered (l : Lexer) : Lexer :=
  let fresh (mark? : Option KeyMark) := mark?.filter (!isStale l.skipGap.cursor ·)
  { l.skipGap with key := fresh l.key, outerKeys := l.outerKeys.map fresh }

/-- Where such a character stands, white space and comments have ended. -/
def Halts (c : Char) : Prop := c ≠ ' ' ∧ isBreak c = false ∧ c ≠ '#'

instance (c : Char) : Decidable (Halts c) := inferInstanceAs (Decidable (_ ∧ _))

theorem Starts.halts {c : Char} (h : Starts c) : Halts c := by
  refine ⟨?_, h.2.1, h.2.2.1⟩
  rintro rfl
  exact absurd h.1 (by decide)

theorem gapFrom_append {gap rest : List Char} (hg : ∀ c ∈ gap, isGap c = true)
    (hr : ∀ c ∈ rest.head?, Halts c) : ∀ (broke : Bool) (count : Nat),
      gapFrom false broke count (gap ++ rest) =
        (count + gap.length, broke || gap.any isBreak) := by
  induction gap with
  | nil =>
    intro broke count
    rw [List.any_nil, Bool.or_false]
    cases rest with
    | nil => rfl
    | cons c rest =>
      obtain ⟨space, line, comment⟩ := hr c rfl
      simp [gapFrom, line, comment, space]
  | cons c gap ih =>
    intro broke count
    have ih := @ih fun d hd => hg d (List.mem_cons_of_mem _ hd)
    have char := hg c List.mem_cons_self
    simp only [isGap, Bool.or_eq_true, beq_iff_eq] at char
    have length : count + (gap.length + 1) = count + 1 + gap.length := by omega
    rw [List.cons_append, gapFrom, List.length_cons, List.any_cons, length]
    split_ifs with line space comment
    · rw [ih, line, Bool.true_or, Bool.or_true]
    · rw [ih, Bool.eq_false_iff.2 line, Bool.false_or]
    · rcases char with (rfl | rfl) | rfl
      · exact absurd comment (by decide)
      · exact absurd comment (by decide)
      · exact absurd comment (by decide)
    · rcases char with (rfl | rfl) | rfl
      · exact absurd (by decide) space
      · exact absurd (show isBreak '\n' = true by decide) line
      · exact absurd (show isBreak '\r' = true by decide) line

theorem gap_split (text : List Char) :
    ∃ gap, (∀ c ∈ gap, isGap c = true) ∧ text = gap ++ text.dropWhile isGap :=
  ⟨text.takeWhile isGap, fun _ hc => List.mem_takeWhile_imp hc,
    List.takeWhile_append_dropWhile.symm⟩

theorem dropWhile_starts {text : List Char} (h : ∀ c ∈ text.head?, Starts c) :
    text.dropWhile isGap = text := by
  cases text with
  | nil => rfl
  | cons c rest => rw [List.dropWhile_cons_of_neg (Bool.eq_false_iff.1 (h c rfl).1)]

/-- What the lexer passes over in front of a token is white space. -/
theorem skipGap_eq {gap : List Char} (hg : ∀ c ∈ gap, isGap c = true)
    (hr : ∀ c ∈ rest.head?, Halts c) (hm : l.cursor.rest.head? ≠ some byteOrderMark)
    (h : l.cursor.rest = gap ++ rest) :
    l.skipGap = { l with
      cursor := l.cursor.forward gap.length,
      keyAllowed := l.keyAllowed || (gap.any isBreak && !l.inFlow) } := by
  have same : (l.cursor.offset = 0 && l.cursor.rest.head? == some byteOrderMark) = false := by
    rw [beq_eq_false_iff_ne.2 hm, Bool.and_false]
  have passed := gapFrom_append hg hr false 0
  rw [Nat.zero_add, Bool.false_or] at passed
  unfold skipGap
  rw [same, if_neg Bool.false_ne_true]
  dsimp only
  rw [h, passed]

theorem skipGap_cursor {gap : List Char} (hg : ∀ c ∈ gap, isGap c = true)
    (hr : ∀ c ∈ rest.head?, Starts c) (h : l.cursor.rest = gap ++ rest) :
    l.skipGap.cursor = l.cursor.forward gap.length := by
  have marked : l.cursor.rest.head? ≠ some byteOrderMark := by
    rw [h]
    intro head
    cases gap with
    | nil => exact (hr byteOrderMark head).2.2.2 rfl
    | cons c gap =>
      cases head
      exact absurd (hg byteOrderMark List.mem_cons_self) (by decide)
  rw [skipGap_eq hg (fun c hc => (hr c hc).halts) marked h]

theorem gathered_ready {gap : List Char} (hg : ∀ c ∈ gap, isGap c = true)
    (hr : ∀ c ∈ rest.head?, Starts c) (h : Ready l depth (gap ++ rest) kinds) :
    Ready l.gathered depth rest kinds := by
  have moved := Cursor.forward_append h.rest
  rw [← skipGap_cursor hg hr h.rest] at moved
  refine ⟨moved.1, h.kinds, h.count, h.indent, h.outer, moved.2.2.1 h.column,
    (List.length_map _).trans h.depth, ?_⟩
  intro mark? hm mark hmark
  have kept {m? : Option KeyMark} (hk : m? ∈ l.key :: l.outerKeys)
      (hf : mark? = m?.filter (!isStale l.skipGap.cursor ·)) : mark.required = false := by
    rw [hf] at hmark
    exact h.optional m? hk mark (Option.filter_eq_some_iff.1 hmark).1
  rcases List.mem_cons.1 hm with rfl | hm
  · exact kept List.mem_cons_self rfl
  · obtain ⟨m?, hk, rfl⟩ := List.mem_map.1 hm
    exact kept (List.mem_cons_of_mem _ hk) rfl

/-- Places are forgotten without harm if no key had to start at them. -/
theorem dropStale_kept (h : ∀ mark? ∈ l.key :: l.outerKeys, ∀ mark ∈ mark?,
    mark.required = false ∨ isStale l.skipGap.cursor mark = false) :
    l.skipGap.dropStale = .ok l.gathered := by
  have none : ((l.key :: l.outerKeys).any fun mark? =>
      mark?.any (isStale l.skipGap.cursor) && mark?.any KeyMark.required) = false := by
    refine List.any_eq_false.2 fun mark? hm => ?_
    rw [Bool.and_eq_true]
    rintro ⟨stale, required⟩
    cases mark? with
    | none => cases required
    | some mark =>
      rcases h _ hm mark rfl with optional | fresh
      · exact absurd required (Bool.eq_false_iff.1 optional)
      · exact absurd stale (Bool.eq_false_iff.1 fresh)
  unfold dropStale
  exact if_neg (Bool.eq_false_iff.1 none)

theorem dropStale_gathered (h : Ready l depth text kinds) :
    l.skipGap.dropStale = .ok l.gathered :=
  dropStale_kept fun mark? hm mark hk => .inl (h.optional mark? hm mark hk)

theorem unwind_ready (h : Ready l depth text kinds) (column : Nat) : l.unwind column = l := by
  unfold unwind
  rw [h.outer]
  split <;> rfl

theorem step_eq {m : Lexer} (hd : l.skipGap.dropStale = .ok m)
    (hu : m.unwind m.cursor.column = m) :
    l.step = match m.cursor.rest with
      | [] => m.textEnd
      | c :: rest => m.tokenAt c rest := by
  unfold step
  rw [hd]
  dsimp only [bind, Except.bind]
  generalize m.unwind m.cursor.column = n at hu ⊢
  subst hu
  rfl

/-- The next step of the lexer is the token behind the white space. -/
theorem step_of_starts {gap : List Char} {c : Char} (hg : ∀ d ∈ gap, isGap d = true)
    (hc : Starts c) (h : Ready l depth (gap ++ c :: rest) kinds) :
    l.step = l.gathered.tokenAt c rest := by
  have ready := gathered_ready hg (by rintro d ⟨⟩; exact hc) h
  rw [step_eq (dropStale_gathered h) (unwind_ready ready _), ready.rest]

/-- Inside flow collections white space changes nothing about where a key may start. -/
theorem gathered_keyAllowed (h : l.keyAllowed = true) : l.gathered.keyAllowed = true := by
  show (l.keyAllowed || _) = true
  rw [h, Bool.true_or]

/-! ## Ways -/

/-- After `n` more tokens the lexer is in a state from where it goes on. -/
def Leads (l : Lexer) (n : Nat) (next : Lexer) : Prop :=
  ∀ fuel, l.run (fuel + n) = next.run fuel

theorem Leads.trans {first second third : Lexer} {m n : Nat} (h : Leads first m second)
    (h' : Leads second n third) : Leads first (m + n) third := fun fuel => by
  rw [Nat.add_comm m, ← Nat.add_assoc, h, h']

theorem Leads.step {next : Lexer} {kind : TokenKind} (hs : l.step = .ok next)
    (hn : next.reversed.map (·.kind) = kind :: kinds) (hk : kind ≠ .textEnd) : Leads l 1 next := by
  intro fuel
  have other : next.reversed.head?.any (·.kind == .textEnd) = false := by
    cases hr : next.reversed with
    | nil => rfl
    | cons token tokens =>
      rw [hr] at hn
      have first : token.kind = kind := (List.cons.inj hn).1
      simpa [first] using hk
  rw [run, hs]
  dsimp only
  rw [other, if_neg Bool.false_ne_true]

theorem Leads.one {next : Lexer} {kind : TokenKind} (hs : l.step = .ok next)
    (hn : Ready next depth text (kind :: kinds)) (hk : kind ≠ .textEnd) : Leads l 1 next :=
  .step hs hn.kinds hk

/-- The lexer takes at most one step for each character of a part, and stands in front of the
rest with tokens of the given kinds. -/
def Passes (l : Lexer) (part : List Char) (depth : Nat) (fresh : Bool) (rest : List Char)
    (kinds : List TokenKind) : Prop :=
  ∃ n next, n ≤ part.length ∧ Leads l n next ∧ At next depth fresh rest kinds

theorem Passes.append {first second : List Char} {depth' : Nat} {fresh fresh' : Bool}
    {rest' : List Char} {kinds' : List TokenKind} (h : Passes l first depth fresh rest kinds)
    (h' : ∀ {next : Lexer}, At next depth fresh rest kinds →
      Passes next second depth' fresh' rest' kinds') :
    Passes l (first ++ second) depth' fresh' rest' kinds' := by
  obtain ⟨m, middle, hm, leads, at_⟩ := h
  obtain ⟨n, last, hn, leads', at'⟩ := h' at_
  exact ⟨m + n, last, by rw [List.length_append]; omega, leads.trans leads', at'⟩

theorem Passes.space {space : List Char} {fresh : Bool} (hs : ∀ c ∈ space, isGap c = true)
    (h : At l depth fresh (space ++ rest) kinds) : Passes l space depth fresh rest kinds :=
  ⟨0, l, Nat.zero_le _, fun _ => rfl, h.skip hs⟩

/-- A token is passed if the lexer can take it, wherever white space stands before it. -/
theorem Passes.token {c : Char} {part : List Char} {fresh : Bool} {depth' : Nat} {fresh' : Bool}
    {kind : TokenKind} (hc : Starts c) (hk : kind ≠ .textEnd)
    (h : At l depth fresh (c :: (part ++ rest)) kinds)
    (ht : ∀ {l : Lexer}, Ready l depth (c :: (part ++ rest)) kinds →
      (fresh = true → l.keyAllowed = true) → ∃ next, l.tokenAt c (part ++ rest) = .ok next ∧
        (∃ here, Ready next depth' here (kind :: kinds) ∧
          here.dropWhile isGap = rest.dropWhile isGap) ∧
        (fresh' = true → next.keyAllowed = true)) :
    Passes l (c :: part) depth' fresh' rest (kind :: kinds) := by
  obtain ⟨⟨here, ready, same⟩, allowed⟩ := h
  obtain ⟨gap, hg, split⟩ := gap_split here
  rw [same, dropWhile_starts (by rintro d ⟨⟩; exact hc)] at split
  rw [split] at ready
  have at_ := gathered_ready hg (by rintro d ⟨⟩; exact hc) ready
  obtain ⟨next, taken, ⟨there, ready', same'⟩, allowed'⟩ :=
    ht at_ fun hf => gathered_keyAllowed (allowed hf)
  have step := (step_of_starts hg hc ready).trans taken
  refine ⟨1, next, by rw [List.length_cons]; omega, Leads.one step ready' hk, ?_⟩
  exact ⟨⟨there, ready', same'⟩, allowed'⟩

/-! ## Tokens -/

theorem dropKey_ready (h : Ready l depth text kinds) : l.dropKey = .ok { l with key := none } := by
  unfold dropKey
  split
  · rename_i mark hm
    have optional := h.optional l.key List.mem_cons_self mark hm
    rw [optional, if_neg Bool.false_ne_true]
  · rename_i hm
    rw [← hm]

/-- A place where a key may start is noted, and never as one where a key has to start. -/
theorem markKey_ready (h : Ready l depth text kinds) :
    ∃ next, l.markKey = .ok next ∧ Ready next depth text kinds ∧ next.cursor = l.cursor ∧
      (l.keyAllowed = true → next.key = some ⟨l.count, false, l.cursor.line, l.cursor.column,
        l.cursor.offset, l.cursor.position⟩) := by
  unfold markKey
  cases allowed : l.keyAllowed with
  | false => exact ⟨l, rfl, h, rfl, nofun⟩
  | true =>
    have optional : (!({ l with key := none } : Lexer).inFlow && l.indent == l.cursor.column) =
        false := by
      have outside : l.indent ≠ l.cursor.column := by
        have := h.indent
        have := h.column
        omega
      rw [beq_eq_false_iff_ne.2 outside, Bool.and_false]
    let mark : KeyMark :=
      ⟨l.count, false, l.cursor.line, l.cursor.column, l.cursor.offset, l.cursor.position⟩
    refine ⟨{ l with key := some mark }, ?_, ?_, rfl, fun _ => rfl⟩
    · rw [if_pos rfl, dropKey_ready h]
      show Except.ok _ = _
      rw [optional, allowed]
    · refine ⟨h.rest, h.kinds, h.count, h.indent, h.outer, h.column, h.depth, ?_⟩
      rintro mark? (_ | ⟨_, hm⟩)
      · rintro m ⟨⟩
        rfl
      · exact h.optional mark? (List.mem_cons_of_mem _ hm)

theorem openFlow_ready {c : Char} (h : Ready l depth (c :: rest) kinds) (kind : TokenKind) :
    ∃ next, l.openFlow kind = .ok next ∧ Ready next (depth + 1) rest (kind :: kinds) ∧
      next.keyAllowed = true := by
  obtain ⟨marked, hm, ready, -⟩ := markKey_ready h
  have opened : Ready { marked with
      keyAllowed := true, key := none, outerKeys := marked.key :: marked.outerKeys }
      (depth + 1) ([c] ++ rest) kinds := by
    refine ⟨ready.rest, ready.kinds, ready.count, ready.indent, ready.outer, ready.column,
      congrArg (· + 1) ready.depth, ?_⟩
    rintro mark? (_ | ⟨_, hm⟩)
    · exact nofun
    · exact ready.optional mark? hm
  refine ⟨_, ?_, opened.take kind rfl, rfl⟩
  unfold openFlow
  rw [hm]
  rfl

theorem closeFlow_ready {c : Char} (h : Ready l (depth + 1) (c :: rest) kinds)
    (kind : TokenKind) :
    ∃ next, l.closeFlow kind = .ok next ∧ Ready next depth rest (kind :: kinds) := by
  have deep := h.depth
  have optional := h.optional
  unfold closeFlow
  rw [dropKey_ready h]
  cases hk : l.outerKeys with
  | nil =>
    rw [hk] at deep
    cases deep
  | cons key outerKeys =>
    rw [hk] at deep optional
    have closed : Ready { l with keyAllowed := false, key := key, outerKeys := outerKeys }
        depth ([c] ++ rest) kinds :=
      ⟨h.rest, h.kinds, h.count, h.indent, h.outer, h.column, Nat.succ.inj deep,
        fun mark? hm => optional mark? (List.mem_cons_of_mem _ hm)⟩
    exact ⟨_, rfl, closed.take kind rfl⟩

theorem flowEntry_ready {c : Char} (h : Ready l depth (c :: rest) kinds) :
    ∃ next, l.flowEntry = .ok next ∧ Ready next depth rest (.flowEntry :: kinds) ∧
      next.keyAllowed = true := by
  have comma : Ready { l with keyAllowed := true, key := none } depth ([c] ++ rest) kinds :=
    (h.allow true).unkey
  refine ⟨_, ?_, comma.take .flowEntry rfl, rfl⟩
  unfold flowEntry
  rw [dropKey_ready (h.allow true)]
  rfl

theorem Ready.count_eq (h : Ready l depth text kinds) : l.count = kinds.length := by
  rw [h.count, ← h.kinds, List.length_map]

theorem Ready.inFlow (h : Ready l depth text kinds) : l.inFlow = (depth != 0) := by
  have deep := h.depth
  unfold Lexer.inFlow
  cases hk : l.outerKeys with
  | nil =>
    rw [hk] at deep
    subst deep
    rfl
  | cons key outerKeys =>
    rw [hk] at deep
    subst deep
    rfl

/-! ## Scalars -/

/-- A string is one token. A key may have started with it, where keys are allowed. -/
theorem quotedScalar_ready {pieces : List Piece} (hs : ∀ piece ∈ pieces, piece.Spelled)
    (ha : ∀ piece ∈ pieces, piece.Admitted)
    (h : Ready l depth (quote pieces ++ rest) kinds) :
    ∃ next, l.quotedScalar true = .ok next ∧
      Ready next depth rest (.scalar (textOf pieces) .marked :: kinds) ∧
      next.cursor = l.cursor.forward (quote pieces).length ∧
      (l.keyAllowed = true → next.key = some ⟨kinds.length, false, l.cursor.line,
        l.cursor.column, l.cursor.offset, l.cursor.position⟩) := by
  obtain ⟨marked, hm, ready, cursor, key⟩ := markKey_ready h
  have behind : marked.cursor.rest.drop 1 = pieces.flatMap Piece.text ++ '"' :: rest := by
    rw [ready.rest, quote, List.cons_append, List.drop_one, List.tail_cons, List.append_assoc]
    rfl
  have width : (pieces.flatMap Piece.text).length + 1 + 1 = (quote pieces).length := by
    simp [quote]
  refine ⟨_, ?_, (ready.allow false).take (.scalar (textOf pieces) .marked) width, ?_, ?_⟩
  · unfold quotedScalar
    rw [hm]
    simp only [bind, Except.bind]
    rw [behind, betweenQuotes_quoted hs ha]
    rfl
  · show marked.cursor.forward _ = _
    rw [cursor, width]
  · intro allowed
    rw [← h.count_eq]
    exact key allowed

/-- A number or a word is one token. -/
theorem plainScalar_ready {word : List Char} (hw : ∀ c ∈ word, isWordChar c = true)
    (hr : EndsItem (depth != 0) rest) (h : Ready l depth (word ++ rest) kinds) :
    ∃ next, l.plainScalar = .ok next ∧
      ∃ here, Ready next depth here (.scalar (String.ofList word) .plain :: kinds) ∧
        here.dropWhile isGap = rest.dropWhile isGap := by
  obtain ⟨marked, hm, ready, -, -⟩ := markKey_ready h
  have text : plain marked.inFlow marked.indent marked.cursor.rest = (word, word.length) := by
    rw [ready.rest, ready.inFlow]
    exact plain_word hw hr
  have taken := ready.take (.scalar (String.ofList word) .plain) rfl
  -- the white space behind the scalar is passed over with it
  have split := List.takeWhile_append_dropWhile (p := fun c => c == ' ' || isBreak c) (l := rest)
  have passed := (split ▸ taken).forward
  refine ⟨_, ?_, _, passed.allow ((rest.takeWhile fun c => c == ' ' || isBreak c).any isBreak), ?_⟩
  · unfold plainScalar
    rw [hm]
    dsimp only [bind, Except.bind]
    rw [text]
    dsimp only
    rw [taken.rest]
    rfl
  · obtain ⟨gap, hg, same⟩ := gap_split rest
    have blank : ∀ c ∈ gap, (c == ' ' || isBreak c) = true := by
      intro c hc
      have white := hg c hc
      simp only [isGap, Bool.or_eq_true, beq_iff_eq] at white
      rcases white with (rfl | rfl) | rfl <;> decide
    have stops : (rest.dropWhile isGap).dropWhile (fun c => c == ' ' || isBreak c) =
        rest.dropWhile isGap := by
      rcases hr with empty | ⟨-, c, more, shape, closing⟩
      · rw [empty]
        rfl
      · rw [shape, List.dropWhile_cons_of_neg]
        rcases closing with rfl | rfl | rfl <;> decide
    have here : rest.dropWhile (fun c => c == ' ' || isBreak c) = rest.dropWhile isGap := by
      conv => lhs; rw [same, List.dropWhile_append_of_pos blank, stops]
    rw [here]
    rcases hr with empty | ⟨-, c, more, shape, closing⟩
    · rw [empty]
      rfl
    · rw [shape, List.dropWhile_cons_of_neg]
      rcases closing with rfl | rfl | rfl <;> decide

theorem tokenAt_plain {c : Char} (hs : startsPlain l.inFlow c rest = true)
    (hm : l.cursor.column ≠ 1 ∨ atDocumentMark (c :: rest) = false) :
    l.tokenAt c rest = l.plainScalar := by
  obtain ⟨⟨space, line, other⟩, hyphen, ask⟩ := startsPlain_cases hs
  simp only [List.forall_mem_cons] at other
  have mark : (l.cursor.column == 1 && atDocumentMark (c :: rest)) = false := by
    rcases hm with column | alone
    · simp [column]
    · simp [alone]
  have entry : ((c = '-' : Bool) && atBlank rest) = false := by
    by_cases same : c = '-'
    · rw [hyphen same, Bool.and_false]
    · simp [same]
  have asks {d : Char} (hd : d = '?' ∨ d = ':') :
      ((c = d : Bool) && (l.inFlow || atBlank rest)) = false := by
    by_cases same : c = d
    · obtain ⟨flow, blank⟩ := ask (same ▸ hd)
      rw [flow, blank, Bool.or_self, Bool.and_false]
    · simp [same]
  simp [tokenAt, other, mark, hs, entry, asks (.inl rfl), asks (.inr rfl)]

theorem tokenAt_alphanum {c : Char} (hc : c.isAlphanum = true) :
    l.tokenAt c rest = l.plainScalar :=
  tokenAt_plain (startsPlain_alphanum hc rest) (.inr (atDocumentMark_alphanum hc rest))

/-- A minus sign in front of a digit starts a number. -/
theorem tokenAt_minus {d : Char} (hd : d.isDigit = true) :
    l.tokenAt '-' (d :: rest) = l.plainScalar := by
  have word : isWordChar d = true := by
    rw [isWordChar, Char.isAlphanum, hd, Bool.or_true]
    rfl
  have blank : atBlank (d :: rest) = false := by
    have space : d ≠ ' ' := wordChar_ne word (by decide)
    have tab : d ≠ '\t' := wordChar_ne word (by decide)
    simp [atBlank, endsOr, isBlank, isBreak_wordChar word, space, tab]
  refine tokenAt_plain (by simp [startsPlain, blank]) (.inr ?_)
  unfold atDocumentMark
  split
  · cases ‹_ = _›
    exact absurd hd (by decide)
  · cases ‹_ = _›
  · rfl

/-! ## Labels -/

theorem isBreak_piece {piece : Piece} (hs : piece.Spelled) (ha : piece.Admitted) :
    ∀ c ∈ piece.text, isBreak c = false := by
  cases piece with
  | raw c =>
    intro d hd
    rw [List.mem_singleton.1 hd]
    exact ha.2
  | short letter =>
    have letters : ∀ letter ∈ Notation.shorts.map (·.1), isBreak letter = false :=
      List.all_iff_forall_prop.1 (by decide)
    intro d hd
    rcases List.mem_cons.1 hd with rfl | hd
    · decide
    · rw [List.mem_singleton.1 hd]
      exact letters letter hs
  | code digits =>
    intro d hd
    rcases List.mem_cons.1 hd with rfl | hd
    · decide
    · rcases List.mem_cons.1 hd with rfl | hd
      · decide
      · have range := Text.Numeral.isFigure_cases (hs.2 d hd)
        refine Bool.eq_false_iff.2 fun line => ?_
        have code := isBreak_code line
        omega

theorem isBreak_quote {pieces : List Piece} (hs : ∀ piece ∈ pieces, piece.Spelled)
    (ha : ∀ piece ∈ pieces, piece.Admitted) : ∀ c ∈ quote pieces, isBreak c = false := by
  intro c hc
  rcases List.mem_cons.1 hc with rfl | hc
  · decide
  · rcases List.mem_append.1 hc with hc | hc
    · obtain ⟨piece, hm, hc⟩ := List.mem_flatMap.1 hc
      exact isBreak_piece (hs piece hm) (ha piece hm) c hc
    · rw [List.mem_singleton.1 hc]
      decide

/-- A token for a key is put in front of the last one. -/
theorem insertAt_ready {scalar : TokenKind} (h : Ready l depth text (scalar :: kinds))
    {index : Nat} (hi : index = kinds.length) {token : Token} (ht : token.kind = .key) :
    Ready (l.insertAt index [token]) depth text (scalar :: .key :: kinds) := by
  have behind : l.count - index = 1 := by
    rw [h.count_eq, hi, List.length_cons]
    omega
  obtain ⟨last, others, hr⟩ : ∃ last others, l.reversed = last :: others :=
    List.exists_cons_of_ne_nil fun empty => by
      have same := h.kinds
      rw [empty] at same
      cases same
  have same := h.kinds
  have count := h.count
  rw [hr] at same count
  refine ⟨h.rest, ?_, ?_, h.indent, h.outer, h.column, h.depth, h.optional⟩
  · unfold insertAt
    rw [behind, hr]
    show last.kind :: token.kind :: others.map (·.kind) = _
    have first : last.kind = scalar := (List.cons.inj same).1
    rw [ht, first, (List.cons.inj same).2]
  · unfold insertAt
    rw [behind, hr]
    show l.count + 1 = others.length + 1 + 1
    rw [count, List.length_cons]

/-- A colon behind a key turns the token before it into the key. -/
theorem value_ready {c : Char} {scalar : TokenKind} {mark : KeyMark}
    (h : Ready l (depth + 1) (c :: rest) (scalar :: kinds)) (hk : l.key = some mark)
    (hi : mark.index = kinds.length) :
    ∃ next, l.value = .ok next ∧
      Ready next (depth + 1) rest (.value :: scalar :: .key :: kinds) := by
  have ready := (h.allow false).unkey
  let key : Token := ⟨.key, mark.position, mark.position⟩
  have inserted : Ready _ (depth + 1) ([c] ++ rest) _ :=
    insertAt_ready ready hi (show key.kind = .key from rfl)
  have inFlow := ready.inFlow
  refine ⟨_, ?_, inserted.take .value rfl⟩
  unfold value
  rw [hk]
  dsimp only
  rw [inFlow]
  rfl

theorem blank_gap {space : List Char} (h : Notation.White space) :
    ∀ c ∈ Notation.blank ' ' space, isGap c = true := by
  intro c hc
  obtain ⟨d, hd, rfl⟩ := List.mem_map.1 hc
  rcases h d hd with rfl | rfl | rfl | rfl <;> decide

theorem tokenAt_quote : l.tokenAt '"' rest = l.quotedScalar true := by
  simp [tokenAt, atDocumentMark]

theorem tokenAt_colon (h : l.inFlow = true) : l.tokenAt ':' rest = l.value := by
  simp [tokenAt, atDocumentMark, h]

/-- A key is kept as long as its colon stands on its line and not too far. -/
theorem gathered_key {gap : List Char} {c : Char} {mark : KeyMark}
    (hg : ∀ d ∈ gap, isGap d = true) (hc : Starts c)
    (h : Ready l depth (gap ++ c :: rest) kinds) (hk : l.key = some mark)
    (hl : mark.line = l.cursor.line) (hb : ∀ d ∈ gap, isBreak d = false)
    (hn : l.cursor.offset + gap.length ≤ mark.offset + 1024) : l.gathered.key = some mark := by
  have moved := Cursor.forward_append h.rest
  rw [← skipGap_cursor hg (by rintro d ⟨⟩; exact hc) h.rest] at moved
  have near : isStale l.skipGap.cursor mark = false := by
    rw [isStale, moved.2.1, moved.2.2.2 hb, hl, bne_self_eq_false, Bool.false_or,
      decide_eq_false_iff_not]
    omega
  show l.key.filter (!isStale l.skipGap.cursor ·) = some mark
  rw [hk, Option.filter_some, near]
  rfl

/-- A label is passed as a key with its value to come. -/
theorem label_passes {label : Notation.Label} (hs : label.Spelled) (ha : label.Admitted)
    (h : At l (depth + 1) true (label.write ' ' ++ rest) kinds) :
    Passes l (label.write ' ') (depth + 1) false rest
      (.value :: .scalar (textOf label.name) .marked :: .key :: kinds) := by
  let gap := Notation.blank ' ' label.gap
  let behind := Notation.blank ' ' label.space ++ rest
  have text : label.write ' ' ++ rest = quote label.name ++ (gap ++ ':' :: behind) := by
    simp [Notation.Label.write, gap, behind]
  obtain ⟨⟨here, ready, same⟩, allowed⟩ := h
  obtain ⟨front, hf, split⟩ := gap_split here
  have quoteStarts : ∀ c ∈ (quote label.name ++ (gap ++ ':' :: behind)).head?, Starts c := by
    rintro c ⟨⟩
    decide
  rw [same, text, dropWhile_starts quoteStarts] at split
  rw [split] at ready
  have name := gathered_ready hf quoteStarts ready
  obtain ⟨scalar, hq, scanned, cursor, key⟩ := quotedScalar_ready hs.name ha.name name
  have key := key (gathered_keyAllowed (allowed rfl))
  have first : l.step = .ok scalar :=
    (step_of_starts hf (by decide) ready).trans (tokenAt_quote.trans hq)
  have moved := Cursor.forward_append name.rest
  rw [← cursor] at moved
  have hg : ∀ c ∈ gap, isGap c = true := blank_gap hs.gap
  have lineless : ∀ c ∈ gap, isBreak c = false := by
    intro c hc
    obtain ⟨d, hd, rfl⟩ := List.mem_map.1 hc
    split
    · decide
    · exact ha.line d hd
  have kept := gathered_key hg (by decide) scanned key
    (moved.2.2.2 (isBreak_quote hs.name ha.name)).symm lineless (by
      have near := ha.near
      have length : gap.length = label.gap.length := List.length_map _
      rw [moved.2.1]
      show _ ≤ l.gathered.cursor.offset + 1024
      omega)
  have colon := gathered_ready hg (by rintro c ⟨⟩; decide) scanned
  obtain ⟨next, hv, valued⟩ := value_ready colon kept rfl
  have second : scalar.step = .ok next :=
    (step_of_starts hg (by decide) scanned).trans ((tokenAt_colon (by rw [colon.inFlow]; rfl)).trans hv)
  have leads := (Leads.one first scanned nofun).trans (Leads.one second valued nofun)
  refine ⟨2, next, ?_, leads, valued.at.skip (blank_gap hs.space)⟩
  simp only [Notation.Label.write, quote, List.length_append, List.length_cons]
  omega

end Lexer

end ServiceModel.Yaml

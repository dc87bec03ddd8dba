/-
How the lexer goes through block collections: where it stands, which of them are open around it,
and what a key, an item and the end of the text add to the tokens.
-/
import ServiceModel.Proofs.Yaml.Lexing
import ServiceModel.Proofs.Yaml.Lines

namespace ServiceModel.Yaml

/-! ## Columns -/

/-- The column behind spaces and line feeds. -/
def columnPast (column : Nat) (gap : List Char) : Nat :=
  gap.foldl (fun column c => if c = '\n' then 1 else column + 1) column

namespace Cursor

theorem forward_column {gap rest : List Char} (hg : ∀ c ∈ gap, c = ' ' ∨ c = '\n') :
    ∀ {cursor : Cursor}, cursor.rest = gap ++ rest →
      (cursor.forward gap.length).column = columnPast cursor.column gap := by
  induction gap with
  | nil => exact fun _ => rfl
  | cons c gap ih =>
    have ih := @ih fun d hd => hg d (List.mem_cons_of_mem _ hd)
    rintro ⟨text, line, column, offset⟩ rfl
    rcases hg c List.mem_cons_self with rfl | rfl
    · exact @ih ⟨gap ++ rest, line, column + 1, offset + 1⟩ rfl
    · exact @ih ⟨gap ++ rest, line + 1, 1, offset + 1⟩ rfl

/-- Inside a line the column never falls. -/
theorem column_le_forward {part rest : List Char} (hl : ∀ c ∈ part, isBreak c = false) :
    ∀ {cursor : Cursor}, cursor.rest = part ++ rest →
      cursor.column ≤ (cursor.forward part.length).column := by
  induction part with
  | nil => exact fun _ => Nat.le_refl _
  | cons c part ih =>
    have ih := @ih fun d hd => hl d (List.mem_cons_of_mem _ hd)
    rintro ⟨text, line, column, offset⟩ rfl
    have step : (Cursor.mk (c :: (part ++ rest)) line column offset).next.rest = part ++ rest ∧
        column ≤ (Cursor.mk (c :: (part ++ rest)) line column offset).next.column := by
      have inLine := hl c List.mem_cons_self
      simp only [next, inLine, Bool.false_and, Bool.false_eq_true, if_false]
      split
      · exact ⟨rfl, Nat.le_refl _⟩
      · exact ⟨rfl, Nat.le_succ _⟩
    exact Nat.le_trans step.2 (ih step.1)

end Cursor

namespace Lexer

/-! ## States -/

/-- The lexer stands in a column in front of a text, inside the block collections at the given
columns, the innermost first, and with `depth` flow collections open. It has added tokens of the
given kinds, the last one first. -/
structure Stands (l : Lexer) (column : Nat) (text : List Char) (blocks : List Nat) (depth : Nat)
    (kinds : List TokenKind) : Prop where
  rest : l.cursor.rest = text
  column : l.cursor.column = column
  blocks : l.indent :: l.outer = blocks
  depth : l.outerKeys.length = depth
  kinds : l.reversed.map (·.kind) = kinds
  count : l.count = l.reversed.length

/-- There is no place where a key has to start. -/
def Free (l : Lexer) : Prop :=
  ∀ mark? ∈ l.key :: l.outerKeys, ∀ mark ∈ mark?, mark.required = false

/-- The lexer stands somewhere, no key has to start anywhere, and here one may or may not. -/
structure Rests (l : Lexer) (column : Nat) (text : List Char) (blocks : List Nat) (depth : Nat)
    (kinds : List TokenKind) (allowed : Bool) : Prop extends
    Stands l column text blocks depth kinds where
  free : Free l
  allowed : l.keyAllowed = allowed

/-- Spaces and line feeds. -/
def Fill (gap : List Char) : Prop := ∀ c ∈ gap, c = ' ' ∨ c = '\n'

instance (gap : List Char) : Decidable (Fill gap) :=
  List.decidableBAll (fun c => c = ' ' ∨ c = '\n') gap

variable {l : Lexer} {column depth indent : Nat} {text rest gap front word : List Char}
  {blocks outer : List Nat} {kinds : List TokenKind} {allowed : Bool}

theorem Stands.inFlow (h : Stands l column text blocks depth kinds) :
    l.inFlow = (depth != 0) := by
  have deep := h.depth
  unfold Lexer.inFlow
  cases hk : l.outerKeys with
  | nil =>
    rw [hk] at deep
    subst deep
    rfl
  | cons key outerKeys =>
    rw [hk] at deep
    subst deep
    rfl

theorem Stands.indent_eq (h : Stands l column text (indent :: outer) depth kinds) :
    l.indent = indent := (List.cons.inj h.blocks).1

theorem Stands.count_eq (h : Stands l column text blocks depth kinds) :
    l.count = kinds.length := by
  rw [h.count, ← h.kinds, List.length_map]

theorem Stands.take {part : List Char} (h : Stands l column (part ++ rest) blocks depth kinds)
    (hl : ∀ c ∈ part, isBreak c = false) (kind : TokenKind) :
    ∃ column', column ≤ column' ∧
      Stands (l.take kind part.length) column' rest blocks depth (kind :: kinds) := by
  have moved := Cursor.forward_append h.rest
  refine ⟨_, h.column ▸ Cursor.column_le_forward hl h.rest, moved.1, rfl, h.blocks, h.depth, ?_, ?_⟩
  · simp [Lexer.take, push, h.kinds]
  · simp [Lexer.take, push, h.count]

theorem Stands.takeOne {c : Char} (h : Stands l column (c :: rest) blocks depth kinds)
    (hl : isBreak c = false) (kind : TokenKind) :
    ∃ column', column ≤ column' ∧
      Stands (l.take kind 1) column' rest blocks depth (kind :: kinds) :=
  @Stands.take l column depth rest blocks kinds [c] h (List.forall_mem_singleton.2 hl) kind

theorem Stands.past (h : Stands l column (gap ++ rest) blocks depth kinds) (hg : Fill gap) :
    Stands { l with cursor := l.cursor.forward gap.length } (columnPast column gap) rest blocks
      depth kinds :=
  ⟨(Cursor.forward_append h.rest).1, h.column ▸ Cursor.forward_column hg h.rest, h.blocks, h.depth,
    h.kinds, h.count⟩

theorem start_rests (text : List Char) : Rests (Lexer.start text) 1 text [0] 0 [] true :=
  ⟨⟨rfl, rfl, rfl, rfl, rfl, rfl⟩, by simp [Free, Lexer.start], rfl⟩

theorem free_of_outer (hk : l.key = none)
    (hf : ∀ mark? ∈ l.outerKeys, ∀ mark ∈ mark?, mark.required = false) : Free l := by
  intro mark? hm
  rcases List.mem_cons.1 hm with rfl | hm
  · rw [hk]
    exact nofun
  · exact hf mark? hm

/-! ## The way to the next token -/

/-- What the lexer passes in front of a text. -/
structure Fills (front text : List Char) : Prop where
  fill : Fill front
  unmarked : (front ++ text).head? ≠ some byteOrderMark

theorem Fill.isGap (hg : Fill gap) : ∀ c ∈ gap, isGap c = true := by
  intro c hc
  rcases hg c hc with rfl | rfl <;> decide

theorem Fill.fills {c : Char} (hg : Fill (c :: gap)) (text : List Char) :
    Fills (c :: gap) text := by
  refine ⟨hg, fun head => ?_⟩
  cases head
  rcases hg _ List.mem_cons_self with same | same <;> exact absurd same (by decide)

theorem fills_nil {c : Char} (hc : c ≠ byteOrderMark) (text : List Char) :
    Fills [] (c :: text) :=
  ⟨fun _ hd => absurd hd List.not_mem_nil, fun head => hc (Option.some.inj head)⟩

theorem Stands.gathered (h : Stands l column (front ++ rest) blocks depth kinds)
    (hp : Fills front rest) (hr : ∀ c ∈ rest.head?, Halts c) :
    Stands l.gathered (columnPast column front) rest blocks depth kinds ∧
      l.gathered.keyAllowed = (l.keyAllowed || (front.any isBreak && depth == 0)) := by
  have passed := skipGap_eq hp.fill.isGap hr (h.rest ▸ hp.unmarked) h.rest
  have stands := h.past hp.fill
  refine ⟨⟨?_, ?_, ?_, ?_, ?_, ?_⟩, ?_⟩
  · show l.skipGap.cursor.rest = rest
    rw [passed]
    exact stands.rest
  · show l.skipGap.cursor.column = _
    rw [passed]
    exact stands.column
  · exact h.blocks
  · exact (List.length_map _).trans h.depth
  · exact h.kinds
  · exact h.count
  · show l.skipGap.keyAllowed = _
    rw [passed, h.inFlow]
    simp [bne]

theorem Free.gathered (hf : Free l) : Free l.gathered := by
  have kept {mark? : Option KeyMark} (hm : mark? ∈ l.key :: l.outerKeys) :
      ∀ mark ∈ mark?.filter (!isStale l.skipGap.cursor ·), mark.required = false :=
    fun mark hk => hf mark? hm mark (Option.filter_eq_some_iff.1 hk).1
  intro mark? hm
  rcases List.mem_cons.1 hm with rfl | hm
  · exact kept List.mem_cons_self
  · obtain ⟨m?, hk, rfl⟩ := List.mem_map.1 hm
    exact kept (List.mem_cons_of_mem _ hk)

theorem Rests.gathered (h : Rests l column (front ++ rest) blocks depth kinds allowed)
    (hp : Fills front rest) (hr : ∀ c ∈ rest.head?, Halts c) :
    Rests l.gathered (columnPast column front) rest blocks depth kinds
      (allowed || (front.any isBreak && depth == 0)) := by
  obtain ⟨stands, may⟩ := h.toStands.gathered hp hr
  exact ⟨stands, h.free.gathered, may.trans (by rw [h.allowed])⟩

/-- The next step takes the token behind the gap, if it does not stand outside of the block. -/
theorem Stands.step_eq {c : Char}
    (h : Stands l column (front ++ c :: rest) (indent :: outer) depth kinds)
    (hp : Fills front (c :: rest)) (hc : Halts c) (hd : l.skipGap.dropStale = .ok l.gathered)
    (hi : depth ≠ 0 ∨ indent ≤ columnPast column front) :
    l.step = l.gathered.tokenAt c rest := by
  obtain ⟨stands, -⟩ := h.gathered hp (by rintro d ⟨⟩; exact hc)
  have stays : l.gathered.unwind l.gathered.cursor.column = l.gathered := by
    unfold unwind
    split
    · rfl
    · rename_i block
      have shallow : depth = 0 := by
        rw [stands.inFlow] at block
        simpa using block
      have inside : ¬ l.gathered.cursor.column < l.gathered.indent := by
        rw [stands.column, stands.indent_eq]
        exact Nat.not_lt.2 (hi.resolve_left (absurd shallow))
      cases l.gathered.outer with
      | nil => rfl
      | cons next outer => rw [closeBlocks, if_neg inside]
  rw [Lexer.step_eq hd stays, stands.rest]

theorem Rests.step_eq {c : Char}
    (h : Rests l column (front ++ c :: rest) (indent :: outer) depth kinds allowed)
    (hp : Fills front (c :: rest)) (hc : Halts c)
    (hi : depth ≠ 0 ∨ indent ≤ columnPast column front) :
    l.step = l.gathered.tokenAt c rest :=
  h.toStands.step_eq hp hc
    (dropStale_kept fun mark? hm mark hk => .inl (h.free mark? hm mark hk)) hi

/-! ## Plain scalars -/

/-- The place where the lexer stands, as one where a key may start. -/
def here (l : Lexer) : KeyMark :=
  ⟨l.count, !l.inFlow && l.indent == l.cursor.column, l.cursor.line, l.cursor.column,
    l.cursor.offset, l.cursor.position⟩

/-- The place that the lexer has in mind behind a token that may be a key. -/
def marked (l : Lexer) : Option KeyMark := if l.keyAllowed then some l.here else l.key

/-- The lexer behind a plain scalar and the gap after it. -/
def pastScalar (l : Lexer) (word gap : List Char) : Lexer :=
  let taken := l.take (.scalar (String.ofList word) .plain) word.length
  { taken with
    cursor := taken.cursor.forward gap.length,
    keyAllowed := gap.any isBreak,
    key := l.marked }

theorem pastScalar_key (ha : l.keyAllowed = true) (word gap : List Char) :
    (l.pastScalar word gap).key = some l.here := by
  show l.marked = _
  exact if_pos ha

theorem dropKey_free (hf : Free l) : l.dropKey = .ok { l with key := none } := by
  unfold dropKey
  split
  · rename_i mark hk
    rw [hf _ List.mem_cons_self mark hk, if_neg Bool.false_ne_true]
  · rename_i hk
    rw [← hk]

theorem markKey_free (hf : Free l) : l.markKey = .ok { l with key := l.marked } := by
  unfold markKey marked
  rw [dropKey_free hf]
  split <;> rfl

/-- A place that is noted is none where a key has to start, unless it is in the column of the
block. -/
theorem Rests.marked (h : Rests l column text (indent :: outer) depth kinds allowed)
    (ho : depth ≠ 0 ∨ indent < column) : ∀ mark ∈ l.marked, mark.required = false := by
  intro mark hk
  unfold Lexer.marked at hk
  split at hk
  · cases hk
    rw [here, h.inFlow, h.indent_eq, h.column]
    rcases ho with flow | beyond
    · simp [flow]
    · simp [beq_eq_false_iff_ne.2 (Nat.ne_of_lt beyond)]
  · exact h.free _ List.mem_cons_self mark hk

theorem plainScalar_eq (hf : Free l) (hr : l.cursor.rest = word ++ (gap ++ rest))
    (hp : plain l.inFlow l.indent l.cursor.rest = (word, word.length))
    (hg : Fill gap) (hh : ∀ c ∈ rest.head?, Halts c) :
    l.plainScalar = .ok (l.pastScalar word gap) := by
  have stops : rest.takeWhile (fun c => c == ' ' || isBreak c) = [] := by
    cases rest with
    | nil => rfl
    | cons c rest =>
      obtain ⟨space, line, -⟩ := hh c rfl
      exact List.takeWhile_cons_of_neg (by simp [space, line])
  have blank : ∀ c ∈ gap, (c == ' ' || isBreak c) = true := by
    intro c hc
    rcases hg c hc with rfl | rfl <;> decide
  have behind : (l.cursor.forward word.length).rest.takeWhile (fun c => c == ' ' || isBreak c) =
      gap := by
    rw [(Cursor.forward_append hr).1, List.takeWhile_append_of_pos blank, stops, List.append_nil]
  have spans : plain ({ l with key := l.marked } : Lexer).inFlow l.indent l.cursor.rest =
    (word, word.length) := hp
  unfold plainScalar
  rw [markKey_free hf]
  simp only [bind, Except.bind]
  rw [spans]
  show Except.ok _ = _
  simp only [pastScalar, take, push, behind]

theorem halts_of_starts {flow : Bool} {c : Char} (h : startsPlain flow c rest = true) :
    Halts c := by
  obtain ⟨⟨space, line, other⟩, -⟩ := startsPlain_cases h
  exact ⟨space, line, other '#' (by decide)⟩

/-- The lexer takes the plain scalar in front of which it stands. -/
theorem step_pastScalar
    (h : Rests l column (front ++ (word ++ (gap ++ rest))) (indent :: outer) depth kinds allowed)
    (hs : Spans (depth != 0) indent word (gap ++ rest))
    (hp : Fills front (word ++ (gap ++ rest)))
    (hi : depth ≠ 0 ∨ indent ≤ columnPast column front)
    (hn : columnPast column front ≠ 1 ∨ atDocumentMark (word ++ (gap ++ rest)) = false)
    (hg : Fill gap) (hh : ∀ c ∈ rest.head?, Halts c) :
    Rests l.gathered (columnPast column front) (word ++ (gap ++ rest)) (indent :: outer) depth kinds
      (allowed || (front.any isBreak && depth == 0)) ∧
      l.step = .ok (l.gathered.pastScalar word gap) ∧
      ∃ column', columnPast column front ≤ column' ∧
        Stands (l.gathered.pastScalar word gap) (columnPast column' gap) rest (indent :: outer)
          depth (.scalar (String.ofList word) .plain :: kinds) := by
  obtain ⟨c, more, rfl, starts⟩ := hs.starts
  have halts := halts_of_starts starts
  have stands := h.gathered hp (by rintro d ⟨⟩; exact halts)
  rw [← stands.inFlow] at starts
  have taken := h.step_eq hp halts hi
  have scalar := plainScalar_eq stands.free stands.rest
    (by rw [stands.rest, stands.inFlow, stands.indent_eq]; exact hs.whole) hg hh
  have plain := tokenAt_plain starts (by rw [stands.column]; exact hn)
  obtain ⟨column', moved, behind⟩ :=
    stands.take hs.line (.scalar (String.ofList (c :: more)) .plain)
  have passed := behind.past hg
  refine ⟨stands, taken.trans (plain.trans scalar), column', moved, ?_⟩
  exact ⟨passed.rest, passed.column, passed.blocks, passed.depth, passed.kinds, passed.count⟩

/-- Behind a plain scalar beyond the column of the block no key has to start. -/
theorem Rests.pastScalar (h : Rests l column text (indent :: outer) depth kinds allowed)
    (hi : depth ≠ 0 ∨ indent < column) (word gap : List Char) : Free (l.pastScalar word gap) := by
  intro mark? hm
  rcases List.mem_cons.1 hm with rfl | hm
  · exact h.marked hi
  · exact h.free mark? (List.mem_cons_of_mem _ hm)

/-- A plain scalar that is no key. -/
theorem item_passes
    (h : Rests l column (front ++ (word ++ (gap ++ rest))) (indent :: outer) depth kinds allowed)
    (hs : Spans (depth != 0) indent word (gap ++ rest))
    (hp : Fills front (word ++ (gap ++ rest)))
    (hi : depth ≠ 0 ∨ indent < columnPast column front)
    (hn : columnPast column front ≠ 1 ∨ atDocumentMark (word ++ (gap ++ rest)) = false)
    (hg : Fill gap) (hh : ∀ c ∈ rest.head?, Halts c) :
    ∃ next column', columnPast column front ≤ column' ∧ Leads l 1 next ∧
      Rests next (columnPast column' gap) rest (indent :: outer) depth
        (.scalar (String.ofList word) .plain :: kinds) (gap.any isBreak) := by
  obtain ⟨stands, step, column', moved, past⟩ :=
    step_pastScalar h hs hp (hi.imp_right Nat.le_of_lt) hn hg hh
  exact ⟨_, column', moved, .step step past.kinds (by simp), past, stands.pastScalar hi _ _, rfl⟩

/-! ## Keys -/

theorem Stands.insertAt {scalar : TokenKind}
    (h : Stands l column text blocks depth (scalar :: kinds)) {index : Nat}
    (hi : index = kinds.length) (added : List Token) :
    Stands (l.insertAt index added) column text blocks depth
      (scalar :: (added.map (·.kind) ++ kinds)) := by
  have behind : l.count - index = 1 := by
    rw [h.count_eq, hi, List.length_cons]
    omega
  obtain ⟨last, others, hr⟩ : ∃ last others, l.reversed = last :: others :=
    List.exists_cons_of_ne_nil fun empty => by
      have same := h.kinds
      rw [empty] at same
      cases same
  have same := h.kinds
  have count := h.count
  rw [hr] at same count
  obtain ⟨rfl, rfl⟩ := List.cons.inj same
  refine ⟨h.rest, h.column, h.blocks, h.depth, ?_, ?_⟩
  · unfold Lexer.insertAt
    rw [behind, hr]
    simp
  · unfold Lexer.insertAt
    rw [behind, hr]
    simp [count]
    omega

/-- A colon behind a key in the column of its mapping, or in a flow collection. -/
theorem value_goes {scalar : TokenKind} {mark : KeyMark}
    (h : Stands l column (':' :: rest) (indent :: outer) depth (scalar :: kinds))
    (hk : l.key = some mark) (hi : mark.index = kinds.length)
    (hf : ∀ mark? ∈ l.outerKeys, ∀ mark ∈ mark?, mark.required = false)
    (ho : depth ≠ 0 ∨ mark.column = indent) :
    ∃ next column', column ≤ column' ∧ l.value = .ok next ∧
      Rests next column' rest (indent :: outer) depth (.value :: scalar :: .key :: kinds)
        false := by
  let known : Lexer := { l with key := none, keyAllowed := false }
  have stands : Stands known column (':' :: rest) (indent :: outer) depth (scalar :: kinds) :=
    ⟨h.rest, h.column, h.blocks, h.depth, h.kinds, h.count⟩
  have stays : (!known.inFlow && known.opensBlock mark.column) = false := by
    unfold opensBlock
    rw [stands.inFlow, stands.indent_eq]
    rcases ho with flow | same
    · simp [flow]
    · simp [same]
  obtain ⟨column', moved, taken⟩ :=
    (stands.insertAt hi [⟨.key, mark.position, mark.position⟩]).takeOne (by decide) .value
  refine ⟨_, column', moved, ?_, taken, free_of_outer rfl hf, rfl⟩
  unfold value
  rw [hk]
  show Except.ok (Lexer.take (if (!known.inFlow && known.opensBlock mark.column) = true then _
    else _) .value 1) = _
  rw [stays, if_neg Bool.false_ne_true]

/-- A colon behind a key beyond the column of the block opens a mapping. -/
theorem value_opens {scalar : TokenKind} {mark : KeyMark}
    (h : Stands l column (':' :: rest) (indent :: outer) 0 (scalar :: kinds))
    (hk : l.key = some mark) (hi : mark.index = kinds.length)
    (hf : ∀ mark? ∈ l.outerKeys, ∀ mark ∈ mark?, mark.required = false)
    (ho : indent < mark.column) :
    ∃ next column', column ≤ column' ∧ l.value = .ok next ∧
      Rests next column' rest (mark.column :: indent :: outer) 0
        (.value :: scalar :: .key :: .blockMapping :: kinds) false := by
  let known : Lexer := { l with key := none, keyAllowed := false }
  have stands : Stands (known.openBlock mark.column) column (':' :: rest)
      (mark.column :: indent :: outer) 0 (scalar :: kinds) :=
    ⟨h.rest, h.column, congrArg (mark.column :: ·) h.blocks, h.depth, h.kinds, h.count⟩
  have opens : (!known.inFlow && known.opensBlock mark.column) = true := by
    have block : known.inFlow = false := h.inFlow
    rw [block]
    exact decide_eq_true (h.indent_eq ▸ ho)
  obtain ⟨column', moved, taken⟩ := (stands.insertAt hi [⟨.key, mark.position, mark.position⟩,
    ⟨.blockMapping, mark.position, mark.position⟩]).takeOne (by decide) .value
  refine ⟨_, column', moved, ?_, taken, free_of_outer rfl hf, rfl⟩
  unfold value
  rw [hk]
  show Except.ok (Lexer.take (if (!known.inFlow && known.opensBlock mark.column) = true then _
    else _) .value 1) = _
  rw [opens, if_pos rfl]

theorem tokenAt_value (h : l.inFlow = true ∨ atBlank rest = true) :
    l.tokenAt ':' rest = l.value := by
  have either : (l.inFlow || atBlank rest) = true := (Bool.or_eq_true _ _).mpr h
  simp [tokenAt, atDocumentMark, either]

theorem skipGap_pastScalar (h : (l.pastScalar word []).cursor.rest = ':' :: rest) :
    (l.pastScalar word []).skipGap.cursor = l.cursor.forward word.length := by
  have mark : (':' :: rest).head? ≠ some byteOrderMark := by
    rintro ⟨⟩
  rw [@skipGap_eq _ (':' :: rest) [] (by simp) (by rintro c ⟨⟩; decide) (h ▸ mark) h]
  rfl

/-- What the lexer knows when it comes to the colon behind a key. -/
structure Waits (l : Lexer) (start : KeyMark) : Prop where
  step : l.step = l.gathered.value
  key : l.gathered.key = some start
  outer : ∀ mark? ∈ l.gathered.outerKeys, ∀ mark ∈ mark?, mark.required = false

section

variable
  (h : Rests l column (front ++ (word ++ ':' :: rest)) (indent :: outer) depth kinds allowed)
  (hs : Spans (depth != 0) indent word (':' :: rest)) (hp : Fills front (word ++ ':' :: rest))
  (hn : columnPast column front ≠ 1 ∨ atDocumentMark (word ++ ':' :: rest) = false)
  (ha : (allowed || (front.any isBreak && depth == 0)) = true) (hl : word.length ≤ 1024)
  (hb : depth ≠ 0 ∨ atBlank rest = true)

include h hs hp hn ha hl hb

/-- A plain scalar in front of a colon is kept as the key that it may be. -/
theorem step_waits (hi : depth ≠ 0 ∨ indent ≤ columnPast column front) :
    ∃ next start column', columnPast column front ≤ column' ∧ Leads l 1 next ∧
      Waits next start ∧ start.index = kinds.length ∧ start.column = columnPast column front ∧
      Stands next.gathered column' (':' :: rest) (indent :: outer) depth
        (.scalar (String.ofList word) .plain :: kinds) := by
  have colon : ∀ c ∈ (':' :: rest).head?, Halts c := by
    rintro c ⟨⟩
    decide
  have empty : Fills [] (':' :: rest) := fills_nil (by decide) rest
  obtain ⟨stands, step, column', moved, past⟩ :=
    @step_pastScalar _ _ _ _ _ [] _ word _ _ _ h hs hp hi hn empty.fill colon
  generalize hnext : l.gathered.pastScalar word [] = next at step past
  have text : next.cursor.rest = [] ++ ':' :: rest := past.rest
  obtain ⟨behind, -⟩ := past.gathered empty colon
  have key : next.key = some l.gathered.here := by
    rw [← hnext]
    exact pastScalar_key (stands.allowed.trans ha) word []
  have optional : ∀ mark? ∈ next.outerKeys, ∀ mark ∈ mark?, mark.required = false := by
    rw [← hnext]
    exact fun mark? hm => stands.free mark? (List.mem_cons_of_mem _ hm)
  -- the colon stands on the line of the key and not too far behind its start
  have cursor : next.skipGap.cursor = l.gathered.cursor.forward word.length := by
    rw [← hnext]
    exact skipGap_pastScalar (hnext ▸ text)
  have forward := Cursor.forward_append stands.rest
  have fresh : isStale next.skipGap.cursor l.gathered.here = false := by
    rw [cursor, isStale, forward.2.1, forward.2.2.2 hs.line, here, bne_self_eq_false,
      Bool.false_or, decide_eq_false_iff_not]
    dsimp only
    omega
  have kept : next.skipGap.dropStale = .ok next.gathered := by
    refine dropStale_kept fun mark? hm mark hk => ?_
    rcases List.mem_cons.1 hm with rfl | hm
    · rw [key] at hk
      cases hk
      exact .inr fresh
    · exact .inl (optional mark? hm mark hk)
  have taken := past.step_eq empty (colon ':' rfl) kept
    (hi.imp_right fun inside => Nat.le_trans inside moved)
  refine ⟨next, l.gathered.here, column', moved, .step step past.kinds (by simp), ⟨?_, ?_, ?_⟩,
    stands.count_eq, stands.column, behind⟩
  · refine taken.trans (tokenAt_value ?_)
    rw [behind.inFlow]
    exact hb.imp_left bne_iff_ne.2
  · show next.key.filter _ = _
    rw [key, Option.filter_some, fresh]
    rfl
  · intro mark? hm mark hk
    obtain ⟨m?, hk', rfl⟩ := List.mem_map.1 hm
    exact optional m? hk' mark (Option.filter_eq_some_iff.1 hk).1

/-- A key in the column of its mapping, or in a flow collection. -/
theorem label_goes (ho : depth ≠ 0 ∨ columnPast column front = indent) :
    ∃ next column', columnPast column front ≤ column' ∧ Leads l 2 next ∧
      Rests next column' rest (indent :: outer) depth
        (.value :: .scalar (String.ofList word) .plain :: .key :: kinds) false := by
  obtain ⟨next, start, column', moved, leads, waits, index, place, stands⟩ :=
    step_waits h hs hp hn ha hl hb (ho.imp_right fun same => Nat.le_of_eq same.symm)
  obtain ⟨last, column'', moved', value, rests⟩ :=
    value_goes stands waits.key index waits.outer (place ▸ ho)
  exact ⟨last, column'', Nat.le_trans moved moved',
    leads.trans (.step (waits.step.trans value) rests.kinds (by simp)), rests⟩

/-- A key beyond the column of the block, in a mapping of its own. -/
theorem label_opens (hd : depth = 0) (ho : indent < columnPast column front) :
    ∃ next column', columnPast column front ≤ column' ∧ Leads l 2 next ∧
      Rests next column' rest (columnPast column front :: indent :: outer) 0
        (.value :: .scalar (String.ofList word) .plain :: .key :: .blockMapping :: kinds)
        false := by
  obtain ⟨next, start, column', moved, leads, waits, index, place, stands⟩ :=
    step_waits h hs hp hn ha hl hb (.inr (Nat.le_of_lt ho))
  subst hd
  obtain ⟨last, column'', moved', value, rests⟩ :=
    value_opens stands waits.key index waits.outer (place ▸ ho)
  rw [place] at rests
  exact ⟨last, column'', Nat.le_trans moved moved',
    leads.trans (.step (waits.step.trans value) rests.kinds (by simp)), rests⟩

end

/-! ## Indicators -/

theorem tokenAt_entry (h : atBlank rest = true) : l.tokenAt '-' rest = l.blockEntry := by
  have alone : atDocumentMark ('-' :: rest) = false := by
    unfold atDocumentMark
    split
    · cases ‹_ = _›
      cases h
    · cases ‹_ = _›
    · rfl
  simp [tokenAt, alone, h]

/-- A hyphen in the column of the block. -/
theorem entry_passes
    (h : Rests l column (front ++ '-' :: rest) (indent :: outer) 0 kinds allowed)
    (hp : Fills front ('-' :: rest)) (hb : atBlank rest = true)
    (ha : (allowed || front.any isBreak) = true) (ho : columnPast column front = indent) :
    ∃ next column', columnPast column front ≤ column' ∧ Leads l 1 next ∧
      Rests next column' rest (indent :: outer) 0 (.blockEntry :: kinds) true := by
  have halts : Halts '-' := by decide
  have stands := h.gathered hp (by rintro d ⟨⟩; exact halts)
  have step := h.step_eq hp halts (.inr (Nat.le_of_eq ho.symm))
  have may : l.gathered.keyAllowed = true := by
    rw [stands.allowed, beq_self_eq_true, Bool.and_true]
    exact ha
  have inside : l.gathered.opensBlock l.gathered.cursor.column = false := by
    unfold opensBlock
    rw [stands.column, stands.indent_eq, ho, decide_eq_false_iff_not]
    exact Nat.lt_irrefl _
  let next : Lexer := { l.gathered with key := none, keyAllowed := true }
  have standsNext : Stands next (columnPast column front) ('-' :: rest) (indent :: outer) 0
      kinds :=
    ⟨stands.rest, stands.column, stands.blocks, stands.depth, stands.kinds, stands.count⟩
  obtain ⟨column', moved, taken⟩ := standsNext.takeOne (by decide) .blockEntry
  have free : Free { l.gathered with keyAllowed := true } := stands.free
  have entry : l.gathered.blockEntry = .ok (next.take .blockEntry 1) := by
    unfold blockEntry blockItem
    rw [stands.inFlow, may, inside]
    simp only [bne_self_eq_false, Bool.false_eq_true, if_false, Bool.not_true, bind, Except.bind]
    rw [dropKey_free free]
    rfl
  refine ⟨_, column', moved, ?_, taken, ?_, rfl⟩
  · exact .step (step.trans ((tokenAt_entry hb).trans entry)) taken.kinds (by simp)
  · exact free_of_outer rfl fun mark? hm => stands.free mark? (List.mem_cons_of_mem _ hm)

/-- A brace opens a flow collection. -/
theorem brace_opens
    (h : Rests l column (front ++ '\x7b' :: rest) (indent :: outer) depth kinds allowed)
    (hp : Fills front ('\x7b' :: rest)) (hi : depth ≠ 0 ∨ indent < columnPast column front) :
    ∃ next column', Leads l 1 next ∧
      Rests next column' rest (indent :: outer) (depth + 1) (.openMapping :: kinds) true := by
  have halts : Halts '\x7b' := by decide
  have stands := h.gathered hp (by rintro d ⟨⟩; exact halts)
  have step := h.step_eq hp halts (hi.imp_right Nat.le_of_lt)
  let inside : Lexer := { l.gathered with
    keyAllowed := true, key := none, outerKeys := l.gathered.marked :: l.gathered.outerKeys }
  have standsInside : Stands inside (columnPast column front) ('\x7b' :: rest) (indent :: outer)
      (depth + 1) kinds :=
    ⟨stands.rest, stands.column, stands.blocks, congrArg (· + 1) stands.depth, stands.kinds,
      stands.count⟩
  obtain ⟨column', -, taken⟩ := standsInside.takeOne (by decide) .openMapping
  have opened : l.gathered.openFlow .openMapping = .ok (inside.take .openMapping 1) := by
    unfold openFlow
    rw [markKey_free stands.free]
    rfl
  have token : l.gathered.tokenAt '\x7b' rest = l.gathered.openFlow .openMapping := by
    simp [tokenAt, atDocumentMark]
  refine ⟨_, column', .step (step.trans (token.trans opened)) taken.kinds (by simp), taken, ?_, rfl⟩
  refine free_of_outer rfl fun mark? hm => ?_
  rcases List.mem_cons.1 hm with rfl | hm
  · exact stands.marked hi
  · exact stands.free mark? (List.mem_cons_of_mem _ hm)

/-- A brace closes a flow collection. -/
theorem brace_closes
    (h : Rests l column (front ++ '\x7d' :: rest) (indent :: outer) (depth + 1) kinds allowed)
    (hp : Fills front ('\x7d' :: rest)) :
    ∃ next column', Leads l 1 next ∧
      Rests next column' rest (indent :: outer) depth (.closeMapping :: kinds) false := by
  have halts : Halts '\x7d' := by decide
  have stands := h.gathered hp (by rintro d ⟨⟩; exact halts)
  have step := h.step_eq hp halts (.inl (Nat.succ_ne_zero depth))
  have deep := stands.depth
  cases hk : l.gathered.outerKeys with
  | nil =>
    rw [hk] at deep
    cases deep
  | cons key outerKeys =>
    rw [hk] at deep
    let outside : Lexer := { l.gathered with
      keyAllowed := false, key := key, outerKeys := outerKeys }
    have standsOutside : Stands outside (columnPast column front) ('\x7d' :: rest)
        (indent :: outer) depth kinds :=
      ⟨stands.rest, stands.column, stands.blocks, Nat.succ.inj deep, stands.kinds, stands.count⟩
    obtain ⟨column', -, taken⟩ := standsOutside.takeOne (by decide) .closeMapping
    have closed : l.gathered.closeFlow .closeMapping = .ok (outside.take .closeMapping 1) := by
      unfold closeFlow
      rw [dropKey_free stands.free]
      simp only [bind, Except.bind]
      rw [hk]
      rfl
    have token : l.gathered.tokenAt '\x7d' rest = l.gathered.closeFlow .closeMapping := by
      simp [tokenAt, atDocumentMark]
    refine ⟨_, column', .step (step.trans (token.trans closed)) taken.kinds (by simp), taken, ?_, rfl⟩
    exact fun mark? hm => stands.free mark? (List.mem_cons_of_mem _ (hk ▸ hm))

/-! ## The end -/

theorem Stands.closeBlocks {inner outer : List Nat} {bound kept : Nat}
    (hi : ∀ indent ∈ inner, bound < indent) (hk : kept ≤ bound) : ∀ {l : Lexer}
      {kinds : List TokenKind}, Stands l column text (inner ++ kept :: outer) depth kinds →
      Stands (closeBlocks bound l l.outer) column text (kept :: outer) depth
        (List.replicate inner.length .blockEnd ++ kinds) := by
  induction inner with
  | nil =>
    intro l kinds h
    have inside : ¬ bound < l.indent := by
      rw [(List.cons.inj h.blocks).1]
      exact Nat.not_lt.2 hk
    cases l.outer with
    | nil => exact h
    | cons next outer =>
      rw [Lexer.closeBlocks, if_neg inside]
      exact h
  | cons indent inner ih =>
    intro l kinds h
    obtain ⟨here, around⟩ := List.cons.inj h.blocks
    have beyond : bound < l.indent := here ▸ hi indent List.mem_cons_self
    cases shape : inner ++ kept :: outer with
    | nil => exact absurd shape (by simp)
    | cons next others =>
      let closed : Lexer := { l.pushHere .blockEnd with indent := next, outer := others }
      have stands : Stands closed column text (inner ++ kept :: outer) depth (.blockEnd :: kinds) :=
        ⟨h.rest, h.column, shape.symm, h.depth, congrArg (TokenKind.blockEnd :: ·) h.kinds,
          congrArg (· + 1) h.count⟩
      have more := ih (fun d hd => hi d (List.mem_cons_of_mem _ hd)) stands
      rw [show l.outer = next :: others from around.trans shape, Lexer.closeBlocks, if_pos beyond,
        List.length_cons, List.replicate_succ', List.append_assoc]
      exact more

theorem Free.closeBlocks (bound : Nat) (outer : List Nat) : ∀ {l : Lexer}, Free l →
    Free (closeBlocks bound l outer) := by
  induction outer with
  | nil => exact id
  | cons next outer ih =>
    intro l hf
    rw [Lexer.closeBlocks]
    split
    · exact @ih { l.pushHere .blockEnd with indent := next, outer := outer } hf
    · exact hf

theorem unwind_block (h : Stands l column text blocks 0 kinds) (bound : Nat) :
    l.unwind bound = Lexer.closeBlocks bound l l.outer := by
  unfold unwind
  rw [h.inFlow]
  rfl

/-- At the end of the text all blocks are closed, those beyond its column first. -/
theorem run_closed {inner outer : List Nat}
    (h : Rests l column gap (inner ++ (outer ++ [0])) 0 kinds allowed) (hg : Fill gap)
    (hi : ∀ indent ∈ inner, columnPast column gap < indent)
    (ho : ∀ indent ∈ outer, 0 < indent ∧ indent ≤ columnPast column gap) (fuel : Nat) :
    (l.run (fuel + 1)).map (·.kind) = kinds.reverse ++
      (List.replicate (inner.length + outer.length) .blockEnd ++ [.textEnd]) := by
  rw [← List.append_nil gap] at h
  have unmarked : (gap ++ []).head? ≠ some byteOrderMark := by
    rw [List.append_nil]
    intro head
    rcases hg _ (List.mem_of_mem_head? head) with same | same <;>
      exact absurd same (by decide)
  have stands := h.gathered ⟨hg, unmarked⟩ (by simp)
  have closed : Stands (l.gathered.unwind l.gathered.cursor.column) (columnPast column gap) []
      (outer ++ [0]) 0 (List.replicate inner.length .blockEnd ++ kinds) := by
    rw [unwind_block stands.toStands, stands.column]
    cases outer with
    | nil => exact stands.closeBlocks hi (Nat.zero_le _)
    | cons indent outer => exact stands.closeBlocks hi (ho indent List.mem_cons_self).2
  generalize hm : l.gathered.unwind l.gathered.cursor.column = m at closed
  have free : Free m := by
    rw [← hm, unwind_block stands.toStands]
    exact stands.free.closeBlocks _ _
  have last := closed.closeBlocks (fun indent hd => (ho indent hd).1) (Nat.le_refl 0)
  rw [← unwind_block closed] at last
  have lastFree : Free (m.unwind 0) := by
    rw [unwind_block closed]
    exact free.closeBlocks _ _
  let ended : Lexer := { m.unwind 0 with key := none, keyAllowed := false }
  have step : l.step = .ok (ended.pushHere .textEnd) := by
    unfold Lexer.step
    rw [dropStale_kept fun mark? hm mark hk => .inl (h.free mark? hm mark hk)]
    simp only [bind, Except.bind]
    rw [hm, closed.rest]
    dsimp only
    unfold textEnd
    rw [dropKey_free lastFree]
    rfl
  have finished : (ended.pushHere .textEnd).reversed.head?.any (·.kind == .textEnd) = true := by
    simp [pushHere, push]
  rw [run, step]
  dsimp only
  rw [if_pos finished, List.map_reverse]
  show (TokenKind.textEnd :: (m.unwind 0).reversed.map (·.kind)).reverse = _
  rw [last.kinds, ← List.append_assoc (List.replicate outer.length _),
    List.replicate_append_replicate, List.reverse_cons, List.reverse_append,
    List.reverse_replicate, Nat.add_comm inner.length, List.append_assoc]

end Lexer

end ServiceModel.Yaml

/-
JSON is read as JSON: a text of JSON that the markup language admits has a tree, and the tree has
the value that the text denotes.
-/
import ServiceModel.Proofs.Document.Equality
import ServiceModel.Proofs.Yaml.Flow

namespace ServiceModel

open Notation (Tree Items Members Label Document quote blank White)

namespace Yaml

open Composer (Holds)

/-! ## Documents -/

/-- Nothing follows a document when the text ends. -/
theorem Composer.atEnd_holds {c : Composer} (h : c.Holds [.textEnd]) : c.atEnd = .ok () := by
  obtain ⟨token, peeked, hk, -⟩ := Composer.peek_holds h nofun
  have kept : c.tokens.dropWhile (·.kind == .documentEnd) = c.tokens := by
    have kinds := h.tokens
    cases tokens : c.tokens with
    | nil => rfl
    | cons last rest =>
      rw [tokens] at kinds
      have kind : last.kind = .textEnd := (List.cons.inj kinds).1
      rw [List.dropWhile_cons_of_neg (by rw [kind]; decide)]
  unfold Composer.atEnd
  rw [kept]
  simp only [bind, Except.bind, peeked, hk, if_true]
  rfl

/-- The composer at the head of a text. -/
def Composer.start (tokens : List Token) : Composer := ⟨tokens, [], Composer.standardShorthands⟩

/-- A node that is followed by the end of the text is the document. -/
theorem Node.ofTokens_node {tokens : List Token} {kind : TokenKind} {kinds : List TokenKind}
    {node : Node} {c : Composer} (begun : (Composer.start tokens).Holds (kind :: kinds))
    (begins : Composer.Begins kind)
    (found : Composer.node (2 * tokens.length + 4) true false (Composer.start tokens) = .ok (node, c))
    (holds : c.Holds [.textEnd]) : Node.ofTokens tokens = .ok (some node) := by
  obtain ⟨first, peeked, hk, -⟩ := Composer.peek_holds begun begins.ne_fault
  have opens : Composer.endsDocument first.kind = false := by
    rw [hk]
    cases kind <;> first
      | exact begins.elim
      | rfl
  have more : first.kind ≠ .textEnd := fun same => by
    rw [same] at opens
    cases opens
  have document : Composer.document (Composer.start tokens) = .ok (node, c) := by
    rw [Composer.document, peeked]
    show (if Composer.endsDocument first.kind = true then _ else _) = _
    rw [opens, if_neg Bool.false_ne_true]
    exact found
  unfold Node.ofTokens
  unfold Composer.start at peeked document
  simp only [bind, Except.bind, peeked, if_neg more, document, Composer.atEnd_holds holds]
  rfl

/-- Tokens of a value and the end of the text are a document that denotes the value. -/
theorem Node.ofTokens_tree {tree : Tree} (hs : tree.Spelled) (hd : tree.Distinct)
    (hn : tree.Bounded) {tokens : List Token} (ht : tokens.map (·.kind) = tree.kinds ++ [.textEnd]) :
    ∃ node, Node.ofTokens tokens = .ok (some node) ∧ node.Denotes tree.value := by
  have start : (Composer.start tokens).Holds (tree.kinds ++ [.textEnd]) := ⟨ht, rfl⟩
  obtain ⟨kind, more, shape, begins⟩ := Composer.tree_begins tree
  have begun := start
  rw [shape, List.cons_append] at begun
  have fuel : tree.kinds.length ≤ 2 * tokens.length + 4 := by
    have length := congrArg List.length ht
    simp only [List.length_map, List.length_append] at length
    omega
  obtain ⟨node, c, found, holds, denotes⟩ := Composer.tree_finds hs hd hn _ true false fuel start
  exact ⟨node, Node.ofTokens_node begun begins found holds, denotes⟩

/-- A scalar and the end of the text are a document of the scalar alone. -/
theorem Node.ofTokens_scalar {tokens : List Token} {text : String} {form : ScalarForm}
    (ht : tokens.map (·.kind) = [.scalar text form, .textEnd]) :
    ∃ range, Node.ofTokens tokens =
      .ok (some (.scalar text (Composer.scalarTag none form) range)) := by
  have start : (Composer.start tokens).Holds [.scalar text form, .textEnd] := ⟨ht, rfl⟩
  obtain ⟨_, -, -, behind⟩ := Composer.peek_holds start nofun
  obtain ⟨token, hk, hp, made⟩ :=
    Composer.node_holds start trivial (2 * tokens.length + 3) true false
  exact ⟨_, Node.ofTokens_node start trivial made behind⟩

end Yaml

namespace Notation

/-! ## Tabs -/

/-- A space in place of a tab. -/
def untab (c : Char) : Char := if c = '\t' then ' ' else c

theorem map_untab {text : List Char} (h : '\t' ∉ text) : text.map untab = text := by
  refine (List.map_congr_left fun c hc => ?_).trans (List.map_id _)
  rw [untab, if_neg]
  · rfl
  · rintro rfl
    exact h hc

theorem blank_tab (space : List Char) : blank '\t' space = space := by
  refine (List.map_congr_left fun c _ => ?_).trans (List.map_id _)
  split
  · rename_i tab
    rw [tab]
    rfl
  · rfl

theorem blank_untabbed (space : List Char) : (blank '\t' space).map untab = blank ' ' space := by
  rw [blank_tab]
  rfl

/-- Characters beyond the layout controls are no tabs. -/
theorem piece_tabless {piece : Piece} (h : piece.Spelled) : '\t' ∉ piece.text := by
  cases piece with
  | raw c =>
    intro hm
    rw [← List.mem_singleton.1 hm] at h
    exact absurd h.1 (by decide)
  | short letter =>
    intro hm
    rcases List.mem_cons.1 hm with tab | hm
    · cases tab
    · have letters : '\t' ∉ shorts.map (·.1) := by decide
      rw [← List.mem_singleton.1 hm] at h
      exact letters h
  | code digits =>
    intro hm
    rcases List.mem_cons.1 hm with tab | hm
    · cases tab
    · rcases List.mem_cons.1 hm with tab | hm
      · cases tab
      · exact absurd (h.2 '\t' hm) (by decide)

theorem quote_tabless {pieces : List Piece} (h : ∀ piece ∈ pieces, piece.Spelled) :
    '\t' ∉ quote pieces := by
  intro hm
  rcases List.mem_cons.1 hm with tab | hm
  · cases tab
  · rcases List.mem_append.1 hm with hm | hm
    · obtain ⟨piece, hp, hm⟩ := List.mem_flatMap.1 hm
      exact piece_tabless (h piece hp) hm
    · exact absurd (List.mem_singleton.1 hm) (by decide)

theorem label_untabbed {label : Label} (h : label.Spelled) :
    (label.write '\t').map untab = label.write ' ' := by
  simp only [Label.write, List.map_append, List.map_cons, map_untab (quote_tabless h.name),
    blank_untabbed]
  rfl

mutual

/-- A text of JSON has tabs in its white space alone. -/
theorem tree_untabbed : ∀ {tree : Tree}, tree.Spelled →
    (tree.write '\t').map untab = tree.write ' '
  | .word none, _ => by decide
  | .word (some true), _ => by decide
  | .word (some false), _ => by decide
  | .number negative size, h => map_untab (Yaml.Scalar.number_lacks h negative (by decide))
  | .string pieces, h => map_untab (quote_tabless h)
  | .emptyArray inside, _ => by
    simp only [Tree.write, List.map_append, List.map_cons, blank_untabbed]
    rfl
  | .array lead first rest, h => by
    simp only [Tree.write, List.map_append, List.map_cons, blank_untabbed, tree_untabbed h.2.1,
      items_untabbed h.2.2]
    rfl
  | .emptyObject inside, _ => by
    simp only [Tree.write, List.map_append, List.map_cons, blank_untabbed]
    rfl
  | .object lead label first rest, h => by
    simp only [Tree.write, List.map_append, List.map_cons, blank_untabbed, label_untabbed h.2.1,
      tree_untabbed h.2.2.1, members_untabbed h.2.2.2]
    rfl

theorem items_untabbed : ∀ {items : Items}, items.Spelled →
    (items.write '\t').map untab = items.write ' '
  | .stop space, _ => by
    simp only [Items.write, List.map_append, blank_untabbed]
    rfl
  | .more space lead item rest, h => by
    simp only [Items.write, List.map_append, List.map_cons, blank_untabbed,
      tree_untabbed h.2.2.1, items_untabbed h.2.2.2]
    rfl

theorem members_untabbed : ∀ {members : Members}, members.Spelled →
    (members.write '\t').map untab = members.write ' '
  | .stop space, _ => by
    simp only [Members.write, List.map_append, blank_untabbed]
    rfl
  | .more space lead label item rest, h => by
    simp only [Members.write, List.map_append, List.map_cons, blank_untabbed,
      label_untabbed h.2.2.1, tree_untabbed h.2.2.2.1, members_untabbed h.2.2.2.2]
    rfl

end

/-! ## Characters -/

theorem isAllowed_of_lt {c : Char} (hl : 0x20 ≤ c.toNat) (hu : c.toNat ≤ 0x7e) :
    Yaml.isAllowed c = true := by
  simp [Yaml.isAllowed, hl, hu]

theorem blank_allowed {space : List Char} (h : White space) :
    ∀ c ∈ blank ' ' space, Yaml.isAllowed c = true := by
  intro c hc
  obtain ⟨d, hd, rfl⟩ := List.mem_map.1 hc
  rcases h d hd with rfl | rfl | rfl | rfl <;> decide

theorem piece_allowed {piece : Piece} (hs : piece.Spelled) (ha : piece.Admitted) :
    ∀ c ∈ piece.text, Yaml.isAllowed c = true := by
  intro c hc
  cases piece with
  | raw d =>
    rw [List.mem_singleton.1 hc]
    exact ha.1
  | short letter =>
    have letters : ∀ letter ∈ shorts.map (·.1), Yaml.isAllowed letter = true :=
      List.all_eq_true.1 (by decide)
    rcases List.mem_cons.1 hc with rfl | hc
    · decide
    · rw [List.mem_singleton.1 hc]
      exact letters letter hs
  | code digits =>
    rcases List.mem_cons.1 hc with rfl | hc
    · decide
    · rcases List.mem_cons.1 hc with rfl | hc
      · decide
      · have range := Text.Numeral.isFigure_cases (hs.2 c hc)
        exact isAllowed_of_lt (by omega) (by omega)

theorem quote_allowed {pieces : List Piece} (hs : ∀ piece ∈ pieces, piece.Spelled)
    (ha : ∀ piece ∈ pieces, piece.Admitted) : ∀ c ∈ quote pieces, Yaml.isAllowed c = true := by
  intro c hc
  rcases List.mem_cons.1 hc with rfl | hc
  · decide
  · rcases List.mem_append.1 hc with hc | hc
    · obtain ⟨piece, hp, hc⟩ := List.mem_flatMap.1 hc
      exact piece_allowed (hs piece hp) (ha piece hp) c hc
    · rw [List.mem_singleton.1 hc]
      decide

theorem label_allowed {label : Label} (hs : label.Spelled) (ha : label.Admitted) :
    ∀ c ∈ label.write ' ', Yaml.isAllowed c = true := by
  simp only [Label.write, List.forall_mem_append, List.forall_mem_cons]
  exact ⟨quote_allowed hs.name ha.name, blank_allowed hs.gap, by decide, blank_allowed hs.space⟩

theorem number_allowed {size : Double.Decimal} (h : size.Strict) (negative : Bool) :
    ∀ c ∈ sign negative ++ size.text, Yaml.isAllowed c = true := by
  intro c hc
  have range := Yaml.wordChar_range ((Yaml.Lexer.number_word h negative).1 c hc)
  exact isAllowed_of_lt (by omega) (by omega)

mutual

/-- A text of JSON that the markup language admits holds only characters that a text may hold. -/
theorem tree_allowed : ∀ {tree : Tree}, tree.Spelled → tree.Admitted →
    ∀ c ∈ tree.write ' ', Yaml.isAllowed c = true
  | .word none, _, _ | .word (some true), _, _ | .word (some false), _, _ =>
    List.all_eq_true.1 (by decide)
  | .number negative size, hs, _ => number_allowed hs negative
  | .string pieces, hs, ha => quote_allowed hs ha
  | .emptyArray inside, hs, _ => by
    simp only [Tree.write, List.forall_mem_append, List.forall_mem_cons]
    exact ⟨by decide, blank_allowed hs, by decide, nofun⟩
  | .array lead first rest, hs, ha => by
    simp only [Tree.write, List.forall_mem_append, List.forall_mem_cons]
    exact ⟨by decide, blank_allowed hs.1, tree_allowed hs.2.1 ha.1, items_allowed hs.2.2 ha.2⟩
  | .emptyObject inside, hs, _ => by
    simp only [Tree.write, List.forall_mem_append, List.forall_mem_cons]
    exact ⟨by decide, blank_allowed hs, by decide, nofun⟩
  | .object lead label first rest, hs, ha => by
    simp only [Tree.write, List.forall_mem_append, List.forall_mem_cons]
    exact ⟨by decide, blank_allowed hs.1, label_allowed hs.2.1 ha.1, tree_allowed hs.2.2.1 ha.2.1,
      members_allowed hs.2.2.2 ha.2.2⟩

theorem items_allowed : ∀ {items : Items}, items.Spelled → items.Admitted →
    ∀ c ∈ items.write ' ', Yaml.isAllowed c = true
  | .stop space, hs, _ => by
    simp only [Items.write, List.forall_mem_append, List.forall_mem_cons]
    exact ⟨blank_allowed hs, by decide, nofun⟩
  | .more space lead item rest, hs, ha => by
    simp only [Items.write, List.forall_mem_append, List.forall_mem_cons]
    exact ⟨blank_allowed hs.1, by decide, blank_allowed hs.2.1, tree_allowed hs.2.2.1 ha.1,
      items_allowed hs.2.2.2 ha.2⟩

theorem members_allowed : ∀ {members : Members}, members.Spelled → members.Admitted →
    ∀ c ∈ members.write ' ', Yaml.isAllowed c = true
  | .stop space, hs, _ => by
    simp only [Members.write, List.forall_mem_append, List.forall_mem_cons]
    exact ⟨blank_allowed hs, by decide, nofun⟩
  | .more space lead label item rest, hs, ha => by
    simp only [Members.write, List.forall_mem_append, List.forall_mem_cons]
    exact ⟨blank_allowed hs.1, by decide, blank_allowed hs.2.1, label_allowed hs.2.2.1 ha.1,
      tree_allowed hs.2.2.2.1 ha.2.1, members_allowed hs.2.2.2.2 ha.2.2⟩

end

/-! ## Documents -/

/-- A value starts with the mark of a collection exactly if it is one. -/
theorem tree_head {tree : Tree} (h : tree.Spelled) (tab : Char) :
    ∃ c more, tree.write tab = c :: more ∧ Text.isSpace c = false ∧
      (c = '{' || c = '[') = tree.isCollection := by
  cases tree with
  | word value? => rcases value? with _ | _ | _ <;> exact ⟨_, _, rfl, by decide, by decide⟩
  | number negative size =>
    obtain ⟨chars, c, more, shape, -⟩ := Yaml.Lexer.number_word h negative
    have word := chars c (shape ▸ List.mem_cons_self)
    have range := Yaml.wordChar_range word
    have brace : c ≠ '{' := Yaml.wordChar_ne word (by decide)
    have bracket : c ≠ '[' := Yaml.wordChar_ne word (by decide)
    refine ⟨c, more, shape, ?_, by simp [brace, bracket, Tree.isCollection]⟩
    simp only [Text.isSpace, Bool.or_eq_false_iff, Bool.and_eq_false_iff, decide_eq_false_iff_not,
      beq_eq_false_iff_ne]
    omega
  | string pieces => exact ⟨_, _, rfl, by decide, rfl⟩
  | emptyArray inside => exact ⟨_, _, rfl, by decide, rfl⟩
  | array lead first rest => exact ⟨_, _, rfl, by decide, rfl⟩
  | emptyObject inside => exact ⟨_, _, rfl, by decide, rfl⟩
  | object lead label first rest => exact ⟨_, _, rfl, by decide, rfl⟩

/-- A scalar is written without white space. -/
theorem write_scalar {tree : Tree} (h : tree.isCollection = false) (tab : Char) :
    tree.write tab = tree.write ' ' := by
  cases tree <;> first
    | rfl
    | cases h

theorem untabbed_document {d : Document} (hs : d.Formed) (ha : d.Admitted) :
    ServiceModel.Node.untabbed d.text.toList = d.write ' ' := by
  obtain ⟨c, more, shape, space, collection⟩ := tree_head hs.root '\t'
  have lead : ∀ c ∈ blank '\t' d.lead, Text.isSpace c = true := by
    intro c hc
    rw [blank_tab] at hc
    rcases hs.lead c hc with rfl | rfl | rfl | rfl <;> decide
  have head : (d.write '\t').dropWhile Text.isSpace = c :: (more ++ blank '\t' d.trail) := by
    rw [Document.write, List.dropWhile_append_of_pos lead, shape, List.cons_append,
      List.dropWhile_cons_of_neg (Bool.eq_false_iff.1 space)]
  rw [Document.text, String.toList_ofList, ServiceModel.Node.untabbed, head]
  dsimp only
  rw [collection]
  cases kind : d.root.isCollection with
  | true =>
    show (d.write '\t').map untab = _
    simp only [Document.write, List.map_append, blank_untabbed, tree_untabbed hs.root]
  | false =>
    have tabless := ha.untabbed kind
    rw [List.mem_append, not_or] at tabless
    have lead : blank '\t' d.lead = blank ' ' d.lead := by
      rw [← blank_untabbed, blank_tab, map_untab tabless.1]
    have trail : blank '\t' d.trail = blank ' ' d.trail := by
      rw [← blank_untabbed, blank_tab, map_untab tabless.2]
    rw [if_neg Bool.false_ne_true, Document.write, write_scalar kind, lead, trail]
    rfl

/-- A document that the markup language admits is read by composing it. -/
theorem read_composed {d : Document} (hs : d.Formed) (ha : d.Admitted) {node : Yaml.Node}
    (composed : Yaml.Node.ofTokens (Yaml.Token.ofText (d.write ' ')) = .ok (some node)) :
    Node.read d.text = Node.ofYaml node := by
  have allowed : (d.write ' ').all Yaml.isAllowed = true := by
    rw [List.all_eq_true]
    simp only [Document.write, List.forall_mem_append]
    exact ⟨blank_allowed hs.lead, tree_allowed hs.root ha.root, blank_allowed hs.trail⟩
  rw [Node.read, untabbed_document hs ha, allowed, composed]
  rfl

/-- A text of JSON that the markup language admits, in which no object repeats a name and no integer
is too long, has a tree of the value that it denotes. -/
theorem read_text (d : Document) (hs : d.Spelled) (ha : d.Admitted) :
    ∃ node, Node.read d.text = .ok node ∧ node.toJson = d.root.value := by
  -- the tokens are those of the tree wherever white space stands, and they alone are composed
  obtain ⟨node, composed, made, hm, value⟩ := Yaml.Node.ofTokens_tree hs.root hs.distinct
    hs.bounded (Yaml.Token.ofText_document hs.toFormed ha.root)
  exact ⟨made, (read_composed hs.toFormed ha composed).trans hm, value⟩

/-- An object of one member, whose colon may stand anywhere behind its name. -/
def single (gap : List Char) : Document :=
  ⟨[], .object [] ⟨[.raw 'a'], gap, [' ']⟩ (.emptyArray []) (.stop []), []⟩

theorem single_spelled {gap : List Char} (h : White gap) : (single gap).Spelled where
  lead := nofun
  root := ⟨nofun, ⟨by simp [Piece.Spelled], h, by simp [White]⟩, nofun, nofun⟩
  trail := nofun
  distinct := ⟨nofun, trivial, trivial⟩
  bounded := ⟨trivial, trivial⟩

theorem read_single : (single []).text = "\x7b\"a\": []\x7d" ∧
    ∃ node, Node.read (single []).text = .ok node ∧ node.toJson = .object [("a", .array [])] :=
  ⟨by decide, read_text (single []) (single_spelled nofun)
    ⟨⟨⟨by simp [Piece.Admitted]; decide, nofun, by decide⟩, trivial, trivial⟩, nofun⟩⟩

/-- JSON lets a line end in front of the colon of a member, and the markup language does not. -/
theorem read_single_broken : (single ['\n']).Spelled ∧
    (single ['\n']).text = "\x7b\"a\"\n: []\x7d" ∧
      Node.read (single ['\n']).text = .error (.fault .malformed) :=
  ⟨single_spelled (by simp [White]), by decide, by decide +kernel⟩

end Notation

end ServiceModel

/-
The nodes of a text of JSON, by induction on the tree that it is written from: the composer finds
in the tokens of a value a node that denotes the value.
-/
import ServiceModel.Document.Read
import ServiceModel.Proofs.Document.Members
import ServiceModel.Proofs.Yaml.Tokens

namespace ServiceModel

open Notation (Tree Items Members Label textOf)

/-! ## Values of nodes -/

namespace Yaml.Node

/-- The markup node has a tree of the given value. -/
def Denotes (node : Node) (json : Json) : Prop :=
  ∃ made, ServiceModel.Node.ofYaml node = .ok made ∧ made.toJson = json

/-- The markup nodes have trees of the given values. -/
def DenoteItems (nodes : List Node) (items : List Json) : Prop :=
  ∃ made, ServiceModel.Node.ofItems nodes = .ok made ∧ ServiceModel.Node.itemsToJson made = items

/-- The markup entries have trees of the given names and values. -/
def DenoteMembers (entries : List (Node × Node)) (members : List (String × Json)) : Prop :=
  ∃ made, ServiceModel.Node.ofEntries entries = .ok made ∧
    made.map (fun entry => (entry.1.name, entry.2.toJson)) = members

variable {range : Text.Range}

theorem denotes_scalar {text : String} {tag : ScalarTag} {value : Primitive}
    (h : ∀ mark, Scalar.value mark tag text = .ok value) :
    Denotes (.scalar text tag range) value.toJson :=
  ⟨.literal ⟨value, range⟩, by rw [ServiceModel.Node.ofYaml, h], rfl⟩

theorem denotes_sequence {nodes : List Node} {items : List Json} (h : DenoteItems nodes items) :
    Denotes (.sequence nodes range) (.array items) := by
  obtain ⟨made, hm, rfl⟩ := h
  exact ⟨.array made range, by rw [ServiceModel.Node.ofYaml, hm], rfl⟩

theorem denoteItems_cons {node : Node} {nodes : List Node} {item : Json} {items : List Json}
    (h : Denotes node item) (hs : DenoteItems nodes items) :
    DenoteItems (node :: nodes) (item :: items) := by
  obtain ⟨first, hf, rfl⟩ := h
  obtain ⟨made, hm, rfl⟩ := hs
  exact ⟨first :: made, by rw [ServiceModel.Node.ofItems, hf, hm], rfl⟩

theorem denoteMembers_cons {text : String} {tag : ScalarTag} {node : Node}
    {entries : List (Node × Node)} {item : Json} {members : List (String × Json)}
    (h : Denotes node item) (hs : DenoteMembers entries members) :
    DenoteMembers ((.scalar text tag range, node) :: entries) ((text, item) :: members) := by
  obtain ⟨first, hf, rfl⟩ := h
  obtain ⟨made, hm, rfl⟩ := hs
  exact ⟨(⟨text, range⟩, first) :: made, by rw [ServiceModel.Node.ofEntries, hf, hm], rfl⟩

end Yaml.Node

theorem Yaml.Node.denotes_mapping {entries : List (Node × Node)} {range : Text.Range}
    {members : List (String × Json)} (h : DenoteMembers entries members)
    (hn : (members.map (·.1)).Nodup) : Denotes (.mapping entries range) (.object members) := by
  obtain ⟨made, hm, rfl⟩ := h
  refine ⟨.object made range, by rw [ServiceModel.Node.ofYaml, hm], ?_⟩
  rw [ServiceModel.Node.toJson, ServiceModel.Node.entriesToJson_of_nodup]
  · rfl
  · rw [List.map_map] at hn
    exact hn

namespace Notation

/-- The names of an object are pairwise different. -/
theorem Members.nodup : ∀ {members : Members}, members.Distinct →
    (members.values.map (·.1)).Nodup
  | .stop _, _ => List.nodup_nil
  | .more _ _ _ _ _, h => List.nodup_cons.2 ⟨h.1, nodup h.2.2⟩

end Notation

namespace Yaml.Composer

/-! ## Single tokens -/

/-- Tokens of the given kinds are to come, and nothing is named. -/
structure Holds (c : Composer) (kinds : List TokenKind) : Prop where
  tokens : c.tokens.map (·.kind) = kinds
  anchors : c.anchors = []

variable {c : Composer} {kind : TokenKind} {kinds : List TokenKind}

theorem peek_holds (h : c.Holds (kind :: kinds)) (hk : ∀ fault, kind ≠ .fault fault) :
    ∃ token, c.peek = .ok token ∧ token.kind = kind ∧ c.next.Holds kinds := by
  obtain ⟨tokens, anchors⟩ := h
  cases ht : c.tokens with
  | nil =>
    rw [ht] at tokens
    cases tokens
  | cons token rest =>
    rw [ht] at tokens
    have first : token.kind = kind := (List.cons.inj tokens).1
    refine ⟨token, ?_, first, ⟨?_, anchors⟩⟩
    · unfold peek
      rw [ht]
      split
      · rename_i fault start stop rest same
        cases same
        exact absurd first.symm (hk fault)
      · rename_i same
        cases same
        rfl
      · rename_i same
        cases same
    · rw [next, ht]
      exact (List.cons.inj tokens).2

theorem isAt_holds (h : c.Holds (kind :: kinds)) (hk : ∀ fault, kind ≠ .fault fault)
    (among : List TokenKind) : c.isAt among = .ok (among.contains kind) := by
  obtain ⟨token, hp, rfl, -⟩ := peek_holds h hk
  rw [isAt, hp]
  rfl

/-- Such tokens start a node of a text of JSON. -/
def Begins : TokenKind → Prop
  | .scalar _ _ | .openSequence | .openMapping => True
  | _ => False

theorem Begins.ne_fault (h : Begins kind) : ∀ fault, kind ≠ .fault fault := by
  rintro fault rfl
  exact h

theorem properties_holds (h : c.Holds (kind :: kinds)) (hb : Begins kind) :
    c.properties = .ok (⟨none, none, none⟩, c) := by
  obtain ⟨token, hp, hk, -⟩ := peek_holds h hb.ne_fault
  rw [properties, hp]
  cases kind <;> first
    | exact hb.elim
    | simp only [bind, Except.bind, hk]
      rfl

/-- A node without properties is what its first token says. -/
theorem node_holds (h : c.Holds (kind :: kinds)) (hb : Begins kind) (fuel : Nat)
    (block indentless : Bool) :
    ∃ token, token.kind = kind ∧ c.peek = .ok token ∧ node (fuel + 1) block indentless c =
      (match kind with
      | .scalar text form =>
        finish ⟨none, none, none⟩ c.next
          (.scalar text (scalarTag none form) ⟨token.start, token.stop⟩)
      | .openSequence => do
        let (items, stop, c) ← flowItems fuel true [] c.next
        finish ⟨none, none, none⟩ c (.sequence items ⟨token.start, stop⟩)
      | .openMapping => do
        let (entries, stop, c) ← flowEntries fuel true [] c.next
        finish ⟨none, none, none⟩ c (.mapping entries ⟨token.start, stop⟩)
      | _ => .error .malformed) := by
  obtain ⟨token, hp, hk, -⟩ := peek_holds h hb.ne_fault
  refine ⟨token, hk, hp, ?_⟩
  rw [node, hp, properties_holds h hb]
  cases kind <;> first
    | exact hb.elim
    | simp only [bind, Except.bind, hk, hp]
      rfl

/-! ## Flow collections -/

section

variable {fuel : Nat}

theorem flowItems_stop (h : c.Holds (.closeSequence :: kinds)) (fuel : Nat) (first : Bool)
    (done : List Node) :
    ∃ stop, flowItems (fuel + 1) first done c = .ok (done.reverse, stop, c.next) := by
  obtain ⟨token, hp, hk, -⟩ := peek_holds h nofun
  refine ⟨token.stop, ?_⟩
  rw [flowItems, hp]
  simp only [bind, Except.bind, hk, if_pos]
  rfl

theorem flowItems_first (h : c.Holds (kind :: kinds)) (hb : Begins kind) (done : List Node) :
    flowItems (fuel + 1) true done c =
      node fuel false false c >>= fun r => flowItems fuel false (r.1 :: done) r.2 := by
  obtain ⟨token, hp, hk, -⟩ := peek_holds h hb.ne_fault
  have closing : kind ≠ .closeSequence := by
    rintro rfl
    exact hb
  have key : kind ≠ .key := by
    rintro rfl
    exact hb
  rw [flowItems, hp]
  simp only [bind, Except.bind, hk, if_neg closing, Bool.not_true, Bool.false_and,
    Bool.false_eq_true, if_false, if_true, hp, if_neg key]

theorem flowItems_more (h : c.Holds (.flowEntry :: kind :: kinds)) (hb : Begins kind)
    (done : List Node) :
    flowItems (fuel + 1) false done c =
      node fuel false false c.next >>= fun r => flowItems fuel false (r.1 :: done) r.2 := by
  obtain ⟨comma, hc, hk, next⟩ := peek_holds h nofun
  obtain ⟨token, hp, hk', -⟩ := peek_holds next hb.ne_fault
  have closing : kind ≠ .closeSequence := by
    rintro rfl
    exact hb
  have key : kind ≠ .key := by
    rintro rfl
    exact hb
  rw [flowItems, hc]
  simp [bind, Except.bind, hk, hp, hk', closing, key]

theorem flowEntries_stop (h : c.Holds (.closeMapping :: kinds)) (fuel : Nat) (first : Bool)
    (done : List (Node × Node)) :
    ∃ stop, flowEntries (fuel + 1) first done c = .ok (done.reverse, stop, c.next) := by
  obtain ⟨token, hp, hk, -⟩ := peek_holds h nofun
  refine ⟨token.stop, ?_⟩
  rw [flowEntries, hp]
  simp only [bind, Except.bind, hk, if_pos]
  rfl

theorem flowEntries_first (h : c.Holds (.key :: kinds)) (done : List (Node × Node)) :
    flowEntries (fuel + 1) true done c =
      flowPair fuel .closeMapping c >>= fun r =>
        flowEntries fuel false ((r.1, r.2.1) :: done) r.2.2 := by
  obtain ⟨token, hp, hk, -⟩ := peek_holds h nofun
  rw [flowEntries, hp]
  simp [bind, Except.bind, hk, hp]

theorem flowEntries_more (h : c.Holds (.flowEntry :: .key :: kinds)) (done : List (Node × Node)) :
    flowEntries (fuel + 1) false done c =
      flowPair fuel .closeMapping c.next >>= fun r =>
        flowEntries fuel false ((r.1, r.2.1) :: done) r.2.2 := by
  obtain ⟨comma, hc, hk, next⟩ := peek_holds h nofun
  obtain ⟨token, hp, hk', -⟩ := peek_holds next nofun
  rw [flowEntries, hc]
  simp [bind, Except.bind, hk, hp, hk']

theorem flowValue_colon (h : c.Holds (.value :: kind :: kinds)) (hb : Begins kind) :
    flowValue (fuel + 1) .closeMapping c = node fuel false false c.next := by
  obtain ⟨colon, hv, hk, behind⟩ := peek_holds h nofun
  have item := isAt_holds behind hb.ne_fault [.flowEntry, .closeMapping]
  have plain : [TokenKind.flowEntry, .closeMapping].contains kind = false := by
    cases kind <;> first
      | exact hb.elim
      | simp
  rw [plain] at item
  rw [flowValue, hv]
  simp [bind, Except.bind, hk, item]

/-- A label and a value are a pair. -/
theorem flowPair_label {label : Label} (h : c.Holds (label.kinds ++ kind :: kinds))
    (hb : Begins kind) (fuel : Nat) :
    ∃ range, flowPair (fuel + 2) .closeMapping c =
      node fuel false false c.next.next.next >>= fun r =>
        .ok (.scalar (textOf label.name) .text range, r.1, r.2) := by
  obtain ⟨key, hk, -, scalar⟩ := peek_holds h nofun
  obtain ⟨token, -, hs, made⟩ := node_holds scalar trivial fuel false false
  obtain ⟨_, -, -, value⟩ := peek_holds scalar nofun
  have name := isAt_holds scalar nofun [.value, .flowEntry, .closeMapping]
  have plain : [TokenKind.value, .flowEntry, .closeMapping].contains
      (.scalar (textOf label.name) .marked) = false := by
    simp
  rw [plain] at name
  refine ⟨⟨token.start, token.stop⟩, ?_⟩
  rw [flowPair, hk]
  simp only [bind, Except.bind, name, made, finish, Bool.false_eq_true, if_false]
  show (flowValue (fuel + 1) .closeMapping c.next.next >>= fun r =>
    Except.ok (Node.scalar (textOf label.name) .text ⟨token.start, token.stop⟩, r.1, r.2)) = _
  rw [flowValue_colon value hb]
  rfl

end

/-! ## Values -/

theorem tree_begins (tree : Tree) : ∃ kind more, tree.kinds = kind :: more ∧ Begins kind := by
  cases tree <;> exact ⟨_, _, rfl, trivial⟩

/-- The composer finds a node in front of the tokens of the given kinds. -/
def Finds (found : Except Fault (Node × Composer)) (kinds : List TokenKind) (json : Json) : Prop :=
  ∃ node c, found = .ok (node, c) ∧ c.Holds kinds ∧ node.Denotes json

theorem holds_of_append (front : List TokenKind) {kinds : List TokenKind} {tree : Tree}
    (h : c.Holds (front ++ (tree.kinds ++ kinds))) :
    ∃ kind more, c.Holds (front ++ kind :: more) ∧ Begins kind := by
  obtain ⟨kind, more, shape, begins⟩ := tree_begins tree
  rw [shape] at h
  exact ⟨kind, more ++ kinds, h, begins⟩

theorem finds_scalar (fuel : Nat) (block indentless : Bool) {text : String} {form : ScalarForm}
    (value : Primitive) (h : c.Holds (.scalar text form :: kinds))
    (hv : ∀ mark, Scalar.value mark (scalarTag none form) text = .ok value) :
    Finds (node (fuel + 1) block indentless c) kinds value.toJson := by
  obtain ⟨token, hk, hp, made⟩ := node_holds h trivial fuel block indentless
  obtain ⟨_, -, -, next⟩ := peek_holds h nofun
  exact ⟨_, _, made, next, Node.denotes_scalar hv⟩

/-- A label and a value are found as a pair if the value is found. -/
theorem pair_finds {label : Label} {item : Tree} (fuel : Nat)
    (h : c.Holds (label.kinds ++ (item.kinds ++ kinds)))
    (hi : ∀ {c : Composer}, c.Holds (item.kinds ++ kinds) →
      Finds (node fuel false false c) kinds item.value) :
    ∃ range found next, flowPair (fuel + 2) .closeMapping c =
      .ok (.scalar (textOf label.name) .text range, found, next) ∧ next.Holds kinds ∧
        found.Denotes item.value := by
  obtain ⟨kind, more, begun, begins⟩ := holds_of_append label.kinds h
  obtain ⟨range, pair⟩ := flowPair_label begun begins fuel
  obtain ⟨_, -, -, scalar⟩ := peek_holds h nofun
  obtain ⟨_, -, -, value⟩ := peek_holds scalar nofun
  obtain ⟨_, -, -, behind⟩ := peek_holds value nofun
  obtain ⟨found, next, made, holds, denotes⟩ := hi behind
  exact ⟨range, found, next, by rw [pair, made]; rfl, holds, denotes⟩

theorem more_fuel {n fuel : Nat} (h : n + 1 ≤ fuel) : ∃ less, fuel = less + 1 ∧ n ≤ less :=
  ⟨fuel - 1, by omega, by omega⟩

theorem length_tree_pos (tree : Tree) : 0 < tree.kinds.length := by
  obtain ⟨kind, more, shape, -⟩ := tree_begins tree
  rw [shape]
  exact Nat.succ_pos _

theorem length_items_pos (items : Items) : 0 < items.kinds.length := by
  cases items <;> exact Nat.succ_pos _

-- The fuel counts tokens: the steps from a collection down to one of its values are no more than
-- the tokens of the collection beside that value.
mutual

/-- The node of a value denotes it. -/
theorem tree_finds : ∀ {tree : Tree}, tree.Spelled → tree.Distinct → tree.Bounded →
    ∀ (fuel : Nat) (block indentless : Bool) {c : Composer} {kinds : List TokenKind},
      tree.kinds.length ≤ fuel → c.Holds (tree.kinds ++ kinds) →
        Finds (node fuel block indentless c) kinds tree.value
  | .word value?, _, _, _, fuel, block, indentless, c, kinds, hf, h => by
    obtain ⟨fuel, rfl, -⟩ := more_fuel hf
    have found := finds_scalar fuel block indentless ((value?.map Primitive.bool).getD .null) h
      fun mark => by
        rw [scalarTag, if_pos rfl, Scalar.value, String.toList_ofList, Scalar.ofText_spelling]
    cases value? <;> exact found
  | .number negative size, hs, _, hn, fuel, block, indentless, c, kinds, hf, h => by
    obtain ⟨fuel, rfl, -⟩ := more_fuel hf
    refine finds_scalar fuel block indentless _ h fun mark => ?_
    rw [scalarTag, if_pos rfl, Scalar.value, String.toList_ofList, Scalar.ofText_number hs _ hn]
  | .string pieces, _, _, _, fuel, block, indentless, c, kinds, hf, h => by
    obtain ⟨fuel, rfl, -⟩ := more_fuel hf
    exact finds_scalar fuel block indentless (.text (textOf pieces)) h fun mark => rfl
  | .emptyArray _, _, _, _, fuel, block, indentless, c, kinds, hf, h => by
    obtain ⟨fuel, rfl, hf'⟩ := more_fuel hf
    obtain ⟨fuel, rfl, -⟩ := more_fuel hf'
    obtain ⟨token, -, -, made⟩ := node_holds h trivial (fuel + 1) block indentless
    obtain ⟨_, -, -, next⟩ := peek_holds h nofun
    obtain ⟨stop, closed⟩ := flowItems_stop next fuel true []
    obtain ⟨_, -, -, behind⟩ := peek_holds next nofun
    rw [closed] at made
    exact ⟨_, _, made, behind, Node.denotes_sequence ⟨[], rfl, rfl⟩⟩
  | .array _ first rest, hs, hd, hn, fuel, block, indentless, c, kinds, hf, h => by
    have some := length_tree_pos first
    have others := length_items_pos rest
    rw [Tree.kinds, List.length_cons, List.length_append] at hf
    obtain ⟨fuel, rfl⟩ : ∃ less, fuel = less + 2 := ⟨fuel - 2, by omega⟩
    rw [Tree.kinds, List.cons_append, List.append_assoc] at h
    obtain ⟨token, -, -, made⟩ := node_holds h trivial (fuel + 1) block indentless
    obtain ⟨_, -, -, next⟩ := peek_holds h nofun
    obtain ⟨kind, more, begun, begins⟩ := holds_of_append [] next
    obtain ⟨item, c', found, holds, denotes⟩ := tree_finds hs.2.1 hd.1 hn.1 fuel false false
      (by omega) next
    obtain ⟨nodes, stop, last, items, behind, values⟩ := items_finds hs.2.2 hd.2 hn.2 fuel [item]
      (by omega) holds
    have walked : flowItems (fuel + 1) true [] c.next = .ok (item :: nodes, stop, last) := by
      rw [flowItems_first begun begins, found]
      exact items
    dsimp only at made
    rw [walked] at made
    exact ⟨_, _, made, behind, Node.denotes_sequence (Node.denoteItems_cons denotes values)⟩
  | .emptyObject _, _, _, _, fuel, block, indentless, c, kinds, hf, h => by
    obtain ⟨fuel, rfl, hf'⟩ := more_fuel hf
    obtain ⟨fuel, rfl, -⟩ := more_fuel hf'
    obtain ⟨token, -, -, made⟩ := node_holds h trivial (fuel + 1) block indentless
    obtain ⟨_, -, -, next⟩ := peek_holds h nofun
    obtain ⟨stop, closed⟩ := flowEntries_stop next fuel true []
    obtain ⟨_, -, -, behind⟩ := peek_holds next nofun
    rw [closed] at made
    exact ⟨_, _, made, behind, Node.denotes_mapping ⟨[], rfl, rfl⟩ List.nodup_nil⟩
  | .object _ label first rest, hs, hd, hn, fuel, block, indentless, c, kinds, hf, h => by
    rw [Tree.kinds, List.length_cons, List.length_append, List.length_append] at hf
    have labelled : label.kinds.length = 3 := rfl
    obtain ⟨fuel, rfl⟩ : ∃ less, fuel = less + 4 := ⟨fuel - 4, by omega⟩
    rw [Tree.kinds, List.cons_append, List.append_assoc, List.append_assoc] at h
    obtain ⟨token, -, -, made⟩ := node_holds h trivial (fuel + 3) block indentless
    obtain ⟨_, -, -, next⟩ := peek_holds h nofun
    obtain ⟨range, item, c', found, holds, denotes⟩ := pair_finds fuel next
      fun h => tree_finds hs.2.2.1 hd.2.1 hn.1 fuel false false (by omega) h
    obtain ⟨entries, stop, last, members, behind, values⟩ := members_finds hs.2.2.2 hd.2.2
      hn.2 (fuel + 2) [(.scalar (textOf label.name) .text range, item)] (by omega) holds
    have walked : flowEntries (fuel + 3) true [] c.next =
        .ok ((.scalar (textOf label.name) .text range, item) :: entries, stop, last) := by
      rw [flowEntries_first next, found]
      exact members
    dsimp only at made
    rw [walked] at made
    exact ⟨_, _, made, behind, Node.denotes_mapping (Node.denoteMembers_cons denotes values)
      (List.nodup_cons.2 ⟨hd.1, Members.nodup hd.2.2⟩)⟩

theorem items_finds : ∀ {items : Items}, items.Spelled → items.Distinct → items.Bounded →
    ∀ (fuel : Nat) (done : List Node) {c : Composer} {kinds : List TokenKind},
      items.kinds.length ≤ fuel → c.Holds (items.kinds ++ kinds) →
        ∃ nodes stop next, flowItems fuel false done c = .ok (done.reverse ++ nodes, stop, next) ∧
          next.Holds kinds ∧ Node.DenoteItems nodes items.values
  | .stop _, _, _, _, fuel, done, c, kinds, hf, h => by
    obtain ⟨fuel, rfl, -⟩ := more_fuel hf
    obtain ⟨stop, closed⟩ := flowItems_stop h fuel false done
    obtain ⟨_, -, -, behind⟩ := peek_holds h nofun
    exact ⟨[], stop, _, by rw [closed, List.append_nil], behind, [], rfl, rfl⟩
  | .more _ _ item rest, hs, hd, hn, fuel, done, c, kinds, hf, h => by
    rw [Items.kinds, List.length_cons, List.length_append] at hf
    obtain ⟨fuel, rfl, hf⟩ := more_fuel hf
    rw [Items.kinds, List.cons_append, List.append_assoc] at h
    obtain ⟨_, -, -, next⟩ := peek_holds h nofun
    obtain ⟨kind, more, begun, begins⟩ := holds_of_append [.flowEntry] h
    obtain ⟨node, c', found, holds, denotes⟩ := tree_finds hs.2.2.1 hd.1 hn.1 fuel false false
      (by omega) next
    obtain ⟨nodes, stop, last, items, behind, values⟩ := items_finds hs.2.2.2 hd.2 hn.2 fuel
      (node :: done) (by omega) holds
    refine ⟨node :: nodes, stop, last, ?_, behind, Node.denoteItems_cons denotes values⟩
    rw [flowItems_more begun begins, found]
    show flowItems fuel false (node :: done) c' = _
    rw [items, List.reverse_cons, List.append_assoc]
    rfl

theorem members_finds : ∀ {members : Members}, members.Spelled → members.Distinct →
    members.Bounded →
    ∀ (fuel : Nat) (done : List (Node × Node)) {c : Composer} {kinds : List TokenKind},
      members.kinds.length ≤ fuel → c.Holds (members.kinds ++ kinds) →
        ∃ entries stop next,
          flowEntries fuel false done c = .ok (done.reverse ++ entries, stop, next) ∧
            next.Holds kinds ∧ Node.DenoteMembers entries members.values
  | .stop _, _, _, _, fuel, done, c, kinds, hf, h => by
    obtain ⟨fuel, rfl, -⟩ := more_fuel hf
    obtain ⟨stop, closed⟩ := flowEntries_stop h fuel false done
    obtain ⟨_, -, -, behind⟩ := peek_holds h nofun
    exact ⟨[], stop, _, by rw [closed, List.append_nil], behind, [], rfl, rfl⟩
  | .more _ _ label item rest, hs, hd, hn, fuel, done, c, kinds, hf, h => by
    rw [Members.kinds, List.length_cons, List.length_append, List.length_append] at hf
    have labelled : label.kinds.length = 3 := rfl
    obtain ⟨fuel, rfl⟩ : ∃ less, fuel = less + 3 := ⟨fuel - 3, by omega⟩
    rw [Members.kinds, List.cons_append, List.append_assoc, List.append_assoc] at h
    obtain ⟨_, -, -, next⟩ := peek_holds h nofun
    obtain ⟨range, node, c', found, holds, denotes⟩ := pair_finds fuel next
      fun h => tree_finds hs.2.2.2.1 hd.2.1 hn.1 fuel false false (by omega) h
    obtain ⟨entries, stop, last, members, behind, values⟩ := members_finds hs.2.2.2.2 hd.2.2
      hn.2 (fuel + 2) ((.scalar (textOf label.name) .text range, node) :: done)
      (by omega) holds
    refine ⟨(.scalar (textOf label.name) .text range, node) :: entries, stop, last, ?_, behind,
      Node.denoteMembers_cons denotes values⟩
    rw [flowEntries_more h, found]
    show flowEntries (fuel + 2) false ((.scalar (textOf label.name) .text range, node) :: done) c' = _
    rw [members, List.reverse_cons, List.append_assoc]
    rfl

end

end Yaml.Composer

end ServiceModel

/-
A document without repeated names: of the entries with one name, each object keeps the first one.
Looking up by name finds the same entries as before. Where objects are gone through entry by entry
the two documents differ, unless no name is repeated there.
-/
import ServiceModel.Proofs.Document.Extension
import ServiceModel.Proofs.Document.Pairing
import ServiceModel.Proofs.Lists.Distinct
import ServiceModel.Proofs.Service.Same

namespace ServiceModel

open Service

namespace Node

/-! ## First entries -/

mutual

/-- The node with only the first entry of each name in each object. -/
def dedup : Node → Node
  | .literal l => .literal l
  | .array items range => .array (dedupItems items) range
  | .object entries range => .object (dedupEntries entries []) range

def dedupItems : List Node → List Node
  | [] => []
  | item :: rest => item.dedup :: dedupItems rest

/-- The first entry of each name that has not been seen before. -/
def dedupEntries : List (Key × Node) → List String → List (Key × Node)
  | [], _ => []
  | (key, value) :: rest, seen =>
    if key.name ∈ seen then dedupEntries rest seen
    else (key, value.dedup) :: dedupEntries rest (key.name :: seen)

end

/-- The entry with only the first entries in its value. -/
def dedupEntry (entry : Key × Node) : Key × Node := (entry.1, entry.2.dedup)

theorem dedupEntries_cons (entry : Key × Node) (rest : List (Key × Node)) (seen : List String) :
    dedupEntries (entry :: rest) seen =
      if entry.1.name ∈ seen then dedupEntries rest seen
      else dedupEntry entry :: dedupEntries rest (entry.1.name :: seen) := by
  rw [dedupEntries]
  rfl

theorem dedupItems_eq (items : List Node) : dedupItems items = items.map dedup := by
  induction items with
  | nil => rfl
  | cons item rest ih => rw [dedupItems, ih, List.map_cons]

theorem range_dedup (n : Node) : n.dedup.range = n.range := by
  cases n <;> rfl

theorem loc_dedup (n : Node) : n.dedup.loc = n.loc := by
  rw [loc, loc, range_dedup]

variable {seen : List String} {entries : List (Key × Node)}

/-- A name that has not been seen leads to its first entry. -/
theorem find?_dedupEntries (name : String) :
    (dedupEntries entries seen).find? (·.1.name == name) =
      if name ∈ seen then none else (entries.find? (·.1.name == name)).map dedupEntry := by
  induction entries generalizing seen with
  | nil => split <;> rfl
  | cons e rest ih =>
    have key : (dedupEntry e).1.name = e.1.name := rfl
    rw [dedupEntries_cons, List.find?_cons]
    by_cases here : e.1.name = name
    · subst here
      have found : (e.1.name == e.1.name) = true := beq_self_eq_true _
      by_cases hs : e.1.name ∈ seen
      · rw [if_pos hs, ih, if_pos hs, if_pos hs]
      · rw [if_neg hs, if_neg hs, List.find?_cons, key, found]
        rfl
    · have differs : (e.1.name == name) = false := beq_eq_false_iff_ne.2 here
      have apart : ¬ name = e.1.name := Ne.symm here
      rw [differs]
      split
      · exact ih
      · rw [List.find?_cons, key, differs]
        dsimp only
        rw [ih]
        simp only [List.mem_cons, apart, false_or]

theorem names_dedupEntries : (dedupEntries entries seen).map (·.1.name) =
    ((entries.map (·.1.name)).filter (· ∉ seen)).eraseDups := by
  induction entries generalizing seen with
  | nil => rfl
  | cons e rest ih =>
    rw [dedupEntries_cons, List.map_cons]
    by_cases hs : e.1.name ∈ seen
    · rw [if_pos hs, ih, List.filter_cons_of_neg (by simpa using hs)]
    · rw [if_neg hs, List.filter_cons_of_pos (by simpa using hs), List.eraseDups_cons, List.map_cons,
        ih, List.filter_filter]
      refine congrArg _ (congrArg _ (List.filter_congr fun n _ => ?_))
      by_cases hn : n = e.1.name <;> simp [hn]

/-- Entries with some names are kept as they are, but for their values, if none of those names is
repeated. -/
theorem filter_dedupEntries (p : String → Bool)
    (distinct : ((entries.filter (p ·.1.name)).map (·.1.name)).Nodup)
    (unseen : ∀ e ∈ entries, p e.1.name = true → e.1.name ∉ seen) :
    (dedupEntries entries seen).filter (p ·.1.name) =
      (entries.filter (p ·.1.name)).map dedupEntry := by
  induction entries generalizing seen with
  | nil => rfl
  | cons e rest ih =>
    have key : (dedupEntry e).1.name = e.1.name := rfl
    have further := fun e' (he' : e' ∈ rest) => unseen e' (List.mem_cons_of_mem _ he')
    rw [List.filter_cons] at distinct
    rw [dedupEntries_cons, List.filter_cons]
    by_cases hp : p e.1.name = true
    · rw [if_pos hp, List.map_cons, List.nodup_cons] at distinct
      rw [if_neg (unseen e List.mem_cons_self hp), if_pos hp, List.filter_cons, key, if_pos hp,
        List.map_cons]
      refine congrArg _ (ih distinct.2 fun e' he' hp' => ?_)
      refine List.not_mem_cons_of_ne_of_not_mem (fun same => distinct.1 ?_) (further e' he' hp')
      rw [← same]
      exact List.mem_map_of_mem (List.mem_filter.2 ⟨he', hp'⟩)
    · rw [if_neg hp] at distinct ⊢
      split
      · exact ih distinct further
      · rw [List.filter_cons, key, if_neg hp]
        refine ih distinct fun e' he' hp' => ?_
        exact List.not_mem_cons_of_ne_of_not_mem (fun same => hp (same ▸ hp')) (further e' he' hp')

theorem dedupEntries_of_nodup (distinct : (entries.map (·.1.name)).Nodup) :
    dedupEntries entries [] = entries.map dedupEntry := by
  have all : (dedupEntries entries []).filter (fun _ => true) =
      (entries.filter fun _ => true).map dedupEntry :=
    filter_dedupEntries (fun _ => true) (by rwa [List.filter_true]) fun _ _ _ => List.not_mem_nil
  simpa using all

/-! ## Nodes that repeat no name -/

/-- No object in the node repeats a name. -/
def Unrepeated (n : Node) : Prop := ∀ o : Object, o.node.Within n → o.keys.Nodup

theorem Unrepeated.child {a b : Node} (h : b.Unrepeated) (hc : Child a b) : a.Unrepeated :=
  fun o ho => h o (ho.trans hc.within)

mutual

theorem dedup_eq_self : ∀ n : Node, n.Unrepeated → n.dedup = n
  | .literal _, _ => rfl
  | .array items range, h => by
    rw [dedup, dedupItems_eq_self items fun _ hi => h.child (.item hi)]
  | .object entries range, h => by
    have distinct : (entries.map (·.1.name)).Nodup := h ⟨entries, range⟩ (.refl _)
    rw [dedup, dedupEntries_of_nodup distinct,
      map_dedupEntry_eq_self entries fun _ he => h.child (.value he)]

theorem dedupItems_eq_self :
    ∀ items : List Node, (∀ item ∈ items, item.Unrepeated) → dedupItems items = items
  | [], _ => rfl
  | item :: rest, h => by
    rw [dedupItems, dedup_eq_self item (h item List.mem_cons_self),
      dedupItems_eq_self rest fun i hi => h i (List.mem_cons_of_mem _ hi)]

theorem map_dedupEntry_eq_self :
    ∀ entries : List (Key × Node), (∀ entry ∈ entries, entry.2.Unrepeated) →
      entries.map dedupEntry = entries
  | [], _ => rfl
  | (key, value) :: rest, h => by
    rw [List.map_cons, dedupEntry, dedup_eq_self value (h _ List.mem_cons_self),
      map_dedupEntry_eq_self rest fun e he => h e (List.mem_cons_of_mem _ he)]

end

/-- No name is repeated where objects are gone through entry by entry: below the names for this,
among extensions and in their values. -/
structure WalkedOnce (root : Node) : Prop where
  walked : ∀ o q : Object, o.node.Within root → o.Walks q → q.keys.Nodup
  extensions : ∀ o : Object, o.node.Within root → (o.extensions.map (·.1.name)).Nodup
  values : ∀ o : Object, o.node.Within root → ∀ entry ∈ o.extensions, entry.2.Unrepeated

/-- The objects that stand in an object and are gone through entry by entry. -/
def walkedParts (o : Object) : List Object :=
  (walkedNames.filterMap fun name => (o.value? name).bind object?) ++
    (((o.value? "security").bind items?).getD []).filterMap object?

theorem mem_walkedParts {o q : Object} (h : o.Walks q) : q ∈ walkedParts o := by
  cases h with
  | @value name _ hn hv =>
    refine List.mem_append_left _ (List.mem_filterMap.2 ⟨name, hn, ?_⟩)
    rw [hv]
    rfl
  | item hv hi =>
    refine List.mem_append_right _ (List.mem_filterMap.2 ⟨q.node, ?_, rfl⟩)
    rw [hv]
    exact hi

/-- It is enough to go through the objects of the document. -/
theorem walkedOnce_of_objects {root : Node}
    (h : ∀ o ∈ root.objects, (∀ q ∈ walkedParts o, q.keys.Nodup) ∧
      (o.extensions.map (·.1.name)).Nodup ∧
      ∀ entry ∈ o.extensions, ∀ q ∈ entry.2.objects, q.keys.Nodup) : root.WalkedOnce where
  walked o q ho hq := (h o (mem_objects ho)).1 q (mem_walkedParts hq)
  extensions o ho := (h o (mem_objects ho)).2.1
  values o ho entry he q hq := (h o (mem_objects ho)).2.2 entry he q (mem_objects hq)

end Node

/-! ## A document and its first entries side by side -/

namespace Object

/-- The object with only the first entry of each name. -/
def dedup (o : Object) : Object := ⟨Node.dedupEntries o.entries [], o.range⟩

variable {root : Node} {o : Object}

theorem extensions_dedup (once : root.WalkedOnce) (ho : o.node.Within root) :
    o.dedup.extensions = o.extensions :=
  calc o.dedup.extensions
      = o.extensions.map Node.dedupEntry :=
        Node.filter_dedupEntries isMarked (once.extensions o ho) fun _ _ _ => List.not_mem_nil
    _ = o.extensions := Node.map_dedupEntry_eq_self _ (once.values o ho)

theorem distinctKeys_dedup (o : Object) : o.dedup.distinctKeys = o.distinctKeys := by
  have keys : o.dedup.keys = o.distinctKeys := by
    refine Node.names_dedupEntries.trans ?_
    simp only [List.not_mem_nil, not_false_eq_true, decide_true, List.filter_true]
    rfl
  rw [distinctKeys, keys]
  exact eraseDups_eq_self (nodup_eraseDups _)

theorem entry?_dedup (o : Object) (name : String) :
    Object.entry? o.dedup name = (o.entry? name).map Node.dedupEntry := by
  rw [Object.entry?, dedup, Node.find?_dedupEntries, if_neg List.not_mem_nil]
  rfl

end Object

namespace Node

variable {root : Node}

/-- A node of the document and what is left of it in the other one. -/
structure Deduped (root : Node) (n n' : Node) : Prop where
  within : n.Within root
  within' : n'.Within root.dedup
  same : n' = n.dedup

/-- An entry and what is left of it, if both objects are there. -/
theorem entriesAlike_dedupEntry {o o' : Object} (h : Deduped root o.node o'.node)
    {entry : Key × Node} (he : entry ∈ o.entries) (he' : dedupEntry entry ∈ o'.entries) :
    EntriesAlike (Deduped root) Eq entry (dedupEntry entry) where
  name := rfl
  value := ⟨(Object.entry_child he).within.trans h.within,
    (Object.entry_child he').within.trans h.within', rfl⟩
  key := rfl
  whole := by
    rw [Object.entryRange, Object.entryRange, dedupEntry, range_dedup]

theorem objectsRead_dedup (once : root.WalkedOnce) {o : Object}
    (h : Deduped root o.node o.node.dedup) : ObjectsRead (Deduped root) Eq o o.dedup where
  names := o.distinctKeys_dedup.symm
  entry name := by
    rw [Object.entry?_dedup]
    cases found : o.entry? name with
    | none => exact .none
    | some entry =>
      have there : Object.entry? o.dedup name = some (dedupEntry entry) := by
        rw [Object.entry?_dedup, found]
        rfl
      exact .some (entriesAlike_dedupEntry h (List.mem_of_find?_eq_some found)
        (List.mem_of_find?_eq_some there))
  metadata := by
    rw [Object.metadata, Object.metadata, Object.extensions_dedup once h.within]
    exact MetadataAlike.refl _

theorem nodesRead_dedup (once : root.WalkedOnce) {n n' : Node} (h : Deduped root n n') :
    NodesRead (Deduped root) Eq n n' := by
  obtain ⟨within, within', rfl⟩ := h
  cases n with
  | literal l => exact .literal
  | object entries range => exact .object (objectsRead_dedup once (o := ⟨entries, range⟩)
      ⟨within, within', rfl⟩)
  | array items range =>
    rw [dedup, dedupItems_eq] at within' ⊢
    refine .array (List.forall₂_map_right_iff.2 (List.forall₂_same.2 fun item hi => ?_))
    exact ⟨(Child.item hi).within.trans within,
      (Child.item (List.mem_map_of_mem hi)).within.trans within', rfl⟩

end Node

namespace Parallel

/-- A document beside its first entries, under a limit. -/
def deduped {root : Node} (once : root.WalkedOnce) (limit : Int) : Parallel root root.dedup where
  nodes := Node.Deduped root
  spans := Eq
  fails _ := True
  limit := limit
  roots := ⟨.refl root, .refl root.dedup, rfl⟩
  within h := ⟨h.within, h.within'⟩
  alike := Node.nodesRead_dedup once
  walked := by
    intro o q q' ho hq h
    have distinct := once.walked o q ho hq
    have entries : q'.entries = q.entries.map Node.dedupEntry := by
      have same : q'.entries = Node.dedupEntries q.entries [] := (Node.object.inj h.same).1
      rw [same, Node.dedupEntries_of_nodup distinct]
    rw [entries]
    refine List.forall₂_map_right_iff.2 (List.forall₂_same.2 fun entry he => ?_)
    exact Node.entriesAlike_dedupEntry h he (entries ▸ List.mem_map_of_mem he)
  span h := by rw [h.same, Node.loc_dedup]
  same_place := by
    intro o q o' q' ho hq
    have range : o'.range = o.range := congrArg Node.range ho.same
    have range' : q'.range = q.range := congrArg Node.range hq.same
    rw [range, range']
  reading _ := trivial
  tooDeep _ := trivial

end Parallel

end ServiceModel

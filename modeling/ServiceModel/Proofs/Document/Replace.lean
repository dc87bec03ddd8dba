/-
A document in which one node is replaced. Names lead from the root to the node, each time by the
first entry with the name; everything beside this way stays as it is. A pointer that does not end
on this way, and that reaches the same in the new node as in the old one, leads to the same entry.
-/
import ServiceModel.OpenApi.Metadata
import ServiceModel.Proofs.Document.Within

namespace ServiceModel

/-- The first entry with a name in an object; no other node has entries. -/
def Node.entry? (node : Node) (name : String) : Option (Key × Node) :=
  node.object?.bind fun o => o.entry? name

namespace Pointer

open Text (cut join)

theorem walk_eq_bind (entry : Key × Node) (name : String) (rest : List String) :
    walk entry (name :: rest) = ( Node.entry? entry.2 name).bind (walk · rest) := by
  rw [walk, Node.entry?]
  cases entry.2.object? with
  | none => rfl
  | some o =>
    dsimp only [Option.bind_some]
    cases o.entry? name <;> rfl

/-! ## Names that are written as they are -/

/-- The name holds neither a tilde nor a slash. -/
def Plain (name : String) : Prop := '~' ∉ name.toList ∧ '/' ∉ name.toList

instance : DecidablePred Plain := fun _ => inferInstanceAs (Decidable (_ ∧ _))

/-- What is written for a name without tildes and slashes is the name. -/
theorem eq_of_unescape (written : List Char) (tilde : '~' ∉ unescape written)
    (slash : '/' ∉ unescape written) : unescape written = written := by
  fun_induction unescape written with
  | case1 rest _ => exact absurd List.mem_cons_self tilde
  | case2 rest _ => exact absurd List.mem_cons_self slash
  | case3 c rest _ _ ih =>
    rw [ih (fun h => tilde (List.mem_cons_of_mem _ h)) (fun h => slash (List.mem_cons_of_mem _ h))]
  | case4 => rfl

/-- One pointer at most leads along names without tildes and slashes. -/
theorem eq_of_keys {pointer : String} {names : List String} (h : keys pointer = .ok names)
    (some : names ≠ []) (plain : ∀ name ∈ names, Plain name) :
    pointer.toList = '#' :: '/' :: join '/' (names.map String.toList) := by
  unfold keys at h
  split at h
  · cases h
    exact absurd rfl some
  · rename_i body text
    cases h
    have same : ((cut '/' body).map fun piece => String.ofList (unescape piece)).map String.toList =
        cut '/' body := by
      rw [List.map_map]
      refine (List.map_congr_left fun piece hp => ?_).trans (List.map_id _)
      obtain ⟨tilde, slash⟩ := plain _ (List.mem_map_of_mem hp)
      rw [String.toList_ofList] at tilde slash
      rw [Function.comp_apply, String.toList_ofList, eq_of_unescape piece tilde slash, id]
    rw [text, same, Text.join_cut]
  · cases h
  · cases h

theorem eq_of_no_keys {pointer : String} (h : keys pointer = .ok []) : pointer = "#" := by
  unfold keys at h
  split at h
  · rename_i text
    exact String.toList_inj.1 text
  · rename_i body _
    have none : cut '/' body = [] := List.map_eq_nil_iff.1 (Except.ok.inj h)
    exact absurd none (Text.cut_ne_nil _ _)
  · cases h
  · cases h

end Pointer

/-- The second document is the first one with `new` in the place of `old`, to which names lead. -/
inductive Node.Replaced (old new : Node) : List String → Node → Node → Prop
  | here : Replaced old new [] old new
  | under {key : Key} {value value' : Node} {before after : List (Key × Node)} {range : Text.Range}
      {names : List String} :
      (∀ entry ∈ before, entry.1.name ≠ key.name) → Replaced old new names value value' →
      Replaced old new (key.name :: names) (.object (before ++ (key, value) :: after) range)
        (.object (before ++ (key, value') :: after) range)

namespace Node.Replaced

variable {old new root root' value value' : Node} {names : List String}

/-! ## Entries of one object -/

section

variable {key : Key} {before after : List (Key × Node)} {range : Text.Range}

theorem entry?_self (apart : ∀ entry ∈ before, entry.1.name ≠ key.name) :
    Object.entry? ⟨before ++ (key, value) :: after, range⟩ key.name = some (key, value) := by
  have none : before.find? (·.1.name == key.name) = none :=
    List.find?_eq_none.2 fun entry he => by simpa using apart entry he
  rw [Object.entry?, List.find?_append, none]
  simp

theorem entry?_other {name : String} (hn : name ≠ key.name) :
    Object.entry? ⟨before ++ (key, value) :: after, range⟩ name =
      Object.entry? ⟨before ++ (key, value') :: after, range⟩ name := by
  have other : ¬ (key.name == name) = true := by simpa using Ne.symm hn
  simp only [Object.entry?, List.find?_append, List.find?_cons, other]

end

/-! ## Pointers -/

/-- Names that end beside the way to the node, or that reach the same below it, lead to the same
entry. -/
theorem walk (h : Replaced old new names root root') {keys : List String}
    (beside : ¬ keys <+: names)
    (below : ∀ name rest, keys = names ++ name :: rest → old.entry? name = new.entry? name)
    (k k' : Key) : Pointer.walk (k, root) keys = Pointer.walk (k', root') keys := by
  induction h generalizing keys k k' with
  | here =>
    cases keys with
    | nil => exact absurd List.nil_prefix beside
    | cons name rest => rw [Pointer.walk_eq_bind, Pointer.walk_eq_bind, below name rest rfl]
  | @under key value value' before after range names apart _ ih =>
    cases keys with
    | nil => exact absurd List.nil_prefix beside
    | cons name rest =>
      rw [Pointer.walk_eq_bind, Pointer.walk_eq_bind]
      dsimp only [Node.entry?, object?, Option.bind_some]
      by_cases hn : name = key.name
      · subst hn
        rw [entry?_self apart, entry?_self apart]
        refine ih (fun hp => beside ?_) (fun name' rest' hk => below name' rest' ?_) key key
        · exact List.cons_prefix_cons.2 ⟨rfl, hp⟩
        · rw [hk, List.cons_append]
      · rw [entry?_other hn]

theorem entryAt (h : Replaced old new names root root') {pointer : String}
    (beside : ∀ keys, Pointer.keys pointer = .ok keys → ¬ keys <+: names)
    (below : ∀ keys name rest, Pointer.keys pointer = .ok keys → keys = names ++ name :: rest →
      old.entry? name = new.entry? name) :
    root.entryAt pointer = root'.entryAt pointer := by
  unfold Node.entryAt
  cases hk : Pointer.keys pointer with
  | error e => rfl
  | ok keys =>
    dsimp only
    rw [h.walk (beside keys hk) (fun name rest => below keys name rest hk)]

/-! ## What is on the way -/

/-- The names lead to the node that is replaced, and to what stands in its place. -/
theorem walk_names (h : Replaced old new names root root') (k k' : Key) :
    (Pointer.walk (k, root) names).map (·.2) = some old ∧
      (Pointer.walk (k', root') names).map (·.2) = some new := by
  induction h generalizing k k' with
  | here => exact ⟨rfl, rfl⟩
  | @under key value value' before after range names apart _ ih =>
    rw [Pointer.walk_eq_bind, Pointer.walk_eq_bind]
    dsimp only [Node.entry?, object?, Option.bind_some]
    rw [entry?_self apart, entry?_self apart]
    exact ih key key

/-- A pointer of the names leads to the node that is replaced, and to what stands in its place. -/
theorem resolve_names (h : Replaced old new names root root') {pointer : String}
    (hk : Pointer.keys pointer = .ok names) :
    root.resolve pointer = .ok old ∧ root'.resolve pointer = .ok new := by
  obtain ⟨here, there⟩ := h.walk_names ⟨"", root.range⟩ ⟨"", root'.range⟩
  obtain ⟨entry, walked, rfl⟩ := Option.map_eq_some_iff.1 here
  obtain ⟨entry', walked', rfl⟩ := Option.map_eq_some_iff.1 there
  simp only [Node.resolve, Node.entryAt, hk, walked, walked', and_self]

/-- What stands on the way is replaced as well. -/
theorem split {keys rest : List String} (h : Replaced old new (keys ++ rest) root root') :
    ∃ mid mid', Replaced mid mid' keys root root' ∧ Replaced old new rest mid mid' := by
  induction keys generalizing root root' with
  | nil => exact ⟨root, root', .here, h⟩
  | cons key keys ih =>
    generalize hn : key :: keys ++ rest = way at h
    cases h with
    | here => cases hn
    | under apart below =>
      obtain ⟨rfl, rfl⟩ := List.cons.inj hn
      obtain ⟨mid, mid', outer, inner⟩ := ih below
      exact ⟨mid, mid', .under apart outer, inner⟩

theorem eq_of_nil (h : Replaced old new [] root root') : root = old ∧ root' = new := by
  cases h
  exact ⟨rfl, rfl⟩

theorem within (h : Replaced old new names root root') : old.Within root := by
  induction h with
  | here => exact .refl _
  | @under key value value' before after range names apart _ ih =>
    have here : (key, value) ∈ before ++ (key, value) :: after :=
      List.mem_append_right _ List.mem_cons_self
    exact ih.trans (Child.value here).within

end Node.Replaced

/-! ## What is read under a name -/

namespace Object

/-- Under a name the same is found in both objects. -/
def SameUnder (n : String) (o o' : Object) : Prop := o.entry? n = o'.entry? n

namespace SameUnder

variable {α : Type} {n : String} {o o' : Object} (h : SameUnder n o o')

include h

theorem value? : o.value? n = o'.value? n := congrArg _ h

theorem keyLoc? : o.keyLoc? n = o'.keyLoc? n := congrArg _ h

theorem entryLoc? : o.entryLoc? n = o'.entryLoc? n := congrArg _ h

theorem literal? : o.literal? n = o'.literal? n := by
  rw [Object.literal?, Object.literal?, h.value?]

theorem text? : o.text? n = o'.text? n := by
  rw [Object.text?, Object.text?, h.literal?]

theorem child (read : Node → Except Failure α) : o.child n read = o'.child n read := by
  rw [Object.child, Object.child, h.value?]

theorem array (read : Node → Except Failure α) : o.array n read = o'.array n read := by
  rw [Object.array, Object.array, h.value?]

theorem index : o.index n = o'.index n := h.child _

end SameUnder

end Object

/-- Two objects that differ in nothing but the value of one entry, the first with its name. -/
structure Object.Differ (name : String) (value value' : Node) (o o' : Object) : Prop where
  range : o.range = o'.range
  keys : o.keys = o'.keys
  found : o.value? name = some value
  found' : o'.value? name = some value'
  keyLoc? : o.keyLoc? name = o'.keyLoc? name
  entryLoc? : value.range = value'.range → o.entryLoc? name = o'.entryLoc? name
  others : ∀ n, n ≠ name → SameUnder n o o'
  extensions : extensionMark.toList.isPrefixOf name.toList = false → o.extensions = o'.extensions

namespace Object.Differ

variable {name : String} {value value' : Node} {o o' : Object}
  (h : Object.Differ name value value' o o')

include h

theorem metadata (plain : extensionMark.toList.isPrefixOf name.toList = false) :
    o.metadata = o'.metadata := by
  rw [Object.metadata, Object.metadata, h.extensions plain]

/-- All names stand at the same places. -/
theorem keyLoc?_all (n : String) : o.keyLoc? n = o'.keyLoc? n := by
  by_cases here : n = name
  · rw [here, h.keyLoc?]
  · exact (h.others n here).keyLoc?

/-- All entries stand at the same places, if the two values do. -/
theorem entryLoc?_all (same : value.range = value'.range) (n : String) :
    o.entryLoc? n = o'.entryLoc? n := by
  by_cases here : n = name
  · rw [here, h.entryLoc? same]
  · exact (h.others n here).entryLoc?

end Object.Differ

namespace Node.Replaced

variable {old new root root' value value' : Node} {names : List String}

theorem differ {key : Key} {before after : List (Key × Node)} {range : Text.Range}
    (apart : ∀ entry ∈ before, entry.1.name ≠ key.name) :
    Object.Differ key.name value value' ⟨before ++ (key, value) :: after, range⟩
      ⟨before ++ (key, value') :: after, range⟩ where
  range := rfl
  keys := by simp only [Object.keys, List.map_append, List.map_cons]
  found := by rw [Object.value?, entry?_self apart]; rfl
  found' := by rw [Object.value?, entry?_self apart]; rfl
  keyLoc? := by rw [Object.keyLoc?, Object.keyLoc?, entry?_self apart, entry?_self apart]; rfl
  entryLoc? same := by
    rw [Object.entryLoc?, Object.entryLoc?, entry?_self apart, entry?_self apart]
    exact congrArg (fun range : Text.Range => some (Text.Range.encode ⟨key.range.start, range.stop⟩))
      same
  others _ hn := entry?_other hn
  extensions plain := by
    simp only [Object.extensions, List.filter_append, List.filter_cons, plain, Bool.false_eq_true,
      if_false]

/-- The way to the node starts with an entry of the root. -/
theorem first {name : String} (h : Replaced old new (name :: names) root root') :
    ∃ (o o' : Object) (value value' : Node), root = o.node ∧ root' = o'.node ∧
      Object.Differ name value value' o o' ∧ Replaced old new names value value' := by
  generalize hn : name :: names = way at h
  cases h with
  | here => cases hn
  | under apart rest =>
    obtain ⟨rfl, rfl⟩ := List.cons.inj hn
    exact ⟨_, _, _, _, rfl, rfl, differ apart, rest⟩

end Node.Replaced

end ServiceModel

/-
Chains of references end. `Leads` follows a chain without any bound: a pointer that was followed
before closes a cycle, one that lands on a reference goes on with the pointer of that reference,
and any other ends. Going on is counted by `follow`, but the count never runs out: the pointers
followed after the first are pairwise distinct pointers of references in the document.
-/
import ServiceModel.Proofs.Document.Within
import Mathlib.Data.List.Perm.Subperm

namespace ServiceModel

namespace Node

/-! ## The references of a document -/

mutual

/-- The references among the nodes of a tree. -/
def references : Node → List Reference
  | .literal _ => []
  | .array items _ => referencesAmong items
  | .object entries range =>
    (if isReference (.object entries range) then [⟨⟨entries, range⟩⟩] else []) ++
      referencesUnder entries

def referencesAmong : List Node → List Reference
  | [] => []
  | item :: rest => item.references ++ referencesAmong rest

def referencesUnder : List (Key × Node) → List Reference
  | [] => []
  | (_, value) :: rest => value.references ++ referencesUnder rest

end

mutual

theorem length_references : ∀ node : Node, node.references.length = node.referenceCount
  | .literal _ => rfl
  | .array items _ => by
    rw [references, referenceCount, length_referencesAmong]
  | .object entries range => by
    rw [references, referenceCount, List.length_append, length_referencesUnder]
    split <;> rfl

theorem length_referencesAmong :
    ∀ items : List Node, (referencesAmong items).length = itemReferences items
  | [] => rfl
  | item :: rest => by
    rw [referencesAmong, itemReferences, List.length_append, length_references item,
      length_referencesAmong rest]

theorem length_referencesUnder :
    ∀ entries : List (Key × Node), (referencesUnder entries).length = entryReferences entries
  | [] => rfl
  | (_, value) :: rest => by
    rw [referencesUnder, entryReferences, List.length_append, length_references value,
      length_referencesUnder rest]

end

theorem referencesAmong_eq (items : List Node) : referencesAmong items = items.flatMap references := by
  induction items with
  | nil => rfl
  | cons item rest ih => rw [referencesAmong, ih, List.flatMap_cons]

theorem referencesUnder_eq (entries : List (Key × Node)) :
    referencesUnder entries = entries.flatMap (·.2.references) := by
  induction entries with
  | nil => rfl
  | cons entry rest ih => rw [referencesUnder, ih, List.flatMap_cons]

theorem Child.references_subset {a b : Node} (h : Child a b) : a.references ⊆ b.references := by
  intro r hr
  cases h with
  | item h =>
    rw [references, referencesAmong_eq]
    exact List.mem_flatMap.2 ⟨a, h, hr⟩
  | value h =>
    rw [references, referencesUnder_eq]
    exact List.mem_append_right _ (List.mem_flatMap.2 ⟨_, h, hr⟩)

theorem Within.references_subset {a b : Node} (h : a.Within b) :
    a.references ⊆ b.references := by
  induction h with
  | refl => exact List.Subset.refl _
  | tail _ h ih => exact List.Subset.trans ih h.references_subset

/-- A reference of the document is among its references. -/
theorem mem_references {root node : Node} {r : Reference} (hn : node.Within root)
    (hr : node.isReference = true) (h : Reference.ofNode node = .ok r) : r ∈ root.references := by
  refine hn.references_subset ?_
  obtain ⟨o, ho, h⟩ := read_bind_ok h
  cases h
  have same := asObject_ok ho
  subst same
  change _ ∈ references (.object o.entries o.range)
  rw [references]
  refine List.mem_append_left _ ?_
  change isReference (.object o.entries o.range) = true at hr
  rw [if_pos hr]
  exact List.mem_singleton.2 rfl

/-- The pointers of the references in a document. -/
def pointers (root : Node) : List String := root.references.filterMap (·.pointer.toOption)

theorem Within.pointers_subset {a b : Node} (h : a.Within b) : a.pointers ⊆ b.pointers :=
  List.filterMap_subset _ h.references_subset

theorem length_pointers_le (root : Node) : root.pointers.length ≤ root.referenceCount := by
  rw [← root.length_references]
  exact List.length_filterMap_le _ _

theorem mem_pointers {root : Node} {r : Reference} {pointer : String} (hr : r ∈ root.references)
    (hp : r.pointer = .ok pointer) : pointer ∈ root.pointers :=
  List.mem_filterMap.2 ⟨r, hr, by rw [hp]; rfl⟩

theorem isReference_of_pointer {r : Reference} {pointer : String} (h : r.pointer = .ok pointer) :
    r.object.node.isReference = true := by
  obtain ⟨l, hl, -⟩ := read_bind_ok h
  have found : r.object.text? referenceName = some l := by
    unfold Reference.literal Object.requireText at hl
    split at hl
    · cases hl; assumption
    · cases hl
  show (r.object.literal? referenceName).isSome = true
  unfold Object.text? at found
  split at found
  · rename_i hl
    rw [hl]
    rfl
  · cases found

/-- A pointer that stands in the document is among its pointers. -/
theorem pointer_mem_pointers {root : Node} {r : Reference} {pointer : String}
    (hr : r.object.node.Within root) (hp : r.pointer = .ok pointer) : pointer ∈ root.pointers :=
  mem_pointers (mem_references hr (isReference_of_pointer hp) rfl) hp

end Node

namespace Reference

/-! ## Following a chain -/

/-- The chain that goes on with a pointer, after those of `seen`, ends with a result. -/
inductive Leads (root : Node) : List String → String → Except Failure Node → Prop
  | cycle {seen : List String} {pointer : String} :
      pointer ∈ seen → Leads root seen pointer (.error (.cycle (.chain (seen ++ [pointer]))))
  | lost {seen : List String} {pointer : String} {e : Failure} :
      pointer ∉ seen → root.resolve pointer = .error e → Leads root seen pointer (.error e)
  | landed {seen : List String} {pointer : String} {node : Node} :
      pointer ∉ seen → root.resolve pointer = .ok node → node.isReference = false →
      Leads root seen pointer (.ok node)
  /-- The reference that is landed on has no pointer. -/
  | unnamed {seen : List String} {pointer : String} {node : Node} {e : Failure} :
      pointer ∉ seen → root.resolve pointer = .ok node → node.isReference = true →
      (ofNode node >>= Reference.pointer) = .error e → Leads root seen pointer (.error e)
  | next {seen : List String} {pointer target : String} {node : Node}
      {result : Except Failure Node} :
      pointer ∉ seen → root.resolve pointer = .ok node → node.isReference = true →
      (ofNode node >>= Reference.pointer) = .ok target →
      Leads root (seen ++ [pointer]) target result → Leads root seen pointer result

/-- One step of a chain is followed right if the rest of the chain is. -/
theorem leads_step {root : Node} {seen : List String} {pointer : String} {fuel : Nat}
    (rest : pointer ∉ seen → ∀ target ∈ root.pointers,
      Leads root (seen ++ [pointer]) target (follow root (seen ++ [pointer]) target fuel)) :
    Leads root seen pointer (follow root seen pointer (fuel + 1)) := by
  rw [follow]
  by_cases hs : pointer ∈ seen
  · rw [if_pos (List.contains_iff_mem.2 hs)]
    exact .cycle hs
  · rw [if_neg (fun h => hs (List.contains_iff_mem.1 h))]
    cases hn : root.resolve pointer with
    | error e => exact .lost hs hn
    | ok node =>
      simp only
      cases hi : node.isReference with
      | false => exact .landed hs hn hi
      | true =>
        -- the pointer to go on with is one of the document, since its reference stands there
        rw [if_pos rfl]
        cases ho : ofNode node with
        | error e => exact .unnamed hs hn hi (by rw [ho]; rfl)
        | ok next =>
          simp only
          cases ht : next.pointer with
          | error e => exact .unnamed hs hn hi (by rw [ho]; exact ht)
          | ok target =>
            have hm := Node.mem_references (Node.resolve_within hn) hi ho
            exact .next hs hn hi (by rw [ho]; exact ht) (rest hs target (Node.mem_pointers hm ht))

/-- The rest of a chain: the pointers after the first are distinct pointers of the document, so
that there is always one step left to take. -/
theorem leads_follow {root : Node} {first : String} :
    ∀ {fuel : Nat} {rest : List String} {pointer : String}, (first :: rest).Nodup →
      rest ⊆ root.pointers → pointer ∈ root.pointers →
      root.referenceCount < fuel + rest.length →
      Leads root (first :: rest) pointer (follow root (first :: rest) pointer fuel)
  | 0, rest, pointer, hd, hr, _, hf => by
    -- distinct pointers of the document are no more than its references
    have hle := (List.subperm_of_subset (List.nodup_cons.1 hd).2 hr).length_le
    have := root.length_pointers_le
    omega
  | fuel + 1, rest, pointer, hd, hr, hp, hf => by
    refine leads_step fun hs target ht => ?_
    refine @leads_follow root first fuel (rest ++ [pointer]) target ?_ ?_ ht ?_
    · refine List.nodup_append.2 ⟨hd, List.pairwise_singleton _ _, fun a ha b hb hab => ?_⟩
      exact hs (List.mem_singleton.1 hb ▸ hab ▸ ha)
    · intro p h
      rcases List.mem_append.1 h with h | h
      · exact hr h
      · exact List.mem_singleton.1 h ▸ hp
    · rw [List.length_append, List.length_singleton]
      omega

/-- The chain that starts with a reference ends with its target. -/
theorem leads_target {root : Node} {r : Reference} {pointer : String}
    (hp : r.pointer = .ok pointer) : Leads root [] pointer (r.target root) := by
  rw [target_eq_follow, hp]
  refine leads_step fun _ target ht => ?_
  have alone : [pointer].Nodup := List.pairwise_singleton _ _
  exact @leads_follow root pointer _ [] target alone (List.nil_subset _) ht (by simp)

/-! ## Chains compared -/

/-- A chain that lands does so as well when fewer pointers were followed before. -/
theorem Leads.of_seen_subset {root node : Node} {seen : List String} {pointer : String}
    {result : Except Failure Node} (h : Leads root seen pointer result) :
    ∀ {fewer : List String}, fewer ⊆ seen → result = .ok node →
      Leads root fewer pointer (.ok node) := by
  induction h with
  | cycle _ => intro _ _ h; cases h
  | lost _ _ => intro _ _ h; cases h
  | unnamed _ _ _ _ => intro _ _ h; cases h
  | landed hs hn hr =>
    intro fewer hf h
    cases h
    exact .landed (fun hm => hs (hf hm)) hn hr
  | next hs hn hr ht _ ih =>
    intro fewer hf h
    refine .next (fun hm => hs (hf hm)) hn hr ht (ih ?_ h)
    exact List.append_subset.2 ⟨List.subset_append_of_subset_left _ hf, List.subset_append_right _ _⟩

/-- A chain ends in one way. -/
theorem Leads.unique {root : Node} {seen : List String} {pointer : String}
    {result result' : Except Failure Node} (h : Leads root seen pointer result)
    (h' : Leads root seen pointer result') : result = result' := by
  induction h with
  | cycle hs =>
    cases h' with
    | cycle _ => rfl
    | lost hs' _ => exact absurd hs hs'
    | landed hs' _ _ => exact absurd hs hs'
    | unnamed hs' _ _ _ => exact absurd hs hs'
    | next hs' _ _ _ _ => exact absurd hs hs'
  | lost hs hn =>
    cases h' with
    | cycle hs' => exact absurd hs' hs
    | lost _ hn' => exact Except.error.inj (hn.symm.trans hn') ▸ rfl
    | landed _ hn' _ => cases hn.symm.trans hn'
    | unnamed _ hn' _ _ => cases hn.symm.trans hn'
    | next _ hn' _ _ _ => cases hn.symm.trans hn'
  | landed hs hn hr =>
    cases h' with
    | cycle hs' => exact absurd hs' hs
    | lost _ hn' => cases hn.symm.trans hn'
    | landed _ hn' _ => cases hn.symm.trans hn'; rfl
    | unnamed _ hn' hr' _ => cases hn.symm.trans hn'; cases hr.symm.trans hr'
    | next _ hn' hr' _ _ => cases hn.symm.trans hn'; cases hr.symm.trans hr'
  | unnamed hs hn hr ht =>
    cases h' with
    | cycle hs' => exact absurd hs' hs
    | lost _ hn' => cases hn.symm.trans hn'
    | landed _ hn' hr' => cases hn.symm.trans hn'; cases hr.symm.trans hr'
    | unnamed _ hn' _ ht' => cases hn.symm.trans hn'; cases ht.symm.trans ht'; rfl
    | next _ hn' _ ht' _ => cases hn.symm.trans hn'; cases ht.symm.trans ht'
  | next hs hn hr ht _ ih =>
    cases h' with
    | cycle hs' => exact absurd hs' hs
    | lost _ hn' => cases hn.symm.trans hn'
    | landed _ hn' hr' => cases hn.symm.trans hn'; cases hr.symm.trans hr'
    | unnamed _ hn' _ ht' => cases hn.symm.trans hn'; cases ht.symm.trans ht'
    | next _ hn' _ ht' rest => cases hn.symm.trans hn'; cases ht.symm.trans ht'; exact ih rest

end Reference

end ServiceModel

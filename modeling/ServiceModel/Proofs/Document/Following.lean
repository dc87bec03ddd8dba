/-
How chains of references end. From a reference a chain goes to its pointer, and from each pointer
that leads to a reference to the pointer of that one. It ends at a node that is no reference, at a
pointer that leads nowhere, at a reference that has no pointer, or where it would come back to one
of its pointers. Each reference has one chain and one end of it, and this is what following it
gives. The pointers that are resolved on the way are those of the chain, each once; all but the
first belong to references of the document, so that there is at most one more than it has of these.
-/
import ServiceModel.Proofs.Document.Chain
import ServiceModel.Proofs.Lists.Linked

namespace ServiceModel

namespace Node

theorem resolve_error {root : Node} {pointer : String} {e : Failure}
    (h : root.resolve pointer = .error e) : ∃ lost, e = .pointer lost := by
  unfold resolve entryAt Pointer.keys at h
  grind

end Node

namespace Reference

theorem pointer_error {r : Reference} {e : Failure} (h : r.pointer = .error e) :
    ∃ unnamed, e = .shape unnamed := by
  unfold pointer literal Object.requireText at h
  split at h
  · cases h
  · cases h
    exact ⟨_, rfl⟩

theorem ofNode_of_isReference {node : Node} (h : node.isReference = true) :
    ∃ r, ofNode node = .ok r ∧ node = r.object.node := by
  cases node with
  | object entries range => exact ⟨⟨⟨entries, range⟩⟩, rfl, rfl⟩
  | literal l => cases h
  | array items range => cases h

/-! ## Chains -/

/-- The pointer leads to a reference, which holds the next pointer. -/
def Links (root : Node) (pointer next : String) : Prop :=
  ∃ r : Reference, root.resolve pointer = .ok r.object.node ∧ r.pointer = .ok next

theorem Links.functional {root : Node} ⦃pointer next next' : String⦄
    (h : Links root pointer next) (h' : Links root pointer next') : next = next' := by
  obtain ⟨⟨o⟩, hr, hp⟩ := h
  obtain ⟨⟨o'⟩, hr', hp'⟩ := h'
  cases Object.node_injective (Except.ok.inj (hr.symm.trans hr'))
  exact Except.ok.inj (hp.symm.trans hp')

theorem Links.mem_pointers {root : Node} {pointer next : String} (h : Links root pointer next) :
    next ∈ root.pointers := by
  obtain ⟨r, hr, hp⟩ := h
  exact Node.pointer_mem_pointers (Node.resolve_within hr) hp

/-- The chain starts with the pointer of the reference, and each pointer in it leads to a reference
with the next one. -/
structure Chained (root : Node) (r : Reference) (chain : List String) : Prop where
  first : ∃ first, r.pointer = .ok first ∧ chain.head? = some first
  links : chain.IsChain (Links root)

/-- How a chain ends. -/
inductive Ending where
  /-- At a node that is no reference. -/
  | landed (node : Node)
  /-- At a pointer that leads nowhere. -/
  | lost (error : PointerError)
  /-- At a reference whose pointer is no text. -/
  | unnamed (error : ShapeError)
  /-- Before a pointer that was followed already. -/
  | closed (pointer : String)

/-- What following a chain comes to. -/
def Ending.result (chain : List String) : Ending → Except Failure Node
  | landed node => .ok node
  | lost error => .error (.pointer error)
  | unnamed error => .error (.shape error)
  | closed pointer => .error (.cycle (.chain (chain ++ [pointer])))

/-- A chain ends behind the pointer, since that leads to nothing with a next pointer. -/
inductive Finishes (root : Node) (last : String) : Ending → Prop
  | landed {node : Node} :
      root.resolve last = .ok node → node.isReference = false → Finishes root last (.landed node)
  | lost {error : PointerError} :
      root.resolve last = .error (.pointer error) → Finishes root last (.lost error)
  | unnamed {r : Reference} {error : ShapeError} :
      root.resolve last = .ok r.object.node → r.object.node.isReference = true →
      r.pointer = .error (.shape error) → Finishes root last (.unnamed error)

/-- The chain of the reference, with its end. -/
inductive Ends (root : Node) (r : Reference) : List String → Ending → Prop
  /-- The reference itself has no pointer. -/
  | unnamed {error : ShapeError} :
      r.pointer = .error (.shape error) → Ends root r [] (.unnamed error)
  | finished {before : List String} {last : String} {ending : Ending} :
      Chained root r (before ++ [last]) → Finishes root last ending →
      Ends root r (before ++ [last]) ending
  /-- The chain goes on to one of its own pointers. -/
  | closed {chain : List String} {pointer : String} :
      Chained root r (chain ++ [pointer]) → chain.Nodup → pointer ∈ chain →
      Ends root r chain (.closed pointer)

variable {root : Node} {r : Reference} {chain chain' : List String} {ending ending' : Ending}

/-! ## One end -/

namespace Finishes

variable {last next : String}

theorem stuck (h : Finishes root last ending) (next : String) : ¬ Links root last next := by
  rintro ⟨r, hr, hp⟩
  cases h with
  | landed hn hi =>
    cases hr.symm.trans hn
    have := Node.isReference_of_pointer hp
    rw [hi] at this
    cases this
  | lost hn => cases hr.symm.trans hn
  | @unnamed r' _ hn _ he =>
    cases r
    cases r'
    cases Object.node_injective (Except.ok.inj (hr.symm.trans hn))
    cases hp.symm.trans he

theorem unique (h : Finishes root last ending) (h' : Finishes root last ending') :
    ending = ending' := by
  cases h with
  | landed hn hi =>
    cases h' with
    | landed hn' _ => cases hn.symm.trans hn'; rfl
    | lost hn' => cases hn.symm.trans hn'
    | unnamed hn' hi' _ => cases hn.symm.trans hn'; cases hi.symm.trans hi'
  | lost hn =>
    cases h' with
    | landed hn' _ => cases hn.symm.trans hn'
    | lost hn' => cases hn.symm.trans hn'; rfl
    | unnamed hn' _ _ => cases hn.symm.trans hn'
  | @unnamed r _ hn hi he =>
    cases h' with
    | landed hn' hi' => cases hn.symm.trans hn'; cases hi.symm.trans hi'
    | lost hn' => cases hn.symm.trans hn'
    | @unnamed r' _ hn' _ he' =>
      cases r
      cases r'
      cases Object.node_injective (Except.ok.inj (hn.symm.trans hn'))
      cases he.symm.trans he'
      rfl

end Finishes

namespace Chained

theorem ne_error (h : Chained root r chain) {e : Failure} : r.pointer ≠ .error e := by
  obtain ⟨first, hp, -⟩ := h.first
  rw [hp]
  exact nofun

theorem same_start (h : Chained root r chain) (h' : Chained root r chain') :
    ∃ first rest rest', chain = first :: rest ∧ chain' = first :: rest' := by
  obtain ⟨first, hp, hc⟩ := h.first
  obtain ⟨first', hp', hc'⟩ := h'.first
  cases hp.symm.trans hp'
  obtain ⟨rest, rfl⟩ := List.head?_eq_some_iff.1 hc
  obtain ⟨rest', rfl⟩ := List.head?_eq_some_iff.1 hc'
  exact ⟨first, rest, rest', rfl, rfl⟩

/-- Of two chains of one reference one is the beginning of the other. -/
theorem comparable (h : Chained root r chain) (h' : Chained root r chain') :
    chain <+: chain' ∨ chain' <+: chain := by
  obtain ⟨first, rest, rest', rfl, rfl⟩ := h.same_start h'
  exact (linked_comparable Links.functional h.links h'.links).imp
    (List.prefix_cons_inj _).2 (List.prefix_cons_inj _).2

/-- Where a chain finishes, every other one of the reference is its beginning. -/
theorem prefix_of_finished {before : List String} {last : String}
    (h : Chained root r (before ++ [last])) (hf : Finishes root last ending)
    (h' : Chained root r chain') : chain' <+: before ++ [last] := by
  obtain ⟨first, rest, rest', same, rfl⟩ := h.same_start h'
  have hl : (first :: rest).getLast? = some last := by
    rw [← same]
    exact List.getLast?_concat
  rw [same, List.prefix_cons_inj]
  exact linked_prefix_of_end Links.functional (same ▸ h.links) hl hf.stuck h'.links

theorem nodup_of_finished {before : List String} {last : String}
    (h : Chained root r (before ++ [last])) (hf : Finishes root last ending) :
    (before ++ [last]).Nodup :=
  linked_nodup Links.functional h.links List.getLast?_concat hf.stuck

theorem of_append {before after : List String} (h : Chained root r (before ++ after))
    (some : before ≠ []) : Chained root r before := by
  obtain ⟨first, hp, hc⟩ := h.first
  rw [List.head?_append_of_ne_nil _ some] at hc
  exact ⟨⟨first, hp, hc⟩, h.links.left_of_append⟩

theorem append (h : Chained root r chain) {last next : String} (hl : chain.getLast? = some last)
    (hn : Links root last next) : Chained root r (chain ++ [next]) := by
  obtain ⟨first, hp, hc⟩ := h.first
  refine ⟨⟨first, hp, ?_⟩, h.links.append (.singleton next) ?_⟩
  · obtain ⟨rest, rfl⟩ := List.head?_eq_some_iff.1 hc
    rfl
  · intro x hx y hy
    cases hl.symm.trans hx
    cases hy
    exact hn

/-- All pointers of a chain but the first are those of references in the document. -/
theorem length_le (h : Chained root r chain) (hd : chain.Nodup) :
    chain.length ≤ root.referenceCount + 1 := by
  obtain ⟨first, -, hc⟩ := h.first
  obtain ⟨rest, rfl⟩ := List.head?_eq_some_iff.1 hc
  have known : rest ⊆ root.pointers := by
    -- the pointer before it leads to the reference that has it
    intro next hm
    obtain ⟨before, after, split⟩ := List.append_of_mem hm
    have links := h.links
    rw [split, ← List.cons_append] at links
    have last : ∃ last, (first :: before).getLast? = some last :=
      ⟨_, List.getLast?_eq_some_getLast (List.cons_ne_nil _ _)⟩
    obtain ⟨last, hl⟩ := last
    have link : Links root last next := (List.isChain_append.1 links).2.2 last hl next rfl
    exact link.mem_pointers
  have short := (List.subperm_of_subset (List.nodup_cons.1 hd).2 known).length_le
  have := root.length_pointers_le
  rw [List.length_cons]
  omega

end Chained

/-- No chain comes back to one of its pointers before its end. -/
theorem closed_prefix_eq {pointer pointer' : String} (hm : pointer ∈ chain) (hd : chain'.Nodup)
    (shorter : chain ++ [pointer] <+: chain' ++ [pointer']) :
    chain ++ [pointer] = chain' ++ [pointer'] := by
  rcases List.prefix_concat_iff.1 shorter with same | before
  · exact same
  · have distinct := hd.sublist before.sublist
    rw [List.nodup_append] at distinct
    exact absurd rfl (distinct.2.2 pointer hm pointer (List.mem_singleton.2 rfl))

/-- A chain that closes is not one that finishes. -/
theorem not_finished_of_closed {before : List String} {last pointer : String}
    (h : Chained root r (before ++ [last])) (hf : Finishes root last ending)
    (h' : Chained root r (chain ++ [pointer])) (hm : pointer ∈ chain) : False := by
  have distinct := (h.nodup_of_finished hf).sublist (h.prefix_of_finished hf h').sublist
  rw [List.nodup_append] at distinct
  exact distinct.2.2 pointer hm pointer (List.mem_singleton.2 rfl) rfl

/-- A reference has one chain, and that has one end. -/
theorem Ends.unique (h : Ends root r chain ending) (h' : Ends root r chain' ending') :
    chain' = chain ∧ ending' = ending := by
  cases h with
  | unnamed he =>
    cases h' with
    | unnamed he' => cases he.symm.trans he'; exact ⟨rfl, rfl⟩
    | finished hc' _ => exact absurd he hc'.ne_error
    | closed hc' _ _ => exact absurd he hc'.ne_error
  | finished hc hf =>
    cases h' with
    | unnamed he' => exact absurd he' hc.ne_error
    | finished hc' hf' =>
      -- each of the two chains is the beginning of the other
      have shorter := hc.prefix_of_finished hf hc'
      have longer := hc'.prefix_of_finished hf' hc
      have same := shorter.eq_of_length (Nat.le_antisymm shorter.length_le longer.length_le)
      obtain ⟨-, last⟩ := List.append_inj' same rfl
      cases last
      exact ⟨same, hf'.unique hf⟩
    | closed hc' _ hm' => exact (not_finished_of_closed hc hf hc' hm').elim
  | closed hc hd hm =>
    cases h' with
    | unnamed he' => exact absurd he' hc.ne_error
    | finished hc' hf' => exact (not_finished_of_closed hc' hf' hc hm).elim
    | closed hc' hd' hm' =>
      -- neither can go on behind the pointer that closes the other
      have same : chain' ++ [_] = chain ++ [_] :=
        (hc.comparable hc').elim (fun shorter => (closed_prefix_eq hm hd' shorter).symm)
          (fun longer => closed_prefix_eq hm' hd longer)
      obtain ⟨chains, last⟩ := List.append_inj' same rfl
      cases last
      exact ⟨chains, rfl⟩

theorem Ends.nodup (h : Ends root r chain ending) : chain.Nodup := by
  cases h with
  | unnamed _ => exact List.nodup_nil
  | finished hc hf => exact hc.nodup_of_finished hf
  | closed _ hd _ => exact hd

theorem Ends.length_le (h : Ends root r chain ending) : chain.length ≤ root.referenceCount + 1 := by
  cases h with
  | unnamed _ => exact Nat.zero_le _
  | finished hc hf => exact hc.length_le (hc.nodup_of_finished hf)
  | closed hc hd hm => exact (hc.of_append (List.ne_nil_of_mem hm)).length_le hd

/-! ## Following with a log -/

/-- Reading with a log of the pointers that are resolved; a failure keeps the log. -/
abbrev Logged := ExceptT Failure (StateM (List String))

/-- What a logged reading comes to behind a log, and the log then. -/
def Logged.runOn {α : Type} (x : Logged α) (log : List String) : Except Failure α × List String :=
  x.run.run log

theorem Logged.runOn_bind {α β : Type} (x : Logged α) (f : α → Logged β) (log : List String) :
    (x >>= f).runOn log =
      match x.runOn log with
      | (.error e, log) => (.error e, log)
      | (.ok a, log) => (f a).runOn log := by
  unfold runOn
  rw [ExceptT.run_bind, StateT.run_bind]
  obtain ⟨outcome, log'⟩ := x.run.run log
  cases outcome <;> rfl

/-- Resolving a pointer is put down in the log, whether it leads to a node or not. -/
def resolveLogged (root : Node) (pointer : String) : Logged Node := do
  modify (· ++ [pointer])
  root.resolve pointer

theorem runOn_resolveLogged (root : Node) (pointer : String) (log : List String) :
    (resolveLogged root pointer).runOn log = (root.resolve pointer, log ++ [pointer]) := rfl

/-- `follow` with a log. -/
def followLogged (root : Node) (seen : List String) (pointer : String) : Nat → Logged Node
  | 0 => throw (.cycle (.chain (seen ++ [pointer])))
  | fuel + 1 => do
    if seen.contains pointer then throw (.cycle (.chain (seen ++ [pointer])))
    else
      let node ← resolveLogged root pointer
      if node.isReference then
        let next ← ofNode node
        followLogged root (seen ++ [pointer]) (← next.pointer) fuel
      else return node

/-- `target` with a log. -/
def targetLogged (root : Node) (r : Reference) : Logged Node := do
  followLogged root [] (← r.pointer) (root.referenceCount + 2)

theorem runOn_followLogged (root : Node) (seen : List String) (pointer : String) (fuel : Nat)
    (log : List String) :
    (followLogged root seen pointer (fuel + 1)).runOn log =
      if seen.contains pointer then (.error (.cycle (.chain (seen ++ [pointer]))), log)
      else match root.resolve pointer with
        | .error e => (.error e, log ++ [pointer])
        | .ok node =>
          if node.isReference then
            match ofNode node with
            | .error e => (.error e, log ++ [pointer])
            | .ok next =>
              match next.pointer with
              | .error e => (.error e, log ++ [pointer])
              | .ok target =>
                (followLogged root (seen ++ [pointer]) target fuel).runOn (log ++ [pointer])
          else (.ok node, log ++ [pointer]) := by
  have lifted {α : Type} (source : Except Failure α) (log : List String) :
      (liftM source : Logged α).runOn log = (source, log) := rfl
  rw [followLogged]
  split
  · rfl
  · rw [Logged.runOn_bind, runOn_resolveLogged]
    cases root.resolve pointer with
    | error e => rfl
    | ok node =>
      dsimp only
      split
      · rw [Logged.runOn_bind, lifted]
        cases ofNode node with
        | error e => rfl
        | ok next =>
          dsimp only
          rw [Logged.runOn_bind, lifted]
          cases next.pointer <;> rfl
      · rfl

/-- The log changes nothing in what following comes to. -/
theorem followLogged_fst (root : Node) {fuel : Nat} : ∀ {seen : List String} {pointer : String}
    {log : List String},
    ((followLogged root seen pointer fuel).runOn log).1 = follow root seen pointer fuel := by
  induction fuel with
  | zero => intro seen pointer log; rfl
  | succ fuel ih =>
    intro seen pointer log
    rw [runOn_followLogged, follow]
    split
    · rfl
    · cases root.resolve pointer with
      | error e => rfl
      | ok node =>
        dsimp only
        split
        · cases ofNode node with
          | error e => rfl
          | ok next =>
            dsimp only
            cases next.pointer with
            | error e => rfl
            | ok target => exact ih
        · rfl

theorem runOn_targetLogged (root : Node) (r : Reference) (log : List String) :
    (r.targetLogged root).runOn log =
      match r.pointer with
      | .error e => (.error e, log)
      | .ok pointer => (followLogged root [] pointer (root.referenceCount + 2)).runOn log := by
  rw [targetLogged, Logged.runOn_bind]
  cases r.pointer <;> rfl

theorem targetLogged_fst (root : Node) (r : Reference) (log : List String) :
    ((r.targetLogged root).runOn log).1 = r.target root := by
  rw [runOn_targetLogged, target_eq_follow]
  cases r.pointer with
  | error e => rfl
  | ok pointer => exact followLogged_fst root

/-- Following takes the chain to its end: there is one step left as long as it goes on, since its
pointers are distinct and there are only so many of them. -/
theorem followLogged_ends {fuel : Nat} : ∀ {seen : List String} {pointer : String},
    Chained root r (seen ++ [pointer]) → seen.Nodup → seen.length + fuel = root.referenceCount + 2 →
    ∃ chain ending, Ends root r chain ending ∧
      (followLogged root seen pointer fuel).runOn seen = (ending.result chain, chain) := by
  induction fuel with
  | zero =>
    -- more pointers would have been followed than there are
    intro seen pointer hc hd room
    have some : seen ≠ [] := by
      rintro rfl
      cases room
    have short := (hc.of_append some).length_le hd
    omega
  | succ fuel ih =>
    intro seen pointer hc hd room
    rw [runOn_followLogged]
    by_cases hs : pointer ∈ seen
    · rw [if_pos (List.contains_iff_mem.2 hs)]
      exact ⟨seen, .closed pointer, .closed hc hd hs, rfl⟩
    · rw [if_neg fun h => hs (List.contains_iff_mem.1 h)]
      cases hn : root.resolve pointer with
      | error e =>
        obtain ⟨lost, rfl⟩ := Node.resolve_error hn
        exact ⟨_, .lost lost, .finished hc (.lost hn), rfl⟩
      | ok node =>
        dsimp only
        cases hi : node.isReference with
        | false =>
          rw [if_neg Bool.false_ne_true]
          exact ⟨_, .landed node, .finished hc (.landed hn hi), rfl⟩
        | true =>
          obtain ⟨next, ho, rfl⟩ := ofNode_of_isReference hi
          rw [if_pos rfl, ho]
          dsimp only
          cases ht : next.pointer with
          | error e =>
            obtain ⟨unnamed, rfl⟩ := pointer_error ht
            exact ⟨_, .unnamed unnamed, .finished hc (.unnamed hn hi ht), rfl⟩
          | ok target =>
            have longer := hc.append List.getLast?_concat ⟨next, hn, ht⟩
            refine ih longer ?_ ?_
            · rw [List.nodup_append]
              refine ⟨hd, List.nodup_singleton _, fun a ha b hb same => hs ?_⟩
              rwa [← List.mem_singleton.1 hb, ← same]
            · rw [List.length_append, List.length_singleton]
              omega

/-- What following a reference comes to. -/
structure Followed (root : Node) (r : Reference) (chain : List String) (ending : Ending) :
    Prop where
  ends : Ends root r chain ending
  /-- The reference has no other chain and no other end. -/
  only : ∀ chain' ending', Ends root r chain' ending' → chain' = chain ∧ ending' = ending
  target : r.target root = ending.result chain
  /-- The pointers that are resolved are those of the chain, in order. -/
  resolved : (r.targetLogged root).runOn [] = (r.target root, chain)
  distinct : chain.Nodup
  resolutions : chain.length ≤ root.referenceCount + 1

/-- Every reference is followed along its chain to the end of that. -/
theorem target_followed (root : Node) (r : Reference) :
    ∃ chain ending, Followed root r chain ending := by
  have found : ∃ chain ending, Ends root r chain ending ∧
      (r.targetLogged root).runOn [] = (ending.result chain, chain) := by
    rw [runOn_targetLogged]
    cases hp : r.pointer with
    | error e =>
      obtain ⟨unnamed, rfl⟩ := pointer_error hp
      exact ⟨[], .unnamed unnamed, .unnamed hp, rfl⟩
    | ok pointer =>
      have start : Chained root r ([] ++ [pointer]) := ⟨⟨pointer, hp, rfl⟩, .singleton pointer⟩
      exact followLogged_ends start List.nodup_nil (by rw [List.length_nil, Nat.zero_add])
  obtain ⟨chain, ending, ends, run⟩ := found
  have result : r.target root = ending.result chain := by
    rw [← targetLogged_fst root r [], run]
  exact ⟨chain, ending, ends, fun _ _ other => ends.unique other, result, by rw [run, result],
    ends.nodup, ends.length_le⟩

end Reference

end ServiceModel

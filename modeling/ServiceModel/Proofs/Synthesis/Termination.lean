/-
The synthesis of types ends on every document, whatever limit there is, whatever guards are held
and whatever schema or reference it starts from, also where references, branches, members and
items lead back to where they came from. No call nests deeper than its height: going that many
rounds deep gives the answer, no matter what deeper rounds would give. The measure behind it: a
call that is made keeps the guards and goes strictly below the node (or on to the next stage
there), or it holds one more guard, of which there are never more than the limit. The chains of
references that are followed on the way end as well.
-/
import ServiceModel.Proofs.Document.Chain
import ServiceModel.Proofs.Synthesis.Calls

namespace ServiceModel

namespace Call

/-- The second call holds the guards of the first and one new one, within the limit. -/
structure Guarded (call made : Call) : Prop where
  limit : made.guards.limit = call.guards.limit
  held : ∃ key, key ∉ call.guards.held ∧ made.guards.held = call.guards.held ++ [key]
  le_limit : (made.guards.held.length : Int) ≤ call.guards.limit

theorem guarded_of_enter {call made : Call} {key : String}
    (h : call.guards.enter key = .ok made.guards) : call.Guarded made := by
  obtain ⟨hg, hk, hl⟩ := Guards.enter_ok h
  refine ⟨by rw [hg], ⟨key, hk, by rw [hg]⟩, ?_⟩
  rw [hg]
  simp only [List.length_append, List.length_singleton]
  omega

theorem Makes.measure {root : Node} {call made : Call} (h : Makes root call made) :
    made.guards = call.guards ∧ made.node.Below call.node ∨
    made.guards = call.guards ∧ made.node = call.node ∧ made.stage < call.stage ∧
      call.stage ≤ 2 ∨
    call.Guarded made := by
  rcases h.descends with ⟨hg, hb | ⟨hn, hs⟩⟩ | ⟨⟨key, hk⟩, -⟩
  · exact .inl ⟨hg, hb⟩
  · exact .inr (.inl ⟨hg, hn, hs, call.stage_le⟩)
  · exact .inr (.inr (guarded_of_enter hk))

/-- Along a nesting of calls the limit stays, and no more guards than that are entered. -/
theorem held_le {root : Node} {call reached : Call}
    (h : Relation.ReflTransGen (Makes root) call reached) :
    reached.guards.limit = call.guards.limit ∧
      (reached.guards.held.length : Int) ≤ max (call.guards.held.length : Int) call.guards.limit := by
  induction h with
  | refl => exact ⟨rfl, Int.le_max_left _ _⟩
  | tail _ hm ih =>
    rcases hm.measure with ⟨hg, -⟩ | ⟨hg, -⟩ | hg
    · rw [hg]; exact ih
    · rw [hg]; exact ih
    · have := hg.le_limit
      exact ⟨hg.limit.trans ih.1, by omega⟩

theorem makes_wellFounded (root : Node) :
    WellFounded fun made call : Call => Makes root call made :=
  Subrelation.wf (fun h => Makes.height_lt h) (InvImage.wf (height root) Nat.lt_wfRel.wf)

end Call

/-- Every call of the synthesis ends. -/
structure SynthesisEnds (root : Node) : Prop where
  /-- The synthesis is a round of itself, and a round asks for nothing but the calls that are
  made. -/
  round : ∀ call : Call, call.run root = call.step root (Call.run root)
  asks : ∀ (call : Call) (answer answer' : (call : Call) → Build call.Answer),
    (∀ made, Call.Makes root call made → answer made = answer' made) →
    call.step root answer = call.step root answer'
  /-- A call that is made goes strictly below with the same guards, or it is the next stage at the
  same node, of which there are three, or it holds one more guard. -/
  measure : ∀ call made, Call.Makes root call made →
    made.guards = call.guards ∧ made.node.Below call.node ∨
    made.guards = call.guards ∧ made.node = call.node ∧ made.stage < call.stage ∧
      call.stage ≤ 2 ∨
    call.Guarded made
  /-- However calls nest, no more guards than the limit are entered. -/
  held : ∀ call reached, Relation.ReflTransGen (Call.Makes root) call reached →
    (reached.guards.held.length : Int) ≤ max (call.guards.held.length : Int) call.guards.limit
  /-- Calls do not nest forever. -/
  nesting : WellFounded fun made call : Call => Call.Makes root call made
  /-- As many rounds as a call is high answer it, whatever deeper ones would be. -/
  rounds : ∀ (call : Call) (deeper : (call : Call) → Build call.Answer) (depth : Nat),
    call.height root < depth → Call.within root deeper depth call = call.run root
  /-- The chains of references that are followed on the way end. -/
  chains : ∀ (r : Reference) (pointer : String), r.pointer = .ok pointer →
    Reference.Leads root [] pointer (r.target root)

/-- The synthesis ends on every document, for all guards, schemas and names. -/
theorem synthesis_ends (root : Node) : SynthesisEnds root where
  round := Call.run_eq_step root
  asks _ _ _ h := Call.step_congr h
  measure _ _ h := h.measure
  held _ _ h := (Call.held_le h).2
  nesting := Call.makes_wellFounded root
  rounds _ deeper _ h := Call.within_eq_run deeper h
  chains _ _ h := Reference.leads_target h

namespace Loop

def span : Text.Range := ⟨⟨1, 1, 0⟩, ⟨1, 1, 0⟩⟩

def leaf (text : String) : Node := .literal ⟨.text text, span⟩

def pointer : String := "#/components/schemas/L"

def reference : Reference := ⟨⟨[(⟨"$ref", span⟩, leaf pointer)], span⟩⟩

/-- A document whose one component is an array of itself. -/
def root : Node :=
  .object [(⟨"components", span⟩, .object [(⟨"schemas", span⟩, .object [(⟨"L", span⟩,
    .object [(⟨"type", span⟩, leaf "array"), (⟨"items", span⟩, reference.object.node)]
      span)] span)] span)] span

abbrev call : Call := .describe (.none 64) (.reference reference) "item" "Parent"

end Loop

/-- The array of itself is a cycle. -/
theorem synthesis_of_loop_ends :
    Loop.call.height Loop.root < 2000 ∧
      (Loop.call.run Loop.root).outcome =
        .error (.cycle (.chain [Loop.pointer, Loop.pointer])) := by
  have low : Loop.call.height Loop.root < 2000 := by decide +kernel
  have ends := (synthesis_ends Loop.root).rounds Loop.call (fun _ => .fail (.shape .noInfo)) 2000 low
  refine ⟨low, ?_⟩
  rw [← ends]
  decide +kernel

end ServiceModel

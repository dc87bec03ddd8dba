/-
The synthesis depends on a document by what is reached in it. In two documents in which the same
is reached among some nodes that are not left, a call that stands at one of these nodes is answered
in the same way, with the same records.
-/
import ServiceModel.Proofs.Document.Reach
import ServiceModel.Proofs.Synthesis.Settled

namespace ServiceModel

open Service

/-! ## Calls among nodes that are not left -/

/-- The calls that a call makes stand at such nodes as well. -/
theorem Call.Makes.among {root : Node} {P : Node → Prop} (closed : root.Closed P) {call made : Call}
    (h : Makes root call made) (hc : P call.node) : P made.node := by
  cases h with
  | inPlace => exact hc
  | component _ ht _ _ _ _ => exact closed.schema hc ht
  | items h => exact closed.below hc (ArraySchema.items_below h).within
  | member h hm =>
    obtain ⟨n, hn, hr⟩ := ObjectSchema.composition_member h hm
    have here := closed.below hc hn.within
    rwa [← ObjectSchema.member_node hr] at here
  | properties _ => exact hc
  | branch _ ha hb _ _ ht =>
    obtain ⟨n, hn, hr⟩ := ObjectSchema.composition_member ha hb
    have here := closed.below hc hn.within
    rw [← ObjectSchema.member_node hr] at here
    exact closed.schema here ht
  | property _ hp he hs =>
    have here := closed.below hc (ObjectSchema.property_below hp he).within
    rwa [← View.reads_orReference Schema.reads_ofNode _ _ hs] at here

namespace Node.SameReach

variable {root root' : Node} {P : Node → Prop} (same : root.SameReach root' P)

include same

/-- A round that is answered in the same way reads the same. -/
theorem step {call : Call} (hc : P call.node) (answer : (call : Call) → Build call.Answer) :
    call.step root answer = call.step root' answer := by
  cases call with
  | describe guards schema name parent =>
    cases schema with
    | inline s => rfl
    | reference r =>
      simp only [Call.step]
      refine Build.lift_bind_congr fun pointer hp => ?_
      rw [← same.resolveSchema hc]
      refine Build.lift_bind_congr fun target ht => ?_
      rw [← same.rules (same.closed.schema hc ht), ← same.pointerLoc hc hp]
  | inPlace guards schema name parent =>
    cases schema with
    | string s => rw [Call.step, Call.step, same.rules hc]
    | number s => rw [Call.step, Call.step, same.rules hc]
    | boolean s => rw [Call.step, Call.step, same.rules hc]
    | array s => rw [Call.step, Call.step, same.rules hc]
    | object s => rw [Call.step, Call.step, same.rules hc]
  | properties guards s parent inherited =>
    simp only [Call.step]
    refine Build.lift_bind_congr fun own _ => ?_
    refine Build.lift_bind_congr fun found hf => ?_
    -- branches and properties stand below the schema, but what they refer to stands anywhere
    cases found with
    | some branches =>
      simp only
      congr 1
      refine Build.mapM_congr fun branch hb => ?_
      obtain ⟨n, hn, hm⟩ := ObjectSchema.composition_member hf hb
      have here := same.closed.below hc hn.within
      rw [← ObjectSchema.member_node hm] at here
      rw [same.resolveSchema here]
    | none =>
      refine Build.lift_bind_congr fun found' hf' => ?_
      cases found' with
      | none => rfl
      | some index =>
        refine Build.mapM_congr fun entry he => ?_
        refine Build.lift_bind_congr fun schema hs => ?_
        have here := same.closed.below hc (ObjectSchema.property_below hf' he).within
        rw [← View.reads_orReference Schema.reads_ofNode _ _ hs] at here
        rw [← same.resolveSchema here]
        refine Build.lift_bind_congr fun resolved ht => ?_
        rw [same.rulesWhen (same.closed.schema here ht)]

theorem run (call : Call) (hc : P call.node) : call.run root = call.run root' := by
  induction call using Call.induction root with
  | step call ih =>
    calc call.run root = call.step root (Call.run root) := Call.run_eq_step root call
      _ = call.step root (Call.run root') :=
        Call.step_congr fun made hm => ih made hm (hm.among same.closed hc)
      _ = call.step root' (Call.run root') := same.step hc _
      _ = call.run root' := (Call.run_eq_step root' call).symm

theorem describe {source : SchemaOrReference} (hs : P (View.node source)) (guards : Guards)
    (name parent : String) :
    ServiceModel.describe root guards source name parent =
      ServiceModel.describe root' guards source name parent :=
  same.run (.describe guards source name parent) hs

theorem propertiesOf {s : ObjectSchema} (hs : P s.object.node) (guards : Guards)
    (parent : String) (inherited : List Literal) :
    ServiceModel.propertiesOf root guards s parent inherited =
      ServiceModel.propertiesOf root' guards s parent inherited :=
  same.run (.properties guards s parent inherited) hs

end Node.SameReach

end ServiceModel

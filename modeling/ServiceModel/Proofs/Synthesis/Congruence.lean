/-
One call of the synthesis under two sets of guards. All that the guards do is to let a key be
entered or not. So a relation between computations that is kept along binds, and that is kept where
a key is entered under related guards, holds of the answers of every call under related guards.
-/
import ServiceModel.Proofs.Build.Congruence
import ServiceModel.Proofs.Synthesis.Calls

namespace ServiceModel

open Service

/-- The properties that an object schema declares itself, under a parent and with the names that
are required of it. -/
def ownPropertiesOf (root : Node) (guards : Guards) (s : ObjectSchema) (parent : String)
    (required : List Literal) : Build (List Member) := do
  match ← s.properties with
  | none => return []
  | some index =>
    index.entries.mapM fun entry => do
      let schema ← SchemaOrReference.ofNode entry.2
      let resolved ← schema.resolve root
      let type ← describe root guards schema entry.1.name parent
      let rules ← resolved.rulesWhen root (required.any (·.text == entry.1.name))
      return propertyOf index entry.1.name resolved type rules

theorem propertiesOf_eq_own (root : Node) (guards : Guards) (s : ObjectSchema) (parent : String)
    (inherited : List Literal) :
    propertiesOf root guards s parent inherited = (do
      let required := (← s.required) ++ inherited
      match ← s.allOf with
      | some branches => do
        let merged ← branches.mapM fun branch => do
          let key ← branch.guardKey
          let inner ← guards.enter key
          match ← branch.asSchema.resolve root with
          | .object b => propertiesOf root inner b parent required
          | _ => return []
        return merged.flatten
      | none => ownPropertiesOf root guards s parent required) :=
  propertiesOf_eq root guards s parent inherited

namespace Call

/-- The answer of the synthesis under other guards. -/
def runWith (root : Node) (guards : Guards) : (call : Call) → Build call.Answer
  | describe _ schema name parent => ServiceModel.describe root guards schema name parent
  | inPlace _ schema name parent => describeInPlace root guards schema name parent
  | properties _ schema parent inherited => propertiesOf root guards schema parent inherited

variable {R : ∀ {α : Type}, Build α → Build α → Prop} {G : Guards → Guards → Prop} {root : Node}

/-- The properties that a schema declares itself are related if their types are. -/
theorem ownProperties_related (c : Build.Congruence R) {s : ObjectSchema} {parent : String}
    {required : List Literal} {g g' : Guards}
    (types : ∀ index entry schema, s.properties = .ok (some index) → entry ∈ index.entries →
      SchemaOrReference.ofNode entry.2 = .ok schema →
      R (ServiceModel.describe root g schema entry.1.name parent)
        (ServiceModel.describe root g' schema entry.1.name parent)) :
    R (ownPropertiesOf root g s parent required) (ownPropertiesOf root g' s parent required) := by
  refine c.lift_bind fun found hf => ?_
  cases found with
  | none => exact c.refl _
  | some index =>
    refine c.mapM fun entry he => ?_
    refine c.lift_bind fun schema hs => ?_
    refine c.lift_bind fun resolved _ => ?_
    exact c.bind (types index entry schema hf he hs) fun type _ => c.refl _

theorem runWith_eq_under (root : Node) (guards : Guards) (call : Call) :
    call.runWith root guards = under (Call.run root) guards call := by
  cases call <;> rfl

theorem runWith_eq_step (root : Node) (guards : Guards) (call : Call) :
    call.runWith root guards = under (step root (Call.run root)) guards call := by
  have round : step root (Call.run root) = Call.run root := (funext (run_eq_step root)).symm
  rw [runWith_eq_under, round]

/-- Under related guards every call has related answers. -/
theorem run_related (c : Build.Congruence R) (enters : Guards.Enters R G) (call : Call)
    {g : Guards} (h : G call.guards g) : R (call.run root) (call.runWith root g) := by
  induction call using Call.induction root generalizing g with
  | step call ih =>
    rw [run_eq_step, runWith_eq_step]
    refine step_related c enters h fun made hm g hg => ?_
    rw [← runWith_eq_under]
    exact ih made hm hg

end Call

end ServiceModel

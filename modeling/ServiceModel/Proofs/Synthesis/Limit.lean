/-
The synthesis of types under two limits. Under a limit that is no smaller every call of the
synthesis does the same, records included, unless under the smaller one it is nested too deep:
the limit and the held keys decide whether a step fails, and nothing else that it does.
-/
import ServiceModel.Proofs.Build.Limit
import ServiceModel.Proofs.Synthesis.Congruence

namespace ServiceModel

open Build (Extends)

namespace Guards

/-- The second guards hold the same keys under a limit that is no smaller. -/
def Under (limit : Int) (g g' : Guards) : Prop := g.limit ≤ limit ∧ g' = g.under limit

theorem under_enters (limit : Int) : Enters Extends (Under limit) := by
  rintro α g g' key f f' ⟨h, rfl⟩ hf
  refine enter_bind_extends h fun inner hi => hf inner _ hi ⟨?_, rfl⟩
  rw [enter_limit hi]
  exact h

end Guards

theorem describe_extends (root : Node) {guards : Guards} {limit : Int}
    (h : guards.limit ≤ limit) (schema : SchemaOrReference) (name parent : String) :
    Extends (describe root guards schema name parent)
      (describe root (guards.under limit) schema name parent) :=
  Call.run_related Extends.congruence (Guards.under_enters limit)
    (.describe guards schema name parent) ⟨h, rfl⟩

theorem propertiesOf_extends (root : Node) {guards : Guards} {limit : Int}
    (h : guards.limit ≤ limit) (s : ObjectSchema) (parent : String) (inherited : List Literal) :
    Extends (propertiesOf root guards s parent inherited)
      (propertiesOf root (guards.under limit) s parent inherited) :=
  Call.run_related Extends.congruence (Guards.under_enters limit)
    (.properties guards s parent inherited) ⟨h, rfl⟩

end ServiceModel

/-
The synthesis of types at two places of which the same is read, under any guards. As far as it
comes to values at both of them, the descriptors are alike, and so is what is recorded on the way.
A guard may stop the one and not the other, since the branches of the two places have keys of their
own; but it has no part in what comes out.

In one document, the same is read of all nodes that differ in nothing but their spans.
-/
import ServiceModel.Proofs.Build.Concur
import ServiceModel.Proofs.Document.Respan
import ServiceModel.Proofs.Synthesis.Pairing

namespace ServiceModel

open Service

namespace Node

/-- Nodes of one document that differ in nothing but their spans. -/
structure Twins (root n n' : Node) : Prop where
  bare : n.bare = n'.bare
  within : n.Within root
  within' : n'.Within root

/-- The parts of twins are twins. -/
theorem mirrors_twins (root : Node) : Mirrors root.Twins fun _ _ => True where
  alike := by
    rintro n n' ⟨bare, within, within'⟩
    cases sameForm_of_bare bare with
    | literal => exact .literal
    | array hi =>
      refine .array (List.forall₂_iff_zip.2 ⟨hi.length_eq, fun {a b} hz => ?_⟩)
      obtain ⟨ha, hb⟩ := List.of_mem_zip hz
      exact {
        bare := List.forall₂_zip hi hz
        within := (Child.item ha).within.trans within
        within' := (Child.item hb).within.trans within' }
    | object he =>
      refine .object (List.forall₂_iff_zip.2 ⟨he.length_eq, fun {e e'} hz => ?_⟩)
      obtain ⟨hm, hm'⟩ := List.of_mem_zip hz
      obtain ⟨name, value⟩ := List.forall₂_zip he hz
      exact {
        name
        value := {
          bare := value
          within := (Child.value hm).within.trans within
          within' := (Child.value hm').within.trans within' }
        key := trivial
        whole := trivial }
  span _ := trivial

end Node

namespace Likeness

/-- Computations that concur, whatever guards are held. -/
def concurrence {root root' : Node} (p : Likeness root root') : Judgement p where
  holds := Build.Concur (Entry.Alike p.spans)
  held _ _ := True
  pure h := .pure h
  fail _ _ := .fail
  record h := .record h
  bind h hf := .bind h hf
  lift_bind h hf := .agree_bind h hf
  component _ _ _ _ _ hn := .lift_bind fun inner inner' hi _ => hn inner inner' hi trivial
  branch := by
    intro α α' Q g g' m m' next next' _ h _ hn
    refine .lift_bind fun key key' hk _ => ?_
    refine .lift_bind fun inner inner' hi _ => ?_
    refine .agree_bind (resolveSchema (asSchema h)) fun s s' hs _ same => ?_
    exact hn key inner inner' s s' hk hi hs trivial same

/-- A document beside itself, in which the same is read of nodes that differ in nothing but their
spans. -/
def twins (root : Node) : Likeness root root where
  nodes := root.Twins
  spans _ _ := True
  fails _ := True
  roots := ⟨rfl, .refl root, .refl root⟩
  within h := ⟨h.within, h.within'⟩
  alike := root.mirrors_twins.reads
  walked _ _ := root.mirrors_twins.entries
  span _ := trivial
  reading _ := trivial

end Likeness

end ServiceModel

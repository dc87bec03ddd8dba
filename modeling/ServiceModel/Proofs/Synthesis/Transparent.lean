/-
References to components that have no type of their own are transparent. A component that is
neither an object nor an enum is described where it is used, under one more guard, for its pointer.
Guards only ever refuse an answer, so that what is answered under this one is answered in the same
way without it: the use of the reference and the use of what it stands for give one descriptor and
define the same types, enums and unions in the same order, however deep they nest.
-/
import ServiceModel.Proofs.Synthesis.Impartial
import ServiceModel.Proofs.Synthesis.Session

namespace ServiceModel

open Service

/-- A schema that a reference to a component leads to has no type of its own: it is no object, and
no text with an enum. -/
structure Schema.Untyped (s : Schema) : Prop where
  notObject : ∀ o, s ≠ .object o
  notEnum : ∀ t values, s.enum? ≠ .ok (some (t, values))

/-- What a component without a type of its own is described by, when it is described at all. -/
theorem describe_untyped {root : Node} {guards : Guards} {r : Reference} {target : Schema}
    {pointer component name parent : String} {d : Descriptor} (hp : r.pointer = .ok pointer)
    (hn : Pointer.schemaName? pointer = some component)
    (ht : SchemaOrReference.resolve root (.reference r) = .ok target) (hu : target.Untyped)
    (h : (describe root guards (.reference r) name parent).outcome = .ok d) :
    ∃ inner, guards.enter pointer = .ok inner ∧
      describe root guards (.reference r) name parent =
        describeInPlace root inner target name parent := by
  rw [describe_reference] at h ⊢
  simp only [hp, ht, hn, Build.read_ok_bind] at h ⊢
  -- the rules and the span of the reference are read before its target is looked at
  obtain ⟨rules, hr, h⟩ := Build.lift_bind_ok h
  obtain ⟨loc, hl, h⟩ := Build.lift_bind_ok h
  simp only [hr, hl, Build.read_ok_bind]
  cases target with
  | object o => exact absurd rfl (hu.notObject o)
  | _ =>
    dsimp only at h ⊢
    obtain ⟨found, hf, h⟩ := Build.lift_bind_ok h
    simp only [hf, Build.read_ok_bind]
    cases found with
    | some found => exact absurd hf (hu.notEnum found.1 found.2)
    | none =>
      obtain ⟨inner, hi, -⟩ := Build.lift_bind_ok h
      simp only [hi, Build.read_ok_bind]
      exact ⟨inner, rfl, rfl⟩

/-- A reference to a component without a type of its own, once it is described, is described by
what it stands for, with the same records. -/
theorem describe_reference_eq {root : Node} {guards : Guards} {r : Reference} {target : Schema}
    {pointer component name parent : String} {d : Descriptor} (hp : r.pointer = .ok pointer)
    (hn : Pointer.schemaName? pointer = some component)
    (ht : SchemaOrReference.resolve root (.reference r) = .ok target) (hu : target.Untyped)
    (h : (describe root guards (.reference r) name parent).outcome = .ok d) :
    describe root guards (.inline target) name parent =
      describe root guards (.reference r) name parent := by
  obtain ⟨inner, hi, same⟩ := describe_untyped hp hn ht hu h
  rw [same] at h ⊢
  rw [describe_inline]
  exact Call.run_covered (.inPlace inner target name parent) (Guards.looser_of_enter hi) d h

/-- Where a reference to a component without a type of its own is described, so is what it stands
for, on the same ledger under the same guards: with the same descriptor, and with the same ledger
afterwards. -/
theorem reference_transparent {root : Node} {l l' : Ledger} {r : Reference} {target : Schema}
    {pointer component name parent : String} {d : Descriptor} (hp : r.pointer = .ok pointer)
    (hn : Pointer.schemaName? pointer = some component)
    (ht : SchemaOrReference.resolve root (.reference r) = .ok target) (hu : target.Untyped)
    (h : ((Request.describe (.reference r) name parent).perform root).runOn l = (.ok d, l')) :
    ((Request.describe (.inline target) name parent).perform root).runOn l = (.ok d, l') ∧
      describe root l.guards (.inline target) name parent =
        describe root l.guards (.reference r) name parent := by
  have follows (schema : SchemaOrReference) :=
    Request.follows_perform root l.guards (.describe schema name parent) l rfl
  have answered : (describe root l.guards (.reference r) name parent).outcome = .ok d :=
    congrArg Prod.fst ((follows (.reference r)).symm.trans h)
  have same := describe_reference_eq hp hn ht hu answered
  refine ⟨?_, same⟩
  rw [follows, ← h, follows, Request.run, Request.run, same]

namespace Rows

def span : Text.Range := ⟨⟨1, 1, 0⟩, ⟨1, 1, 0⟩⟩

def leaf (text : String) : Node := .literal ⟨.text text, span⟩

def object (members : List (String × Node)) : Node :=
  .object (members.map fun member => (⟨member.1, span⟩, member.2)) span

def pointer (name : String) : String := "#/components/schemas/" ++ name

def reference (name : String) : Reference := ⟨⟨[(⟨"$ref", span⟩, leaf (pointer name))], span⟩⟩

/-- An object with one property of its one branch. -/
def cell : Node := object [("allOf", .array [object [("properties", object
  [("text", object [("type", leaf "string")])])]] span)]

def arrayOf (items : Node) : Node := object [("type", leaf "array"), ("items", items)]

/-- The tables are arrays of rows, which are arrays of cells. -/
def root : Node := object [("components", object [("schemas", object
  [("Table", arrayOf (reference "Row").object.node), ("Row", arrayOf cell)])])]

def table : Schema := .array ⟨⟨[(⟨"type", span⟩, leaf "array"),
  (⟨"items", span⟩, (reference "Row").object.node)], span⟩⟩

/-- One guard is held, and three more can be. -/
def ledger : Ledger := .empty ⟨4, ["#/components/schemas/Sheet"]⟩

def descriptor : Descriptor := ⟨⟨⟨"sheetCell", none⟩, false, true, []⟩, none, none, span.encode⟩

def describing (schema : SchemaOrReference) : Except Failure Descriptor × Ledger :=
  ((Request.describe schema "cell" "Sheet").perform root).runOn ledger

end Rows

/-- A table of rows of cells, which needs two guards by reference and one more for the branch. -/
theorem reference_transparent_rows :
    (Rows.reference "Table").pointer = .ok (Rows.pointer "Table") ∧
      Pointer.schemaName? (Rows.pointer "Table") = some "Table" ∧
      SchemaOrReference.resolve Rows.root (.reference (Rows.reference "Table")) = .ok Rows.table ∧
      Rows.table.Untyped ∧
      ∃ l', Rows.describing (.reference (Rows.reference "Table")) = (.ok Rows.descriptor, l') ∧
        l'.types.map (·.name.value) = ["sheetCell"] ∧
        Rows.describing (.inline Rows.table) = (.ok Rows.descriptor, l') := by
  have hp : (Rows.reference "Table").pointer = .ok (Rows.pointer "Table") := by decide
  have hn : Pointer.schemaName? (Rows.pointer "Table") = some "Table" := by decide
  have ht : SchemaOrReference.resolve Rows.root (.reference (Rows.reference "Table")) =
      .ok Rows.table := by rfl
  have hu : Rows.table.Untyped := ⟨nofun, nofun⟩
  have hd : (Rows.describing (.reference (Rows.reference "Table"))).1 = .ok Rows.descriptor := by
    decide +kernel
  have types : (Rows.describing (.reference (Rows.reference "Table"))).2.types.map
      (·.name.value) = ["sheetCell"] := by
    decide +kernel
  have h : Rows.describing (.reference (Rows.reference "Table")) =
      (.ok Rows.descriptor, (Rows.describing (.reference (Rows.reference "Table"))).2) := by
    rw [← hd]
  exact ⟨hp, hn, ht, hu, _, h, types, (reference_transparent hp hn ht hu h).1⟩

end ServiceModel

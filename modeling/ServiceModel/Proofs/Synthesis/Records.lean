/-
What the synthesis of types records: enums of string schemas, types and unions. A predicate that
allows these in the place where they are recorded holds of every record of a call, provided that
what it allows in a place it allows in every place around. In particular no call reports anything.
-/
import ServiceModel.Proofs.Build.Ensures
import ServiceModel.Proofs.Build.Reports
import ServiceModel.Proofs.Synthesis.Calls

namespace ServiceModel

open Service

variable {root : Node}

theorem Schema.enum?_eq_some {schema : Schema} {found : StringSchema × List Literal}
    (h : schema.enum? = .ok (some found)) :
    schema = .string found.1 ∧ found.1.enum = .ok (some found.2) := by
  cases schema with
  | string s =>
    obtain ⟨listed, hl, h⟩ := read_bind_ok h
    cases listed with
    | none => cases h
    | some values =>
      cases h
      exact ⟨rfl, hl⟩
  | _ => cases h

/-- A predicate of places and records that allows every record of a synthesis. -/
structure Entry.Allows (root : Node) (P : Node → Entry → Prop) : Prop where
  /-- The schema may stand elsewhere in the document, if the place refers to it. -/
  enum : ∀ {place : Node} {s : StringSchema} {name : Located String} {values : List Literal},
    s.object.node.Within place ∨ s.object.node.Within root → s.enum = .ok (some values) →
      P place (.enum (s.enumDef name values))
  type : ∀ {place : Node} {t : TypeDef}, P place (.type t)
  union : ∀ {place : Node} {u : UnionDef}, P place (.union u)
  widen : ∀ {place inner : Node} {e : Entry}, inner.Within place ∨ inner.Within root →
    P inner e → P place e

/-- Every record of a computation satisfies a predicate. -/
abbrev Build.Records {α : Type} (P : Entry → Prop) (build : Build α) : Prop :=
  build.Ensures (fun _ => True) P fun _ => True

theorem Build.Records.silent {α : Type} {P : Entry → Prop} {build : Build α}
    (h : build.Records P) (none : ∀ e, P e → e.violation? = none) : Silent build :=
  fun _ _ => List.filterMap_eq_nil_iff.2 fun e he => none e ((h fun _ _ => trivial).1 e he)

theorem Build.Records.mapM {α β : Type} {P : Entry → Prop} {f : α → Build β} {xs : List α}
    (h : ∀ x ∈ xs, (f x).Records P) : (xs.mapM f).Records P :=
  (Build.Ensures.mapM h).imp fun _ _ => trivial

namespace Call

/-- A call that is made stands within the node of the one that makes it, or in the document. -/
theorem Makes.within {call made : Call} (h : Makes root call made) :
    made.node.Within call.node ∨ made.node.Within root := by
  rcases h.descends with ⟨-, below | ⟨same, -⟩⟩ | ⟨-, below | within⟩
  · exact .inl below.within
  · exact .inl (same ▸ .refl _)
  · exact .inl below.within
  · exact .inr within

variable {P : Node → Entry → Prop} (allows : Entry.Allows root P)

include allows

theorem records_enum {place : Node} {s : StringSchema} {name : Located String}
    {values : List Literal} {rules : List Rule} {loc : String}
    (stands : s.object.node.Within place ∨ s.object.node.Within root)
    (listed : s.enum = .ok (some values)) :
    Build.Records (P place) (do
      Build.record (.enum (s.enumDef name values))
      return Descriptor.named name rules loc) :=
  .bind (.record fun _ => allows.enum stands listed) fun _ _ _ => .pure trivial

/-- A call records what the calls that it makes record, and in the end an enum, a type or a
union. -/
theorem records_step {call : Call}
    (made : ∀ made, Makes root call made → (made.run root).Records (P call.node)) :
    (call.run root).Records (P call.node) := by
  rw [run_eq_step]
  cases call with
  | describe guards schema name parent =>
    cases schema with
    | inline s => exact made _ .inPlace
    | reference r =>
      refine .lift_bind fun pointer hp => ?_
      refine .lift_bind fun target ht => ?_
      refine .lift_bind fun rules _ => ?_
      -- an enum that is referred to is recorded by the reference, wherever it stands itself
      have stands : target.node.node.Within r.object.node ∨ target.node.node.Within root :=
        (SchemaOrReference.resolve_node ht).imp_left fun same => by
          rw [same]
          exact .refl _
      cases hn : Pointer.schemaName? pointer with
      | none => exact .lift_bind fun loc _ => .pure trivial
      | some component =>
        refine .lift_bind fun loc _ => ?_
        cases target with
        | object s => exact .pure trivial
        | _ =>
          refine .lift_bind fun found hf => ?_
          cases found with
          | none =>
            refine .lift_bind fun inner hi => ?_
            exact made _ (.component hp ht hn hf (by rintro _ ⟨⟩) hi)
          | some found =>
            obtain ⟨same, listed⟩ := Schema.enum?_eq_some hf
            rw [same] at stands
            exact records_enum allows stands listed
  | inPlace guards schema name parent =>
    cases schema with
    | string s =>
      refine .lift_bind fun rules _ => .lift_bind fun found hf => ?_
      cases found with
      | some values => exact records_enum allows (.inl (.refl _)) hf
      | none => exact .lift_bind fun type _ => .pure trivial
    | number s => exact .lift_bind fun rules _ => .lift_bind fun type _ => .pure trivial
    | boolean s => exact .lift_bind fun rules _ => .lift_bind fun type _ => .pure trivial
    | array s =>
      refine .lift_bind fun rules _ => .lift_bind fun found hf => ?_
      cases found with
      | none => exact .fail
      | some items => exact .bind (made _ (.items hf)) fun item _ _ => .pure trivial
    | object s =>
      refine .lift_bind fun rules _ => .lift_bind fun found hf => ?_
      cases found with
      | some members =>
        refine .bind (Build.Records.mapM fun m hm => ?_) fun uses _ _ => ?_
        · exact .bind (made _ (.member hf hm)) fun type _ _ => .pure trivial
        · exact .bind (.record fun _ => allows.union) fun _ _ _ => .pure trivial
      | none =>
        refine .bind (made _ (.properties hf)) fun properties _ _ => ?_
        exact .bind (.record fun _ => allows.type) fun _ _ _ => .pure trivial
  | properties guards s parent inherited =>
    refine .lift_bind fun own ho => .lift_bind fun found hf => ?_
    cases found with
    | some branches =>
      refine .bind (Build.Records.mapM fun branch hb => ?_) fun merged _ _ => .pure trivial
      refine .lift_bind fun key hk => .lift_bind fun inner hi => .lift_bind fun target ht => ?_
      cases target with
      | object b => exact made _ (.branch ho hf hb hk hi ht)
      | _ => exact .pure trivial
    | none =>
      refine .lift_bind fun found' hf' => ?_
      cases found' with
      | none => exact .pure trivial
      | some index =>
        refine Build.Records.mapM fun entry he => ?_
        refine .lift_bind fun schema hs => .lift_bind fun resolved _ => ?_
        refine .bind (made _ (.property hf hf' he hs)) fun type _ _ => ?_
        exact .lift_bind fun rules _ => .pure trivial

/-- Every record of a call is allowed where the call stands. -/
theorem records (call : Call) : (call.run root).Records (P call.node) := by
  induction call using Call.induction root with
  | step call ih =>
    refine records_step allows fun made hm all => ⟨fun e he => ?_, fun _ _ => trivial⟩
    exact allows.widen hm.within ((ih made hm all).1 e he)

omit allows

/-! ## Reports -/

theorem allows_unreported : Entry.Allows root fun _ e => e.violation? = none where
  enum _ _ := rfl
  type := rfl
  union := rfl
  widen _ unreported := unreported

/-- No call of the synthesis reports anything. -/
theorem silent_run (call : Call) : Build.Silent (call.run root) :=
  (records allows_unreported call).silent fun _ unreported => unreported

end Call

end ServiceModel

/-
Definitions without their spans. Definitions that are alike are the same once the spans are erased,
whatever the spans were.
-/
import ServiceModel.Proofs.Service.Alike

namespace ServiceModel

open Service

variable {S : String → String → Prop}

/-! ## Values -/

/-- The value without its span. -/
def Located.erased {α : Type} (x : Located α) : Located α := ⟨x.value, none⟩

theorem Located.Alike.erased {α : Type} {x x' : Located α} (h : Located.Alike S x x') :
    x.erased = x'.erased := by
  rw [Located.erased, Located.erased, h.value]

/-- Optional things that are the same once their spans are erased. -/
theorem rel_map_eq {α β : Type} {R : α → α → Prop} {f : α → β} (hf : ∀ a a', R a a' → f a = f a')
    {x x' : Option α} (h : Option.Rel R x x') : x.map f = x'.map f := by
  cases h with
  | none => rfl
  | some h => exact congrArg some (hf _ _ h)

namespace Service

def Prose.erased : Prose → Prose
  | .one text => .one text.erased
  | .several texts => .several (texts.map Located.erased)

theorem Prose.Alike.erased {x x' : Prose} (h : Prose.Alike S x x') : x.erased = x'.erased := by
  unfold Prose.Alike at h
  split at h
  · exact congrArg Prose.one (Located.Alike.erased h)
  · exact congrArg Prose.several (map_eq_of_forall₂ h fun _ _ => Located.Alike.erased)
  · exact h.elim

def MetaValue.erased (m : MetaValue) : MetaValue := ⟨m.key.erased, m.value.erased⟩

theorem MetaValue.Alike.erased {m m' : MetaValue} (h : MetaValue.Alike S m m') :
    m.erased = m'.erased := by
  rw [MetaValue.erased, MetaValue.erased, h.key.erased, h.value.erased]

/-- Metadata without their spans. -/
def erasedMetadata (metadata : Option (List MetaValue)) : Option (List MetaValue) :=
  metadata.map (·.map MetaValue.erased)

theorem MetadataAlike.erased {metadata metadata' : Option (List MetaValue)}
    (h : MetadataAlike S metadata metadata') :
    erasedMetadata metadata = erasedMetadata metadata' := by
  cases h with
  | none => rfl
  | some h =>
    have same := map_eq_of_forall₂ h fun m m' (hm : MetaValue.Alike S m m') => hm.erased
    exact congrArg some same

/-! ## Rules -/

def Constraint.erased : Constraint → Constraint
  | .required => .required
  | .stringEnum values => .stringEnum (values.map Located.erased)
  | .stringFormat format => .stringFormat format.erased
  | .stringMaxLength length => .stringMaxLength length.erased
  | .stringMinLength length => .stringMinLength length.erased
  | .stringPattern pattern => .stringPattern pattern.erased
  | .numberMultipleOf value => .numberMultipleOf value.erased
  | .numberGt value => .numberGt value.erased
  | .numberGte value => .numberGte value.erased
  | .numberLt value => .numberLt value.erased
  | .numberLte value => .numberLte value.erased
  | .arrayMaxItems max => .arrayMaxItems max.erased
  | .arrayMinItems min => .arrayMinItems min.erased
  | .arrayUniqueItems => .arrayUniqueItems

theorem Constraint.Alike.erased {c c' : Constraint} (h : Constraint.Alike S c c') :
    c.erased = c'.erased := by
  unfold Constraint.Alike at h
  split at h
  case h_2 => exact congrArg Constraint.stringEnum (map_eq_of_forall₂ h fun _ _ => Located.Alike.erased)
  all_goals first
    | rfl
    | exact h.elim
    | simp only [Constraint.erased, Located.Alike.erased h]

def Rule.erased (r : Rule) : Rule := ⟨r.constraint.erased, none⟩

theorem Rule.Alike.erased {r r' : Rule} (h : Rule.Alike S r r') : r.erased = r'.erased := by
  rw [Rule.erased, Rule.erased, Constraint.Alike.erased h.constraint]

def ObjectConstraint.erased : ObjectConstraint → ObjectConstraint
  | .maxProperties max => .maxProperties max.erased
  | .minProperties min => .minProperties min.erased
  | .additionalForbidden => .additionalForbidden

theorem ObjectConstraint.Alike.erased {c c' : ObjectConstraint}
    (h : ObjectConstraint.Alike S c c') : c.erased = c'.erased := by
  unfold ObjectConstraint.Alike at h
  split at h
  · exact congrArg ObjectConstraint.maxProperties (Located.Alike.erased h)
  · exact congrArg ObjectConstraint.minProperties (Located.Alike.erased h)
  · rfl
  · exact h.elim

def ObjectRule.erased (r : ObjectRule) : ObjectRule := ⟨r.constraint.erased, none⟩

theorem ObjectRule.Alike.erased {r r' : ObjectRule} (h : ObjectRule.Alike S r r') :
    r.erased = r'.erased := by
  rw [ObjectRule.erased, ObjectRule.erased, ObjectConstraint.Alike.erased h.constraint]

/-! ## Types and their uses -/

def TypeUse.erased (t : TypeUse) : TypeUse :=
  ⟨t.typeName.erased, t.isPrimitive, t.isArray, t.rules.map Rule.erased⟩

theorem TypeUse.Alike.erased {t t' : TypeUse} (h : TypeUse.Alike S t t') :
    t.erased = t'.erased := by
  rw [TypeUse.erased, TypeUse.erased, h.typeName.erased, h.isPrimitive, h.isArray,
    map_eq_of_forall₂ h.rules fun _ _ => Rule.Alike.erased]

def Member.erased (m : Member) : Member where
  name := m.name.erased
  description := m.description.map Prose.erased
  type := m.type.erased
  default := m.default.map Located.erased
  constant := m.constant.map Located.erased
  loc := none
  metadata := erasedMetadata m.metadata

theorem Member.Alike.erased {m m' : Member} (h : Member.Alike S m m') : m.erased = m'.erased := by
  have description := rel_map_eq (fun p p' (hp : Prose.Alike S p p') => hp.erased) h.description
  have default := rel_map_eq (fun l l' (hl : Located.Alike S l l') => hl.erased) h.default
  have constant := rel_map_eq (fun l l' (hl : Located.Alike S l l') => hl.erased) h.constant
  rw [Member.erased, Member.erased, h.name.erased, description, h.type.erased, default, constant,
    MetadataAlike.erased h.metadata]

def TypeDef.erased (t : TypeDef) : TypeDef where
  name := t.name.erased
  description := t.description.map Located.erased
  properties := t.properties.map Member.erased
  rules := t.rules.map ObjectRule.erased
  loc := none
  metadata := erasedMetadata t.metadata

def EnumValue.erased (v : EnumValue) : EnumValue := ⟨v.content.erased, none⟩

theorem EnumValue.Alike.erased {v v' : EnumValue} (h : EnumValue.Alike S v v') :
    v.erased = v'.erased := by
  rw [EnumValue.erased, EnumValue.erased, h.content.erased]

def EnumDef.erased (e : EnumDef) : EnumDef := ⟨e.name.erased, e.values.map EnumValue.erased, none⟩

def UnionDef.erased (u : UnionDef) : UnionDef where
  name := u.name.erased
  members := u.members.map TypeUse.erased
  loc := none
  metadata := erasedMetadata u.metadata

end Service

end ServiceModel

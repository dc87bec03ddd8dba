/-
Services that differ in nothing, their spans included. Constructs that are alike with the same
spans are the same, field by field, and so are journals.
-/
import ServiceModel.Proofs.Service.Alike

namespace ServiceModel

open Service

/-! ## Values -/

section

variable {α : Type} {R : α → α → Prop} (hR : ∀ a a', R a a' → a = a')

include hR

theorem eq_of_rel {x x' : Option α} (h : Option.Rel R x x') : x = x' := by
  cases h with
  | none => rfl
  | some h => rw [hR _ _ h]

theorem eq_of_forall₂ {xs xs' : List α} (h : List.Forall₂ R xs xs') : xs = xs' := by
  induction h with
  | nil => rfl
  | cons head _ ih => rw [hR _ _ head, ih]

end

theorem Known.eq {loc loc' : Option String} (h : Known Eq loc loc') : loc = loc' :=
  eq_of_rel (fun _ _ same => same) h.rel

theorem Located.Alike.eq {α : Type} {x x' : Located α} (h : Located.Alike Eq x x') : x = x' := by
  cases x
  cases x'
  congr
  · exact h.value
  · exact eq_of_rel (fun _ _ same => same) h.loc

/-- Optional values that are alike. -/
theorem Located.eq_of_rel {α : Type} {x x' : Option (Located α)}
    (h : Option.Rel (Located.Alike Eq) x x') : x = x' :=
  ServiceModel.eq_of_rel (fun _ _ => Located.Alike.eq) h

theorem Located.eq_of_forall₂ {α : Type} {xs xs' : List (Located α)}
    (h : List.Forall₂ (Located.Alike Eq) xs xs') : xs = xs' :=
  ServiceModel.eq_of_forall₂ (fun _ _ => Located.Alike.eq) h

namespace Service

theorem Prose.Alike.eq {x x' : Prose} (h : Prose.Alike Eq x x') : x = x' := by
  unfold Prose.Alike at h
  split at h
  · exact congrArg Prose.one (Located.Alike.eq h)
  · exact congrArg Prose.several (Located.eq_of_forall₂ h)
  · exact h.elim

theorem MetaValue.Alike.eq {m m' : MetaValue} (h : MetaValue.Alike Eq m m') : m = m' := by
  cases m
  cases m'
  congr
  · exact h.key.eq
  · exact h.value.eq

theorem MetadataAlike.eq {metadata metadata' : Option (List MetaValue)}
    (h : MetadataAlike Eq metadata metadata') : metadata = metadata' :=
  eq_of_rel (fun _ _ => eq_of_forall₂ fun _ _ => MetaValue.Alike.eq) h

theorem MetadataAlike.refl (metadata : Option (List MetaValue)) :
    MetadataAlike Eq metadata metadata := by
  have self {α : Type} (x : Located α) : Located.Alike Eq x x := by
    refine ⟨rfl, ?_⟩
    cases x.loc with
    | none => exact .none
    | some l => exact .some rfl
  cases metadata with
  | none => exact .none
  | some values => exact .some (List.forall₂_same.2 fun m _ => ⟨self m.key, self m.value⟩)

/-! ## Rules -/

theorem Constraint.Alike.eq {c c' : Constraint} (h : Constraint.Alike Eq c c') : c = c' := by
  unfold Constraint.Alike at h
  split at h
  case h_2 => exact congrArg Constraint.stringEnum (Located.eq_of_forall₂ h)
  all_goals first
    | rfl
    | exact h.elim
    | rw [Located.Alike.eq h]

theorem Rule.Alike.eq {r r' : Rule} (h : Rule.Alike Eq r r') : r = r' := by
  cases r
  cases r'
  congr
  · exact Constraint.Alike.eq h.constraint
  · exact eq_of_rel (fun _ _ same => same) h.loc

theorem ObjectConstraint.Alike.eq {c c' : ObjectConstraint} (h : ObjectConstraint.Alike Eq c c') :
    c = c' := by
  unfold ObjectConstraint.Alike at h
  split at h
  · exact congrArg ObjectConstraint.maxProperties (Located.Alike.eq h)
  · exact congrArg ObjectConstraint.minProperties (Located.Alike.eq h)
  · rfl
  · exact h.elim

theorem ObjectRule.Alike.eq {r r' : ObjectRule} (h : ObjectRule.Alike Eq r r') : r = r' := by
  cases r
  cases r'
  congr
  · exact ObjectConstraint.Alike.eq h.constraint
  · exact h.loc.eq

/-! ## Types and their uses -/

theorem TypeUse.Alike.eq {t t' : TypeUse} (h : TypeUse.Alike Eq t t') : t = t' := by
  cases t
  cases t'
  congr
  · exact h.typeName.eq
  · exact h.isPrimitive
  · exact h.isArray
  · exact eq_of_forall₂ (fun _ _ => Rule.Alike.eq) h.rules

theorem Member.Alike.eq {m m' : Member} (h : Member.Alike Eq m m') : m = m' := by
  cases m
  cases m'
  congr
  · exact h.name.eq
  · exact eq_of_rel (fun _ _ => Prose.Alike.eq) h.description
  · exact h.type.eq
  · exact Located.eq_of_rel h.default
  · exact Located.eq_of_rel h.constant
  · exact h.loc.eq
  · exact MetadataAlike.eq h.metadata

theorem TypeDef.Alike.eq {t t' : TypeDef} (h : TypeDef.Alike Eq t t') : t = t' := by
  cases t
  cases t'
  congr
  · exact h.name.eq
  · exact Located.eq_of_rel h.description
  · exact eq_of_forall₂ (fun _ _ => Member.Alike.eq) h.properties
  · exact eq_of_forall₂ (fun _ _ => ObjectRule.Alike.eq) h.rules
  · exact h.loc.eq
  · exact MetadataAlike.eq h.metadata

theorem EnumValue.Alike.eq {v v' : EnumValue} (h : EnumValue.Alike Eq v v') : v = v' := by
  cases v
  cases v'
  congr
  · exact h.content.eq
  · exact h.loc.eq

theorem EnumDef.Alike.eq {e e' : EnumDef} (h : EnumDef.Alike Eq e e') : e = e' := by
  cases e
  cases e'
  congr
  · exact h.name.eq
  · exact eq_of_forall₂ (fun _ _ => EnumValue.Alike.eq) h.values
  · exact h.loc.eq

theorem UnionDef.Alike.eq {u u' : UnionDef} (h : UnionDef.Alike Eq u u') : u = u' := by
  cases u
  cases u'
  congr
  · exact h.name.eq
  · exact eq_of_forall₂ (fun _ _ => TypeUse.Alike.eq) h.members
  · exact h.loc.eq
  · exact MetadataAlike.eq h.metadata

/-! ## Security -/

theorem Scope.Alike.eq {s s' : Scope} (h : Scope.Alike Eq s s') : s = s' := by
  cases s
  cases s'
  congr
  · exact h.name.eq
  · exact Located.eq_of_rel h.description
  · exact h.loc.eq

theorem Grant.Alike.eq {g g' : Grant} (h : Grant.Alike Eq g g') : g = g' := by
  unfold Grant.Alike at h
  split at h
  · exact congrArg Grant.implicit (Located.eq_of_rel h)
  · exact congrArg Grant.password (Located.eq_of_rel h)
  · exact congrArg Grant.clientCredentials (Located.eq_of_rel h)
  · rw [Located.eq_of_rel h.1, Located.eq_of_rel h.2]
  · exact h.elim

theorem Flow.Alike.eq {f f' : Flow} (h : Flow.Alike Eq f f') : f = f' := by
  cases f
  cases f'
  congr
  · exact Grant.Alike.eq h.grant
  · exact h.type.eq
  · exact Located.eq_of_rel h.refreshUrl
  · exact eq_of_forall₂ (fun _ _ => Scope.Alike.eq) h.scopes
  · exact h.loc.eq

theorem Credential.Alike.eq {c c' : Credential} (h : Credential.Alike Eq c c') : c = c' := by
  unfold Credential.Alike at h
  split at h
  · rfl
  · rw [Located.Alike.eq h.1, Located.Alike.eq h.2]
  · exact congrArg Credential.oauth2 (eq_of_forall₂ (fun _ _ => Flow.Alike.eq) h)
  · exact h.elim

theorem Scheme.Alike.eq {s s' : Scheme} (h : Scheme.Alike Eq s s') : s = s' := by
  cases s
  cases s'
  congr
  · exact Credential.Alike.eq h.credential
  · exact h.type.eq
  · exact h.name.eq
  · exact Located.eq_of_rel h.description
  · exact h.loc.eq
  · exact MetadataAlike.eq h.metadata

theorem SecurityOption.Alike.eq {o o' : SecurityOption} (h : SecurityOption.Alike Eq o o') :
    o = o' := by
  cases o
  cases o'
  congr
  exact eq_of_forall₂ (fun _ _ => Scheme.Alike.eq) h

/-! ## Methods and their HTTP bindings -/

theorem ReturnType.Alike.eq {r r' : ReturnType} (h : ReturnType.Alike Eq r r') : r = r' := by
  cases r
  cases r'
  congr
  · exact h.type.eq
  · exact h.loc.eq

theorem Method.Alike.eq {m m' : Method} (h : Method.Alike Eq m m') : m = m' := by
  cases m
  cases m'
  congr
  · exact h.name.eq
  · exact eq_of_rel (fun _ _ => Prose.Alike.eq) h.description
  · exact eq_of_forall₂ (fun _ _ => Member.Alike.eq) h.parameters
  · exact eq_of_forall₂ (fun _ _ => SecurityOption.Alike.eq) h.security
  · exact eq_of_rel (fun _ _ => ReturnType.Alike.eq) h.returnType
  · exact Located.eq_of_rel h.deprecated
  · exact h.loc.eq
  · exact MetadataAlike.eq h.metadata

theorem HttpParameter.Alike.eq {p p' : HttpParameter} (h : HttpParameter.Alike Eq p p') :
    p = p' := by
  cases p
  cases p'
  congr
  · exact h.name.eq
  · exact h.place.eq
  · exact Located.eq_of_rel h.array
  · exact h.loc.eq

theorem HttpMethod.Alike.eq {m m' : HttpMethod} (h : HttpMethod.Alike Eq m m') : m = m' := by
  cases m
  cases m'
  congr
  · exact h.name.eq
  · exact h.verb.eq
  · exact eq_of_forall₂ (fun _ _ => HttpParameter.Alike.eq) h.parameters
  · exact h.successCode.eq
  · exact h.loc.eq

theorem HttpPath.Alike.eq {p p' : HttpPath} (h : HttpPath.Alike Eq p p') : p = p' := by
  cases p
  cases p'
  congr
  · exact h.path.eq
  · exact eq_of_forall₂ (fun _ _ => HttpMethod.Alike.eq) h.methods
  · exact h.loc.eq

theorem Interface.Alike.eq {i i' : Interface} (h : Interface.Alike Eq i i') : i = i' := by
  cases i
  cases i'
  congr
  · exact h.name.eq
  · exact Located.eq_of_rel h.description
  · exact eq_of_forall₂ (fun _ _ => Method.Alike.eq) h.methods
  · exact eq_of_forall₂ (fun _ _ => HttpPath.Alike.eq) h.http

theorem Violation.Alike.eq {v v' : Violation} (h : Violation.Alike Eq v v') : v = v' := by
  cases v
  cases v'
  congr
  · exact h.feature
  · exact h.loc

end Service

/-! ## Services and journals -/

theorem Service.Alike.eq {s s' : Service} (h : Service.Alike Eq s s') : s = s' := by
  cases s
  cases s'
  congr
  · exact h.sourcePath
  · exact h.title.eq
  · exact h.majorVersion.eq
  · exact eq_of_forall₂ (fun _ _ => Interface.Alike.eq) h.interfaces
  · exact eq_of_forall₂ (fun _ _ => TypeDef.Alike.eq) h.types
  · exact eq_of_forall₂ (fun _ _ => EnumDef.Alike.eq) h.enums
  · exact eq_of_forall₂ (fun _ _ => UnionDef.Alike.eq) h.unions
  · exact h.loc.eq
  · exact MetadataAlike.eq h.metadata

theorem Entry.Alike.eq {e e' : Entry} (h : Entry.Alike Eq e e') : e = e' := by
  cases h with
  | type h => rw [h.eq]
  | enum h => rw [h.eq]
  | union h => rw [h.eq]
  | violation h => rw [h.eq]
  | interfaces => rfl
  | component => rfl

end ServiceModel

/-
Services that differ in nothing but their spans. `Alike S` relates two constructs field by field:
whatever is no span is the same in both, and where one carries a span so does the other, with the
two spans related by `S`. The constructs that always carry a span are related only if both have
one. On the diagonal this says of one service where its spans are and that each of them is as `S`
asks.
-/
import ServiceModel.Build
import ServiceModel.Service.Fold
import Mathlib.Data.List.Forall2

namespace ServiceModel

open Service

variable (S : String → String → Prop)

/-! ## Values -/

/-- Both spans are there, and they are related. -/
def Known (loc loc' : Option String) : Prop := ∃ l l', loc = some l ∧ loc' = some l' ∧ S l l'

structure Located.Alike {α : Type} (x x' : Located α) : Prop where
  value : x.value = x'.value
  loc : Option.Rel S x.loc x'.loc

namespace Service

def Prose.Alike : Prose → Prose → Prop
  | .one text, .one text' => Located.Alike S text text'
  | .several texts, .several texts' => List.Forall₂ (Located.Alike S) texts texts'
  | _, _ => False

structure MetaValue.Alike (m m' : MetaValue) : Prop where
  key : Located.Alike S m.key m'.key
  value : Located.Alike S m.value m'.value

/-! ## Rules -/

def Constraint.Alike : Constraint → Constraint → Prop
  | .required, .required => True
  | .stringEnum values, .stringEnum values' => List.Forall₂ (Located.Alike S) values values'
  | .stringFormat format, .stringFormat format' => Located.Alike S format format'
  | .stringMaxLength length, .stringMaxLength length' => Located.Alike S length length'
  | .stringMinLength length, .stringMinLength length' => Located.Alike S length length'
  | .stringPattern pattern, .stringPattern pattern' => Located.Alike S pattern pattern'
  | .numberMultipleOf value, .numberMultipleOf value' => Located.Alike S value value'
  | .numberGt value, .numberGt value' => Located.Alike S value value'
  | .numberGte value, .numberGte value' => Located.Alike S value value'
  | .numberLt value, .numberLt value' => Located.Alike S value value'
  | .numberLte value, .numberLte value' => Located.Alike S value value'
  | .arrayMaxItems max, .arrayMaxItems max' => Located.Alike S max max'
  | .arrayMinItems min, .arrayMinItems min' => Located.Alike S min min'
  | .arrayUniqueItems, .arrayUniqueItems => True
  | _, _ => False

/-- Every rule carries a span, but that a value has to be present comes from no field of its own. -/
structure Rule.Alike (r r' : Rule) : Prop where
  constraint : Constraint.Alike S r.constraint r'.constraint
  loc : Option.Rel S r.loc r'.loc
  known : r.constraint ≠ .required → Known S r.loc r'.loc

def ObjectConstraint.Alike : ObjectConstraint → ObjectConstraint → Prop
  | .maxProperties max, .maxProperties max' => Located.Alike S max max'
  | .minProperties min, .minProperties min' => Located.Alike S min min'
  | .additionalForbidden, .additionalForbidden => True
  | _, _ => False

structure ObjectRule.Alike (r r' : ObjectRule) : Prop where
  constraint : ObjectConstraint.Alike S r.constraint r'.constraint
  loc : Known S r.loc r'.loc

/-! ## Types and their uses -/

/-- Metadata of two constructs that are alike. -/
def MetadataAlike : Option (List MetaValue) → Option (List MetaValue) → Prop :=
  Option.Rel (List.Forall₂ (MetaValue.Alike S))

structure TypeUse.Alike (t t' : TypeUse) : Prop where
  typeName : Located.Alike S t.typeName t'.typeName
  isPrimitive : t.isPrimitive = t'.isPrimitive
  isArray : t.isArray = t'.isArray
  rules : List.Forall₂ (Rule.Alike S) t.rules t'.rules

structure Member.Alike (m m' : Member) : Prop where
  name : Located.Alike S m.name m'.name
  description : Option.Rel (Prose.Alike S) m.description m'.description
  type : TypeUse.Alike S m.type m'.type
  default : Option.Rel (Located.Alike S) m.default m'.default
  constant : Option.Rel (Located.Alike S) m.constant m'.constant
  loc : Known S m.loc m'.loc
  metadata : MetadataAlike S m.metadata m'.metadata

structure TypeDef.Alike (t t' : TypeDef) : Prop where
  name : Located.Alike S t.name t'.name
  description : Option.Rel (Located.Alike S) t.description t'.description
  properties : List.Forall₂ (Member.Alike S) t.properties t'.properties
  rules : List.Forall₂ (ObjectRule.Alike S) t.rules t'.rules
  loc : Known S t.loc t'.loc
  metadata : MetadataAlike S t.metadata t'.metadata

structure EnumValue.Alike (v v' : EnumValue) : Prop where
  content : Located.Alike S v.content v'.content
  loc : Known S v.loc v'.loc

structure EnumDef.Alike (e e' : EnumDef) : Prop where
  name : Located.Alike S e.name e'.name
  values : List.Forall₂ (EnumValue.Alike S) e.values e'.values
  loc : Known S e.loc e'.loc

structure UnionDef.Alike (u u' : UnionDef) : Prop where
  name : Located.Alike S u.name u'.name
  members : List.Forall₂ (TypeUse.Alike S) u.members u'.members
  loc : Known S u.loc u'.loc
  metadata : MetadataAlike S u.metadata u'.metadata

/-! ## Security -/

structure Scope.Alike (s s' : Scope) : Prop where
  name : Located.Alike S s.name s'.name
  description : Option.Rel (Located.Alike S) s.description s'.description
  loc : Known S s.loc s'.loc

def Grant.Alike : Grant → Grant → Prop
  | .implicit url, .implicit url' => Option.Rel (Located.Alike S) url url'
  | .password url, .password url' => Option.Rel (Located.Alike S) url url'
  | .clientCredentials url, .clientCredentials url' => Option.Rel (Located.Alike S) url url'
  | .authorizationCode url token, .authorizationCode url' token' =>
    Option.Rel (Located.Alike S) url url' ∧ Option.Rel (Located.Alike S) token token'
  | _, _ => False

structure Flow.Alike (f f' : Flow) : Prop where
  grant : Grant.Alike S f.grant f'.grant
  type : Located.Alike S f.type f'.type
  refreshUrl : Option.Rel (Located.Alike S) f.refreshUrl f'.refreshUrl
  scopes : List.Forall₂ (Scope.Alike S) f.scopes f'.scopes
  loc : Known S f.loc f'.loc

def Credential.Alike : Credential → Credential → Prop
  | .basic, .basic => True
  | .apiKey parameter place, .apiKey parameter' place' =>
    Located.Alike S parameter parameter' ∧ Located.Alike S place place'
  | .oauth2 flows, .oauth2 flows' => List.Forall₂ (Flow.Alike S) flows flows'
  | _, _ => False

structure Scheme.Alike (s s' : Scheme) : Prop where
  credential : Credential.Alike S s.credential s'.credential
  type : Located.Alike S s.type s'.type
  name : Located.Alike S s.name s'.name
  description : Option.Rel (Located.Alike S) s.description s'.description
  loc : Known S s.loc s'.loc
  metadata : MetadataAlike S s.metadata s'.metadata

def SecurityOption.Alike (o o' : SecurityOption) : Prop :=
  List.Forall₂ (Scheme.Alike S) o.schemes o'.schemes

/-! ## Methods and their HTTP bindings -/

structure ReturnType.Alike (r r' : ReturnType) : Prop where
  type : TypeUse.Alike S r.type r'.type
  loc : Known S r.loc r'.loc

structure Method.Alike (m m' : Method) : Prop where
  name : Located.Alike S m.name m'.name
  description : Option.Rel (Prose.Alike S) m.description m'.description
  parameters : List.Forall₂ (Member.Alike S) m.parameters m'.parameters
  security : List.Forall₂ (SecurityOption.Alike S) m.security m'.security
  returnType : Option.Rel (ReturnType.Alike S) m.returnType m'.returnType
  deprecated : Option.Rel (Located.Alike S) m.deprecated m'.deprecated
  loc : Known S m.loc m'.loc
  metadata : MetadataAlike S m.metadata m'.metadata

structure HttpParameter.Alike (p p' : HttpParameter) : Prop where
  name : Located.Alike S p.name p'.name
  place : Located.Alike S p.place p'.place
  array : Option.Rel (Located.Alike S) p.array p'.array
  loc : Known S p.loc p'.loc

structure HttpMethod.Alike (m m' : HttpMethod) : Prop where
  name : Located.Alike S m.name m'.name
  verb : Located.Alike S m.verb m'.verb
  parameters : List.Forall₂ (HttpParameter.Alike S) m.parameters m'.parameters
  successCode : Located.Alike S m.successCode m'.successCode
  loc : Known S m.loc m'.loc

structure HttpPath.Alike (p p' : HttpPath) : Prop where
  path : Located.Alike S p.path p'.path
  methods : List.Forall₂ (HttpMethod.Alike S) p.methods p'.methods
  loc : Known S p.loc p'.loc

structure Interface.Alike (i i' : Interface) : Prop where
  name : Located.Alike S i.name i'.name
  description : Option.Rel (Located.Alike S) i.description i'.description
  methods : List.Forall₂ (Method.Alike S) i.methods i'.methods
  http : List.Forall₂ (HttpPath.Alike S) i.http i'.http

/-! ## Diagnostics -/

structure Violation.Alike (v v' : Violation) : Prop where
  feature : v.feature = v'.feature
  loc : S v.loc v'.loc

end Service

/-- Two services that differ in nothing but their spans. -/
structure Service.Alike (s s' : Service) : Prop where
  sourcePath : s.sourcePath = s'.sourcePath
  title : Located.Alike S s.title s'.title
  majorVersion : Located.Alike S s.majorVersion s'.majorVersion
  interfaces : List.Forall₂ (Interface.Alike S) s.interfaces s'.interfaces
  types : List.Forall₂ (TypeDef.Alike S) s.types s'.types
  enums : List.Forall₂ (EnumDef.Alike S) s.enums s'.enums
  unions : List.Forall₂ (UnionDef.Alike S) s.unions s'.unions
  loc : Known S s.loc s'.loc
  metadata : MetadataAlike S s.metadata s'.metadata

inductive Entry.Alike : Entry → Entry → Prop
  | type {t t' : TypeDef} : TypeDef.Alike S t t' → Alike (.type t) (.type t')
  | enum {e e' : EnumDef} : EnumDef.Alike S e e' → Alike (.enum e) (.enum e')
  | union {u u' : UnionDef} : UnionDef.Alike S u u' → Alike (.union u) (.union u')
  | violation {v v' : Violation} : Violation.Alike S v v' → Alike (.violation v) (.violation v')
  | interfaces {count : Nat} : Alike (.interfaces count) (.interfaces count)
  | component {name : String} : Alike (.component name) (.component name)

variable {S}

/-! ## Constructs made of constructs that are alike -/

theorem Known.rel {loc loc' : Option String} (h : Known S loc loc') : Option.Rel S loc loc' := by
  obtain ⟨l, l', rfl, rfl, hs⟩ := h
  exact .some hs

theorem Known.of_some {l l' : String} (h : S l l') : Known S (some l) (some l') :=
  ⟨l, l', rfl, rfl, h⟩

namespace Located.Alike

variable {α : Type}

/-- A value with no span. -/
theorem of_value (value : α) : Located.Alike S ⟨value, none⟩ ⟨value, none⟩ := ⟨rfl, .none⟩

theorem of_loc {value : α} {l l' : String} (h : S l l') :
    Located.Alike S ⟨value, some l⟩ ⟨value, some l'⟩ := ⟨rfl, .some h⟩

end Located.Alike

/-- What is made of optional things that are related. -/
theorem rel_map {α α' β β' : Type} {R : α → α' → Prop} {Q : β → β' → Prop} {f : α → β}
    {f' : α' → β'} (hf : ∀ a a', R a a' → Q (f a) (f' a')) {x : Option α} {x' : Option α'}
    (h : Option.Rel R x x') : Option.Rel Q (x.map f) (x'.map f') := by
  cases h with
  | none => exact .none
  | some h => exact .some (hf _ _ h)

theorem rel_toList {α α' : Type} {R : α → α' → Prop} {x : Option α} {x' : Option α'}
    (h : Option.Rel R x x') : List.Forall₂ R x.toList x'.toList := by
  cases h with
  | none => exact .nil
  | some h => exact .cons h .nil

theorem rel_getD {α α' : Type} {R : α → α' → Prop} {x : Option α} {x' : Option α'}
    (h : Option.Rel R x x') {a : α} {a' : α'} (ha : R a a') : R (x.getD a) (x'.getD a') := by
  cases h with
  | none => exact ha
  | some h => exact h

/-- What is left of things that are related when those that are missing are left out. -/
theorem forall₂_filterMap_id {α α' : Type} {R : α → α' → Prop} {xs : List (Option α)}
    {xs' : List (Option α')} (h : List.Forall₂ (Option.Rel R) xs xs') :
    List.Forall₂ R (xs.filterMap id) (xs'.filterMap id) :=
  List.rel_filterMap (fun _ _ hx => hx) h

section

variable {α α' β : Type} {R : α → α' → Prop} {xs : List α} {xs' : List α'}
  (h : List.Forall₂ R xs xs')

include h

theorem map_eq_of_forall₂ {f : α → β} {f' : α' → β} (hf : ∀ a a', R a a' → f a = f' a') :
    xs.map f = xs'.map f' := by
  induction h with
  | nil => rfl
  | cons head _ ih => rw [List.map_cons, List.map_cons, hf _ _ head, ih]

theorem any_eq_of_forall₂ {f : α → Bool} {f' : α' → Bool} (hf : ∀ a a', R a a' → f a = f' a') :
    xs.any f = xs'.any f' := by
  induction h with
  | nil => rfl
  | cons head _ ih => rw [List.any_cons, List.any_cons, hf _ _ head, ih]

theorem rel_find? {f : α → Bool} {f' : α' → Bool} (hf : ∀ a a', R a a' → f a = f' a') :
    Option.Rel R (xs.find? f) (xs'.find? f') := by
  induction h with
  | nil => exact .none
  | cons head _ ih =>
    rw [List.find?_cons, List.find?_cons, hf _ _ head]
    split
    · exact .some head
    · exact ih

end

/-! ## Keeping one definition for every name -/

section

variable {α : Type} {R : α → α → Prop} {name : α → String}

theorem Service.putByName_alike (hn : ∀ x x', R x x' → name x = name x') {x x' : α}
    (hx : R x x') {kept kept' : List α} (h : List.Forall₂ R kept kept') :
    List.Forall₂ R (putByName name x kept) (putByName name x' kept') := by
  induction h with
  | nil => exact .cons hx .nil
  | @cons y y' kept kept' hy hs ih =>
    rw [putByName, putByName, hn y y' hy, hn x x' hx]
    split
    · exact .cons hx hs
    · exact .cons hy ih

theorem Service.foldByName_alike (hn : ∀ x x', R x x' → name x = name x') {xs xs' : List α}
    (h : List.Forall₂ R xs xs') :
    List.Forall₂ R (foldByName name xs) (foldByName name xs') :=
  List.rel_foldl (P := List.Forall₂ R) (R := R)
    (fun _ _ hk _ _ hx => putByName_alike hn hx hk) .nil h

end

/-! ## What is in a journal -/

section

variable {journal journal' : List Entry} (h : List.Forall₂ (Entry.Alike S) journal journal')

include h

theorem types_alike : List.Forall₂ (TypeDef.Alike S) (journal.filterMap Entry.type?)
    (journal'.filterMap Entry.type?) := by
  refine List.rel_filterMap (R := Entry.Alike S) (fun _ _ he => ?_) h
  cases he with
  | type he => exact .some he
  | _ => exact .none

theorem enums_alike : List.Forall₂ (EnumDef.Alike S) (journal.filterMap Entry.enum?)
    (journal'.filterMap Entry.enum?) := by
  refine List.rel_filterMap (R := Entry.Alike S) (fun _ _ he => ?_) h
  cases he with
  | enum he => exact .some he
  | _ => exact .none

theorem unions_alike : List.Forall₂ (UnionDef.Alike S) (journal.filterMap Entry.union?)
    (journal'.filterMap Entry.union?) := by
  refine List.rel_filterMap (R := Entry.Alike S) (fun _ _ he => ?_) h
  cases he with
  | union he => exact .some he
  | _ => exact .none

theorem violations_alike : List.Forall₂ (Violation.Alike S)
    (journal.filterMap Entry.violation?) (journal'.filterMap Entry.violation?) := by
  refine List.rel_filterMap (R := Entry.Alike S) (fun _ _ he => ?_) h
  cases he with
  | violation he => exact .some he
  | _ => exact .none

end

end ServiceModel

/-
A service is read back from its JSON form as it was. Each construct is written with all its
fields under their own names, so that reading goes through the fields one by one and finds in each
what was put there; the variants of a construct are told apart by the names that they are written
with. Only numbers in metadata have to be finite, since null stands for the others.
-/
import ServiceModel.Proofs.Service.Fields

namespace ServiceModel

/-! ## Finite values -/

namespace Json

mutual

/-- Is every number in the value finite? -/
def isFinite : Json → Bool
  | .double x => x.isFinite
  | .array items => areFinite items
  | .object members => haveFinite members
  | _ => true

def areFinite : List Json → Bool
  | [] => true
  | item :: rest => item.isFinite && areFinite rest

def haveFinite : List (String × Json) → Bool
  | [] => true
  | (_, value) :: rest => value.isFinite && haveFinite rest

end

mutual

theorem finiteOnly_eq : ∀ {json : Json}, json.isFinite = true → json.finiteOnly = json
  | .double x, h => by
    rw [isFinite] at h
    rw [finiteOnly, if_pos h]
  | .array items, h => by
    rw [isFinite] at h
    rw [finiteOnly, finiteItems_eq h]
  | .object members, h => by
    rw [isFinite] at h
    rw [finiteOnly, finiteMembers_eq h]
  | .null, _ | .bool _, _ | .int _, _ | .string _, _ => by rw [finiteOnly] <;> nofun

theorem finiteItems_eq : ∀ {items : List Json}, areFinite items = true → finiteItems items = items
  | [], _ => by rw [finiteItems]
  | item :: rest, h => by
    rw [areFinite, Bool.and_eq_true] at h
    rw [finiteItems, finiteOnly_eq h.1, finiteItems_eq h.2]

theorem finiteMembers_eq :
    ∀ {members : List (String × Json)}, haveFinite members = true → finiteMembers members = members
  | [], _ => by rw [finiteMembers]
  | (name, value) :: rest, h => by
    rw [haveFinite, Bool.and_eq_true] at h
    rw [finiteMembers, finiteOnly_eq h.1, finiteMembers_eq h.2]

end

end Json

namespace Service

open Json Record

/-! ## Metadata -/

def Member.metaValues (m : Member) : List MetaValue := m.metadata.getD []

def TypeDef.metaValues (t : TypeDef) : List MetaValue :=
  t.metadata.getD [] ++ t.properties.flatMap Member.metaValues

def UnionDef.metaValues (u : UnionDef) : List MetaValue := u.metadata.getD []

def Scheme.metaValues (s : Scheme) : List MetaValue := s.metadata.getD []

def SecurityOption.metaValues (o : SecurityOption) : List MetaValue :=
  o.schemes.flatMap Scheme.metaValues

def Method.metaValues (m : Method) : List MetaValue :=
  m.metadata.getD [] ++ m.parameters.flatMap Member.metaValues ++
    m.security.flatMap SecurityOption.metaValues

def Interface.metaValues (i : Interface) : List MetaValue := i.methods.flatMap Method.metaValues

/-- All metadata of a service, those of its parts included. -/
def metaValues (s : Service) : List MetaValue :=
  s.metadata.getD [] ++ s.interfaces.flatMap Interface.metaValues ++
    s.types.flatMap TypeDef.metaValues ++ s.unions.flatMap UnionDef.metaValues

/-- Every number in the metadata is finite. -/
def AreFinite (values : List MetaValue) : Prop := ∀ m ∈ values, m.value.value.isFinite = true

instance (values : List MetaValue) : Decidable (AreFinite values) :=
  inferInstanceAs (Decidable (∀ m ∈ values, m.value.value.isFinite = true))

theorem areFinite_append {first rest : List MetaValue} :
    AreFinite (first ++ rest) ↔ AreFinite first ∧ AreFinite rest := by
  simp only [AreFinite, List.mem_append, or_imp, forall_and]

theorem areFinite_flatMap {α : Type} {metaValues : α → List MetaValue} {xs : List α} :
    AreFinite (xs.flatMap metaValues) ↔ ∀ x ∈ xs, AreFinite (metaValues x) := by
  simp only [AreFinite, List.mem_flatMap]
  constructor
  · intro h x hx m hm
    exact h m ⟨x, hx, hm⟩
  · rintro h m ⟨x, hx, hm⟩
    exact h x hx m hm

/-! ## Values -/

theorem optional_loc {record : Record} {name : String} {loc : Option String}
    (h : record.lookup name = some (ofLoc loc)) : record.optional name text? = some loc :=
  optional_some h nofun fun _ _ => rfl

theorem located?_toJson {α : Type} {encode : α → Json} {decode : Json → Option α} {x : Located α}
    (h : decode (encode x.value) = some x.value) : located? decode (x.toJson encode) = some x := by
  refine found_bind (record?_object rfl) ?_
  refine found_bind (required_some rfl h) ?_
  exact found_bind (optional_loc rfl) rfl

theorem locatedText?_textJson (x : Located String) : locatedText? (textJson x) = some x :=
  located?_toJson rfl

theorem required_text {record : Record} {name : String} {x : Located String}
    (h : record.lookup name = some (textJson x)) : record.required name locatedText? = some x :=
  required_some h (locatedText?_textJson x)

theorem optional_text {record : Record} {name : String} {x : Option (Located String)}
    (h : record.lookup name = some (optionalText x)) : record.optional name locatedText? = some x :=
  optional_some h nofun fun _ _ => locatedText?_textJson _

theorem locatedPrimitive?_primitiveJson (x : Located Primitive) :
    locatedPrimitive? (primitiveJson x) = some x := by
  refine located?_toJson ?_
  cases x.value <;> rfl

theorem locatedNumber?_numberJson (x : Located Number) :
    locatedNumber? (numberJson x) = some x := by
  refine located?_toJson ?_
  cases x.value <;> rfl

theorem Prose.ofJson?_toJson (p : Prose) : Prose.ofJson? p.toJson = some p := by
  cases p with
  | one text => exact congrArg (Option.map Prose.one) (locatedText?_textJson text)
  | several texts =>
    have read : (texts.map textJson).mapM locatedText? = some texts :=
      items?_ofList fun x _ => locatedText?_textJson x
    exact congrArg (Option.map Prose.several) read

theorem Prose.toJson_ne_null (p : Prose) : p.toJson ≠ .null := by
  cases p <;> nofun

theorem MetaValue.ofJson?_toJson {m : MetaValue} (h : m.value.value.isFinite = true) :
    MetaValue.ofJson? m.toJson = some m := by
  refine found_bind (record?_object rfl) ?_
  refine found_bind (required_text rfl) ?_
  refine found_bind (required_some rfl (located?_toJson ?_)) rfl
  rw [finiteOnly_eq h]

theorem metadata?_some {record : Record} {metadata : Option (List MetaValue)}
    (h : record.lookup "meta" = some (metadataJson metadata))
    (hf : AreFinite (metadata.getD [])) : metadata? record = some metadata := by
  refine optional_some h nofun ?_
  rintro listed ⟨⟩
  exact items?_ofList fun m hm => MetaValue.ofJson?_toJson (hf m hm)

/-! ## Rules -/

theorem Constraint.ofRecord?_toJson (c : Constraint) (loc : Option String) :
    Constraint.ofRecord? (Rule.toJson ⟨c, loc⟩) c.id = some c := by
  cases c with
  | required => exact found_bind (record?_object rfl) rfl
  | stringEnum values =>
    refine found_bind (record?_object rfl) (found_bind (required_some rfl ?_) rfl)
    exact items?_ofList fun x _ => locatedPrimitive?_primitiveJson x
  | arrayUniqueItems => exact found_bind (record?_object rfl) rfl
  | stringFormat text | stringPattern text =>
    exact found_bind (record?_object rfl) (found_bind (required_text rfl) rfl)
  | _ =>
    exact found_bind (record?_object rfl)
      (found_bind (required_some rfl (locatedNumber?_numberJson _)) rfl)

theorem Rule.ofJson?_toJson (r : Rule) : Rule.ofJson? r.toJson = some r := by
  refine found_bind (Constraint.ofRecord?_toJson r.constraint r.loc) ?_
  exact found_bind rfl (found_bind (optional_loc rfl) rfl)

theorem ObjectConstraint.ofRecord?_toJson (c : ObjectConstraint) (loc : Option String) :
    ObjectConstraint.ofRecord? (ObjectRule.toJson ⟨c, loc⟩) c.id = some c := by
  cases c with
  | additionalForbidden => exact found_bind (record?_object rfl) rfl
  | _ =>
    exact found_bind (record?_object rfl)
      (found_bind (required_some rfl (locatedNumber?_numberJson _)) rfl)

theorem ObjectRule.ofJson?_toJson (r : ObjectRule) : ObjectRule.ofJson? r.toJson = some r := by
  refine found_bind (ObjectConstraint.ofRecord?_toJson r.constraint r.loc) ?_
  exact found_bind rfl (found_bind (optional_loc rfl) rfl)

/-! ## Types and their uses -/

/-- The use of a type stands among the members of a construct. -/
structure HoldsUse (record : Record) (t : TypeUse) : Prop where
  typeName : record.lookup "typeName" = some (textJson t.typeName)
  isPrimitive : record.lookup "isPrimitive" = some (.bool t.isPrimitive)
  isArray : record.lookup "isArray" = some (.bool t.isArray)
  rules : record.lookup "rules" = some (ofList Rule.toJson t.rules)

theorem typeUse?_some {record : Record} {t : TypeUse} (h : HoldsUse record t) :
    typeUse? record = some t := by
  refine found_bind (required_text h.typeName) ?_
  refine found_bind (required_some h.isPrimitive rfl) ?_
  refine found_bind (required_some h.isArray rfl) ?_
  exact found_bind (list_some h.rules fun r _ => r.ofJson?_toJson) rfl

theorem TypeUse.ofJson?_toJson (t : TypeUse) : TypeUse.ofJson? t.toJson = some t :=
  found_bind (recordOf?_object rfl rfl) (typeUse?_some ⟨rfl, rfl, rfl, rfl⟩)

theorem Member.ofJson?_toJson {kind : String} {m : Member} (hf : AreFinite m.metaValues) :
    Member.ofJson? kind (m.toJson kind) = some m := by
  refine found_bind (recordOf?_object rfl rfl) ?_
  refine found_bind (required_text rfl) ?_
  refine found_bind (optional_some rfl Prose.toJson_ne_null fun p _ => p.ofJson?_toJson) ?_
  refine found_bind (typeUse?_some ⟨rfl, rfl, rfl, rfl⟩) ?_
  refine found_bind (optional_some rfl nofun fun x _ => locatedPrimitive?_primitiveJson x) ?_
  refine found_bind (optional_some rfl nofun fun x _ => locatedPrimitive?_primitiveJson x) ?_
  refine found_bind (optional_loc rfl) ?_
  exact found_bind (metadata?_some rfl hf) rfl

theorem ReturnType.ofJson?_toJson (r : ReturnType) : ReturnType.ofJson? r.toJson = some r := by
  refine found_bind (recordOf?_object rfl rfl) ?_
  refine found_bind (typeUse?_some ⟨rfl, rfl, rfl, rfl⟩) ?_
  exact found_bind (optional_loc rfl) rfl

theorem TypeDef.ofJson?_toJson {t : TypeDef} (hf : AreFinite t.metaValues) :
    TypeDef.ofJson? t.toJson = some t := by
  obtain ⟨own, below⟩ := areFinite_append.1 hf
  rw [areFinite_flatMap] at below
  refine found_bind (recordOf?_object rfl rfl) ?_
  refine found_bind (required_text rfl) ?_
  refine found_bind (optional_text rfl) ?_
  refine found_bind (list_some rfl fun m hm => Member.ofJson?_toJson (below m hm)) ?_
  refine found_bind (list_some rfl fun r _ => r.ofJson?_toJson) ?_
  refine found_bind (optional_loc rfl) ?_
  exact found_bind (metadata?_some rfl own) rfl

theorem EnumValue.ofJson?_toJson (v : EnumValue) : EnumValue.ofJson? v.toJson = some v := by
  refine found_bind (recordOf?_object rfl rfl) ?_
  refine found_bind (required_some rfl (locatedPrimitive?_primitiveJson _)) ?_
  exact found_bind (optional_loc rfl) rfl

theorem EnumDef.ofJson?_toJson (e : EnumDef) : EnumDef.ofJson? e.toJson = some e := by
  refine found_bind (recordOf?_object rfl rfl) ?_
  refine found_bind (required_text rfl) ?_
  refine found_bind (required_some rfl (items?_ofList fun v _ => v.ofJson?_toJson)) ?_
  exact found_bind (optional_loc rfl) rfl

theorem UnionDef.ofJson?_toJson {u : UnionDef} (hf : AreFinite u.metaValues) :
    UnionDef.ofJson? u.toJson = some u := by
  refine found_bind (recordOf?_object rfl rfl) ?_
  refine found_bind (required_text rfl) ?_
  refine found_bind (required_some rfl (items?_ofList fun t _ => t.ofJson?_toJson)) ?_
  refine found_bind (optional_loc rfl) ?_
  exact found_bind (metadata?_some rfl hf) rfl

/-! ## Security -/

theorem Scope.ofJson?_toJson (s : Scope) : Scope.ofJson? s.toJson = some s := by
  refine found_bind (recordOf?_object rfl rfl) ?_
  refine found_bind (required_text rfl) ?_
  refine found_bind (optional_text rfl) ?_
  exact found_bind (optional_loc rfl) rfl

/-- The members of a flow. -/
def Flow.members (f : Flow) : Record :=
  [("kind", .string f.grant.kind), ("type", textJson f.type)] ++ f.grant.members ++
    [("refreshUrl", optionalText f.refreshUrl), ("scopes", ofList Scope.toJson f.scopes),
      ("loc", ofLoc f.loc)]

theorem Grant.ofJson?_toJson (f : Flow) :
    Grant.ofJson? f.toJson f.grant.kind = some (f.grant, f.members) := by
  obtain ⟨grant, type, refreshUrl, scopes, loc⟩ := f
  cases grant with
  | authorizationCode authorizationUrl tokenUrl =>
    refine found_bind (record?_object rfl) ?_
    refine found_bind (optional_text rfl) ?_
    exact found_bind (optional_text rfl) rfl
  | _ => exact found_bind (record?_object rfl) (found_bind (optional_text rfl) rfl)

/-- Whatever the grant, the fields that all flows have are found. -/
theorem Flow.lookup_members (f : Flow) :
    f.members.lookup "type" = some (textJson f.type) ∧
      f.members.lookup "refreshUrl" = some (optionalText f.refreshUrl) ∧
      f.members.lookup "scopes" = some (ofList Scope.toJson f.scopes) ∧
      f.members.lookup "loc" = some (ofLoc f.loc) := by
  obtain ⟨grant, type, refreshUrl, scopes, loc⟩ := f
  cases grant <;> exact ⟨rfl, rfl, rfl, rfl⟩

theorem Flow.ofJson?_toJson (f : Flow) : Flow.ofJson? f.toJson = some f := by
  obtain ⟨type, refreshUrl, scopes, loc⟩ := f.lookup_members
  refine found_bind (Grant.ofJson?_toJson f) ?_
  refine found_bind (required_text type) ?_
  refine found_bind (optional_text refreshUrl) ?_
  refine found_bind (list_some scopes fun s _ => s.ofJson?_toJson) ?_
  exact found_bind (optional_loc loc) rfl

/-- The members of a scheme. -/
def Scheme.members (s : Scheme) : Record :=
  [("kind", .string s.credential.kind), ("type", textJson s.type), ("name", textJson s.name),
    ("description", optionalText s.description)] ++
    s.credential.members ++ [("loc", ofLoc s.loc), ("meta", metadataJson s.metadata)]

theorem Credential.ofJson?_toJson (s : Scheme) :
    Credential.ofJson? s.toJson s.credential.kind = some (s.credential, s.members) := by
  obtain ⟨credential, type, name, description, loc, metadata⟩ := s
  cases credential with
  | basic => exact found_bind (record?_object rfl) rfl
  | apiKey parameter place =>
    refine found_bind (record?_object rfl) ?_
    refine found_bind (required_text rfl) ?_
    exact found_bind (required_text rfl) rfl
  | oauth2 flows =>
    refine found_bind (record?_object rfl) ?_
    exact found_bind (list_some rfl fun f _ => f.ofJson?_toJson) rfl

/-- Whatever the credential, the fields that all schemes have are found. -/
theorem Scheme.lookup_members (s : Scheme) :
    s.members.lookup "type" = some (textJson s.type) ∧
      s.members.lookup "name" = some (textJson s.name) ∧
      s.members.lookup "description" = some (optionalText s.description) ∧
      s.members.lookup "loc" = some (ofLoc s.loc) ∧
      s.members.lookup "meta" = some (metadataJson s.metadata) := by
  obtain ⟨credential, type, name, description, loc, metadata⟩ := s
  cases credential <;> exact ⟨rfl, rfl, rfl, rfl, rfl⟩

theorem Scheme.ofJson?_toJson {s : Scheme} (hf : AreFinite s.metaValues) :
    Scheme.ofJson? s.toJson = some s := by
  obtain ⟨type, name, description, loc, metadata⟩ := s.lookup_members
  refine found_bind (Credential.ofJson?_toJson s) ?_
  refine found_bind (required_text type) ?_
  refine found_bind (required_text name) ?_
  refine found_bind (optional_text description) ?_
  refine found_bind (optional_loc loc) ?_
  exact found_bind (metadata?_some metadata hf) rfl

theorem SecurityOption.ofJson?_toJson {o : SecurityOption} (hf : AreFinite o.metaValues) :
    SecurityOption.ofJson? o.toJson = some o := by
  have schemes := areFinite_flatMap.1 hf
  refine found_bind (recordOf?_object rfl rfl) ?_
  exact found_bind (list_some rfl fun s hs => Scheme.ofJson?_toJson (schemes s hs)) rfl

/-! ## Methods and their HTTP bindings -/

theorem Method.ofJson?_toJson {m : Method} (hf : AreFinite m.metaValues) :
    Method.ofJson? m.toJson = some m := by
  obtain ⟨both, security⟩ := areFinite_append.1 hf
  obtain ⟨own, parameters⟩ := areFinite_append.1 both
  rw [areFinite_flatMap] at parameters security
  refine found_bind (recordOf?_object rfl rfl) ?_
  refine found_bind (required_text rfl) ?_
  refine found_bind (optional_some rfl Prose.toJson_ne_null fun p _ => p.ofJson?_toJson) ?_
  refine found_bind (list_some rfl fun p hp => Member.ofJson?_toJson (parameters p hp)) ?_
  refine found_bind (list_some rfl fun o ho => SecurityOption.ofJson?_toJson (security o ho)) ?_
  refine found_bind (optional_some rfl nofun fun r _ => r.ofJson?_toJson) ?_
  refine found_bind (optional_some rfl nofun fun _ _ => located?_toJson rfl) ?_
  refine found_bind (optional_loc rfl) ?_
  exact found_bind (metadata?_some rfl own) rfl

theorem HttpParameter.ofJson?_toJson (p : HttpParameter) :
    HttpParameter.ofJson? p.toJson = some p := by
  refine found_bind (recordOf?_object rfl rfl) ?_
  refine found_bind (required_text rfl) ?_
  refine found_bind (required_text rfl) ?_
  refine found_bind (optional_text rfl) ?_
  exact found_bind (optional_loc rfl) rfl

theorem HttpMethod.ofJson?_toJson (m : HttpMethod) : HttpMethod.ofJson? m.toJson = some m := by
  refine found_bind (recordOf?_object rfl rfl) ?_
  refine found_bind (required_text rfl) ?_
  refine found_bind (required_text rfl) ?_
  refine found_bind (list_some rfl fun p _ => p.ofJson?_toJson) ?_
  refine found_bind (required_some rfl (located?_toJson rfl)) ?_
  exact found_bind (optional_loc rfl) rfl

theorem HttpPath.ofJson?_toJson (p : HttpPath) : HttpPath.ofJson? p.toJson = some p := by
  refine found_bind (recordOf?_object rfl rfl) ?_
  refine found_bind (required_text rfl) ?_
  refine found_bind (list_some rfl fun m _ => m.ofJson?_toJson) ?_
  exact found_bind (optional_loc rfl) rfl

theorem protocols?_object (paths : List HttpPath) :
    protocols? (.object [("http", ofList HttpPath.toJson paths)]) = some paths := by
  refine found_bind (record?_object rfl) ?_
  exact list_some rfl fun p _ => p.ofJson?_toJson

theorem Interface.ofJson?_toJson {i : Interface} (hf : AreFinite i.metaValues) :
    Interface.ofJson? i.toJson = some i := by
  have methods := areFinite_flatMap.1 hf
  refine found_bind (recordOf?_object rfl rfl) ?_
  refine found_bind (required_text rfl) ?_
  refine found_bind (optional_text rfl) ?_
  refine found_bind (list_some rfl fun m hm => Method.ofJson?_toJson (methods m hm)) ?_
  exact found_bind (protocols?_object i.http) rfl

/-! ## Services -/

/-- A service is read back from its JSON form as it was, if the numbers in its metadata are
finite. -/
theorem restores_toJson (s : Service) (hf : AreFinite s.metaValues) : ofJson? s.toJson = some s := by
  obtain ⟨rest, unions⟩ := areFinite_append.1 hf
  obtain ⟨rest, types⟩ := areFinite_append.1 rest
  obtain ⟨own, interfaces⟩ := areFinite_append.1 rest
  rw [areFinite_flatMap] at interfaces types unions
  refine found_bind (recordOf?_object rfl rfl) ?_
  refine found_bind (required_some rfl rfl) ?_
  refine found_bind (required_text rfl) ?_
  refine found_bind (required_some rfl (located?_toJson rfl)) ?_
  refine found_bind (list_some rfl fun i hi => Interface.ofJson?_toJson (interfaces i hi)) ?_
  refine found_bind (list_some rfl fun t ht => TypeDef.ofJson?_toJson (types t ht)) ?_
  refine found_bind (list_some rfl fun e _ => e.ofJson?_toJson) ?_
  refine found_bind (list_some rfl fun u hu => UnionDef.ofJson?_toJson (unions u hu)) ?_
  refine found_bind (optional_loc rfl) ?_
  exact found_bind (metadata?_some rfl own) rfl

/-- A text that was read from no place. -/
def unplaced (text : String) : Located String := ⟨text, none⟩

/-- A type with two descriptions, the numbers `1` and `1.0` and metadata of several kinds. -/
def sampleService : Service where
  sourcePath := "api.yaml"
  title := ⟨"Api", some "1:1"⟩
  majorVersion := ⟨1, none⟩
  interfaces := []
  types := [{
    name := unplaced "Pet"
    description := some (unplaced "A pet")
    properties := [{
      name := unplaced "age"
      description := some (.several [unplaced "Age", unplaced "In years"])
      type := ⟨unplaced "integer", true, false,
        [⟨.required, none⟩, ⟨.stringEnum [⟨.int 1, none⟩, ⟨.text "1", none⟩, ⟨.bool true, none⟩,
          ⟨.double (.finite false 0x10000000000000 (-52)), none⟩, ⟨.null, none⟩], none⟩]⟩
      default := some ⟨.null, none⟩
      constant := none
      loc := none
      metadata := some [⟨unplaced "unit", ⟨.string "year", none⟩⟩] }]
    rules := [⟨.additionalForbidden, none⟩]
    loc := none
    metadata := none }]
  enums := []
  unions := []
  loc := none
  metadata := some [⟨unplaced "owner", ⟨.object [("ids", .array [.int 1,
    .double (.finite false 0x10000000000000 (-52))]), ("name", .null)], some "9:1"⟩⟩]

theorem restores_sample_toJson : AreFinite sampleService.metaValues ∧
    ofJson? sampleService.toJson = some sampleService :=
  ⟨by decide, restores_toJson sampleService (by decide)⟩

end Service

end ServiceModel

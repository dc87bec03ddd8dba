/-
The places at which a service uses types, and what the validation says about them. A place is told
by numbers: that of an interface, of a method in it and of a parameter of that, and so on. The
places stand in one order, that of the JSON form, and each has one written path; following the
path through the JSON form of the service leads to the construct at the place. The defects of a
service are exactly the places whose types are not defined, in that order, and then the names that
are repeated in a collection, each of these once and with the number of its occurrences.
-/
import ServiceModel.Proofs.Service.Validation
import ServiceModel.Proofs.Text.Range
import ServiceModel.Service.Encode
import Mathlib.Data.List.Sort

namespace ServiceModel

/-! ## Paths through a JSON value -/

namespace Json

/-- The number of an item, as it is written in a path. -/
def indexOf? (step : String) : Option Nat :=
  if step.toList ≠ [] ∧ step.toList.all Char.isDigit then
    some (Nat.ofDigitChars 10 step.toList 0)
  else none

/-- The part of a value that one step of a path leads to: a member of an object by its name, an
item of an array by its number. -/
def part? (json : Json) (step : String) : Option Json :=
  match json with
  | .array items => (indexOf? step).bind (items[·]?)
  | json => json.member? step

/-- The part of a value that the steps of a path lead to. -/
def follow? (json : Json) : List String → Option Json
  | [] => some json
  | step :: rest => (json.part? step).bind (·.follow? rest)

/-- The part of a value that a path leads to, which is written with a slash before each step. -/
def at? (json : Json) (path : String) : Option Json :=
  match Text.cut '/' path.toList with
  | [] :: steps => json.follow? (steps.map String.ofList)
  | _ => none

theorem indexOf?_toString (i : Nat) : indexOf? (toString i) = some i := by
  have digits : (toString i).toList = Nat.toDigits 10 i := by
    show i.repr.toList = _
    rw [Nat.repr_eq_ofList_toDigits, String.toList_ofList]
  have numeral : (toString i).toList ≠ [] ∧ (toString i).toList.all Char.isDigit := by
    constructor
    · rw [digits]
      exact Nat.toDigits_ne_nil
    · exact List.all_eq_true.2 fun c hc => Text.isDigit_of_mem_repr hc
  rw [indexOf?, if_pos numeral, digits, Nat.ofDigitChars_toDigits (by decide) (by decide)]

theorem follow?_item {α : Type} (encode : α → Json) (values : List α) (i : Nat)
    (rest : List String) :
    (ofList encode values).follow? (toString i :: rest) =
      (values[i]?).bind fun value => (encode value).follow? rest := by
  simp only [follow?, ofList, part?, indexOf?_toString, Option.bind_some, List.getElem?_map]
  cases values[i]? <;> rfl

theorem follow?_member {members : List (String × Json)} {step : String} {json : Json}
    (h : members.lookup step = some json) (rest : List String) :
    (object members).follow? (step :: rest) = json.follow? rest := by
  simp only [follow?, part?, member?, h, Option.bind_some]

/-- A path that is written out of its steps leads where the steps lead. -/
theorem at?_join {steps : List String} (h : ∀ step ∈ steps, '/' ∉ step.toList) (hn : steps ≠ [])
    (json : Json) : json.at? ("/" ++ String.intercalate "/" steps) = json.follow? steps := by
  have pieces : Text.cut '/' ("/" ++ String.intercalate "/" steps).toList =
      [] :: steps.map String.toList := by
    rw [String.toList_append]
    show Text.cut '/' ([] ++ '/' :: _) = _
    rw [Text.cut_append List.not_mem_nil]
    exact congrArg ([] :: ·) (@Text.cut_intercalate '/' steps hn h)
  have back : (steps.map String.toList).map String.ofList = steps := by
    rw [List.map_map]
    exact (List.map_congr_left fun s _ => String.ofList_toList).trans (List.map_id _)
  rw [at?, pieces]
  exact congrArg json.follow? back

end Json

namespace Service

open Json

/-! ## Places -/

/-- A place in a service at which a type is used. -/
inductive Place where
  /-- A parameter of a method of an interface. -/
  | parameter (interface method parameter : Nat)
  /-- What a method of an interface returns. -/
  | returned (interface method : Nat)
  /-- A property of a type. -/
  | property (type property : Nat)
  /-- A member of a union. -/
  | member (union member : Nat)
  deriving DecidableEq, Repr

namespace Place

/-- The steps from the service to the place. -/
def steps : Place → List String
  | .parameter i j k =>
    ["interfaces", toString i, "methods", toString j, "parameters", toString k]
  | .returned i j => ["interfaces", toString i, "methods", toString j, "returnType"]
  | .property i j => ["types", toString i, "properties", toString j]
  | .member i j => ["unions", toString i, "members", toString j]

/-- What the order of places goes by: interfaces come before types and these before unions; in a
method, the parameters come before what is returned. -/
def rank : Place → List Nat
  | .parameter i j k => [0, i, j, 0, k]
  | .returned i j => [0, i, j, 1]
  | .property i j => [1, i, j]
  | .member i j => [2, i, j]

/-- The order of places. -/
def Before (p q : Place) : Prop := p.rank < q.rank

/-- The use of a type at a place, if the service has the place. -/
def use? (s : Service) : Place → Option TypeUse
  | .parameter i j k => do
    let interface ← s.interfaces[i]?
    let m ← interface.methods[j]?
    let p ← m.parameters[k]?
    return p.type
  | .returned i j => do
    let interface ← s.interfaces[i]?
    let m ← interface.methods[j]?
    let r ← m.returnType
    return r.type
  | .property i j => do
    let t ← s.types[i]?
    let p ← t.properties[j]?
    return p.type
  | .member i j => do
    let u ← s.unions[i]?
    u.members[j]?

/-- The JSON form of the construct at a place, if the service has the place. -/
def json? (s : Service) : Place → Option Json
  | .parameter i j k => do
    let interface ← s.interfaces[i]?
    let m ← interface.methods[j]?
    let p ← m.parameters[k]?
    return p.toJson parameterKind
  | .returned i j => do
    let interface ← s.interfaces[i]?
    let m ← interface.methods[j]?
    let r ← m.returnType
    return r.toJson
  | .property i j => do
    let t ← s.types[i]?
    let p ← t.properties[j]?
    return p.toJson propertyKind
  | .member i j => do
    let u ← s.unions[i]?
    let m ← u.members[j]?
    return m.toJson

/-- Is a type used at the place that is neither primitive nor defined? -/
def Offends (s : Service) (place : Place) : Prop :=
  ∃ use, place.use? s = some use ∧ use.isPrimitive = false ∧
    use.typeName.value ∉ s.definedNames

/-- The steps from the service to a place lead to the construct at the place. -/
theorem follow?_steps {s : Service} {place : Place} {json : Json}
    (h : place.json? s = some json) : s.toJson.follow? place.steps = some json := by
  cases place with
  | parameter i j k =>
    simp only [json?, Option.bind_eq_bind, Option.bind_eq_some_iff] at h
    obtain ⟨interface, hi, m, hj, p, hk, h⟩ := h
    cases h
    rw [steps, toJson, follow?_member rfl, follow?_item, hi, Option.bind_some, Interface.toJson,
      follow?_member rfl, follow?_item, hj, Option.bind_some, Method.toJson, follow?_member rfl,
      follow?_item, hk]
    rfl
  | returned i j =>
    simp only [json?, Option.bind_eq_bind, Option.bind_eq_some_iff] at h
    obtain ⟨interface, hi, m, hj, r, hr, h⟩ := h
    cases h
    rw [steps, toJson, follow?_member rfl, follow?_item, hi, Option.bind_some, Interface.toJson,
      follow?_member rfl, follow?_item, hj, Option.bind_some, Method.toJson, follow?_member rfl,
      hr]
    rfl
  | property i j =>
    simp only [json?, Option.bind_eq_bind, Option.bind_eq_some_iff] at h
    obtain ⟨t, hi, p, hj, h⟩ := h
    cases h
    rw [steps, toJson, follow?_member rfl, follow?_item, hi, Option.bind_some, TypeDef.toJson,
      follow?_member rfl, follow?_item, hj]
    rfl
  | member i j =>
    simp only [json?, Option.bind_eq_bind, Option.bind_eq_some_iff] at h
    obtain ⟨u, hi, m, hj, h⟩ := h
    cases h
    rw [steps, toJson, follow?_member rfl, follow?_item, hi, Option.bind_some, UnionDef.toJson,
      follow?_member rfl, follow?_item, hj]
    rfl

/-- No step of a path holds a slash. -/
theorem slash_not_mem_steps (place : Place) : ∀ step ∈ place.steps, '/' ∉ step.toList := by
  have number : ∀ n : Nat, '/' ∉ (toString n).toList := fun n hm =>
    absurd (Text.isDigit_of_mem_repr hm) (by decide)
  cases place <;> simp only [steps, List.forall_mem_cons, List.not_mem_nil, false_imp_iff,
    implies_true, and_true]
  case parameter i j k =>
    exact ⟨by decide, number i, by decide, number j, by decide, number k⟩
  case returned i j => exact ⟨by decide, number i, by decide, number j, by decide⟩
  case property i j => exact ⟨by decide, number i, by decide, number j⟩
  case member i j => exact ⟨by decide, number i, by decide, number j⟩

theorem steps_ne_nil (place : Place) : place.steps ≠ [] := by
  cases place <;> simp [steps]

end Place

/-! ## The places of a service -/

/-- The uses of types in a method of an interface, with their places. -/
def Method.sited (i j : Nat) (m : Method) : List (Place × TypeUse) :=
  m.parameters.zipIdx.map (fun (p, k) => (.parameter i j k, p.type)) ++
    (m.returnType.map fun r => (.returned i j, r.type)).toList

/-- The uses of types in a service with their places, in order. -/
def sited (s : Service) : List (Place × TypeUse) :=
  (s.interfaces.zipIdx.flatMap fun (interface, i) =>
      interface.methods.zipIdx.flatMap fun (m, j) => m.sited i j) ++
    (s.types.zipIdx.flatMap fun (t, i) =>
      t.properties.zipIdx.map fun (p, j) => (.property i j, p.type)) ++
    s.unions.zipIdx.flatMap fun (u, i) => u.members.zipIdx.map fun (m, j) => (.member i j, m)

theorem Method.uses_eq_sited (i j : Nat) (m : Method) :
    m.uses ["interfaces", toString i, "methods", toString j] =
      (m.sited i j).map fun (place, use) => (place.steps, use) := by
  cases hr : m.returnType <;>
    simp [Method.uses, Method.sited, placed, hr, Place.steps, Function.comp_def]

/-- What the validation looks at are the uses of types at the places. -/
theorem uses_eq_sited (s : Service) :
    s.uses = s.sited.map fun (place, use) => (place.steps, use) := by
  have methods (i : Nat) (interface : Interface) :
      interface.uses ["interfaces", toString i] =
        (interface.methods.zipIdx.flatMap fun (m, j) => m.sited i j).map
          fun (place, use) => (place.steps, use) := by
    rw [Interface.uses, placed, List.flatMap_map, List.map_flatMap]
    exact List.flatMap_congr fun (m, j) _ => m.uses_eq_sited i j
  have types (i : Nat) (t : TypeDef) : t.uses ["types", toString i] =
      (t.properties.zipIdx.map fun (p, j) => (Place.property i j, p.type)).map
        fun (place, use) => (place.steps, use) := by
    simp [TypeDef.uses, placed, Place.steps]
  have unions (i : Nat) (u : UnionDef) : u.uses ["unions", toString i] =
      (u.members.zipIdx.map fun (m, j) => (Place.member i j, m)).map
        fun (place, use) => (place.steps, use) := by
    simp [UnionDef.uses, placed, Place.steps]
  rw [uses, sited, List.map_append, List.map_append]
  congr 1
  · congr 1
    · rw [placed, List.flatMap_map, List.map_flatMap]
      exact List.flatMap_congr fun (interface, i) _ => methods i interface
    · rw [placed, List.flatMap_map, List.map_flatMap]
      exact List.flatMap_congr fun (t, i) _ => types i t
  · rw [placed, List.flatMap_map, List.map_flatMap]
    exact List.flatMap_congr fun (u, i) _ => unions i u

/-- The places of a service are those at which it uses types. -/
theorem mem_sited {s : Service} {place : Place} {use : TypeUse} :
    (place, use) ∈ s.sited ↔ place.use? s = some use := by
  simp only [sited, Method.sited, List.mem_append, List.mem_flatMap, List.mem_map, Prod.exists,
    List.mem_zipIdx_iff_getElem?, Option.mem_toList, Option.map_eq_some_iff, Prod.mk.injEq]
  cases place with
  | parameter i j k => simp [Place.use?, Option.bind_eq_some_iff]
  | returned i j => simp [Place.use?, Option.bind_eq_some_iff]
  | property i j => simp [Place.use?, Option.bind_eq_some_iff]
  | member i j => simp [Place.use?, Option.bind_eq_some_iff]

/-! ### Their order -/

/-- The places stand in order, and the numbers of all of them start in the same way. -/
structure Ordered (lead : List Nat) (places : List Place) : Prop where
  sorted : places.Pairwise Place.Before
  led : ∀ place ∈ places, lead <+: place.rank

theorem before_of_lead {lead : List Nat} {a b : Nat} (h : a < b) {p q : Place}
    (hp : lead ++ [a] <+: p.rank) (hq : lead ++ [b] <+: q.rank) : p.Before q := by
  obtain ⟨s, hs⟩ := hp
  obtain ⟨t, ht⟩ := hq
  rw [Place.Before, ← hs, ← ht]
  clear hs ht
  induction lead with
  | nil => exact List.cons_lt_cons_iff.2 (.inl h)
  | cons n lead ih => exact List.cons_lt_cons_iff.2 (.inr ⟨rfl, ih⟩)

theorem Ordered.append {lead : List Nat} {a b : Nat} {ps qs : List Place} (h : a < b)
    (hp : Ordered (lead ++ [a]) ps) (hq : Ordered (lead ++ [b]) qs) : Ordered lead (ps ++ qs) := by
  constructor
  · refine List.pairwise_append.2 ⟨hp.sorted, hq.sorted, fun p hpm q hqm => ?_⟩
    exact before_of_lead h (hp.led p hpm) (hq.led q hqm)
  · intro place hm
    rcases List.mem_append.1 hm with hm | hm
    · exact (List.prefix_append _ _).trans (hp.led place hm)
    · exact (List.prefix_append _ _).trans (hq.led place hm)

/-- What is gone through by number is in order if each part is. -/
theorem Ordered.numbered {α : Type} {lead : List Nat} {xs : List α} {f : α × Nat → List Place}
    (h : ∀ x i, Ordered (lead ++ [i]) (f (x, i))) : Ordered lead (xs.zipIdx.flatMap f) := by
  have numbers : (xs.zipIdx.map Prod.snd).Pairwise (· < ·) := by
    rw [List.zipIdx_map_snd]
    exact List.pairwise_lt_range'
  constructor
  · refine List.pairwise_flatMap.2 ⟨fun x _ => (h x.1 x.2).sorted, ?_⟩
    refine (List.pairwise_map.1 numbers).imp fun {x y} less p hp q hq => ?_
    exact before_of_lead less ((h x.1 x.2).led p hp) ((h y.1 y.2).led q hq)
  · intro place hm
    obtain ⟨x, -, hx⟩ := List.mem_flatMap.1 hm
    exact (List.prefix_append _ _).trans ((h x.1 x.2).led place hx)

theorem Ordered.one {lead : List Nat} {place : Place} (h : lead <+: place.rank) :
    Ordered lead [place] :=
  ⟨List.pairwise_singleton _ _, List.forall_mem_singleton.2 h⟩

theorem Method.sited_ordered (i j : Nat) (m : Method) :
    Ordered [0, i, j] ((m.sited i j).map Prod.fst) := by
  rw [sited, List.map_append, List.map_map]
  refine Ordered.append (a := 0) (b := 1) Nat.one_pos ?_ ?_
  · rw [List.map_eq_flatMap]
    exact .numbered fun p k => .one (List.prefix_refl _)
  · cases m.returnType with
    | none => exact ⟨.nil, fun _ h => by cases h⟩
    | some r => exact .one (List.prefix_refl _)

/-- The places of a service stand in their order, so that none comes twice. -/
theorem sited_sorted (s : Service) : (s.sited.map Prod.fst).Pairwise Place.Before := by
  have interfaces : Ordered ([] ++ [0]) ((s.interfaces.zipIdx.flatMap fun (interface, i) =>
      interface.methods.zipIdx.flatMap fun (m, j) => m.sited i j).map Prod.fst) := by
    simp only [List.map_flatMap]
    exact .numbered fun interface i => .numbered fun m j => m.sited_ordered i j
  have types : Ordered ([] ++ [1]) ((s.types.zipIdx.flatMap fun (t, i) =>
      t.properties.zipIdx.map fun (p, j) => (Place.property i j, p.type)).map Prod.fst) := by
    simp only [List.map_flatMap, List.map_map]
    refine .numbered fun t i => ?_
    rw [List.map_eq_flatMap]
    exact .numbered fun p j => .one (List.prefix_refl _)
  have unions : Ordered ([] ++ [2]) ((s.unions.zipIdx.flatMap fun (u, i) =>
      u.members.zipIdx.map fun (m, j) => (Place.member i j, m)).map Prod.fst) := by
    simp only [List.map_flatMap, List.map_map]
    refine .numbered fun u i => ?_
    rw [List.map_eq_flatMap]
    exact .numbered fun m j => .one (List.prefix_refl _)
  rw [sited, List.map_append, List.map_append]
  refine List.pairwise_append.2 ⟨(interfaces.append (by decide) types).sorted, unions.sorted, ?_⟩
  intro p hp q hq
  rcases List.mem_append.1 hp with hp | hp
  · exact before_of_lead (by decide) (interfaces.led p hp) (unions.led q hq)
  · exact before_of_lead (by decide) (types.led p hp) (unions.led q hq)

/-! ## Defects -/

/-- The construct at a place has a JSON form where it uses a type. -/
theorem Place.exists_json? {s : Service} {place : Place} {use : TypeUse}
    (h : place.use? s = some use) : ∃ json, place.json? s = some json := by
  cases place <;>
    simp only [use?, Option.bind_eq_bind, Option.bind_eq_some_iff] at h
  case parameter i j k =>
    obtain ⟨interface, hi, m, hj, p, hk, -⟩ := h
    exact ⟨p.toJson parameterKind, by simp [json?, hi, hj, hk]⟩
  case returned i j =>
    obtain ⟨interface, hi, m, hj, r, hr, -⟩ := h
    exact ⟨r.toJson, by simp [json?, hi, hj, hr]⟩
  case property i j =>
    obtain ⟨t, hi, p, hj, -⟩ := h
    exact ⟨p.toJson propertyKind, by simp [json?, hi, hj]⟩
  case member i j =>
    obtain ⟨u, hi, hj⟩ := h
    exact ⟨use.toJson, by simp [json?, hi, hj]⟩

/-- A defect tells of a place: a type is used there that is neither primitive nor defined, and the
path of the defect leads to the construct at the place in the JSON form of the service. -/
structure Locates (s : Service) (place : Place) (defect : Defect) : Prop where
  named : ∃ use, place.use? s = some use ∧ use.isPrimitive = false ∧
    use.typeName.value ∉ s.definedNames ∧ defect = .undefinedType place.steps use.typeName.value
  leads : ∃ json, place.json? s = some json ∧ s.toJson.at? defect.path = some json

/-- The uses of types that are neither primitive nor defined. -/
def offending (s : Service) : List (Place × TypeUse) :=
  s.sited.filter fun (_, use) => !(use.isPrimitive || s.definedNames.contains use.typeName.value)

theorem mem_offending {s : Service} {place : Place} {use : TypeUse} :
    (place, use) ∈ s.offending ↔ place.use? s = some use ∧ use.isPrimitive = false ∧
      use.typeName.value ∉ s.definedNames := by
  simp [offending, mem_sited]

theorem closureDefects_eq (s : Service) :
    s.closureDefects = s.offending.map fun (place, use) =>
      .undefinedType place.steps use.typeName.value := by
  rw [closureDefects, uses_eq_sited, offending, List.filterMap_map]
  induction s.sited with
  | nil => rfl
  | cons found rest ih =>
    obtain ⟨place, use⟩ := found
    cases hd : use.isPrimitive || s.definedNames.contains use.typeName.value
    · simp only [List.filterMap_cons, List.filter_cons, Function.comp_apply, hd, Bool.not_false,
        Bool.false_eq_true, if_false, if_true, List.map_cons]
      exact congrArg (_ :: ·) ih
    · simp only [List.filterMap_cons, List.filter_cons, Function.comp_apply, hd, Bool.not_true,
        Bool.false_eq_true, if_false, if_true]
      exact ih

theorem offending_sorted (s : Service) : (s.offending.map Prod.fst).Pairwise Place.Before :=
  List.Pairwise.sublist (List.filter_sublist.map _) s.sited_sorted

theorem offends_iff {s : Service} {place : Place} :
    place ∈ s.offending.map Prod.fst ↔ place.Offends s := by
  simp [Place.Offends, mem_offending]

theorem locates_closureDefects (s : Service) :
    List.Forall₂ s.Locates (s.offending.map Prod.fst) s.closureDefects := by
  rw [closureDefects_eq]
  refine List.forall₂_map_left_iff.2 (List.forall₂_map_right_iff.2 ?_)
  refine List.forall₂_same.2 fun (place, use) hm => ?_
  obtain ⟨used, named, undefined⟩ := mem_offending.1 hm
  obtain ⟨json, hj⟩ := Place.exists_json? used
  refine ⟨⟨use, used, named, undefined, rfl⟩, json, hj, ?_⟩
  exact (at?_join place.slash_not_mem_steps place.steps_ne_nil _).trans (Place.follow?_steps hj)

/-- The collections in which names have to differ, with the names in each. -/
def collections (s : Service) : List (String × List String) :=
  [("types", s.types.map (·.name.value)), ("enums", s.enums.map (·.name.value)),
    ("unions", s.unions.map (·.name.value)), ("interfaces", s.interfaces.map (·.name.value))]

theorem mem_repeatedNames {collection : String} {names : List String} {defect : Defect} :
    defect ∈ repeatedNames collection names ↔ ∃ name, 1 < names.count name ∧
      defect = .repeatedName collection name (names.count name) := by
  simp only [repeatedNames, List.mem_map, List.mem_filter, List.mem_eraseDups, decide_eq_true_eq]
  constructor
  · rintro ⟨name, ⟨-, repeated⟩, rfl⟩
    exact ⟨name, repeated, rfl⟩
  · rintro ⟨name, repeated, rfl⟩
    have present : name ∈ names := List.count_pos_iff.1 (by omega)
    exact ⟨name, ⟨present, repeated⟩, rfl⟩

theorem nodup_repeatedNames (collection : String) (names : List String) :
    (repeatedNames collection names).Nodup := by
  refine List.Nodup.map ?_ ((nodup_eraseDups names).filter _)
  intro name name' h
  cases h
  rfl

theorem uniquenessDefects_eq (s : Service) :
    s.uniquenessDefects = s.collections.flatMap fun c => repeatedNames c.1 c.2 := by
  simp [uniquenessDefects, collections]

theorem mem_uniquenessDefects {s : Service} {defect : Defect} :
    defect ∈ s.uniquenessDefects ↔ ∃ c ∈ s.collections, ∃ name, 1 < c.2.count name ∧
      defect = .repeatedName c.1 name (c.2.count name) := by
  simp only [uniquenessDefects_eq, List.mem_flatMap, mem_repeatedNames]

theorem nodup_uniquenessDefects (s : Service) : s.uniquenessDefects.Nodup := by
  rw [uniquenessDefects_eq, List.nodup_flatMap]
  refine ⟨fun c _ => nodup_repeatedNames _ _, ?_⟩
  have names : (s.collections.map Prod.fst).Nodup := by
    show ["types", "enums", "unions", "interfaces"].Nodup
    decide
  refine (List.pairwise_map.1 names).imp fun {c c'} differ defect hd hd' => differ ?_
  obtain ⟨name, -, rfl⟩ := mem_repeatedNames.1 hd
  obtain ⟨name', -, same⟩ := mem_repeatedNames.1 hd'
  exact (Defect.repeatedName.inj same).1

/-- The names are sound: every type that is used is primitive or defined, and no name comes twice
in a collection. -/
structure Sound (s : Service) : Prop where
  closed : s.EveryUse fun use => use.isPrimitive = false → use.typeName.value ∈ s.definedNames
  distinct : ∀ c ∈ s.collections, c.2.Nodup

theorem closureDefects_eq_nil_iff {s : Service} : s.closureDefects = [] ↔
    s.EveryUse fun use => use.isPrimitive = false → use.typeName.value ∈ s.definedNames := by
  rw [← forall_uses, closureDefects, List.filterMap_eq_nil_iff]
  refine forall₂_congr fun found _ => ?_
  simp only [ite_eq_left_iff, reduceCtorEq, imp_false, not_not, Bool.or_eq_true,
    List.contains_iff_mem]
  cases found.2.isPrimitive <;> simp

theorem uniquenessDefects_eq_nil_iff {s : Service} :
    s.uniquenessDefects = [] ↔ ∀ c ∈ s.collections, c.2.Nodup := by
  rw [List.eq_nil_iff_forall_not_mem]
  constructor
  · intro none c hc
    refine List.nodup_iff_count_le_one.2 fun name => ?_
    by_contra repeated
    exact none _ (mem_uniquenessDefects.2 ⟨c, hc, name, by omega, rfl⟩)
  · intro distinct defect hd
    obtain ⟨c, hc, name, repeated, -⟩ := mem_uniquenessDefects.1 hd
    have once := List.nodup_iff_count_le_one.1 (distinct c hc) name
    omega

/-- The validation reports nothing exactly if the names are sound. What it reports are the places
whose types are not defined, each once and in order, with paths that lead to what stands there in
the JSON form of the service; and after these, once each, the names that are repeated in a
collection, with the number of their occurrences, which the message shows. -/
theorem defects_exact (s : Service) :
    (s.defects = [] ↔ s.Sound) ∧
      ∃ places undefined repeated, s.defects = undefined ++ repeated ∧
        places.Pairwise Place.Before ∧ (∀ place, place ∈ places ↔ place.Offends s) ∧
        List.Forall₂ s.Locates places undefined ∧
        repeated.Nodup ∧
        ∀ defect, defect ∈ repeated ↔ ∃ c ∈ s.collections, ∃ name, 1 < c.2.count name ∧
          defect = .repeatedName c.1 name (c.2.count name) ∧
            defect.message = "Name '" ++ name ++ "' appears " ++ toString (c.2.count name) ++
              " times" := by
  constructor
  · rw [defects, List.append_eq_nil_iff, closureDefects_eq_nil_iff, uniquenessDefects_eq_nil_iff]
    exact ⟨fun h => ⟨h.1, h.2⟩, fun h => ⟨h.closed, h.distinct⟩⟩
  · refine ⟨_, _, _, rfl, s.offending_sorted, fun _ => offends_iff, s.locates_closureDefects,
      s.nodup_uniquenessDefects, fun defect => ?_⟩
    rw [mem_uniquenessDefects]
    constructor
    · rintro ⟨c, hc, name, repeated, rfl⟩
      exact ⟨c, hc, name, repeated, rfl, rfl⟩
    · rintro ⟨c, hc, name, repeated, same, -⟩
      exact ⟨c, hc, name, repeated, same⟩

end Service

end ServiceModel

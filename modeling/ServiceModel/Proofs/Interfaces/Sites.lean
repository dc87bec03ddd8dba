/-
The operations of a description in document order: path by path in the order in which the paths
first occur, and below a path one operation for each distinct key of its path item that is a verb.
All of them are bound, in this order, and nothing else is. A binding is put together from parts
that can be read at its site, and the interfaces from what is bound under their names.
-/
import ServiceModel.Interfaces.Basic
import ServiceModel.OpenApi.Size
import ServiceModel.Proofs.Build.Outcome
import ServiceModel.Proofs.Document.Entries
import ServiceModel.Proofs.Lists.Grouped

namespace ServiceModel

open Service

/-- An entry whose name occurs is there to be read. -/
theorem Object.readEntry_of_mem {α : Type} {o : Object} {name : String}
    {read : Node → Except Failure α} {found : Option α} (hm : name ∈ o.distinctKeys)
    (h : o.readEntry name read = .ok found) : ∃ value, found = some value := by
  cases found with
  | some value => exact ⟨value, rfl⟩
  | none =>
    obtain ⟨entry, he⟩ := has_of_mem hm
    unfold readEntry child value? at h
    rw [he] at h
    dsimp only [Option.map_some] at h
    split at h <;> cases h

namespace OpenApi

/-- The name of an operation, empty if it has none. -/
def Operation.name (o : Operation) : String := (o.operationId?.map Literal.text).getD ""

/-- The place of an operation: under a verb in the path item of a path. -/
structure Site where
  path : String
  item : PathItem
  verb : String
  operation : Operation

namespace Site

/-- The name of the interface that the operation belongs to. -/
def interfaceName (s : Site) : Except Failure String := do
  return Naming.singular (← sourceNameOf s.path s.operation)

/-- Does the operation belong to the interface with a name? -/
def isIn (name : String) (s : Site) : Bool :=
  match s.interfaceName with
  | .ok own => own == name
  | .error _ => false

end Site

/-- The operations below a path: one for each distinct key of its path item that is a verb. -/
def SitesAt (d : Description) (paths : Object) (path : String) (sites : List Site) : Prop :=
  ∃ source item, paths.readEntry path (OrReference.ofNode PathItem.ofNode) = .ok (some source) ∧
    source.resolve d.root PathItem.ofNode = .ok item ∧
    List.Forall₂ (fun verb (s : Site) => s.path = path ∧ s.item = item ∧ s.verb = verb ∧
        item.object.readEntry verb Operation.ofNode = .ok (some s.operation))
      (item.object.distinctKeys.filter verbs.contains) sites

/-- The operations of a description in document order. -/
def SitesOf (d : Description) (sites : List Site) : Prop :=
  match d.paths with
  | .ok (some paths) =>
    ∃ groups, List.Forall₂ (SitesAt d paths) paths.distinctKeys groups ∧ sites = groups.flatten
  | .ok none => sites = []
  | .error _ => False

/-- The operation stands in the path item of a path. -/
def HoldsOperation (d : Description) (item : PathItem) (operation : Operation) : Prop :=
  ∃ paths path source operations verb, d.paths = .ok (some paths) ∧ path ∈ paths.distinctKeys ∧
    paths.readEntry path (OrReference.ofNode PathItem.ofNode) = .ok (some source) ∧
    source.resolve d.root PathItem.ofNode = .ok item ∧ item.operations = .ok operations ∧
    (verb, operation) ∈ operations

/-! ## Binding -/

theorem operations_filterMap {item : PathItem} :
    ∀ {verbs : List String} {found : List (Option (String × Operation))},
      (∀ verb ∈ verbs, verb ∈ item.object.distinctKeys) →
      List.Forall₂ (fun verb read => (do
        return (← item.object.readEntry verb Operation.ofNode).map fun operation =>
          (verb, operation)) = (.ok read : Except Failure _)) verbs found →
      List.Forall₂ (fun verb (o : String × Operation) => o.1 = verb ∧
        item.object.readEntry verb Operation.ofNode = .ok (some o.2)) verbs (found.filterMap id)
  | [], _, _, .nil => .nil
  | verb :: verbs, _, hk, .cons h rest => by
    obtain ⟨read, hr, h⟩ := read_bind_ok h
    obtain ⟨operation, rfl⟩ := Object.readEntry_of_mem (hk verb List.mem_cons_self) hr
    cases h
    exact .cons ⟨rfl, hr⟩
      (operations_filterMap (fun v hv => hk v (List.mem_cons_of_mem _ hv)) rest)

/-- The operations of a path item, one for each distinct key that is a verb. -/
theorem operations_forall₂ {item : PathItem} {operations : List (String × Operation)}
    (h : item.operations = .ok operations) :
    List.Forall₂ (fun verb (o : String × Operation) => o.1 = verb ∧
        item.object.readEntry verb Operation.ofNode = .ok (some o.2))
      (item.object.distinctKeys.filter verbs.contains) operations := by
  obtain ⟨found, hf, h⟩ := read_bind_ok h
  cases h
  exact operations_filterMap (fun verb hv => List.mem_of_mem_filter hv) (read_mapM_forall₂ hf)

variable {d : Description} {guards : Guards} {paths : Object}

/-- Every operation in a path item has its site. -/
theorem site_of_holds {sites : List Site} (hs : SitesOf d sites) {item : PathItem}
    {operation : Operation} (h : HoldsOperation d item operation) :
    ∃ s ∈ sites, s.item = item ∧ s.operation = operation := by
  obtain ⟨paths, path, source, operations, verb, hp, hk, hr, hi, ho, hm⟩ := h
  unfold SitesOf at hs
  rw [hp] at hs
  obtain ⟨groups, hg, rfl⟩ := hs
  obtain ⟨group, hgm, source', item', hr', hi', here⟩ := forall₂_mem_left hg hk
  cases hr.symm.trans hr'
  cases hi.symm.trans hi'
  obtain ⟨verb', hv, rfl, read⟩ := forall₂_mem_right (operations_forall₂ ho) hm
  obtain ⟨s, hsm, -, same, -, read'⟩ := forall₂_mem_left here hv
  cases read.symm.trans read'
  exact ⟨s, List.mem_flatten.2 ⟨group, hgm, hsm⟩, same, rfl⟩

/-- The operation at a site is bound. -/
def Binds (d : Description) (guards : Guards) (s : Site) (op : BoundOperation) : Prop :=
  (bind d guards s.item s.path s.verb s.operation).outcome = .ok op

/-- What an operation is bound from. -/
structure Parts where
  sourceName : String
  body : Option Service.Member
  sources : List (OrReference Parameter)
  /-- What the sources have become; a cookie becomes nothing. -/
  declared : List (Option (Service.Member × HttpParameter))
  security : List SecurityOption
  returnType : Option ReturnType
  successCode : Located Int

/-- The parts of the operation at a site have been read and described. -/
structure Site.HasParts (d : Description) (guards : Guards) (s : Site) (parts : Parts) :
    Prop where
  sourceName : sourceNameOf s.path s.operation = .ok parts.sourceName
  body : (bodyParameter d guards s.operation s.operation.name
    s.operation.object.metadata).outcome = .ok parts.body
  sources : (do return (← s.item.parameters) ++ (← s.operation.parameters)) =
    (.ok parts.sources : Except Failure _)
  declared : (parts.sources.mapM (parameterOf d guards s.operation.name)).outcome =
    .ok parts.declared
  security : d.securityOptions s.operation = .ok parts.security
  returnType : (returnTypeOf d guards s.operation s.operation.name).outcome =
    .ok parts.returnType
  successCode : successCodeOf d s.verb s.operation = .ok parts.successCode

/-- The operation that is bound from parts. -/
def Site.assemble (s : Site) (parts : Parts) : BoundOperation where
  path := s.path
  sourceName := parts.sourceName
  interfaceName := Naming.singular parts.sourceName
  method := {
    name := ⟨nameOr s.operation.name unnamedMethod, s.operation.operationId?.map Literal.loc⟩
    description := descriptionOf s.operation
    parameters := parts.body.toList ++ (parts.declared.filterMap id).map (·.1)
    security := parts.security
    returnType := parts.returnType
    deprecated := s.operation.deprecated?.bind Literal.flag?
    loc := s.item.object.entryLoc? s.verb
    metadata := s.operation.object.metadata }
  request := {
    name := ⟨nameOr s.operation.name unnamedRequest, s.operation.operationId?.map Literal.loc⟩
    verb := ⟨s.verb, s.item.object.keyLoc? s.verb⟩
    parameters := (parts.body.map bodyRequestParameter).toList ++
      (parts.declared.filterMap id).map (·.2)
    successCode := parts.successCode
    loc := s.item.object.entryLoc? s.verb }

/-- An operation is bound from its parts. -/
theorem binds_ok {s : Site} {op : BoundOperation} (h : Binds d guards s op) :
    ∃ parts, s.HasParts d guards parts ∧ op = s.assemble parts := by
  obtain ⟨sourceName, hn, h⟩ := Build.lift_bind_ok h
  obtain ⟨body, hb, h, -⟩ := Build.bind_ok h
  obtain ⟨shared, hsh, h⟩ := Build.lift_bind_ok h
  obtain ⟨own, ho, h⟩ := Build.lift_bind_ok h
  obtain ⟨declared, hd, h, -⟩ := Build.bind_ok h
  obtain ⟨security, hs, h⟩ := Build.lift_bind_ok h
  obtain ⟨returnType, hr, h, -⟩ := Build.bind_ok h
  obtain ⟨successCode, hc, h⟩ := Build.lift_bind_ok h
  cases Build.pure_ok h
  refine ⟨⟨sourceName, body, shared ++ own, declared, security, returnType, successCode⟩, ?_, rfl⟩
  exact ⟨hn, hb, by rw [hsh, ho]; rfl, hd, hs, hr, hc⟩

theorem bindPath_sites {path : String} {operations : List BoundOperation}
    (hp : path ∈ paths.distinctKeys)
    (h : (bindPath d guards paths path).outcome = .ok operations) :
    ∃ sites, SitesAt d paths path sites ∧ List.Forall₂ (Binds d guards) sites operations := by
  obtain ⟨found, hf, h⟩ := Build.lift_bind_ok h
  obtain ⟨source, rfl⟩ := Object.readEntry_of_mem hp hf
  obtain ⟨item, hi, h⟩ := Build.lift_bind_ok h
  obtain ⟨listed, hl, h⟩ := Build.lift_bind_ok h
  let site (o : String × Operation) : Site := ⟨path, item, o.1, o.2⟩
  refine ⟨listed.map site, ⟨source, item, hf, hi, ?_⟩, ?_⟩
  · refine List.forall₂_map_right_iff.2 ((operations_forall₂ hl).imp fun verb o ho => ?_)
    exact ⟨rfl, rfl, ho.1, ho.2⟩
  · exact List.forall₂_map_left_iff.2 (Build.mapM_forall₂ h)

theorem bindPaths_sites :
    ∀ {keys : List String} {groups : List (List BoundOperation)},
      (∀ path ∈ keys, path ∈ paths.distinctKeys) →
      List.Forall₂ (fun path ops => (bindPath d guards paths path).outcome = .ok ops) keys groups →
      ∃ sites, List.Forall₂ (SitesAt d paths) keys sites ∧
        List.Forall₂ (List.Forall₂ (Binds d guards)) sites groups
  | [], _, _, .nil => ⟨[], .nil, .nil⟩
  | path :: keys, _, hk, .cons h rest => by
    obtain ⟨here, hh, hb⟩ := bindPath_sites (hk path List.mem_cons_self) h
    obtain ⟨others, ho, hbs⟩ :=
      bindPaths_sites (fun path' hp => hk path' (List.mem_cons_of_mem _ hp)) rest
    exact ⟨here :: others, .cons hh ho, .cons hb hbs⟩

/-- All operations are bound, path by path. -/
theorem bindAll_sites {operations : List BoundOperation}
    (h : (bindAll d guards paths).outcome = .ok operations) :
    ∃ sites groups, List.Forall₂ (SitesAt d paths) paths.distinctKeys sites ∧
      List.Forall₂ (List.Forall₂ (Binds d guards)) sites groups ∧
      operations = groups.flatten := by
  obtain ⟨groups, hg, h, -⟩ := Build.bind_ok h
  cases Build.pure_ok h
  obtain ⟨sites, hs, hb⟩ := bindPaths_sites (fun _ hp => hp) (Build.mapM_forall₂ hg)
  exact ⟨sites, groups, hs, hb, rfl⟩

/-- The interfaces of a description are made of its operations. One that lists no paths is taken
like one with an empty list of them. -/
theorem interfacesOf_ok {interfaces : List Interface}
    (h : (interfacesOf d guards).outcome = .ok interfaces) :
    ∃ paths sites groups, SitesOf d sites.flatten ∧
      List.Forall₂ (SitesAt d paths) paths.distinctKeys sites ∧
      List.Forall₂ (List.Forall₂ (Binds d guards)) sites groups ∧
      groupInterfaces d paths groups.flatten = .ok interfaces := by
  obtain ⟨found, hf, h⟩ := Build.lift_bind_ok h
  unfold SitesOf
  rw [hf]
  cases found with
  | none =>
    obtain ⟨none, hn, h, -⟩ := Build.bind_ok h
    cases Build.pure_ok hn
    obtain ⟨_, -, h, -⟩ := Build.bind_ok h
    cases Build.pure_ok h
    exact ⟨⟨[], default⟩, [], [], rfl, .nil, .nil, rfl⟩
  | some paths =>
    obtain ⟨operations, ho, h, -⟩ := Build.bind_ok h
    obtain ⟨grouped, hg, h⟩ := Build.lift_bind_ok h
    obtain ⟨_, -, h, -⟩ := Build.bind_ok h
    cases Build.pure_ok h
    obtain ⟨sites, groups, hs, hb, rfl⟩ := bindAll_sites ho
    exact ⟨paths, sites, groups, ⟨sites, hs, rfl⟩, hs, hb, hg⟩

end OpenApi

end ServiceModel

/-
A conversion depends on the document by what is reached in it, beside what the description itself
holds. This is what descriptions of different documents are compared by: what each of them declares
under a name of its own, and what is the same for components from which the same is reached.
-/
import ServiceModel.Proofs.Conversion.Language
import ServiceModel.Proofs.Conversion.Outcome
import ServiceModel.Proofs.Document.Replace
import ServiceModel.Proofs.Interfaces.Reach

namespace ServiceModel

open Service OpenApi

/-! ## What is declared -/

namespace OpenApi.Description

/-- The component schemas. -/
def declaredSchemas (d : Description) : Except Failure (Option Object) := do
  match ← d.components with
  | none => return none
  | some components => components.schemas

theorem componentTypes_eq (d : Description) (guards : Guards) :
    d.componentTypes guards = (do
      match ← d.declaredSchemas with
      | none => return []
      | some schemas =>
        return (← schemas.distinctKeys.mapM (d.componentType guards schemas)).filterMap id) := by
  unfold componentTypes declaredSchemas
  cases d.components with
  | error e => rfl
  | ok components =>
    cases components with
    | none => rfl
    | some components => rfl

/-- The security schemes among the components. -/
def declaredSchemes (d : Description) : Except Failure (Option Object) := do
  match ← d.components with
  | none => return none
  | some components => components.securitySchemes

theorem schemeUnder_eq (d : Description) (key : String) :
    d.schemeUnder key = (do
      match ← d.declaredSchemes with
      | none => return none
      | some index =>
        match ← index.readEntry key (OrReference.ofNode SecurityScheme.ofNode) with
        | none => return none
        | some definition =>
          let scheme ← SecurityScheme.resolve d.root definition
          scheme.schemeOf ⟨key, index.keyLoc? key⟩ (index.entryLoc? key)) := by
  unfold schemeUnder declaredSchemes
  cases d.components with
  | error e => rfl
  | ok components =>
    cases components with
    | none => rfl
    | some components => rfl

theorem within_declaredSchemes {d : Description} {index : Object}
    (h : d.declaredSchemes = .ok (some index)) : index.node.Within d.root := by
  obtain ⟨components, hc, h⟩ := read_bind_ok h
  cases components with
  | none => cases h
  | some components =>
    have below := View.child_below View.reads_components hc
    exact (View.index_below h).within.trans below.within

end OpenApi.Description

namespace Node.SameReach

variable {d d' : Description} {P : Node → Prop} {guards : Guards}

/-- The same schemes are found among declarations that are the same. -/
theorem schemeUnder (same : d.root.SameReach d'.root P)
    (h : d.declaredSchemes = d'.declaredSchemes)
    (among : ∀ index, d.declaredSchemes = .ok (some index) → P index.node) (key : String) :
    d.schemeUnder key = d'.schemeUnder key := by
  rw [Description.schemeUnder_eq, Description.schemeUnder_eq, ← h]
  refine read_bind_congr fun found hf => ?_
  cases found with
  | none => rfl
  | some index =>
    refine read_bind_congr fun definition hd => ?_
    cases definition with
    | none => rfl
    | some definition =>
      dsimp only
      rw [same.resolveScheme]
      rintro r rfl
      obtain ⟨n, hv, hr⟩ := Object.child_eq_ok hd
      rw [OrReference.node_of_reference hr]
      exact same.closed.below (among index hf) (Object.value?_child hv).within

/-! ## Components -/

/-- The components of one name are the same if the same is found under the name. -/
theorem componentType (same : d.root.SameReach d'.root P) {schemas schemas' : Object}
    (among : P schemas.node)
    (h : ∀ name, Object.SameUnder name schemas schemas') :
    d.componentType guards schemas = d'.componentType guards schemas' := by
  funext name
  unfold Description.componentType Object.readEntry
  rw [← (h name).child]
  refine Build.lift_bind_congr fun found hf => ?_
  cases found with
  | none => rfl
  | some source =>
    have inside := same.closed.below among
      (View.child_below (View.reads_orReference Schema.reads_ofNode) hf).within
    refine Build.lift_bind_congr fun inner _ => ?_
    rw [← same.resolveSchema inside]
    refine Build.lift_bind_congr fun target ht => ?_
    cases target with
    | object s =>
      have here : P s.object.node := same.closed.schema inside ht
      dsimp only
      rw [same.propertiesOf here, (h name).keyLoc?, (h name).entryLoc?]
    | _ => rfl

/-- The components are the same if the same schemas are declared. -/
theorem componentTypes (same : d.root.SameReach d'.root P)
    (h : d.declaredSchemas = d'.declaredSchemas)
    (among : ∀ schemas, d.declaredSchemas = .ok (some schemas) → P schemas.node) :
    d.componentTypes guards = d'.componentTypes guards := by
  rw [Description.componentTypes_eq, Description.componentTypes_eq, ← h]
  refine Build.lift_bind_congr fun found hs => ?_
  cases found with
  | none => rfl
  | some schemas =>
    dsimp only
    rw [same.componentType (among schemas hs) fun _ => rfl]

end Node.SameReach

/-! ## Descriptions that differ in one entry -/

namespace Object.Differ

variable {d d' : Description} {name : String} {value value' : Node}
  (h : Object.Differ name value value' d.object d'.object)

include h

theorem titleAndMajor (info : name ≠ "info") : d.titleAndMajor = d'.titleAndMajor := by
  unfold Description.titleAndMajor Description.info
  rw [(h.others _ info.symm).child]

theorem checkVersion (openapi : name ≠ "openapi") : d.checkVersion = d'.checkVersion := by
  unfold Description.checkVersion Description.languageVersion Description.openapi?
  rw [(h.others _ openapi.symm).literal?]

end Object.Differ

/-! ## Services -/

/-- The service that is made of what the passes come to. -/
theorem service_of_passes {options : Options} {d : Description} {interfaces : List Interface}
    {components : List TypeDef} {title : Located String} {majorVersion : Located Int}
    (hp : (d.passes (.none options.limit)).outcome = .ok (interfaces, components))
    (ht : d.titleAndMajor = .ok (title, majorVersion)) :
    (d.service options).outcome = .ok {
      sourcePath := options.sourcePath
      title
      majorVersion
      interfaces
      types := foldTypes (components ++
        (d.passes (.none options.limit)).journal.filterMap Entry.type?)
      enums := foldEnums ((d.passes (.none options.limit)).journal.filterMap Entry.enum?)
      unions := foldUnions ((d.passes (.none options.limit)).journal.filterMap Entry.union?)
      loc := some d.object.loc
      metadata := d.object.metadata } := by
  unfold Description.service
  refine (Build.outcome_bind (Build.outcome_listen hp)).trans ?_
  refine (Build.outcome_bind (a := (title, majorVersion)) ?_).trans rfl
  exact ht

/-- What a description is asked for before it is converted. -/
def admission (options : Options) (root : Node) (d : Description) : Except Failure Unit := do
  if options.strict then options.model.check (sourceName options.sourcePath) root
  d.checkVersion

/-- A description is admitted if it has a version that is supported and if the model admits it,
should the model be asked. -/
theorem admission_ok_iff {options : Options} {d : Description} :
    admission options d.root d = .ok () ↔
      (options.strict = true → options.model.Admits d.root) ∧ d.checkVersion = .ok () := by
  unfold admission
  cases options.strict with
  | false => exact ⟨fun h => ⟨nofun, h⟩, fun h => h.2⟩
  | true =>
    have checked : options.model.check (sourceName options.sourcePath) d.root = .ok () ↔
        options.model.Admits d.root := options.model.check_ok_iff _ d.object
    simp only [if_true, forall_const]
    rw [← checked]
    cases options.model.check (sourceName options.sourcePath) d.root with
    | error e => exact iff_of_false nofun fun h => nomatch h.1
    | ok _ => exact ⟨fun h => ⟨rfl, h⟩, fun h => h.2⟩

theorem descriptionOfTree_eq {options : Options} {root : Node} {d : Description}
    (hd : Description.ofNode root = .ok d) :
    descriptionOfTree options root = (do
      admission options root d
      return d) := by
  unfold descriptionOfTree admission
  cases options.strict with
  | false => exact read_bind_of_ok hd _
  | true =>
    simp only [if_true]
    cases options.model.check (sourceName options.sourcePath) root with
    | error e => rfl
    | ok _ => exact read_bind_of_ok hd _

theorem convertTree_eq {options : Options} {root : Node} {d : Description}
    (hd : Description.ofNode root = .ok d) :
    convertTree options root = (do
      admission options root d
      d.service options) := by
  rw [convertTree, descriptionOfTree_eq hd]
  cases admission options root d <;> rfl

theorem convertTree_admitted {options : Options} {root : Node} {d : Description}
    (hd : Description.ofNode root = .ok d) (ha : admission options root d = .ok ()) :
    convertTree options root = d.service options := by
  rw [convertTree_eq hd, ha]
  rfl

theorem admission_of_ok {options : Options} {root : Node} {d : Description} {s : Service}
    (hd : Description.ofNode root = .ok d) (h : (convertTree options root).outcome = .ok s) :
    admission options root d = .ok () := by
  rw [convertTree_eq hd] at h
  obtain ⟨_, ha, -⟩ := Build.lift_bind_ok h
  exact ha

end ServiceModel

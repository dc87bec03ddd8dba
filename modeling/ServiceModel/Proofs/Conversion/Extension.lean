/-
Extensions are metadata. A new extension of a path item or of an operation changes nothing in a
service but the metadata of the methods, whatever its value is. Among the paths it does so as long
as it is an object that holds no operation: paths are gone through by name, and nothing is made of
the mark of extensions there.
-/
import ServiceModel.Proofs.Conversion.Reach
import ServiceModel.Proofs.Interfaces.Extension

namespace ServiceModel

open Service OpenApi

/-! ## Documents with a new extension -/

/-- The second document is the first one with a new extension at the end of the object to which
names lead. -/
def Node.Extended (entry : Key × Node) (names : List String) (root root' : Node) : Prop :=
  ∃ o o' : Object, Node.Replaced o.node o'.node names root root' ∧ o.Extended entry o'

/-- Where path items stand: below the paths, and among those components that are neither schemas
nor security schemes, where only references lead to them. -/
inductive ItemPlace : List String → Prop
  | path (path : String) : ItemPlace ["paths", path]
  | component {kind : String} (name : String) :
      kind ≠ "schemas" → kind ≠ "securitySchemes" → ItemPlace ["components", kind, name]

/-- Where an extension may be added: in the paths, if it is an object that holds no operation, and
in any path item and any operation. -/
inductive ExtensionPlace (value : Node) : List String → Prop
  | paths {o : Object} : value = o.node → HoldsNoOperation o → ExtensionPlace value ["paths"]
  | pathItem {names : List String} : ItemPlace names → ExtensionPlace value names
  | operation {names : List String} {verb : String} :
      ItemPlace names → verb ∈ verbs → ExtensionPlace value (names ++ [verb])

/-- No place of a path item is on the way to another one, or to an operation of another one. -/
theorem ItemPlace.eq_of_prefix {keys names more : List String} (h : ItemPlace keys)
    (h' : ItemPlace names) (before : keys <+: names ++ more) : keys = names := by
  obtain ⟨rest, same⟩ := before
  cases h with
  | path =>
    cases h' with
    | path => simpa using congrArg (List.take 2) same
    | component => simp at same
  | component =>
    cases h' with
    | path => simp at same
    | component => simpa using congrArg (List.take 3) same

/-! ## What is read of a document -/

/-- The nodes that stand for path items: those below the paths, and those that references among
them lead to. -/
inductive OpenApi.Description.StandsForItem (d : Description) : Node → Prop
  | path {paths : Object} {path : String} {n : Node} :
      d.paths = .ok (some paths) → paths.value? path = some n → d.StandsForItem n
  | target {r : Reference} {pointer : String} {n : Node} :
      d.StandsForItem r.object.node → r.pointer = .ok pointer → d.root.resolve pointer = .ok n →
        d.StandsForItem n

/-- The nodes that may be read in another way: path items, component schemas and security schemes
with what is in them, and all that references in these lead to. -/
inductive OpenApi.Description.Reads (d : Description) : Node → Prop
  | item {n : Node} : d.StandsForItem n → n.isReference = false → d.Reads n
  | schemas {o : Object} : d.declaredSchemas = .ok (some o) → d.Reads o.node
  | schemes {o : Object} : d.declaredSchemes = .ok (some o) → d.Reads o.node
  | inside {n m : Node} : d.Reads n → m.Within n → d.Reads m
  | target {r : Reference} {pointer : String} {n : Node} :
      d.Reads r.object.node → r.pointer = .ok pointer → d.root.resolve pointer = .ok n → d.Reads n

theorem OpenApi.Description.closed_reads (d : Description) : d.root.Closed d.Reads :=
  ⟨.inside, .target⟩

/-- No pointer leads to the object that names lead to, to what it stands in, or to what would stand
in it under a further name; but a reference that stands for a path item may lead to the path item
that names lead to, or to the one of the operation that they lead to. -/
structure Node.Spares (root : Node) (names : List String) (name : String) : Prop where
  parts : ∀ {d : Description} {r : Reference} {pointer : String} {keys : List String},
    d.root = root → d.Reads r.object.node → r.pointer = .ok pointer →
      Pointer.keys pointer = .ok keys → ¬ keys <+: names ∧ ¬ names ++ [name] <+: keys
  items : ∀ {d : Description} {r : Reference} {pointer : String} {keys : List String},
    d.root = root → d.StandsForItem r.object.node → r.pointer = .ok pointer →
      Pointer.keys pointer = .ok keys →
        (keys <+: names → ItemPlace keys) ∧ ¬ names ++ [name] <+: keys

namespace OpenApi.Description

variable {d : Description}

theorem StandsForItem.within {n : Node} (h : d.StandsForItem n) : n.Within d.root := by
  cases h with
  | path hp hn => exact (Object.value?_child hn).within.trans (View.index_below hp).within
  | target _ _ hn => exact Node.resolve_within hn

theorem Reads.within {n : Node} (h : d.Reads n) : n.Within d.root := by
  induction h with
  | item h _ => exact h.within
  | schemas h =>
    obtain ⟨found, hc, hs⟩ := read_bind_ok h
    cases found with
    | none => cases hs
    | some components =>
      have below := View.child_below View.reads_components hc
      exact (View.index_below hs).within.trans below.within
  | schemes h => exact within_declaredSchemes h
  | inside _ within ih => exact within.trans ih
  | target _ _ hn _ => exact Node.resolve_within hn

end OpenApi.Description

/-- It is enough if no pointer of the document leads there. -/
theorem Node.spares_of_pointers {root : Node} {names : List String} {name : String}
    (h : ∀ pointer ∈ root.pointers, ∀ keys, Pointer.keys pointer = .ok keys →
      ¬ keys <+: names ∧ ¬ names ++ [name] <+: keys) : root.Spares names name where
  parts := by
    rintro d r pointer keys rfl hr hp hk
    exact h pointer (Node.pointer_mem_pointers hr.within hp) keys hk
  items := by
    rintro d r pointer keys rfl hr hp hk
    obtain ⟨beside, fresh⟩ := h pointer (Node.pointer_mem_pointers hr.within hp) keys hk
    exact ⟨fun before => absurd before beside, fresh⟩

/-! ## Paths with a new extension -/

theorem not_marked_of_verb {verb : String} (h : verb ∈ verbs) : Object.isMarked verb = false := by
  have all : ∀ verb ∈ verbs, Object.isMarked verb = false := by decide
  exact all verb h

namespace Object

variable {entry : Key × Node} {o o' : Object}

/-- A path item with a new extension. -/
theorem Extended.itemsResemble (h : o.Extended entry o') : ItemsResemble o o' := by
  have verb_other : ∀ verb ∈ verbs, SameUnder verb o o' := fun verb hv =>
    h.resembles.plain verb (not_marked_of_verb hv)
  constructor
  case range => exact h.range
  case plain => exact fun n _ hn => h.resembles.plain n hn
  case keys =>
    have none : [entry.1.name].filter verbs.contains = [] := by
      refine List.filter_eq_nil_iff.2 fun name hn hv => ?_
      have marked := not_marked_of_verb (by simpa using hv)
      rw [List.mem_singleton.1 hn, h.marked] at marked
      cases marked
    rw [h.distinctKeys, List.filter_append, none, List.append_nil]
  case keyLoc? => exact fun verb hv => (verb_other verb hv).keyLoc?
  case entryLoc? => exact fun verb hv => (verb_other verb hv).entryLoc?
  case operation =>
    intro verb hv
    rw [(verb_other verb hv).value?]
    exact .same _

/-- A path item with one operation in the place of another that resembles it. -/
theorem Differ.itemsResemble {verb : String} {p p' : Object}
    (h : Object.Differ verb p.node p'.node o o') (hv : verb ∈ verbs) (hp : p.Resembles p') :
    ItemsResemble o o' := by
  constructor
  case range => exact h.range
  case plain => exact fun n hn _ => h.others n fun same => hn (same ▸ hv)
  case keys => rw [Object.distinctKeys, Object.distinctKeys, h.keys]
  case keyLoc? => exact fun v _ => h.keyLoc?_all v
  case entryLoc? => exact fun v _ => h.entryLoc?_all hp.range v
  case operation =>
    intro v _
    by_cases same : v = verb
    · rw [same, h.found, h.found']
      exact .objects hp
    · rw [(h.others v same).value?]
      exact .same _

/-- Paths with a path item in the place of another that differs from it in extensions at most. -/
theorem Differ.allPathsResemble {path : String} {i i' : Object}
    (h : Object.Differ path i.node i'.node o o') (hi : ItemsResemble i i') :
    AllPathsResemble o o' := by
  constructor
  case more =>
    refine ⟨[], ?_, List.forall_mem_nil _⟩
    rw [Object.distinctKeys, Object.distinctKeys, h.keys, List.append_nil]
  case below =>
    intro p _
    by_cases same : p = path
    · rw [same, h.found, h.found']
      exact .some (.objects hi)
    · rw [(h.others p same).value?]
      exact optionRel_self .same _
  case keyLoc? => exact fun p _ => h.keyLoc?_all p
  case entryLoc? => exact fun p _ => h.entryLoc?_all hi.range p

/-- Paths with a new extension that holds no operation. -/
theorem Extended.allPathsResemble {p : Object} (h : o.Extended entry o')
    (value : entry.2 = p.node) (hp : HoldsNoOperation p) : AllPathsResemble o o' := by
  have other : ∀ path ∈ o.distinctKeys, SameUnder path o o' := fun path hm =>
    h.others fun same => h.fresh (same ▸ List.mem_eraseDups.1 hm)
  constructor
  case more =>
    refine ⟨[entry.1.name], h.distinctKeys, fun path hm => ⟨p, ?_, hp⟩⟩
    rw [List.mem_singleton.1 hm, h.value?_self, value]
  case below =>
    intro path hm
    rw [(other path hm).value?]
    exact optionRel_self .same _
  case keyLoc? => exact fun path hm => (other path hm).keyLoc?
  case entryLoc? => exact fun path hm => (other path hm).entryLoc?

end Object

/-! ## Documents with a new extension -/

namespace Node.Extended

variable {entry : Key × Node} {names : List String} {root root' : Node}
  (h : Node.Extended entry names root root')

include h

/-- A pointer that leads neither to what changes nor to the extension leads to the same entry. -/
theorem entryAt {pointer : String}
    (beside : ∀ keys, Pointer.keys pointer = .ok keys → ¬ keys <+: names)
    (fresh : ∀ keys, Pointer.keys pointer = .ok keys → ¬ names ++ [entry.1.name] <+: keys) :
    root.entryAt pointer = root'.entryAt pointer := by
  obtain ⟨o, o', replaced, extended⟩ := h
  refine replaced.entryAt beside ?_
  rintro keys name rest hk rfl
  refine extended.others fun same => fresh _ hk ?_
  subst same
  exact ⟨rest, by rw [List.append_assoc]; rfl⟩

/-- The same is reached in both documents, but for path items. -/
theorem reach {d d' : Description} (here : d.root = root) (there : d'.root = root')
    (spares : root.Spares names entry.1.name) : d.root.SameReach d'.root d.Reads := by
  subst here there
  refine ⟨d.closed_reads, fun hr hp => h.entryAt ?_ ?_⟩
  · exact fun keys hk => (spares.parts rfl hr hp hk).1
  · exact fun keys hk => (spares.parts rfl hr hp hk).2

/-- A path item on the way to the extension resembles the one in its place. -/
theorem itemAt (place : ExtensionPlace entry.2 names) {keys : List String} (item : ItemPlace keys)
    (before : keys <+: names) :
    ∃ i i' : Object, Replaced i.node i'.node keys root root' ∧ ItemsResemble i i' := by
  obtain ⟨o, o', replaced, extended⟩ := h
  cases place with
  | paths =>
    -- no path item stands above the paths
    obtain ⟨rest, same⟩ := before
    cases item <;> simp at same
  | pathItem there =>
    have whole : keys <+: names ++ [] := by rwa [List.append_nil]
    have same := item.eq_of_prefix there whole
    exact ⟨o, o', same ▸ replaced, extended.itemsResemble⟩
  | operation there hv =>
    obtain rfl := item.eq_of_prefix there before
    obtain ⟨mid, mid', outer, inner⟩ := replaced.split
    obtain ⟨i, i', _, _, rfl, rfl, differ, way⟩ := inner.first
    obtain ⟨same, same'⟩ := way.eq_of_nil
    subst same same'
    exact ⟨i, i', outer, differ.itemsResemble hv extended.resembles⟩

/-- References that stand for path items lead to path items that resemble each other. -/
theorem sameItems (place : ExtensionPlace entry.2 names) {d d' : Description}
    (here : d.root = root) (there : d'.root = root') (spares : root.Spares names entry.1.name) :
    SameItems d.root d'.root d.StandsForItem := by
  subst here there
  refine ⟨fun {r pointer n} hr hp hn => ⟨.target hr hp hn, ?_⟩⟩
  -- on the way to the extension a pointer lands on a path item, and beside it nothing changes
  by_cases way : ∃ keys, Pointer.keys pointer = .ok keys ∧ keys <+: names
  · obtain ⟨keys, hk, before⟩ := way
    obtain ⟨i, i', replaced, resemble⟩ := h.itemAt place ((spares.items rfl hr hp hk).1 before) before
    obtain ⟨found, found'⟩ := replaced.resolve_names hk
    obtain rfl := Except.ok.inj (found.symm.trans hn)
    exact ⟨_, found', .objects resemble⟩
  · have same : d.root.entryAt pointer = d'.root.entryAt pointer :=
      h.entryAt (fun keys hk before => way ⟨keys, hk, before⟩)
        fun keys hk => (spares.items rfl hr hp hk).2
    refine ⟨n, ?_, .same n⟩
    rwa [Node.resolve, ← same]

end Node.Extended

/-- Descriptions that are the same but for what stands in path items, and for components that are
neither schemas nor security schemes. -/
structure OpenApi.Description.Resembles (d d' : Description) : Prop where
  loc : d.object.loc = d'.object.loc
  metadata : d.object.metadata = d'.object.metadata
  titleAndMajor : d.titleAndMajor = d'.titleAndMajor
  checkVersion : d.checkVersion = d'.checkVersion
  security : d.security = d'.security
  tags : d.tags = d'.tags
  schemas : d.declaredSchemas = d'.declaredSchemas
  schemes : d.declaredSchemes = d'.declaredSchemes
  paths : ∀ found, d.paths = .ok found →
    ∃ found', d'.paths = .ok found' ∧ Option.Rel AllPathsResemble found found'

namespace Object.Differ

variable {d d' : Description}

/-- Descriptions that differ in their paths or in their components resemble each other, if the
parts of these do that are not left aside. -/
theorem resembles {name : String} {value value' : Node}
    (h : Object.Differ name value value' d.object d'.object) (part : name ∈ ["paths", "components"])
    (schemas : d.declaredSchemas = d'.declaredSchemas)
    (schemes : d.declaredSchemes = d'.declaredSchemes)
    (paths : ∀ found, d.paths = .ok found →
      ∃ found', d'.paths = .ok found' ∧ Option.Rel AllPathsResemble found found') :
    d.Resembles d' := by
  have away : ∀ n, n ∉ ["paths", "components"] → SameUnder n d.object d'.object :=
    fun n hn => h.others n fun same => hn (same ▸ part)
  have unmarked : ∀ n ∈ ["paths", "components"],
      extensionMark.toList.isPrefixOf n.toList = false := by decide
  constructor
  case loc => rw [Object.loc, Object.loc, h.range]
  case metadata => exact h.metadata (unmarked name part)
  case titleAndMajor => exact h.titleAndMajor fun same => absurd (same ▸ part) (by decide)
  case checkVersion => exact h.checkVersion fun same => absurd (same ▸ part) (by decide)
  case security => exact (away "security" (by decide)).array _
  case tags => rw [Description.tags, Description.tags, (away "tags" (by decide)).array]
  case schemas => exact schemas
  case schemes => exact schemes
  case paths => exact paths

theorem resembles_of_paths {paths paths' : Object}
    (h : Object.Differ "paths" paths.node paths'.node d.object d'.object)
    (resemble : AllPathsResemble paths paths') : d.Resembles d' := by
  have components : d.components = d'.components := (h.others _ (by decide)).child _
  refine h.resembles (by decide) ?_ ?_ fun found hp => ?_
  · rw [Description.declaredSchemas, Description.declaredSchemas, components]
  · rw [Description.declaredSchemes, Description.declaredSchemes, components]
  · have here : d.paths = .ok (some paths) := Object.child_of_value? h.found rfl
    have there : d'.paths = .ok (some paths') := Object.child_of_value? h.found' rfl
    cases here.symm.trans hp
    exact ⟨_, there, .some resemble⟩

theorem resembles_of_components {kind : String} {components components' : Object}
    {value value' : Node}
    (h : Object.Differ "components" components.node components'.node d.object d'.object)
    (inner : Object.Differ kind value value' components components') (schemas : kind ≠ "schemas")
    (schemes : kind ≠ "securitySchemes") : d.Resembles d' := by
  have here : d.components = .ok (some ⟨components⟩) := Object.child_of_value? h.found rfl
  have there : d'.components = .ok (some ⟨components'⟩) := Object.child_of_value? h.found' rfl
  have paths : d.paths = d'.paths := (h.others _ (by decide)).index
  refine h.resembles (by decide) ?_ ?_ fun found hp => ?_
  · rw [Description.declaredSchemas, Description.declaredSchemas, here, there]
    exact (inner.others _ schemas.symm).index
  · rw [Description.declaredSchemes, Description.declaredSchemes, here, there]
    exact (inner.others _ schemes.symm).index
  · exact ⟨found, paths ▸ hp, optionRel_self .refl _⟩

end Object.Differ

/-- With a path item in the place of one that resembles it, a document has a description that
resembles the other one. -/
theorem ItemPlace.views {keys : List String} (h : ItemPlace keys) {i i' : Object}
    {root root' : Node} (replaced : Node.Replaced i.node i'.node keys root root')
    (resemble : ItemsResemble i i') :
    ∃ d d' : Description, d.root = root ∧ d'.root = root' ∧ d.Resembles d' := by
  cases h with
  | path path =>
    obtain ⟨top, top', _, _, rfl, rfl, differ, way⟩ := replaced.first
    obtain ⟨paths, paths', _, _, rfl, rfl, inner, way⟩ := way.first
    obtain ⟨same, same'⟩ := way.eq_of_nil
    subst same same'
    exact ⟨⟨top⟩, ⟨top'⟩, rfl, rfl, differ.resembles_of_paths (inner.allPathsResemble resemble)⟩
  | component name schemas schemes =>
    obtain ⟨top, top', _, _, rfl, rfl, differ, way⟩ := replaced.first
    obtain ⟨components, components', _, _, rfl, rfl, inner, -⟩ := way.first
    exact ⟨⟨top⟩, ⟨top'⟩, rfl, rfl, differ.resembles_of_components inner schemas schemes⟩

/-- A document with a new extension still has a description that resembles the other one. -/
theorem Node.Extended.views {entry : Key × Node} {names : List String} {root root' : Node}
    (h : Node.Extended entry names root root') (place : ExtensionPlace entry.2 names) :
    ∃ d d' : Description, d.root = root ∧ d'.root = root' ∧ d.Resembles d' := by
  have item {keys : List String} (there : ItemPlace keys) (before : keys <+: names) :
      ∃ d d' : Description, d.root = root ∧ d'.root = root' ∧ d.Resembles d' := by
    obtain ⟨i, i', replaced, resemble⟩ := h.itemAt place there before
    exact there.views replaced resemble
  cases place with
  | paths value holds =>
    obtain ⟨o, o', replaced, extended⟩ := h
    obtain ⟨top, top', _, _, rfl, rfl, differ, way⟩ := replaced.first
    obtain ⟨same, same'⟩ := way.eq_of_nil
    subst same same'
    exact ⟨⟨top⟩, ⟨top'⟩, rfl, rfl,
      differ.resembles_of_paths (extended.allPathsResemble value holds)⟩
  | pathItem there => exact item there (List.prefix_refl _)
  | operation there _ => exact item there (List.prefix_append _ _)

/-! ## Services -/

/-- The service without the metadata of its methods. -/
def Service.plain (s : Service) : Service :=
  { s with interfaces := s.interfaces.map Interface.plain }

theorem service_resembles {d d' : Description} (resembles : d.Resembles d')
    (reach : d.root.SameReach d'.root d.Reads)
    (items : SameItems d.root d'.root d.StandsForItem) (options : Options) :
    Build.Carries (fun s s' => Service.plain s = Service.plain s') (d.service options)
      (d'.service options) := by
  have offers : d.Offers d' d.Reads := {
    reach := reach
    security := resembles.security
    tags := resembles.tags
    schemes := reach.schemeUnder resembles.schemes fun _ => .schemes }
  -- the second pass does not come by path items, and is the same
  have components (guards : Guards) : d.componentTypes guards = d'.componentTypes guards :=
    reach.componentTypes resembles.schemas fun _ => .schemas
  have passes : Build.Carries
      (fun found found' : List Interface × List TypeDef =>
        List.Forall₂ (fun i i' => Interface.plain i = Interface.plain i') found.1 found'.1 ∧
          found.2 = found'.2)
      (d.passes (.none options.limit)) (d'.passes (.none options.limit)) := by
    refine .bind (interfacesOf_resembles offers items (fun _ => .item)
      (fun _ hp _ _ hn => .path hp hn) resembles.paths) fun is is' _ hi => ?_
    rw [components]
    exact .bind .refl fun types types' _ ht => .pure ⟨hi, ht⟩
  unfold Description.service
  refine .bind passes.listen ?_
  rintro ⟨⟨is, types⟩, journal⟩ ⟨⟨is', _⟩, _⟩ - ⟨⟨hi, rfl⟩, rfl⟩
  dsimp only
  rw [← resembles.titleAndMajor, ← resembles.loc, ← resembles.metadata]
  refine .bind .refl ?_
  rintro ⟨title, major⟩ _ - rfl
  refine .pure ?_
  simp only [Service.plain]
  rw [map_eq_of_forall₂ hi fun _ _ h => h]

/-- A document that is converted is still converted with a new extension at the end of a path item
or an operation, or at the end of the paths if the extension holds no operation, as long as no
reference leads there but to a path item as such. The violations are the same, and so is the
service, but for the metadata of its methods. Where descriptions are checked against a model of
their language, the model must admit the extension. -/
theorem convertTree_extended (options : Options) {entry : Key × Node} {names : List String}
    {root root' : Node} (h : Node.Extended entry names root root')
    (place : ExtensionPlace entry.2 names) (spares : root.Spares names entry.1.name)
    (admits : options.strict = true → options.model.Admits root') {s : Service}
    (hs : (convertTree options root).outcome = .ok s) :
    ∃ s', (convertTree options root').outcome = .ok s' ∧ s.plain = s'.plain ∧
      (convertTree options root).journal = (convertTree options root').journal ∧
      violationsIn (convertTree options root).journal =
        violationsIn (convertTree options root').journal := by
  obtain ⟨d, d', here, there, resembles⟩ := h.views place
  have reach := h.reach here there spares
  have items := h.sameItems place here there spares
  subst here there
  have hd : Description.ofNode d.root = .ok d := rfl
  have hd' : Description.ofNode d'.root = .ok d' := rfl
  have ha := admission_of_ok hd hs
  have ha' : admission options d'.root d' = .ok () :=
    admission_ok_iff.2 ⟨admits, resembles.checkVersion ▸ (admission_ok_iff.1 ha).2⟩
  rw [convertTree_admitted hd ha] at hs ⊢
  rw [convertTree_admitted hd' ha']
  obtain ⟨s', hs', plain, journal⟩ := service_resembles resembles reach items options s hs
  exact ⟨s', hs', plain, journal, by rw [journal]⟩

namespace Sample

/-- An extension, the value of which is no object. -/
def extension : Key × Node := (key "x-a" 198 198, leaf "1" 198 198)

/-- The operation with the extension. -/
def annotated : Object := ⟨operation.entries ++ [extension], operation.range⟩

/-- A path item with the operation. -/
def pathItem (operation : Object) : Object := ⟨[(key "get" 68 73, operation.node)], span 67 200⟩

/-- A path item that is the one below the first path. -/
def again : Object := ⟨[(key "$ref" 207 213, leaf "#/paths/~1" 214 226)], span 206 227⟩

/-- The component schemas of the sample description. -/
def schemas : Object := ⟨[(key "S" 254 257, .object [] (span 258 260))], span 253 261⟩

/-- A description with an operation, and with a second path that has the same one. -/
def shared (operation : Object) : Object :=
  ⟨heading ++ [(key "paths" 54 61, .object [(key "/" 63 66, (pathItem operation).node),
      (key "/b" 201 205, again.node)] (span 62 228)),
    (key "components" 229 241, .object [(key "schemas" 243 252, schemas.node)] (span 242 262))],
    span 0 263⟩

theorem extended_annotated : operation.Extended extension annotated where
  entries := rfl
  range := rfl
  marked := by decide
  fresh := by decide
  unrelated := by decide +kernel

theorem heading_beside_paths : ∀ entry ∈ heading, entry.1.name ≠ (key "paths" 54 61).name := by
  decide

theorem replaced_operation (new : Object) :
    Node.Replaced operation.node new.node ["paths", "/", "get"] (shared operation).node
      (shared new).node := by
  have item : Node.Replaced operation.node new.node [(key "get" 68 73).name]
      (.object ([] ++ [(key "get" 68 73, operation.node)]) (span 67 200))
      (.object ([] ++ [(key "get" 68 73, new.node)]) (span 67 200)) :=
    .under (List.forall_mem_nil _) .here
  have paths : Node.Replaced operation.node new.node [(key "/" 63 66).name, (key "get" 68 73).name]
      (.object ([] ++ [(key "/" 63 66, (pathItem operation).node), (key "/b" 201 205, again.node)])
        (span 62 228))
      (.object ([] ++ [(key "/" 63 66, (pathItem new).node), (key "/b" 201 205, again.node)])
        (span 62 228)) :=
    .under (List.forall_mem_nil _) item
  have whole : Node.Replaced operation.node new.node
      [(key "paths" 54 61).name, (key "/" 63 66).name, (key "get" 68 73).name]
      (shared operation).node (shared new).node := .under heading_beside_paths paths
  exact whole

/-- The second path item is a reference to the first one. -/
theorem pointer_again {pointer : String} (h : pointer ∈ again.node.pointers) :
    pointer = "#/paths/~1" := by
  have all : again.node.pointers = ["#/paths/~1"] := by cbv
  rwa [all, List.mem_singleton] at h

theorem stands {n : Node} (h : (Description.mk (shared operation)).StandsForItem n) :
    n = (pathItem operation).node ∨ n = again.node := by
  induction h with
  | @path paths path n hp hn =>
    have found : Description.paths ⟨shared operation⟩ = .ok (some
      ⟨[(key "/" 63 66, (pathItem operation).node), (key "/b" 201 205, again.node)],
        span 62 228⟩) := rfl
    cases found.symm.trans hp
    obtain ⟨entry, he, rfl⟩ := Option.map_eq_some_iff.1 hn
    rcases List.mem_pair.1 (List.mem_of_find?_eq_some he) with rfl | rfl
    · exact .inl rfl
    · exact .inr rfl
  | @target r pointer n _ hp hn ih =>
    have reference := Node.isReference_of_pointer hp
    -- the first path item is no reference, and the second one leads back to it
    rcases ih with same | same
    · rw [same] at reference
      cases reference
    · obtain rfl := pointer_again (same ▸ Node.pointer_mem_pointers (.refl _) hp)
      have found : (shared operation).node.resolve "#/paths/~1" =
          .ok (pathItem operation).node := by cbv
      exact .inl (Except.ok.inj (hn.symm.trans found))

/-- In what is read beside path items, only the component is referred to. -/
theorem pointers_read {n : Node} (h : (Description.mk (shared operation)).Reads n) :
    ∀ pointer ∈ n.pointers, pointer = "#/components/schemas/S" := by
  induction h with
  | item hs inPlace =>
    rcases stands hs with rfl | rfl
    · have all : (pathItem operation).node.pointers = ["#/components/schemas/S"] := by cbv
      rw [all]
      exact fun pointer hp => List.mem_singleton.1 hp
    · cases inPlace
  | schemas hs =>
    have found : Description.declaredSchemas ⟨shared operation⟩ = .ok (some schemas) := rfl
    cases found.symm.trans hs
    have none : schemas.node.pointers = [] := by cbv
    rw [none]
    exact List.forall_mem_nil _
  | schemes hs =>
    have none : Description.declaredSchemes ⟨shared operation⟩ = .ok none := rfl
    cases none.symm.trans hs
  | inside _ within ih => exact fun pointer hp => ih pointer (within.pointers_subset hp)
  | @target r pointer n _ hp hn ih =>
    obtain rfl := ih pointer (Node.pointer_mem_pointers (.refl _) hp)
    have found : (shared operation).node.resolve "#/components/schemas/S" =
        .ok (.object [] (span 258 260)) := by cbv
    cases found.symm.trans hn
    exact List.forall_mem_nil _

theorem spares : (shared operation).node.Spares ["paths", "/", "get"] extension.1.name where
  parts := by
    rintro ⟨o⟩ r pointer keys hd hr hp hk
    cases Object.node_injective hd
    obtain rfl := pointers_read hr pointer (Node.pointer_mem_pointers (.refl _) hp)
    have found : Pointer.keys "#/components/schemas/S" = .ok ["components", "schemas", "S"] := by
      decide +kernel
    cases found.symm.trans hk
    decide
  items := by
    rintro ⟨o⟩ r pointer keys hd hr hp hk
    cases Object.node_injective hd
    rcases stands hr with same | same
    · have reference := Node.isReference_of_pointer hp
      rw [same] at reference
      cases reference
    · obtain rfl := pointer_again (same ▸ Node.pointer_mem_pointers (.refl _) hp)
      have found : Pointer.keys "#/paths/~1" = .ok ["paths", "/"] := by decide +kernel
      cases found.symm.trans hk
      exact ⟨fun _ => .path "/", by decide⟩

end Sample

theorem convertTree_extended_operation :
    (convertTree Sample.checked (Sample.shared Sample.operation).node).outcome.isOk = true ∧
    Node.Extended Sample.extension ["paths", "/", "get"] (Sample.shared Sample.operation).node
      (Sample.shared Sample.annotated).node ∧
    ExtensionPlace Sample.extension.2 ["paths", "/", "get"] ∧
    (Sample.shared Sample.operation).node.Spares ["paths", "/", "get"] Sample.extension.1.name ∧
    Sample.checked.strict = true ∧
    Sample.checked.model.Admits (Sample.shared Sample.annotated).node ∧
    ∃ s s', (convertTree Sample.checked (Sample.shared Sample.operation).node).outcome = .ok s ∧
      (convertTree Sample.checked (Sample.shared Sample.annotated).node).outcome = .ok s' ∧
      s.plain = s'.plain ∧
      (convertTree Sample.checked (Sample.shared Sample.operation).node).journal =
        (convertTree Sample.checked (Sample.shared Sample.annotated).node).journal ∧
      violationsIn (convertTree Sample.checked (Sample.shared Sample.operation).node).journal =
        violationsIn (convertTree Sample.checked (Sample.shared Sample.annotated).node).journal := by
  have extended : Node.Extended Sample.extension ["paths", "/", "get"]
      (Sample.shared Sample.operation).node (Sample.shared Sample.annotated).node :=
    ⟨_, _, Sample.replaced_operation _, Sample.extended_annotated⟩
  have place : ExtensionPlace Sample.extension.2 (["paths", "/"] ++ ["get"]) :=
    .operation (.path "/") (by decide)
  have converts : (convertTree Sample.checked
      (Sample.shared Sample.operation).node).outcome.isOk = true := by cbv
  have admits : Sample.checked.model.Admits (Sample.shared Sample.annotated).node := by cbv
  refine ⟨converts, extended, place, Sample.spares, rfl, admits, ?_⟩
  cases ho : (convertTree Sample.checked (Sample.shared Sample.operation).node).outcome with
  | error e => rw [ho] at converts; cases converts
  | ok s =>
    obtain ⟨s', same⟩ :=
      convertTree_extended Sample.checked extended place Sample.spares (fun _ => admits) ho
    exact ⟨s, s', rfl, same⟩

/-! ## An extension that is read as a path item -/

namespace Sample

/-- A description with paths. -/
def withPaths (paths : Object) : Node :=
  .object (heading ++ [(key "paths" 54 61, paths.node)]) (span 0 65)

theorem replaced_paths (old new : Object) :
    Node.Replaced old.node new.node ["paths"] (withPaths old) (withPaths new) := by
  have whole : Node.Replaced old.node new.node [(key "paths" 54 61).name] (withPaths old)
      (withPaths new) := .under heading_beside_paths .here
  exact whole

end Sample

/-- A description without paths is converted, and with an extension among its paths that is no
object it is not. -/
theorem convertTree_extension_among_paths :
    ∃ paths paths' : Object, paths.Extended Sample.extension paths' ∧
      Node.Extended Sample.extension ["paths"] (Sample.withPaths paths) (Sample.withPaths paths') ∧
      (Sample.withPaths paths).Spares ["paths"] Sample.extension.1.name ∧
      (convertTree Sample.options (Sample.withPaths paths)).outcome.isOk = true ∧
      (convertTree Sample.options (Sample.withPaths paths')).outcome.isOk = false := by
  have extended : Object.Extended Sample.extension ⟨[], Sample.span 62 64⟩
      ⟨[Sample.extension], Sample.span 62 64⟩ := ⟨rfl, rfl, by decide, by decide, by decide +kernel⟩
  refine ⟨_, _, extended, ⟨_, _, Sample.replaced_paths _ _, extended⟩, ?_, by cbv, by cbv⟩
  refine Node.spares_of_pointers ?_
  have none : (Sample.withPaths ⟨[], Sample.span 62 64⟩).pointers = [] := by cbv
  rw [none]
  exact List.forall_mem_nil _

end ServiceModel

/-
The order of the component schemas does not matter for the interfaces. Where the entries of the
component schemas are brought into another order, a description is converted exactly if it was
before; interfaces and violations stay what they are, and so do the names of what is defined.

The pass over the interfaces reaches a component by its name, unless a reference leads to the
components as a whole. The pass over the components goes through them one by one, each under
guards of its own, so that it records the same in another order.
-/
import ServiceModel.Proofs.Conversion.Reach
import ServiceModel.Proofs.Document.Replace
import ServiceModel.Proofs.Document.Members
import ServiceModel.Proofs.Interfaces.Reach
import ServiceModel.Proofs.Interfaces.Reports
import ServiceModel.Proofs.Service.Fold

namespace ServiceModel

open Service OpenApi

/-! ## Computations in another order -/

namespace Build

variable {α β : Type}

/-- What is computed for each member of a list is computed in any order of the list. -/
theorem mapM_of_forall₂ {f : α → Build β} {xs : List α} {ys : List β}
    (h : List.Forall₂ (fun x y => (f x).outcome = .ok y) xs ys) :
    (xs.mapM f).outcome = .ok ys ∧ (xs.mapM f).journal = xs.flatMap fun x => (f x).journal := by
  induction h with
  | nil => exact ⟨rfl, rfl⟩
  | cons hx _ ih =>
    obtain ⟨ho, hj⟩ := ih
    rw [List.mapM_cons, bind_eq, hx]
    dsimp only
    rw [bind_eq, ho]
    dsimp only
    rw [hj, List.flatMap_cons, pure_eq, List.append_nil]
    exact ⟨rfl, rfl⟩

theorem mapM_perm {f : α → Build β} {xs xs' : List α} (hp : xs.Perm xs') {ys : List β}
    (h : (xs.mapM f).outcome = .ok ys) :
    ∃ ys', (xs'.mapM f).outcome = .ok ys' ∧ ys.Perm ys' ∧
      (xs.mapM f).journal.Perm (xs'.mapM f).journal := by
  have each := mapM_forall₂ h
  obtain ⟨ys', each', perm⟩ := List.perm_comp_forall₂ hp.symm each
  obtain ⟨ho, hj⟩ := mapM_of_forall₂ each'
  refine ⟨ys', ho, perm.symm, ?_⟩
  rw [hj, (mapM_of_forall₂ each).2]
  exact hp.flatMap_right _

end Build

/-- What a computation of a list comes to, it comes to in another order, with the same records in
another order. -/
def Build.Permuted {α : Type} (x x' : Build (List α)) : Prop :=
  ∀ ys, x.outcome = .ok ys →
    ∃ ys', x'.outcome = .ok ys' ∧ ys.Perm ys' ∧ x.journal.Perm x'.journal

/-- The members that are there. -/
def kept {α : Type} (x : Build (List (Option α))) : Build (List α) := do
  return (← x).filterMap id

theorem Build.Permuted.kept {α β : Type} {f : α → Build (Option β)} {xs xs' : List α}
    (h : xs.Perm xs') : (kept (xs.mapM f)).Permuted (kept (xs'.mapM f)) := by
  intro ys hy
  obtain ⟨found, hf, hy, hj⟩ := bind_ok hy
  cases pure_ok hy
  obtain ⟨found', hf', perm, records⟩ := mapM_perm h hf
  refine ⟨found'.filterMap id, ?_, perm.filterMap _, ?_⟩
  · rw [ServiceModel.kept, outcome_bind hf']
    rfl
  · rw [ServiceModel.kept, ServiceModel.kept, hj, bind_eq, hf']
    simpa [pure_eq] using records

/-- The components, which have different names, are gone through one by one. -/
theorem componentTypes_of_distinct {d : Description} {guards : Guards} {components : Components}
    {schemas : Object} (hc : d.components = .ok (some components))
    (hs : components.schemas = .ok (some schemas)) (distinct : schemas.keys.Nodup) :
    d.componentTypes guards = kept (schemas.keys.mapM (d.componentType guards schemas)) := by
  have keys : schemas.distinctKeys = schemas.keys := eraseDups_eq_self distinct
  unfold Description.componentTypes
  rw [hc]
  refine (Build.read_ok_bind _ _).trans ?_
  dsimp only
  rw [hs]
  refine (Build.read_ok_bind _ _).trans ?_
  dsimp only
  rw [keys]
  rfl

/-! ## Documents with reordered components -/

/-- The second document is the first one with the entries of the component schemas, which all have
different names, in another order. -/
structure Reordered (schemas schemas' : Object) (root root' : Node) : Prop where
  replaced : Node.Replaced schemas.node schemas'.node ["components", "schemas"] root root'
  distinct : schemas.keys.Nodup
  entries : schemas.entries.Perm schemas'.entries
  range : schemas.range = schemas'.range

/-- The pointers to the component schemas as a whole, and to what they stand in. -/
def wholePointers : List String := ["#", "#/components", "#/components/schemas"]

/-- No reference of the document leads to the component schemas as a whole. -/
def Node.AvoidsWhole (root : Node) : Prop :=
  ∀ (r : Reference) (pointer : String), r.object.node.Within root → r.pointer = .ok pointer →
    pointer ∉ wholePointers

/-- It is enough to go through the pointers of the document. -/
theorem Node.avoidsWhole_of_pointers {root : Node}
    (h : ∀ pointer ∈ root.pointers, pointer ∉ wholePointers) : root.AvoidsWhole := by
  intro r pointer hr hp
  exact h pointer (Node.pointer_mem_pointers hr hp)

/-- A pointer that ends on the way to the component schemas is one of three. -/
theorem mem_wholePointers {pointer : String} {keys : List String}
    (hk : Pointer.keys pointer = .ok keys) (h : keys <+: ["components", "schemas"]) :
    pointer ∈ wholePointers := by
  have plain : ∀ name ∈ keys, Pointer.Plain name := by
    have all : ∀ name ∈ ["components", "schemas"], Pointer.Plain name := by decide
    exact fun name hn => all name (h.subset hn)
  have text : keys ≠ [] →
      pointer = String.ofList ('#' :: '/' :: Text.join '/' (keys.map String.toList)) := by
    intro some
    rw [← Pointer.eq_of_keys hk some plain, String.ofList_toList]
  obtain ⟨rest, same⟩ := h
  match keys, same, hk, text with
  | [], _, hk, _ => rw [Pointer.eq_of_no_keys hk]; decide
  | [_], same, _, text =>
    cases same
    rw [text (by decide)]
    decide
  | [_, _], same, _, text =>
    cases same
    rw [text (by decide)]
    decide
  | _ :: _ :: _ :: _, same, _, _ => cases same

namespace Reordered

variable {schemas schemas' : Object} {root root' : Node} (h : Reordered schemas schemas' root root')

include h

theorem sameUnder (name : String) : Object.SameUnder name schemas schemas' :=
  find?_perm h.entries h.distinct name

/-- The order of the components is of no account to a model that ignores the order of members. -/
theorem admits {model : LanguageModel} (ignores : model.IgnoresOrder) :
    model.Admits root ↔ model.Admits root' :=
  ignores (h.replaced.rearranged (Node.rearranged_of_perm h.entries h.distinct))

/-- Everything that a reference reaches is reached in both documents. -/
theorem reach (avoids : root.AvoidsWhole) : root.SameReach root' (·.Within root) where
  closed := root.closed_within
  entryAt := by
    intro r pointer hr hp
    refine h.replaced.entryAt (fun keys hk beside => ?_) fun keys name rest _ _ => h.sameUnder name
    exact avoids r pointer hr hp (mem_wholePointers hk beside)

end Reordered

/-- Descriptions of documents with reordered components: they differ in nothing but their
components, and these in nothing but their schemas. -/
structure ReorderedViews (schemas schemas' components components' : Object) (d d' : Description) :
    Prop where
  order : Reordered schemas schemas' d.root d'.root
  top : Object.Differ "components" components.node components'.node d.object d'.object
  inner : Object.Differ "schemas" schemas.node schemas'.node components components'

theorem Reordered.views {schemas schemas' : Object} {root root' : Node}
    (h : Reordered schemas schemas' root root') :
    ∃ components components' d d', ReorderedViews schemas schemas' components components' d d' ∧
      Description.ofNode root = .ok d ∧ Description.ofNode root' = .ok d' := by
  obtain ⟨o, o', _, _, rfl, rfl, top, way⟩ := h.replaced.first
  obtain ⟨c, c', _, _, rfl, rfl, inner, way⟩ := way.first
  obtain ⟨same, same'⟩ := way.eq_of_nil
  subst same same'
  exact ⟨c, c', ⟨o⟩, ⟨o'⟩, ⟨h, top, inner⟩, rfl, rfl⟩

namespace ReorderedViews

variable {schemas schemas' components components' : Object} {d d' : Description} {guards : Guards}
  (h : ReorderedViews schemas schemas' components components' d d')

include h

theorem components_ok : d.components = .ok (some ⟨components⟩) ∧
    d'.components = .ok (some ⟨components'⟩) :=
  ⟨Object.child_of_value? h.top.found rfl, Object.child_of_value? h.top.found' rfl⟩

theorem schemas_ok : Components.schemas ⟨components⟩ = .ok (some schemas) ∧
    Components.schemas ⟨components'⟩ = .ok (some schemas') :=
  ⟨Object.child_of_value? h.inner.found rfl, Object.child_of_value? h.inner.found' rfl⟩

theorem offers (avoids : d.root.AvoidsWhole) : d.Offers d' (·.Within d.root) where
  reach := h.order.reach avoids
  security := (h.top.others _ (by decide)).array _
  tags := by
    unfold Description.tags
    rw [(h.top.others _ (by decide)).array]
  schemes := by
    refine (h.order.reach avoids).schemeUnder ?_ fun _ => Description.within_declaredSchemes
    -- the schemes stand beside the schemas
    have schemes : Components.securitySchemes ⟨components⟩ =
        Components.securitySchemes ⟨components'⟩ := (h.inner.others _ (by decide)).index
    unfold Description.declaredSchemes
    rw [h.components_ok.1, h.components_ok.2]
    exact schemes

/-! ## The components one by one -/

theorem componentType (avoids : d.root.AvoidsWhole) :
    d.componentType guards schemas = d'.componentType guards schemas' :=
  (h.order.reach avoids).componentType h.order.replaced.within h.order.sameUnder

theorem componentTypes_eq : d.componentTypes guards =
    kept (schemas.keys.mapM (d.componentType guards schemas)) :=
  componentTypes_of_distinct h.components_ok.1 h.schemas_ok.1 h.order.distinct

theorem componentTypes_eq' : d'.componentTypes guards =
    kept (schemas'.keys.mapM (d'.componentType guards schemas')) :=
  componentTypes_of_distinct h.components_ok.2 h.schemas_ok.2
    ((h.order.entries.map _).nodup_iff.1 h.order.distinct)

/-- The pass over the components comes to the same in another order. -/
theorem componentTypes (guards : Guards) (avoids : d.root.AvoidsWhole) :
    (d.componentTypes guards).Permuted (d'.componentTypes guards) ∧
      (d'.componentTypes guards).Permuted (d.componentTypes guards) := by
  have keys : schemas.keys.Perm schemas'.keys := h.order.entries.map _
  rw [h.componentTypes_eq, h.componentTypes_eq', ← h.componentType avoids]
  exact ⟨.kept keys, .kept keys.symm⟩

theorem interfacesOf (guards : Guards) (avoids : d.root.AvoidsWhole) :
    OpenApi.interfacesOf d guards = OpenApi.interfacesOf d' guards :=
  offers_interfacesOf (h.offers avoids) (h.top.others _ (by decide)).index fun _ hp =>
    (View.index_below hp).within

end ReorderedViews

/-! ## Services -/

/-- Services that agree on everything but what is defined, and in the names of what is defined. -/
structure Service.SameOutline (s s' : Service) : Prop where
  sourcePath : s.sourcePath = s'.sourcePath
  title : s.title = s'.title
  majorVersion : s.majorVersion = s'.majorVersion
  interfaces : s.interfaces = s'.interfaces
  types : ∀ n, n ∈ s.types.map (·.name.value) ↔ n ∈ s'.types.map (·.name.value)
  enums : ∀ n, n ∈ s.enums.map (·.name.value) ↔ n ∈ s'.enums.map (·.name.value)
  unions : ∀ n, n ∈ s.unions.map (·.name.value) ↔ n ∈ s'.unions.map (·.name.value)
  loc : s.loc = s'.loc
  metadata : s.metadata = s'.metadata

/-- Definitions that are brought into another order are kept under the same names. -/
theorem names_fold_perm {α : Type} {name : α → String} {items items' : List α}
    (h : items.Perm items') (n : String) :
    n ∈ (foldByName name items).map name ↔ n ∈ (foldByName name items').map name := by
  rw [mem_names_foldByName, mem_names_foldByName]
  exact (h.map name).mem_iff

/-- A description that is converted, beside one with the same interfaces and with components that
come in another order. -/
theorem service_reordered {options : Options} {d d' : Description}
    (interfaces : interfacesOf d (.none options.limit) = interfacesOf d' (.none options.limit))
    (components : (d.componentTypes (.none options.limit)).Permuted
      (d'.componentTypes (.none options.limit)))
    (title : d.titleAndMajor = d'.titleAndMajor) (loc : d.object.loc = d'.object.loc)
    (metadata : d.object.metadata = d'.object.metadata) {s : Service}
    (hs : (d.service options).outcome = .ok s) :
    ∃ s', (d'.service options).outcome = .ok s' ∧ s.SameOutline s' ∧
      violationsIn (d.service options).journal = violationsIn (d'.service options).journal := by
  obtain ⟨⟨⟨found, types⟩, journal⟩, hp, hrest, -⟩ := Build.bind_ok hs
  obtain ⟨hp, hj⟩ := Build.listen_ok hp
  obtain ⟨⟨name, major⟩, ht, hrest⟩ := Build.lift_bind_ok hrest
  obtain ⟨hi, hc⟩ := Description.passes_ok hp
  -- the first pass is the same; what the second one records comes in another order behind it
  obtain ⟨types', hc', perm, records⟩ := components types hc
  have passes : (d'.passes (.none options.limit)).outcome = .ok (found, types') := by
    unfold Description.passes
    rw [Build.outcome_bind (interfaces ▸ hi), Build.outcome_bind hc']
    rfl
  have journals' := Description.passes_journal passes
  have same : (d.passes (.none options.limit)).journal.Perm
      (d'.passes (.none options.limit)).journal := by
    rw [Description.passes_journal hp, journals', interfaces]
    exact records.append_left _
  have hs' := service_of_passes passes (title ▸ ht)
  refine ⟨_, hs', ?_, ?_⟩
  · cases Build.pure_ok hrest
    subst hj
    exact {
      sourcePath := rfl
      title := rfl
      majorVersion := rfl
      interfaces := rfl
      types := names_fold_perm (perm.append (same.filterMap _))
      enums := names_fold_perm (same.filterMap _)
      unions := names_fold_perm (same.filterMap _)
      loc := congrArg some loc
      metadata := metadata }
  · rw [Description.service_journal hs, Description.service_journal hs', violationsIn_append,
      violationsIn_append, interfaces, silent_componentTypes _ hc, silent_componentTypes _ hc']

/-- The order of the component schemas is of no account: with the entries in another order a
description is converted if and only if it was before, to a service with the same interfaces, the
same violations and the same names of what is defined. Where descriptions are checked against a
model of their language, it must not look at the order of members. -/
theorem convertTree_reordered (options : Options) {schemas schemas' : Object} {root root' : Node}
    (h : Reordered schemas schemas' root root') (avoids : root.AvoidsWhole)
    (ignores : options.strict = true → options.model.IgnoresOrder) :
    ((∃ s, (convertTree options root).outcome = .ok s) ↔
      ∃ s', (convertTree options root').outcome = .ok s') ∧
    ∀ s s', (convertTree options root).outcome = .ok s →
      (convertTree options root').outcome = .ok s' → s.SameOutline s' ∧
        violationsIn (convertTree options root).journal =
          violationsIn (convertTree options root').journal := by
  obtain ⟨components, components', d, d', views, hd, hd'⟩ := h.views
  have here : d.root = root := View.reads_description root d hd
  have there : d'.root = root' := View.reads_description root' d' hd'
  subst here there
  have admitted : admission options d.root d = .ok () ↔ admission options d'.root d' = .ok () := by
    rw [admission_ok_iff, admission_ok_iff, views.top.checkVersion (by decide)]
    exact and_congr_left' (forall_congr' fun strict => h.admits (ignores strict))
  have interfaces := views.interfacesOf (.none options.limit) avoids
  obtain ⟨forth, back⟩ := views.componentTypes (.none options.limit) avoids
  have title := views.top.titleAndMajor (by decide)
  have loc : d.object.loc = d'.object.loc := by rw [Object.loc, Object.loc, views.top.range]
  have metadata := views.top.metadata (by decide)
  refine ⟨⟨?_, ?_⟩, fun s s' hs hs' => ?_⟩
  · rintro ⟨s, hs⟩
    have ha := admission_of_ok hd hs
    rw [convertTree_admitted hd ha] at hs
    obtain ⟨s', hs', -⟩ := service_reordered interfaces forth title loc metadata hs
    exact ⟨s', by rwa [convertTree_admitted hd' (admitted.1 ha)]⟩
  · rintro ⟨s', hs'⟩
    have ha := admission_of_ok hd' hs'
    rw [convertTree_admitted hd' ha] at hs'
    obtain ⟨s, hs, -⟩ :=
      service_reordered interfaces.symm back title.symm loc.symm metadata.symm hs'
    exact ⟨s, by rwa [convertTree_admitted hd (admitted.2 ha)]⟩
  · have ha := admission_of_ok hd hs
    rw [convertTree_admitted hd ha] at hs ⊢
    rw [convertTree_admitted hd' (admitted.1 ha)] at hs' ⊢
    obtain ⟨t, ht, outline, violations⟩ :=
      service_reordered interfaces forth title loc metadata hs
    cases Except.ok.inj (hs'.symm.trans ht)
    exact ⟨outline, violations⟩

namespace Sample

/-- A component without anything in it. -/
def emptySchema (name : String) : Key × Node := (⟨name, default⟩, .object [] default)

/-- What the sample description has beside its components. -/
def outline : List (Key × Node) :=
  heading ++ [(key "paths" 54 61, .object [(key "/" 63 66,
    .object [(key "get" 68 73, operation.node)] (span 67 200))] (span 62 201))]

/-- The sample description with other component schemas. -/
def described (schemas : Object) : Node :=
  .object (outline ++ [(key "components" 202 214,
    .object [(key "schemas" 216 225, schemas.node)] (span 215 242))]) (span 0 243)

def forth : Object := ⟨[emptySchema "S", emptySchema "R"], span 226 241⟩

def back : Object := ⟨[emptySchema "R", emptySchema "S"], span 226 241⟩

theorem reordered : Reordered forth back (described forth) (described back) where
  replaced := by
    let top := key "components" 202 214
    let inner := key "schemas" 216 225
    have beside : ∀ entry ∈ outline, entry.1.name ≠ top.name := by decide
    have below : Node.Replaced forth.node back.node [inner.name]
        (.object ([] ++ [(inner, forth.node)]) (span 215 242))
        (.object ([] ++ [(inner, back.node)]) (span 215 242)) :=
      .under (List.forall_mem_nil _) .here
    have whole : Node.Replaced forth.node back.node [top.name, inner.name]
        (described forth) (described back) := .under beside below
    exact whole
  distinct := by decide
  entries := .swap _ _ _
  range := rfl

theorem avoids : (described forth).AvoidsWhole := by
  refine Node.avoidsWhole_of_pointers ?_
  have all : (described forth).pointers = ["#/components/schemas/S"] := by cbv
  rw [all]
  decide

end Sample

theorem convertTree_reordered_swapped :
    Reordered Sample.forth Sample.back (Sample.described Sample.forth)
      (Sample.described Sample.back) ∧ (Sample.described Sample.forth).AvoidsWhole ∧
    Sample.checked.strict = true ∧ Sample.checked.model.IgnoresOrder ∧
    (convertTree Sample.checked (Sample.described Sample.forth)).outcome.isOk = true ∧
    ((∃ s, (convertTree Sample.checked (Sample.described Sample.forth)).outcome = .ok s) ↔
      ∃ s', (convertTree Sample.checked (Sample.described Sample.back)).outcome = .ok s') ∧
    ∀ s s', (convertTree Sample.checked (Sample.described Sample.forth)).outcome = .ok s →
      (convertTree Sample.checked (Sample.described Sample.back)).outcome = .ok s' →
      s.SameOutline s' ∧
        violationsIn (convertTree Sample.checked (Sample.described Sample.forth)).journal =
          violationsIn (convertTree Sample.checked (Sample.described Sample.back)).journal :=
  ⟨Sample.reordered, Sample.avoids, rfl, LanguageModel.outline_ignoresOrder, by cbv,
    convertTree_reordered Sample.checked Sample.reordered Sample.avoids fun _ =>
      LanguageModel.outline_ignoresOrder⟩

end ServiceModel

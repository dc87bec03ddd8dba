/-
Conversions of two documents side by side. Both come to services that are alike, or both fail: the
interfaces are built alike, and then the types of the components; what both passes record is alike,
and so is what is kept of it for every name.
-/
import ServiceModel.Proofs.Conversion.Outcome
import ServiceModel.Proofs.Interfaces.Pairing

namespace ServiceModel

open Service OpenApi

namespace Parallel

open Likeness

section

variable {d d' : Description} {p : Parallel d.root d'.root}

/-! ## Components -/

/-- A component is entered under the pointer that leads to it. -/
theorem keys_ofSchemaName (name : String) :
    p.Keys (Pointer.ofSchemaName name) (Pointer.ofSchemaName name) := by
  refine .pointer ?_
  rw [Pointer.ofSchemaName, String.toList_append]
  rfl

theorem componentType {schemas schemas' : Object} (h : p.Objects schemas schemas')
    (name : String) :
    p.Builds (Option.Rel (TypeDef.Alike p.spans)) (d.componentType (.none p.limit) schemas name)
      (d'.componentType (.none p.limit) schemas' name) := by
  have read : p.Agree (Option.Rel (p.Sources p.Schemas))
      (schemas.readEntry name SchemaOrReference.ofNode)
      (schemas'.readEntry name SchemaOrReference.ofNode) := child h fun _ _ => schemaOrReference
  refine .lift_bind read fun found found' hf _ hs => ?_
  cases hs with
  | none => exact .pure .none
  | some hs =>
    -- nothing is held yet, and the pointer of the component need not be one of the document
    have entered := enter (guarded_none (p := p) (Pointer.ofSchemaName name)) (keys_ofSchemaName name)
      List.mem_cons_self List.mem_cons_self
    refine .lift_bind entered fun inner inner' _ _ hg => ?_
    refine .lift_bind (resolveSchema hs) fun s s' _ _ ht => ?_
    cases ht with
    | object ht =>
      refine .bind (propertiesOf_agrees hg ht name) fun ps ps' hps => ?_
      refine .bind (.record .component) fun _ _ _ => .pure (.some ?_)
      exact ⟨⟨rfl, keyLoc? h name⟩, locatedText? (text? ht _), hps, objectRules ht,
        known_entry h (Object.has_of_child hf), metadata ht⟩
    | _ => exact .pure .none

theorem componentTypes (p : Parallel d.root d'.root) :
    p.Builds (List.Forall₂ (TypeDef.Alike p.spans)) (d.componentTypes (.none p.limit))
      (d'.componentTypes (.none p.limit)) := by
  refine .lift_bind p.components fun found found' _ _ hc => ?_
  cases hc with
  | none => exact .pure .nil
  | some hc =>
    refine .lift_bind (index hc "schemas") fun found found' _ _ hs => ?_
    cases hs with
    | none => exact .pure .nil
    | some hs =>
      dsimp only
      rw [distinctKeys_eq hs]
      refine .bind (.mapM (List.forall₂_same.2 fun name _ => componentType hs name)) ?_
      exact fun types types' ht => .pure (forall₂_filterMap_id ht)

/-! ## Services -/

theorem titleAndMajor (p : Parallel d.root d'.root) :
    p.Agree (fun r r' => Located.Alike p.spans r.1 r'.1 ∧ Located.Alike p.spans r.2 r'.2)
      d.titleAndMajor d'.titleAndMajor := by
  have declared : p.Agree (Option.Rel p.Views) (d.object.child "info" Info.ofNode)
      (d'.object.child "info" Info.ofNode) :=
    child p.roots fun _ _ hn => view hn _ fun _ _ ho => ho
  have info : p.Agree p.Views d.info d'.info := by
    refine declared.bind fun found found' _ _ hf => ?_
    cases hf with
    | none => exact p.fails_both trivial trivial
    | some hf => exact .ok hf
  refine info.bind fun i i' _ _ hi => ?_
  have hi : p.Objects i.object i'.object := hi
  have version : p.Agree p.Literals i.version i'.version := by
    have hl := literal? hi "version"
    unfold Info.version
    generalize i.object.literal? "version" = l, i'.object.literal? "version" = l' at hl ⊢
    cases hl with
    | none => exact p.fails_both trivial trivial
    | some hl => exact .ok hl
  refine version.bind fun l l' _ _ hl => ?_
  rw [value_eq hl]
  split
  · exact p.fails_both trivial trivial
  · refine (requireText hi "title" "info").map fun title title' ht => ⟨?_, ?_⟩
    · exact ⟨congrArg Naming.pascal (text_eq ht), .some (literal_span ht)⟩
    · exact ⟨rfl, .some (literal_span hl)⟩

theorem passes (p : Parallel d.root d'.root) :
    p.Builds (fun r r' => List.Forall₂ (Interface.Alike p.spans) r.1 r'.1 ∧
        List.Forall₂ (TypeDef.Alike p.spans) r.2 r'.2)
      (d.passes (.none p.limit)) (d'.passes (.none p.limit)) := by
  refine .bind (interfacesOf (guarded_none (p := p) "")) fun is is' hi => ?_
  exact .bind p.componentTypes fun ts ts' ht => .pure ⟨hi, ht⟩

theorem service (p : Parallel d.root d'.root) {options : Options} (hl : options.limit = p.limit) :
    p.Builds (Service.Alike p.spans) (d.service options) (d'.service options) := by
  have listened := p.passes.listen
  rw [← hl] at listened
  refine .bind listened ?_
  rintro ⟨⟨is, ts⟩, journal⟩ ⟨⟨is', ts'⟩, journal'⟩ ⟨⟨hi, ht⟩, hj⟩
  refine .lift_bind p.titleAndMajor ?_
  rintro ⟨title, major⟩ ⟨title', major'⟩ - - ⟨htitle, hmajor⟩
  refine .pure ?_
  exact {
    sourcePath := rfl
    title := htitle
    majorVersion := hmajor
    interfaces := hi
    types := foldByName_alike (fun _ _ h => h.name.value) (List.rel_append ht (types_alike hj))
    enums := foldByName_alike (fun _ _ h => h.name.value) (enums_alike hj)
    unions := foldByName_alike (fun _ _ h => h.name.value) (unions_alike hj)
    loc := .of_some (object_span p.roots)
    metadata := metadata p.roots }

end

/-! ## Trees -/

section

variable {root root' : Node} (p : Parallel root root')

theorem check (model : LanguageModel) (plain : root.toJson = root'.toJson) (source : String) :
    p.Agree (fun _ _ => True) (model.check source root) (model.check source root') := by
  have ho := object? p.roots
  unfold LanguageModel.check
  rw [plain]
  generalize root.object? = o, root'.object? = o' at ho ⊢
  cases ho with
  | none => exact p.fails_both trivial trivial
  | some _ =>
    dsimp only [Option.isSome_some, Bool.not_true]
    split
    · exact p.fails_both trivial trivial
    · split
      · exact .ok trivial
      · exact p.fails_both trivial trivial

variable {p}

theorem checkVersion {d d' : Description} (h : p.Objects d.object d'.object) :
    p.Agree (fun _ _ => True) d.checkVersion d'.checkVersion := by
  have version : p.Agree Eq d.languageVersion d'.languageVersion := by
    have hl := literal? h "openapi"
    unfold Description.languageVersion Description.openapi?
    generalize d.object.literal? "openapi" = l, d'.object.literal? "openapi" = l' at hl ⊢
    cases hl with
    | none => exact p.fails_both trivial trivial
    | @some l l' hl =>
      have same := value_eq hl
      obtain ⟨value, range⟩ := l
      obtain ⟨value', range'⟩ := l'
      cases same
      cases value with
      | text version =>
        dsimp only
        split
        · exact p.fails_both trivial trivial
        · exact .ok rfl
      | _ => exact p.fails_both trivial trivial
  refine version.bind fun version version' _ _ same => ?_
  subst same
  split
  · split
    · exact .ok trivial
    · exact p.fails_both trivial trivial
  · exact p.fails_both trivial trivial

theorem descriptionOfTree (p : Parallel root root') {options : Options}
    (plain : options.strict = true → root.toJson = root'.toJson) :
    p.Agree (fun d d' => p.Objects d.object d'.object)
      (ServiceModel.descriptionOfTree options root)
      (ServiceModel.descriptionOfTree options root') := by
  have read : p.Agree (fun d d' => p.Objects d.object d'.object)
      (do
        let d ← Description.ofNode root
        d.checkVersion
        return d)
      (do
        let d ← Description.ofNode root'
        d.checkVersion
        return d) := by
    have made : p.Agree (fun d d' => p.Objects d.object d'.object) (Description.ofNode root)
        (Description.ofNode root') := view p.roots _ fun _ _ ho => ho
    refine made.bind fun d d' _ _ hd => ?_
    exact (checkVersion hd).bind fun _ _ _ _ _ => .ok hd
  unfold ServiceModel.descriptionOfTree
  split
  · rename_i strict
    exact (p.check _ (plain strict) _).bind fun _ _ _ _ _ => read
  · exact read

/-- Parallel documents are converted alike, unless they are checked against the language and have
different plain values. -/
theorem convertTree (p : Parallel root root') {options : Options} (hl : options.limit = p.limit)
    (plain : options.strict = true → root.toJson = root'.toJson) :
    p.Builds (Service.Alike p.spans) (ServiceModel.convertTree options root)
      (ServiceModel.convertTree options root') := by
  refine .lift_bind (p.descriptionOfTree plain) fun d d' hd hd' _ => ?_
  obtain rfl := View.reads_description root d (descriptionOfTree_ok hd)
  obtain rfl := View.reads_description root' d' (descriptionOfTree_ok hd')
  exact p.service hl

end

end Parallel

namespace Pairing

variable {root root' : Node} (p : Pairing root root')

theorem descriptionOfTree (options : Options) :
    p.Agree (fun d d' => p.Objects d.object d'.object)
      (ServiceModel.descriptionOfTree options root)
      (ServiceModel.descriptionOfTree options root') :=
  p.toParallel.descriptionOfTree fun _ => p.plain

theorem convertTree {options : Options} (hl : options.limit = p.limit) :
    p.Builds (Service.Alike p.spans) (ServiceModel.convertTree options root)
      (ServiceModel.convertTree options root') :=
  p.toParallel.convertTree hl fun _ => p.plain

end Pairing

end ServiceModel

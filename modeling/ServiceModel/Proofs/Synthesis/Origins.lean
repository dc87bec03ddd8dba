/-
What definitions are made of. Each type, enum and union that the synthesis records is made of one
schema of the document; the schema and the name tell what it is, and for a union the names of its
place as well. So two of them that are made of schemas with the same content, under the same name,
are the same but for their spans, wherever in the document the schemas stand.
-/
import ServiceModel.Proofs.Service.Erased
import ServiceModel.Proofs.Synthesis.Settled
import ServiceModel.Proofs.Synthesis.Twins

namespace ServiceModel

open Service

/-! ## Definitions and their schemas -/

namespace Service

/-- The type has what an object schema of the document says, with its own name as the parent of
its properties. -/
structure TypeDef.MadeOf (root : Node) (t : TypeDef) (s : ObjectSchema) : Prop where
  within : s.object.node.Within root
  description : t.description = s.description?.map Literal.locatedText
  properties : ∃ guards, (propertiesOf root guards s t.name.value []).outcome = .ok t.properties
  rules : t.rules = s.rules

/-- The enum has the values that a schema of the document lists. -/
structure EnumDef.MadeOf (root : Node) (e : EnumDef) (s : StringSchema) : Prop where
  within : s.object.node.Within root
  values : ∃ values, s.enum = .ok (some values) ∧ e = s.enumDef e.name values

/-- The union has the alternatives of a schema of the document, at a place with these names. -/
structure UnionDef.MadeOf (root : Node) (u : UnionDef) (s : ObjectSchema) (name parent : String) :
    Prop where
  within : s.object.node.Within root
  named : u.name = ⟨Naming.ofShape parent name, none⟩
  members : ∃ guards members, s.oneOf = .ok (some members) ∧
    (usesOf root guards members name parent).outcome = .ok u.members
  metadata : u.metadata = s.object.metadata

end Service

/-- What is recorded is made of a schema of the document. A type in place has no metadata. -/
def Entry.Made (root : Node) : Entry → Prop
  | .type t => t.metadata = none ∧ ∃ s, t.MadeOf root s
  | .enum e => ∃ s, e.MadeOf root s
  | .union u => ∃ s name parent, u.MadeOf root s name parent
  | _ => True

/-- Definitions are recorded as they are made of schemas of the document. -/
theorem constructs_made (root : Node) :
    Constructs root (fun _ _ => True) (fun _ _ => True) (fun _ => True) (Entry.Made root)
      (fun _ => True) where
  shape _ := trivial
  branch _ _ _ _ := trivial
  property _ _ _ _ := trivial
  primitive _ _ := trivial
  loose _ _ := trivial
  component _ _ _ _ := trivial
  recorded _ _ _ := trivial
  renewed _ := trivial
  enum within listed _ := ⟨_, within, _, listed, rfl⟩
  type within _ properties _ := ⟨rfl, _, within, rfl, ⟨_, properties⟩, rfl⟩
  union within _ members uses _ := ⟨_, _, _, within, rfl, ⟨_, _, members, uses⟩, rfl⟩

/-! ## Schemas with the same content -/

namespace Service

/-- The type without its spans and its metadata. -/
def TypeDef.content (t : TypeDef) : TypeDef := { t.erased with metadata := none }

theorem TypeDef.content_of_plain {t : TypeDef} (plain : t.metadata = none) :
    t.content = t.erased := by
  rw [content, erased, plain]
  rfl

variable {root : Node}

/-- Types of one name are the same, but for metadata, if their schemas have the same content. -/
theorem TypeDef.MadeOf.same {t t' : TypeDef} {s s' : ObjectSchema} (h : t.MadeOf root s)
    (h' : t'.MadeOf root s') (bare : s.object.node.bare = s'.object.node.bare)
    (name : t.name.value = t'.name.value) : t.content = t'.content := by
  let p := Likeness.twins root
  have views : p.Views s s' := ⟨bare, h.within, h'.within⟩
  obtain ⟨g, hp⟩ := h.properties
  obtain ⟨g', hp'⟩ := h'.properties
  have answers : p.concurrence.Answered (.properties g s t.name.value [])
      (.properties g' s' t.name.value []) := p.concurrence.answered (.properties trivial views .nil)
  have members := (answers _ _ hp (name ▸ hp')).1
  have description : t.description.map Located.erased = t'.description.map Located.erased := by
    rw [h.description, h'.description]
    exact rel_map_eq (fun _ _ (hl : Located.Alike _ _ _) => hl.erased)
      (Likeness.locatedText? (Likeness.text? views "description"))
  have rules := map_eq_of_forall₂ (Likeness.objectRules views) fun r r'
    (hr : ObjectRule.Alike p.spans r r') => hr.erased
  rw [content, content, erased, erased, Located.erased, Located.erased, name, description,
    map_eq_of_forall₂ members fun m m' (hm : Member.Alike p.spans m m') => hm.erased, h.rules,
    h'.rules, rules]

/-- Enums of one name are the same if their schemas have the same content. -/
theorem EnumDef.MadeOf.same {e e' : EnumDef} {s s' : StringSchema} (h : e.MadeOf root s)
    (h' : e'.MadeOf root s') (bare : s.object.node.bare = s'.object.node.bare)
    (name : e.name.value = e'.name.value) : e.erased = e'.erased := by
  let p := Likeness.twins root
  have views : p.Views s s' := ⟨bare, h.within, h'.within⟩
  obtain ⟨values, hl, same⟩ := h.values
  obtain ⟨values', hl', same'⟩ := h'.values
  obtain ⟨found, hf, alike⟩ := (Likeness.enum views).of_ok hl
  cases hl'.symm.trans hf
  cases alike with
  | some alike =>
    have listed : List.Forall₂ (EnumValue.Alike p.spans) e.values e'.values := by
      rw [same, same']
      exact List.rel_map (fun _ _ hv => ⟨Likeness.located hv, .of_some (Likeness.literal_span hv)⟩)
        (Likeness.distinctLiterals alike.1)
    rw [erased, erased, Located.erased, Located.erased, name,
      map_eq_of_forall₂ listed fun v v' (hv : EnumValue.Alike p.spans v v') => hv.erased]

/-- Unions at places with the same names are the same if their schemas have the same content. -/
theorem UnionDef.MadeOf.same {u u' : UnionDef} {s s' : ObjectSchema} {name parent : String}
    (h : u.MadeOf root s name parent) (h' : u'.MadeOf root s' name parent)
    (bare : s.object.node.bare = s'.object.node.bare) : u.erased = u'.erased := by
  let p := Likeness.twins root
  have views : p.Views s s' := ⟨bare, h.within, h'.within⟩
  obtain ⟨g, members, hm, hu⟩ := h.members
  obtain ⟨g', members', hm', hu'⟩ := h'.members
  obtain ⟨found, hf, alike⟩ := (Likeness.composition views "oneOf").of_ok hm
  cases hm'.symm.trans hf
  cases alike with
  | some alike =>
    have describes : p.concurrence.holds (List.Forall₂ (TypeUse.Alike p.spans))
        (usesOf root g members name parent) (usesOf root g' members' name parent) := by
      refine p.concurrence.mapM (alike.imp fun m m' hm => ?_)
      refine p.concurrence.bind (Q := Descriptor.Alike p.spans) ?_ fun d d' hd => ?_
      · exact p.concurrence.answered (.describe trivial (Likeness.asSchema hm))
      · exact p.concurrence.pure hd.type
    have uses := (describes _ _ hu hu').1
    have metadata : erasedMetadata s.object.metadata = erasedMetadata s'.object.metadata :=
      (Likeness.metadata views).erased
    rw [erased, erased, h.named, h'.named, h.metadata, h'.metadata, metadata,
      map_eq_of_forall₂ uses fun t t' (ht : TypeUse.Alike p.spans t t') => ht.erased]

end Service

end ServiceModel

/-
The constructs of two descriptions side by side. What a construct holds is related to what the
construct at the same place of the other description holds: its fields, the schemas it leads to
and the rules that these give. Every rule but the one that a value has to be present comes from a
field that is there, and so carries a span.
-/
import ServiceModel.OpenApi.Rules
import ServiceModel.Proofs.Document.Pairing

namespace ServiceModel

open Service OpenApi

instance : View StringSchema := ⟨StringSchema.object⟩
instance : View NumberSchema := ⟨NumberSchema.object⟩
instance : View BooleanSchema := ⟨BooleanSchema.object⟩
instance : View ArraySchema := ⟨ArraySchema.object⟩
instance : View ObjectSchema := ⟨ObjectSchema.object⟩
instance : View SecurityRequirement := ⟨SecurityRequirement.object⟩
instance : View Tag := ⟨Tag.object⟩
instance : View Info := ⟨Info.object⟩

namespace Likeness

variable {α α' : Type} {root root' : Node} (p : Likeness root root')

/-- Views of objects that are related. -/
abbrev Views [View α] [View α'] (a : α) (a' : α') : Prop := p.nodes (View.node a) (View.node a')

/-- Schemas of one kind. -/
inductive Schemas : Schema → Schema → Prop
  | string {s s' : StringSchema} : p.Views s s' → Schemas (.string s) (.string s')
  | number {s s' : NumberSchema} : p.Views s s' → Schemas (.number s) (.number s')
  | boolean {s s' : BooleanSchema} : p.Views s s' → Schemas (.boolean s) (.boolean s')
  | array {s s' : ArraySchema} : p.Views s s' → Schemas (.array s) (.array s')
  | object {s s' : ObjectSchema} : p.Views s s' → Schemas (.object s) (.object s')

variable {p}

/-! ## Schemas -/

theorem Schemas.node {s s' : Schema} (h : p.Schemas s s') : p.Objects s.node s'.node := by
  cases h with
  | string h => exact h
  | number h => exact h
  | boolean h => exact h
  | array h => exact h
  | object h => exact h

theorem ofType? {o o' : Object} (h : p.Objects o o') (type : String) :
    Option.Rel p.Schemas (Schema.ofType? o type) (Schema.ofType? o' type) := by
  unfold Schema.ofType?
  split
  · exact .some (.string h)
  · exact .some (.number h)
  · exact .some (.number h)
  · exact .some (.boolean h)
  · exact .some (.array h)
  · exact .some (.object h)
  · exact .none

theorem classify {n n' : Node} (h : p.nodes n n') :
    Option.Rel p.Schemas (Schema.classify n) (Schema.classify n') := by
  have ho := object? h
  unfold Schema.classify
  generalize n.object? = o, n'.object? = o' at ho ⊢
  cases ho with
  | none => exact .none
  | @some o o' ho =>
    have ht := value? ho "type"
    dsimp only
    generalize o.value? "type" = t, o'.value? "type" = t' at ht ⊢
    cases ht with
    | none => exact .some (.object ho)
    | some ht =>
      cases p.alike ht with
      | @literal value _ _ =>
        cases value with
        | text type => exact ofType? ho type
        | _ => exact .none
      | array _ => exact .none
      | object _ => exact .none

theorem schema {n n' : Node} (h : p.nodes n n') :
    p.Agree p.Schemas (Schema.ofNode n) (Schema.ofNode n') := by
  have hs := classify h
  unfold Schema.ofNode
  generalize Schema.classify n = s, Schema.classify n' = s' at hs ⊢
  cases hs with
  | none => exact p.fails_both trivial trivial
  | some hs => exact .ok hs

theorem schemaOrReference {n n' : Node} (h : p.nodes n n') :
    p.Agree (p.Sources p.Schemas) (SchemaOrReference.ofNode n) (SchemaOrReference.ofNode n') :=
  orReference (fun _ _ => schema) h

theorem resolveSchema {source source' : SchemaOrReference} (h : p.Sources p.Schemas source source') :
    p.Agree p.Schemas (source.resolve root) (source'.resolve root') := by
  cases h with
  | inline h => exact .ok h
  | reference h =>
    refine (target h).bind fun n n' _ _ hn => ?_
    have hs := classify hn
    generalize Schema.classify n = s, Schema.classify n' = s' at hs ⊢
    cases hs with
    | some hs => exact .ok hs
    | none => exact (pointer h).bind fun _ _ _ _ _ => p.fails_both trivial trivial

section

variable {s s' : ObjectSchema} (h : p.Views s s')

include h

theorem required : p.Agree (List.Forall₂ p.Literals) s.required s'.required :=
  (literals h _).map fun _ _ hl => rel_getD hl .nil

theorem properties : p.Agree (Option.Rel p.Walked) s.properties s'.properties :=
  walkedIndex h (by decide)

/-- A member is a reference in both documents, or an object schema in both. -/
theorem composition (name : String) :
    p.Agree (Option.Rel (List.Forall₂ (p.Sources p.Views))) (s.composition name)
      (s'.composition name) := by
  have members : ∀ n n', p.nodes n n' → p.Agree (Option.Rel (p.Sources p.Views))
      (ObjectSchema.member n) (ObjectSchema.member n') := by
    intro n n' hn
    have hs := classify hn
    unfold ObjectSchema.member
    rw [isReference_eq hn]
    split
    · exact (reference hn).map fun _ _ hr => .some (.reference hr)
    · generalize Schema.classify n = s, Schema.classify n' = s' at hs ⊢
      cases hs with
      | none => exact .ok .none
      | some hs =>
        cases hs with
        | object hs => exact .ok (.some (.inline hs))
        | _ => exact .ok .none
  exact (array h members).map fun _ _ => rel_map fun _ _ => forall₂_filterMap_id

end

theorem asSchema {m m' : OrReference ObjectSchema} (h : p.Sources p.Views m m') :
    p.Sources p.Schemas m.asSchema m'.asSchema := by
  cases h with
  | inline h => exact .inline (.object h)
  | reference h => exact .reference h

theorem items {s s' : ArraySchema} (h : p.Views s s') :
    p.Agree (Option.Rel (p.Sources p.Schemas)) s.items s'.items :=
  child h fun _ _ => schemaOrReference

/-- The values of an enum, the entry of which is there. -/
theorem enum {s s' : StringSchema} (h : p.Views s s') :
    p.Agree (Option.Rel fun values values' => List.Forall₂ p.Literals values values' ∧
      Known p.spans (s.object.entryLoc? "enum") (s'.object.entryLoc? "enum")) s.enum s'.enum := by
  refine (literals h "enum").imp fun values values' hv _ hl => ?_
  cases hl with
  | none => exact .none
  | some hl => exact .some ⟨hl, known_entry h (Object.has_of_array hv)⟩

/-! ## Rules -/

theorem rule_alike {constraint constraint' : Constraint} {loc loc' : Option String}
    (h : Constraint.Alike p.spans constraint constraint') (hl : Known p.spans loc loc') :
    Rule.Alike p.spans ⟨constraint, loc⟩ ⟨constraint', loc'⟩ := ⟨h, hl.rel, fun _ => hl⟩

section

variable {o o' : Object} (h : p.Objects o o')

include h

/-- The numbers under a name are alike, and so are the spans of their entries. -/
theorem amounts (name : String) :
    Option.Rel (fun x x' => Located.Alike p.spans x x' ∧
        Known p.spans (o.entryLoc? name) (o'.entryLoc? name))
      ((o.number? name).bind Literal.amount?) ((o'.number? name).bind Literal.amount?) := by
  have hn := number? h name
  have known : ∀ l, o.number? name = some l →
      Known p.spans (o.entryLoc? name) (o'.entryLoc? name) := fun l hl =>
    known_entry h (Object.has_of_number? hl)
  generalize o.number? name = l, o'.number? name = l' at hn known ⊢
  cases hn with
  | none => exact .none
  | @some l l' hl =>
    have ha := amount? hl
    dsimp only [Option.bind_some]
    generalize l.amount? = a, l'.amount? = a' at ha ⊢
    cases ha with
    | none => exact .none
    | some ha => exact .some ⟨ha, known l rfl⟩

theorem amountRule (name : String) (constraint : Located Number → Constraint)
    (hc : ∀ x x', Located.Alike p.spans x x' →
      Constraint.Alike p.spans (constraint x) (constraint x')) :
    List.Forall₂ (Rule.Alike p.spans) (o.amountRule name constraint)
      (o'.amountRule name constraint) := by
  have ha := amounts h name
  unfold Object.amountRule
  generalize (o.number? name).bind _ = a, (o'.number? name).bind _ = a' at ha ⊢
  cases ha with
  | none => exact .nil
  | some ha => exact .cons (rule_alike (hc _ _ ha.1) ha.2) .nil

theorem textRule (name : String) (constraint : Located String → Constraint)
    (hc : ∀ x x', Located.Alike p.spans x x' →
      Constraint.Alike p.spans (constraint x) (constraint x')) :
    List.Forall₂ (Rule.Alike p.spans) (o.textRule name constraint)
      (o'.textRule name constraint) := by
  have ht := text? h name
  have known : ∀ l, o.text? name = some l →
      Known p.spans (o.entryLoc? name) (o'.entryLoc? name) := fun l hl =>
    known_entry h (Object.has_of_text? hl)
  unfold Object.textRule
  generalize o.text? name = l, o'.text? name = l' at ht known ⊢
  cases ht with
  | none => exact .nil
  | some hl => exact .cons (rule_alike (hc _ _ (locatedText hl)) (known _ rfl)) .nil

theorem propertyCountRule (name : String) (constraint : Located Number → ObjectConstraint)
    (hc : ∀ x x', Located.Alike p.spans x x' →
      ObjectConstraint.Alike p.spans (constraint x) (constraint x')) :
    List.Forall₂ (ObjectRule.Alike p.spans) (o.propertyCountRule name constraint)
      (o'.propertyCountRule name constraint) := by
  have ha := amounts h name
  unfold Object.propertyCountRule
  generalize (o.number? name).bind _ = a, (o'.number? name).bind _ = a' at ha ⊢
  cases ha with
  | none => exact .nil
  | some ha => exact .cons ⟨hc _ _ ha.1, ha.2⟩ .nil

end

theorem stringRules {s s' : StringSchema} (h : p.Views s s') :
    p.Agree (List.Forall₂ (Rule.Alike p.spans)) s.rules s'.rules := by
  refine (enum h).bind fun found found' _ _ hf => ?_
  have format := textRule (p := p) h "format" .stringFormat fun _ _ hx => hx
  have maxLength := amountRule (p := p) h "maxLength" .stringMaxLength fun _ _ hx => hx
  have minLength := amountRule (p := p) h "minLength" .stringMinLength fun _ _ hx => hx
  have pattern := textRule (p := p) h "pattern" .stringPattern fun _ _ hx => hx
  have others {listed listed' : List Rule}
      (hl : List.Forall₂ (Rule.Alike p.spans) listed listed') :=
    List.rel_append (List.rel_append (List.rel_append (List.rel_append hl format) maxLength)
      minLength) pattern
  cases hf with
  | none => exact .ok (others .nil)
  | some hv =>
    refine .ok (others (.cons (rule_alike ?_ hv.2) .nil))
    exact List.rel_map (fun _ _ hl => located hl) hv.1

theorem isExclusive_eq {s s' : NumberSchema} (h : p.Views s s') :
    s.isExclusive = s'.isExclusive := isSet_eq (literal? h _)

theorem numberRules {s s' : NumberSchema} (h : p.Views s s') :
    List.Forall₂ (Rule.Alike p.spans) s.rules s'.rules := by
  have multipleOf := amountRule (p := p) h "multipleOf" .numberMultipleOf fun _ _ hx => hx
  have minimum := amountRule (p := p) h "minimum"
    (if s'.isExclusive then .numberGt else .numberGte) fun _ _ hx => by split <;> exact hx
  have maximum := amountRule (p := p) h "maximum"
    (if s'.isExclusive then .numberLt else .numberLte) fun _ _ hx => by split <;> exact hx
  unfold NumberSchema.rules
  -- one field makes both bounds exclusive, in both documents
  rw [isExclusive_eq h]
  exact List.rel_append (List.rel_append multipleOf minimum) maximum

theorem arrayRules {s s' : ArraySchema} (h : p.Views s s') :
    List.Forall₂ (Rule.Alike p.spans) s.rules s'.rules := by
  have same : Literal.isSet s.uniqueItems? = Literal.isSet s'.uniqueItems? :=
    isSet_eq (literal? (p := p) h _)
  have unique : List.Forall₂ (Rule.Alike p.spans)
      (if Literal.isSet s.uniqueItems? then [s.object.rule "uniqueItems" .arrayUniqueItems] else [])
      (if Literal.isSet s'.uniqueItems? then [s'.object.rule "uniqueItems" .arrayUniqueItems]
        else []) := by
    rw [← same]
    split
    · rename_i set
      -- a value that counts as true is there
      refine .cons (rule_alike trivial (known_entry h ?_)) .nil
      cases hs : s.uniqueItems? with
      | none => rw [hs] at set; cases set
      | some l => exact Object.has_of_literal? hs
    · exact .nil
  have maxItems := amountRule (p := p) h "maxItems" .arrayMaxItems fun _ _ hx => hx
  have minItems := amountRule (p := p) h "minItems" .arrayMinItems fun _ _ hx => hx
  exact List.rel_append (List.rel_append maxItems minItems) unique

theorem objectRules {s s' : ObjectSchema} (h : p.Views s s') :
    List.Forall₂ (ObjectRule.Alike p.spans) s.rules s'.rules := by
  have maxProperties := propertyCountRule (p := p) h "maxProperties" .maxProperties fun _ _ hx => hx
  have minProperties := propertyCountRule (p := p) h "minProperties" .minProperties fun _ _ hx => hx
  refine List.rel_append (List.rel_append maxProperties minProperties) ?_
  have ha := literal? (p := p) h "additionalProperties"
  have known : ∀ l, s.object.literal? "additionalProperties" = some l →
      Known p.spans (s.object.entryLoc? "additionalProperties")
        (s'.object.entryLoc? "additionalProperties") := fun l hl =>
    known_entry h (Object.has_of_literal? hl)
  generalize s.object.literal? "additionalProperties" = l,
    s'.object.literal? "additionalProperties" = l' at ha known ⊢
  cases ha with
  | none => exact .nil
  | @some l l' hl =>
    have same := value_eq hl
    obtain ⟨value, range⟩ := l
    obtain ⟨value', range'⟩ := l'
    cases same
    -- false alone forbids further properties
    cases value with
    | bool b =>
      cases b with
      | false => exact .cons ⟨trivial, known _ rfl⟩ .nil
      | true => exact .nil
    | _ => exact .nil

theorem ownRules {s s' : Schema} (h : p.Schemas s s') :
    p.Agree (List.Forall₂ (Rule.Alike p.spans)) s.ownRules s'.ownRules := by
  cases h with
  | string h => exact stringRules h
  | number h => exact .ok (numberRules h)
  | boolean _ => exact .ok .nil
  | array h => exact .ok (arrayRules h)
  | object _ => exact .ok .nil

theorem itemRules {s s' : Schema} (h : p.Schemas s s') :
    p.Agree (List.Forall₂ (Rule.Alike p.spans)) (s.itemRules root) (s'.itemRules root') := by
  cases h with
  | array h =>
    refine (items h).bind fun found found' _ _ hf => ?_
    cases hf with
    | none => exact .ok .nil
    | some hi => exact (resolveSchema hi).bind fun _ _ _ _ hs => ownRules hs
  | _ => exact .ok .nil

theorem rules {s s' : Schema} (h : p.Schemas s s') :
    p.Agree (List.Forall₂ (Rule.Alike p.spans)) (s.rules root) (s'.rules root') := by
  refine (ownRules h).bind fun own own' _ _ ho => ?_
  exact (itemRules h).map fun _ _ hi => List.rel_append ho hi

theorem rulesWhen {s s' : Schema} (h : p.Schemas s s') (isRequired : Bool) :
    p.Agree (List.Forall₂ (Rule.Alike p.spans)) (s.rulesWhen root isRequired)
      (s'.rulesWhen root' isRequired) := by
  refine (rules h).map fun rules rules' hr => ?_
  cases isRequired with
  | false => exact hr
  | true => exact .cons ⟨trivial, .none, fun hn => absurd rfl hn⟩ hr

end Likeness

end ServiceModel

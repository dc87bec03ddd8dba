/-
Requirements and the keys that they are spelled like. Keys are their text, while the items of a
list of requirements are typed and then written back, so that a name is required where it stands
as a key only if it comes back as it was written.
-/
import ServiceModel.Proofs.Document.Requiring
import ServiceModel.Proofs.Synthesis.Coherence
import ServiceModel.Proofs.Yaml.Doubles

namespace ServiceModel

open Service Yaml

/-! ## Typing and writing back -/

namespace Yaml.Scalar

/-- The text of a plain scalar after it was typed and its value written back. -/
def respelled (text : List Char) : Except Fault String := (ofText 0 text).map Primitive.asText

theorem signedDouble_text (mark : Nat) (negative : Bool) (body : List Char) :
    (signedDouble mark negative body).map Primitive.asText =
      (signedDouble 0 negative body).map Primitive.asText := by
  have text (x : Double) : (x.withMark mark).text = (x.withMark 0).text := by cases x <;> rfl
  unfold signedDouble
  split
  · rfl
  · cases size body with
    | error fault => rfl
    | ok x => exact congrArg Except.ok (text _)

/-- What is no number is written back without its mark. -/
theorem ofText_respelled (mark : Nat) (text : List Char) :
    (ofText mark text).map Primitive.asText = respelled text := by
  have double : (readDouble mark text).map Primitive.asText =
      (readDouble 0 text).map Primitive.asText := by
    rcases readDouble_cases text with empty | ⟨negative, body, same⟩
    · rw [empty, empty]
    · rw [same, same, signedDouble_text]
  unfold respelled ofText
  cases kindOf text with
  | double => exact double
  | _ => rfl

/-- What is no word and no number comes back as it is. -/
theorem respelled_of_text {text : List Char} (h : kindOf text = .text) :
    respelled text = .ok (String.ofList text) := by
  rw [respelled, ofText, h]
  rfl

end Yaml.Scalar

/-! ## Schemas that require their property -/

/-- The text is an object schema with one property of the given name, which has to be present or
not; nothing else is said of its value. -/
def DeclaresOne (text name : String) (isRequired : Bool) : Prop :=
  ∃ node s, Node.read text = .ok node ∧ Schema.classify node = some (.object s) ∧
    ∀ root guards parent, ∃ m, propertiesOf root guards s parent [] = pure [m] ∧
      m.name.value = name ∧ m.type.rules = presence isRequired

/-- A value that is listed as required requires the property under its text. -/
theorem requiringNode_properties (name : String) (value : Primitive) (range : Nat → Text.Range) :
    ∃ s, Schema.classify (requiringNode name value range) = some (.object s) ∧
      ∀ root guards parent, ∃ m, propertiesOf root guards s parent [] = pure [m] ∧
        m.name.value = name ∧ m.type.rules = presence (value.asText == name) := by
  let string : StringSchema :=
    ⟨⟨[(⟨"type", range 7⟩, .literal ⟨.text "string", range 8⟩)], range 9⟩⟩
  let index : Object := ⟨[(⟨name, range 6⟩, string.object.node)], range 10⟩
  let s : ObjectSchema := ⟨⟨[(⟨"type", range 0⟩, .literal ⟨.text "object", range 1⟩),
    (⟨"required", range 2⟩, .array [.literal ⟨value, range 3⟩] (range 4)),
    (⟨"properties", range 5⟩, index.node)], range 11⟩⟩
  refine ⟨s, rfl, fun root guards parent => ?_⟩
  have required : s.required = .ok [⟨value, range 3⟩] := rfl
  have allOf : s.allOf = .ok none := rfl
  have properties : s.properties = .ok (some index) := rfl
  have schema : SchemaOrReference.ofNode string.object.node = .ok (.inline (.string string)) := rfl
  let type : Descriptor :=
    .primitive ⟨"string", some (range 8).encode⟩ [] none none string.object.loc
  have described : describe root guards (.inline (.string string)) name parent = pure type := by
    rw [describe_inline, describeInPlace_string]
    rfl
  have rules (isRequired : Bool) :
      (Schema.string string).rulesWhen root isRequired = .ok (presence isRequired) := by
    have none : (Schema.string string).rules root = .ok [] := rfl
    rw [Schema.rulesWhen_eq none, List.append_nil]
  refine ⟨propertyOf index name (.string string) type (presence (value.asText == name)), ?_, rfl,
    rfl⟩
  rw [propertiesOf_eq, required]
  simp only [allOf, properties, Build.read_ok_bind, index, List.mapM_cons, List.mapM_nil, schema,
    SchemaOrReference.resolve, described, rules, pure_bind, List.append_nil, List.any_cons,
    List.any_nil, Bool.or_false, Literal.text]

theorem requiringNode_declares {name : String} {value : Primitive} {range : Nat → Text.Range}
    (h : Node.read (requiringText name) = .ok (requiringNode name value range)) :
    DeclaresOne (requiringText name) name (value.asText == name) := by
  obtain ⟨s, schema, properties⟩ := requiringNode_properties name value range
  exact ⟨_, s, h, schema, properties⟩

/-- Whether the property has to be present is told by the text. -/
theorem DeclaresOne.unique {text name : String} {a b : Bool} (ha : DeclaresOne text name a)
    (hb : DeclaresOne text name b) : a = b := by
  obtain ⟨node, s, read, schema, properties⟩ := ha
  obtain ⟨node', s', read', schema', properties'⟩ := hb
  cases read.symm.trans read'
  cases schema.symm.trans schema'
  obtain ⟨m, only, -, rules⟩ := properties default (.none 0) ""
  obtain ⟨m', only', -, rules'⟩ := properties' default (.none 0) ""
  cases Build.pure_ok (congrArg Build.outcome (only.symm.trans only'))
  have same : presence a = presence b := rules.symm.trans rules'
  revert same
  cases a <;> cases b <;> simp [presence]

/-- For every name that is read as a plain scalar wherever it stands: the object schema that lists
it as required, and has it as the key of its one property, is read, and the property has to be
present if and only if the name, typed and written back, is what it was. Where the name has no value
that it could be typed as, the text is no document. -/
theorem requiringText_declares {name : String} (h : ReadsPlain name.toList) :
    match Scalar.respelled name.toList with
    | .ok written => DeclaresOne (requiringText name) name (written == name)
    | .error fault => Node.read (requiringText name) = .error (.fault fault) := by
  obtain ⟨range, read⟩ := read_requiringText h
  rw [← Scalar.ofText_respelled ((range 3).start.offset.toNat + 1)]
  cases hv : Scalar.ofText ((range 3).start.offset.toNat + 1) name.toList with
  | error fault =>
    rw [hv] at read
    exact read
  | ok value =>
    rw [hv] at read
    exact requiringNode_declares read

/-- A word that is no keyword is required as it stands. -/
theorem requiringText_declares_id :
    ReadsPlain "id".toList ∧ DeclaresOne (requiringText "id") "id" true := by
  have plain : ReadsPlain "id".toList :=
    IsWord.readsPlain ⟨List.all_eq_true.1 (by decide), by decide, by decide⟩
  have met := requiringText_declares plain
  rw [Scalar.respelled_of_text (by decide)] at met
  exact ⟨plain, met⟩

/-- A truth value is written back as `True`, so that the property `yes` is not required. -/
theorem requiringText_yes_unmet :
    ReadsPlain "yes".toList ∧ ¬ DeclaresOne (requiringText "yes") "yes" true := by
  have plain : ReadsPlain "yes".toList :=
    IsWord.readsPlain ⟨List.all_eq_true.1 (by decide), by decide, by decide⟩
  refine ⟨plain, fun met => ?_⟩
  obtain ⟨range, read⟩ := read_requiringText plain
  have typed (mark : Nat) : Scalar.ofText mark "yes".toList = .ok (.bool true) := rfl
  rw [typed] at read
  exact absurd (met.unique (requiringNode_declares read)) (by decide)

end ServiceModel

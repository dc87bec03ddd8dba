/-
Numbers in a document. A text in the number grammar of JSON is an integer or a double precision
number wherever it stands as a plain scalar without a tag, and the text itself between quotes. The
tree of a document has its literals where the markup has its scalars, so what holds of a scalar
holds in every place.
-/
import ServiceModel.Proofs.Document.JsonTexts
import Mathlib.Data.List.Forall2

namespace ServiceModel

open Text (Range)

/-! ## Places -/

/-- What stands directly inside a markup node: items, and the values of entries. -/
def Yaml.Node.children : Yaml.Node → List Yaml.Node
  | .sequence items _ => items
  | .mapping entries _ => entries.map (·.2)
  | _ => []

/-- What stands in a place of a markup node, which is told by positions from outside in. -/
def Yaml.Node.part? (node : Yaml.Node) : List Nat → Option Yaml.Node
  | [] => some node
  | i :: place => match node.children[i]? with
    | some child => child.part? place
    | none => none

namespace Node

/-- What stands directly inside a node: items, and the values of entries. -/
def children : Node → List Node
  | .array items _ => items
  | .object entries _ => entries.map (·.2)
  | .literal _ => []

/-- What stands in a place of a node, which is told by positions from outside in. -/
def part? (node : Node) : List Nat → Option Node
  | [] => some node
  | i :: place => match node.children[i]? with
    | some child => child.part? place
    | none => none

theorem ofItems_forall₂ : ∀ {items : List Yaml.Node} {nodes : List Node},
    ofItems items = .ok nodes → List.Forall₂ (fun y node => ofYaml y = .ok node) items nodes
  | [], nodes, h => by
    cases h
    exact .nil
  | item :: rest, nodes, h => by
    rw [ofItems] at h
    cases first : ofYaml item with
    | error e =>
      rw [first] at h
      cases h
    | ok node =>
      rw [first] at h
      cases others : ofItems rest with
      | error e =>
        rw [others] at h
        cases h
      | ok more =>
        rw [others] at h
        cases h
        exact .cons first (ofItems_forall₂ others)

theorem ofEntries_forall₂ : ∀ {entries : List (Yaml.Node × Yaml.Node)} {made : List (Key × Node)},
    ofEntries entries = .ok made →
      List.Forall₂ (fun y node => ofYaml y = .ok node) (entries.map (·.2)) (made.map (·.2))
  | [], made, h => by
    cases h
    exact .nil
  | (.scalar text tag range, value) :: rest, made, h => by
    rw [ofEntries] at h
    cases first : ofYaml value with
    | error e =>
      rw [first] at h
      cases h
    | ok node =>
      rw [first] at h
      cases others : ofEntries rest with
      | error e =>
        rw [others] at h
        cases h
      | ok more =>
        rw [others] at h
        cases h
        exact .cons first (ofEntries_forall₂ others)
  | (.sequence _ _, _) :: _, _, h | (.mapping _ _, _) :: _, _, h | (.cycle _, _) :: _, _, h => by
    cases h

/-- The tree has the parts of the markup node, each made of its own. -/
theorem children_ofYaml {y : Yaml.Node} {node : Node} (h : ofYaml y = .ok node) :
    List.Forall₂ (fun y node => ofYaml y = .ok node) y.children node.children := by
  cases y with
  | scalar text tag range =>
    rw [ofYaml] at h
    split at h
    · cases h
      exact .nil
    · cases h
  | sequence items range =>
    rw [ofYaml] at h
    cases made : ofItems items with
    | error e =>
      rw [made] at h
      cases h
    | ok nodes =>
      rw [made] at h
      cases h
      exact ofItems_forall₂ made
  | mapping entries range =>
    rw [ofYaml] at h
    cases made : ofEntries entries with
    | error e =>
      rw [made] at h
      cases h
    | ok nodes =>
      rw [made] at h
      cases h
      exact ofEntries_forall₂ made
  | cycle start => cases h

/-- In each place of the tree stands what the markup has there. -/
theorem part?_ofYaml : ∀ (place : List Nat) {y part : Yaml.Node} {node : Node},
    ofYaml y = .ok node → y.part? place = some part →
      ∃ made, node.part? place = some made ∧ ofYaml part = .ok made
  | [], y, part, node, h, hp => by
    cases hp
    exact ⟨node, rfl, h⟩
  | i :: place, y, part, node, h, hp => by
    have inside := children_ofYaml h
    rw [Yaml.Node.part?] at hp
    rw [Node.part?]
    cases hc : y.children[i]? with
    | none =>
      rw [hc] at hp
      cases hp
    | some child =>
      rw [hc] at hp
      obtain ⟨hi, rfl⟩ := List.getElem?_eq_some_iff.1 hc
      have hi' : i < node.children.length := inside.length_eq ▸ hi
      rw [List.getElem?_eq_getElem hi']
      exact part?_ofYaml place (inside.get hi hi') hp

end Node

/-! ## Scalars -/

namespace Yaml.Composer

/-- A scalar without a tag comes next, of the given text and form; an anchor in front of it names
no other node. -/
def Untagged (c : Composer) (text : String) (form : ScalarForm) : Prop :=
  ∃ props behind token, c.properties = .ok (props, behind) ∧ props.tag = none ∧
    (∀ a ∈ props.anchor, behind.anchors.lookup a = none) ∧
      behind.peek = .ok token ∧ token.kind = .scalar text form

/-- A scalar without a tag is a node that is typed by its text if it is plain, and a text if not. -/
theorem node_untagged {c : Composer} {text : String} {form : ScalarForm} (h : c.Untagged text form)
    (fuel : Nat) (block indentless : Bool) : ∃ range next,
      node (fuel + 1) block indentless c = .ok (.scalar text (scalarTag none form) range, next) := by
  obtain ⟨props, behind, token, hp, tag, fresh, ht, hk⟩ := h
  have unnamed : ¬ (props.anchor.any fun a => (behind.anchors.lookup a).isSome) = true := by
    cases ha : props.anchor with
    | none => exact Bool.false_ne_true
    | some a =>
      rw [Option.any_some, fresh a ha]
      exact Bool.false_ne_true
  rw [node]
  cases hf : c.peek with
  | error fault =>
    rw [properties, hf] at hp
    cases hp
  | ok first =>
    simp only [bind, Except.bind]
    split
    · -- an alias has no properties, and is no scalar
      rename_i _ named
      rw [properties, hf] at hp
      simp only [bind, Except.bind, named] at hp
      cases hp
      rw [hf] at ht
      cases ht
      rw [named] at hk
      cases hk
    · simp only [hp, ht, hk, if_neg unnamed, tag]
      exact ⟨_, _, rfl⟩

end Yaml.Composer

/-! ## Values -/

/-- A text that stands without a tag in the given form is read as the value. -/
structure ReadsAs (text : String) (form : Yaml.ScalarForm) (value : Primitive) : Prop where
  /-- Wherever it comes next, with an anchor or without, a node is composed of it alone. -/
  composed : ∀ c : Yaml.Composer, c.Untagged text form → ∀ fuel block indentless, ∃ range next,
    c.node (fuel + 1) block indentless =
      .ok (.scalar text (Yaml.Composer.scalarTag none form) range, next)
  /-- The node has the value, wherever it stands in the text. -/
  typed : ∀ range, Node.ofYaml (.scalar text (Yaml.Composer.scalarTag none form) range) =
    .ok (.literal ⟨value, range⟩)
  /-- In the tree of a document, the literal of the value stands in the place of the node. -/
  placed : ∀ y node place range, Node.ofYaml y = .ok node →
    y.part? place = some (.scalar text (Yaml.Composer.scalarTag none form) range) →
      node.part? place = some (.literal ⟨value, range⟩)

theorem ReadsAs.of_value {text : String} {form : Yaml.ScalarForm} {value : Primitive}
    (h : ∀ mark, Yaml.Scalar.value mark (Yaml.Composer.scalarTag none form) text = .ok value) :
    ReadsAs text form value := by
  have typed : ∀ range, Node.ofYaml (.scalar text (Yaml.Composer.scalarTag none form) range) =
      .ok (.literal ⟨value, range⟩) := fun range => by rw [Node.ofYaml, h]
  refine ⟨fun c hc fuel block indentless => c.node_untagged hc fuel block indentless, typed, ?_⟩
  intro y node place range hy hp
  obtain ⟨made, hm, ho⟩ := Node.part?_ofYaml place hy hp
  rw [typed range] at ho
  cases ho
  exact hm

/-- What stands between quotes is read as it is written. -/
theorem readsAs_marked (text : String) : ReadsAs text .marked (.text text) :=
  .of_value fun _ => rfl

theorem Primitive.toJson_injective {value other : Primitive} (h : value.toJson = other.toJson) :
    value = other := by
  cases value <;> cases other <;> simp only [Primitive.toJson] at h <;> cases h <;> rfl

/-- A node of the JSON of a value is a literal of the value. -/
theorem Node.literal_of_toJson {node : Node} {value : Primitive}
    (h : node.toJson = value.toJson) : ∃ range, node = .literal ⟨value, range⟩ := by
  cases node with
  | literal l =>
    rw [Node.toJson] at h
    exact ⟨l.range, congrArg _ (congrArg (Literal.mk · l.range) (Primitive.toJson_injective h))⟩
  | array items range => cases value <;> cases h
  | object entries range => cases value <;> cases h

namespace Notation

/-! ## Numbers -/

variable {d : Double.Decimal} (h : d.Strict) (negative : Bool)

include h

theorem readsAs_plain (hb : d.Bounded) :
    ReadsAs (String.ofList (sign negative ++ d.text)) .plain (numberOf negative d) := by
  refine .of_value fun mark => ?_
  show Yaml.Scalar.ofText mark (String.ofList (sign negative ++ d.text)).toList = _
  rw [String.toList_ofList]
  exact Yaml.Scalar.ofText_number h negative hb mark

omit h in
/-- The text of a document that is nothing but a number. -/
theorem text_number : Document.text ⟨[], .number negative d, []⟩ =
    String.ofList (sign negative ++ d.text) := by
  simp [Document.text, Document.write, blank, Tree.write]

/-- A document that is nothing but a number. -/
theorem read_number (hb : d.Bounded) : ∃ range,
    Node.read (String.ofList (sign negative ++ d.text)) =
      .ok (.literal ⟨numberOf negative d, range⟩) := by
  have spelled : Document.Spelled ⟨[], .number negative d, []⟩ :=
    { lead := nofun, root := h, trail := nofun, distinct := trivial, bounded := hb }
  obtain ⟨node, read, json⟩ := read_text _ spelled ⟨trivial, fun _ => List.not_mem_nil⟩
  obtain ⟨range, rfl⟩ := Node.literal_of_toJson json
  exact ⟨range, text_number negative ▸ read⟩

/-- An integer with too many digits has no value where it stands plain. -/
theorem ofYaml_long (hf : d.fraction? = none) (hx : d.exponent? = none)
    (hl : Text.Numeral.mostDigits < d.whole.length) (range : Range) :
    Node.ofYaml (.scalar (String.ofList (sign negative ++ d.text))
      (Yaml.Composer.scalarTag none .plain) range) = .error (.fault .number) := by
  have refused (mark : Nat) : Yaml.Scalar.value mark (Yaml.Composer.scalarTag none .plain)
      (String.ofList (sign negative ++ d.text)) = .error .number := by
    show Yaml.Scalar.ofText mark (String.ofList (sign negative ++ d.text)).toList = _
    rw [String.toList_ofList, Yaml.Scalar.ofText_long h negative mark hf hx hl]
  rw [Node.ofYaml, refused]

/-- A document that is nothing but an integer with too many digits. -/
theorem read_long (hf : d.fraction? = none) (hx : d.exponent? = none)
    (hl : Text.Numeral.mostDigits < d.whole.length) :
    Node.read (String.ofList (sign negative ++ d.text)) = .error (.fault .number) := by
  have formed : Document.Formed ⟨[], .number negative d, []⟩ :=
    { lead := nofun, root := h, trail := nofun }
  obtain ⟨range, composed⟩ := Yaml.Node.ofTokens_scalar
    (Yaml.Token.ofText_document formed trivial)
  have read := read_composed formed ⟨trivial, fun _ => List.not_mem_nil⟩ composed
  rw [← text_number negative, read]
  exact ofYaml_long h negative hf hx hl range

/-- A document that is nothing but a number between double quotes. -/
theorem read_quoted : ∃ range,
    Node.read ("\"" ++ String.ofList (sign negative ++ d.text) ++ "\"") =
      .ok (.literal ⟨.text (String.ofList (sign negative ++ d.text)), range⟩) := by
  have word := (Yaml.Lexer.number_word h negative).1
  generalize sign negative ++ d.text = text at word
  have spelled : ∀ piece ∈ text.map Piece.raw, piece.Spelled := by
    rintro _ hp
    obtain ⟨c, hc, rfl⟩ := List.mem_map.1 hp
    have range := Yaml.wordChar_range (word c hc)
    exact ⟨by omega, Yaml.wordChar_ne (word c hc) (by decide),
      Yaml.wordChar_ne (word c hc) (by decide)⟩
  have admitted : ∀ piece ∈ text.map Piece.raw, piece.Admitted := by
    rintro _ hp
    obtain ⟨c, hc, rfl⟩ := List.mem_map.1 hp
    have range := Yaml.wordChar_range (word c hc)
    exact ⟨isAllowed_of_lt (by omega) (by omega), Yaml.isBreak_wordChar (word c hc)⟩
  have denoted : textOf (text.map Piece.raw) = String.ofList text := by
    have small : ∀ c ∈ text, c.toNat < 127 := fun c hc => by
      have range := Yaml.wordChar_range (word c hc)
      omega
    have whole : ∀ code ∈ text.map Char.toNat, Yaml.isHalf code = false := by
      intro code hc
      obtain ⟨c, hm, rfl⟩ := List.mem_map.1 hc
      exact Yaml.isHalf_eq_false.2 (.inl (Nat.lt_trans (small c hm) (by decide)))
    rw [textOf, List.map_map, show Piece.unit ∘ Piece.raw = Char.toNat from rfl,
      Yaml.charsOf_whole whole, List.map_map]
    exact congrArg _ ((List.map_congr_left fun c _ => Char.ofNat_toNat c).trans (List.map_id _))
  obtain ⟨node, read, json⟩ := read_text ⟨[], .string (text.map Piece.raw), []⟩
    { lead := nofun, root := spelled, trail := nofun, distinct := trivial, bounded := trivial }
    ⟨admitted, fun _ => List.not_mem_nil⟩
  have value : node.toJson = (Primitive.text (String.ofList text)).toJson := by
    rw [json, ← denoted]
    rfl
  obtain ⟨range, rfl⟩ := Node.literal_of_toJson value
  refine ⟨range, ?_⟩
  rw [← read]
  congr 1
  rw [← String.toList_inj]
  simp [Document.text, Document.write, blank, Tree.write, quote, List.flatMap_map, Piece.text]

end Notation

/-- A number of JSON is typed as the number that it is. -/
structure TypedNumber (negative : Bool) (d : Double.Decimal) (text : String) (value : Primitive) :
    Prop where
  /-- Without fraction and exponent it is an integer. -/
  integer : d.fraction? = none → d.exponent? = none →
    value = .int (if negative then -(Nat.ofDigitChars 10 d.whole 0 : Int)
      else Nat.ofDigitChars 10 d.whole 0)
  /-- With one of them it is the nearest double precision number. -/
  double : d.fraction? ≠ none ∨ d.exponent? ≠ none → value = .double (d.nearest negative)
  /-- It is so wherever the text stands plain. -/
  plain : ReadsAs text .plain value
  /-- Between quotes the text is a text. -/
  marked : ReadsAs text .marked (.text text)
  /-- It is so of a document that has nothing else. -/
  whole : ∃ range, Node.read text = .ok (.literal ⟨value, range⟩)
  quoted : ∃ range, Node.read ("\"" ++ text ++ "\"") = .ok (.literal ⟨.text text, range⟩)

/-- An integer of JSON with too many digits has no value. -/
structure LongNumber (text : String) : Prop where
  /-- The node that is composed of it where it stands plain has no tree. -/
  plain : ∀ range, Node.ofYaml (.scalar text (Yaml.Composer.scalarTag none .plain) range) =
    .error (.fault .number)
  /-- Between quotes the text is a text. -/
  marked : ReadsAs text .marked (.text text)
  /-- It is so of a document that has nothing else. -/
  whole : Node.read text = .error (.fault .number)
  quoted : ∃ range, Node.read ("\"" ++ text ++ "\"") = .ok (.literal ⟨.text text, range⟩)

theorem typedNumber {d : Double.Decimal} (h : d.Strict) (negative : Bool) (hb : d.Bounded) :
    TypedNumber negative d (String.ofList (Notation.sign negative ++ d.text))
      (Notation.numberOf negative d) where
  integer hf hx := by
    have digits : Double.digitsValue d.whole = Nat.ofDigitChars 10 d.whole 0 := by
      rw [Nat.ofDigitChars_eq_foldl]
      simp only [Double.digitsValue, Nat.mul_comm 10]
    rw [Notation.numberOf, if_pos ⟨hf, hx⟩, digits]
  double hd := by
    rw [Notation.numberOf, if_neg fun both => hd.elim (fun hf => hf both.1) fun hx => hx both.2]
  plain := Notation.readsAs_plain h negative hb
  marked := readsAs_marked _
  whole := Notation.read_number h negative hb
  quoted := Notation.read_quoted h negative

theorem longNumber {d : Double.Decimal} (h : d.Strict) (negative : Bool)
    (hf : d.fraction? = none) (hx : d.exponent? = none)
    (hl : Text.Numeral.mostDigits < d.whole.length) :
    LongNumber (String.ofList (Notation.sign negative ++ d.text)) where
  plain := Notation.ofYaml_long h negative hf hx hl
  marked := readsAs_marked _
  whole := Notation.read_long h negative hf hx hl
  quoted := Notation.read_quoted h negative

/-- A number of JSON is typed as the number that it is, unless it is an integer of more than 4300
digits, which has no value at all. -/
theorem number_typed {d : Double.Decimal} (h : d.Strict) (negative : Bool) :
    (d.Bounded →
      ∃ value, TypedNumber negative d (String.ofList (Notation.sign negative ++ d.text)) value) ∧
    (¬ d.Bounded → LongNumber (String.ofList (Notation.sign negative ++ d.text))) := by
  refine ⟨fun hb => ⟨_, typedNumber h negative hb⟩, fun long => ?_⟩
  unfold Double.Decimal.Bounded at long
  push Not at long
  obtain ⟨hf, hx, hl⟩ := long
  exact longNumber h negative hf hx hl

theorem number_typed_exponent : ∃ value,
    TypedNumber true ⟨['1'], none, some ⟨'e', none, ['5']⟩⟩ "-1e5" value := by
  refine (number_typed ⟨⟨?_, ?_, .inl ?_, ?_⟩, ?_, ?_, ?_⟩ true).1 nofun
  · exact List.forall_mem_singleton.2 (by decide)
  · exact List.forall_mem_nil _
  · exact List.cons_ne_nil _ _
  · rintro _ ⟨⟩
    exact ⟨.inl rfl, nofun, List.forall_mem_singleton.2 (by decide), List.cons_ne_nil _ _⟩
  · exact List.cons_ne_nil _ _
  · decide
  · decide

end ServiceModel

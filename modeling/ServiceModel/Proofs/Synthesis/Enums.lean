/-
The values of enums. A string schema that lists values is registered as an enum, which has each of
the values once: of values that are equal the first, in the order of the list and with its span.
The rule of the same schema has the whole list. Whatever a synthesis is asked for, the enums that
it registers are of that kind; the values are told apart as they should be because they were read
from texts.
-/
import ServiceModel.Proofs.Document.Values
import ServiceModel.Proofs.Lists.Firsts
import ServiceModel.Proofs.Synthesis.Records
import ServiceModel.Proofs.Synthesis.Session

namespace ServiceModel

open Service

/-! ## The values of an enum -/

namespace Literal

/-- Two literals have equal values. -/
def Equal (l m : Literal) : Prop := l.value.Equal m.value

/-- The value of an enum that a literal stands for. -/
def enumValue (l : Literal) : EnumValue := ⟨l.located, some l.loc⟩

end Literal

/-- What is dropped from a list of literals is the same as one that is kept before it. -/
theorem keepsFirsts_distinctLiterals (values : List Literal) :
    KeepsFirsts (fun l m => l.value.same m.value = true) values (distinctLiterals values) := by
  refine keepsFirsts_eraseDupsBy _ ?_ ?_ ?_ values
  · exact fun l => l.value.same_refl
  · exact fun l m h => (m.value.same_comm l.value).trans h
  · exact fun l m n => Primitive.same_trans

/-- An enum has the distinct values of a list. What is no number equals nothing, not even itself,
and is excepted. -/
structure Service.EnumDef.Lists (e : EnumDef) (values : List Literal) : Prop where
  /-- No two of its values are of one kind and equal. -/
  distinct : e.values.Pairwise fun v w => ¬ v.content.value.Equal w.content.value
  /-- Every value of the list is of one kind with one of its values and equal to it. -/
  complete : ∀ l ∈ values, ¬ l.value.IsNan → ∃ v ∈ e.values, l.value.Equal v.content.value
  /-- Its values are those that equal no value before them in the list, in the order of the list
  and with their spans. -/
  firsts : ∃ places : List Nat, places.Pairwise (· < ·) ∧
    (∀ i l, values[i]? = some l → ¬ l.value.IsNan →
      (i ∈ places ↔ FirstAt Literal.Equal values i)) ∧
    e.values.map some = places.map fun i => values[i]?.map Literal.enumValue

theorem StringSchema.enumDef_lists {s : StringSchema} {name : Located String}
    {values : List Literal} (normal : ∀ l ∈ values, l.value.IsNormal) :
    (s.enumDef name values).Lists values := by
  have keeps := keepsFirsts_distinctLiterals values
  have same {l m : Literal} (hl : l ∈ values) (hm : m ∈ values) (number : ¬ l.value.IsNan) :
      l.value.same m.value = true ↔ l.Equal m :=
    Primitive.same_iff_equal (normal l hl) (normal m hm) number
  constructor
  · refine List.pairwise_map.2 (keeps.distinct.imp_of_mem fun hl hm differ equal => ?_)
    exact differ ((same (keeps.subset hl) (keeps.subset hm) equal.not_isNan).2 equal)
  · intro l hl number
    obtain ⟨m, hm, found⟩ := keeps.complete l hl
    exact ⟨m.enumValue, List.mem_map_of_mem hm, (same hl (keeps.subset hm) number).1 found⟩
  · obtain ⟨places, sorted, firsts, kept⟩ := keeps.places
    refine ⟨places, sorted, fun i l hi number => ?_, ?_⟩
    · have hl := List.mem_of_getElem? hi
      exact (firsts i).trans (firstAt_congr hi fun m hm => same hl hm number)
    · calc (s.enumDef name values).values.map some
        _ = ((distinctLiterals values).map some).map (Option.map Literal.enumValue) := by
          simp only [StringSchema.enumDef, List.map_map]
          rfl
        _ = places.map fun i => values[i]?.map Literal.enumValue := by
          rw [kept, List.map_map]
          rfl

/-- One is four values, a truth value and a text among them, and zero is one. -/
example : (distinctLiterals ([.int 1, .double (.finite false (2 ^ 52) (-52)), .bool true, .text "1",
      .double (.zero false), .double (.zero true), .int 1].map (⟨·, default⟩))).map (·.value) =
    [.int 1, .double (.finite false (2 ^ 52) (-52)), .bool true, .text "1",
      .double (.zero false)] := by decide

/-! ## The rule for the values -/

/-- Of the rules of a string schema that lists values, one has the whole list, and no other one
lists values. -/
def StringSchema.RulesList (root : Node) (s : StringSchema) (values : List Literal) : Prop :=
  ∃ others, (Schema.string s).rules root =
      .ok (⟨.stringEnum (values.map Literal.located), s.object.entryLoc? "enum"⟩ :: others) ∧
    ∀ rule ∈ others, ∀ listed, rule.constraint ≠ .stringEnum listed

namespace Object

variable {o : Object} {name : String} {rule : Rule} {listed : List (Located Primitive)}

theorem textRule_ne {constraint : Located String → Constraint}
    (hr : rule ∈ o.textRule name constraint) (h : ∀ text, constraint text ≠ .stringEnum listed) :
    rule.constraint ≠ .stringEnum listed := by
  unfold textRule at hr
  split at hr
  · cases List.mem_singleton.1 hr
    exact h _
  · cases hr

theorem amountRule_ne {constraint : Located Number → Constraint}
    (hr : rule ∈ o.amountRule name constraint)
    (h : ∀ amount, constraint amount ≠ .stringEnum listed) :
    rule.constraint ≠ .stringEnum listed := by
  unfold amountRule at hr
  split at hr
  · cases List.mem_singleton.1 hr
    exact h _
  · cases hr

end Object

theorem StringSchema.rulesList {root : Node} {s : StringSchema} {values : List Literal}
    (h : s.enum = .ok (some values)) : s.RulesList root values := by
  refine ⟨s.object.textRule "format" .stringFormat ++
    s.object.amountRule "maxLength" .stringMaxLength ++
    s.object.amountRule "minLength" .stringMinLength ++
    s.object.textRule "pattern" .stringPattern, ?_, fun rule hr listed => ?_⟩
  · simp [Schema.rules, Schema.ownRules, Schema.itemRules, StringSchema.rules, h, Object.rule,
      bind, Except.bind, pure, Except.pure]
  · simp only [List.mem_append] at hr
    rcases hr with ((hr | hr) | hr) | hr
    · exact Object.textRule_ne hr (by rintro _ ⟨⟩)
    · exact Object.amountRule_ne hr (by rintro _ ⟨⟩)
    · exact Object.amountRule_ne hr (by rintro _ ⟨⟩)
    · exact Object.textRule_ne hr (by rintro _ ⟨⟩)

/-! ## What is registered -/

/-- The enum is the one of a string schema that lists values, and that stands within the document
or in a place. -/
def Service.EnumDef.MadeAt (root place : Node) (e : EnumDef) : Prop :=
  ∃ (s : StringSchema) (values : List Literal),
    (s.object.node.Within place ∨ s.object.node.Within root) ∧
      s.enum = .ok (some values) ∧ e = s.enumDef e.name values

/-- If an enum is recorded, then it is made so. -/
def Entry.EnumMadeAt (root place : Node) : Entry → Prop
  | .enum e => e.MadeAt root place
  | _ => True

theorem Entry.allows_enumMadeAt (root : Node) : Entry.Allows root (Entry.EnumMadeAt root) where
  enum stands listed := ⟨_, _, stands, listed, rfl⟩
  type := trivial
  union := trivial
  widen := by
    intro place inner e within made
    cases e with
    | enum e =>
      obtain ⟨s, values, stands, listed, eq⟩ := made
      refine ⟨s, values, ?_, listed, eq⟩
      rcases stands with stands | stands
      · exact within.imp stands.trans stands.trans
      · exact .inr stands
    | _ => trivial

/-! ## Registered enums -/

/-- The node that a request is about. -/
def Request.node : Request → Node
  | describe schema _ _ => View.node schema
  | inPlace schema _ _ => View.node schema
  | properties schema _ _ => schema.object.node

theorem Request.node_call (request : Request) (guards : Guards) :
    (request.call guards).node = request.node := by
  cases request <;> rfl

theorem Request.journal_run (root : Node) (request : Request) (guards : Guards) :
    ((request.call guards).run root).journal = (request.run root guards).journal := by
  cases request <;> rfl

/-- What a request adds to the table of enums is made within the document or at its node. -/
theorem Request.registers (root : Node) (request : Request) (l : Ledger) :
    ∃ registered, ((request.perform root).runOn l).2.enums = l.enums ++ registered ∧
      ∀ e ∈ registered, e.MadeAt root request.node := by
  have performed := follows_perform root l.guards request l rfl
  have made := (Call.records (Entry.allows_enumMadeAt root) (request.call l.guards)
    fun _ _ => trivial).1
  rw [request.journal_run, request.node_call] at made
  refine ⟨(request.run root l.guards).journal.filterMap Entry.enum?, ?_, fun e he => ?_⟩
  · rw [performed]
    rfl
  · obtain ⟨entry, recorded, found⟩ := List.mem_filterMap.1 he
    have entryMade := made entry recorded
    cases entry with
    | enum e' =>
      cases found
      exact entryMade
    | _ => cases found

/-- The values that a schema of a text lists are values of that text. -/
theorem StringSchema.enum_normal {s : StringSchema} {values : List Literal}
    (text : s.object.node.FromText) (h : s.enum = .ok (some values)) :
    ∀ l ∈ values, l.value.IsNormal := by
  intro l hl
  obtain ⟨items, range, found, item, mem, read⟩ := Object.array_eq_ok h hl
  split at read
  · cases read
    have below : (Node.literal l).Within s.object.node :=
      (Node.Child.item mem).within.trans (Object.value?_child found).within
    exact (text.within below).literal_normal
  · cases read

/-- The enum is the one of a string schema that lists values. -/
structure Service.EnumDef.IsOf (root place : Node) (e : EnumDef) (s : StringSchema)
    (values : List Literal) : Prop where
  stands : s.object.node.Within place ∨ s.object.node.Within root
  listed : s.enum = .ok (some values)
  loc : e.loc = s.object.entryLoc? "enum"
  lists : e.Lists values
  rule : s.RulesList root values

/-- Whatever a synthesis is asked for, each enum that it registers is the one of a string schema:
it has the distinct values that the schema lists, and the rule of the schema has them all. -/
theorem registered_enums_distinct {root : Node} {request : Request} (l : Ledger)
    (document : root.FromText) (asked : request.node.FromText) :
    ∃ registered, ((request.perform root).runOn l).2.enums = l.enums ++ registered ∧
      ∀ e ∈ registered, ∃ s values, e.IsOf root request.node s values := by
  obtain ⟨registered, added, made⟩ := request.registers root l
  refine ⟨registered, added, fun e he => ?_⟩
  obtain ⟨s, values, stands, listed, same⟩ := made e he
  have text : s.object.node.FromText := by
    rcases stands with stands | stands
    · exact asked.within stands
    · exact document.within stands
  refine ⟨s, values, stands, listed, ?_, ?_, s.rulesList listed⟩
  · rw [same]
    rfl
  · rw [same]
    exact s.enumDef_lists (s.enum_normal text listed)

namespace Repeating

/-- A schema that lists nothing, and a text that is spelled like it, twice each. -/
def text : String := "'type': 'string'\n'enum':\n- 'null'\n-\n- \"null\"\n-\n"

/-- The span from one column to another one in a line that starts at an offset. -/
def span (line offset first last : Nat) : Text.Range :=
  ⟨⟨line, first, offset + first - 1⟩, ⟨line, last, offset + last - 1⟩⟩

def values : List Literal :=
  [⟨.text "null", span 3 25 3 9⟩, ⟨.null, span 4 34 2 2⟩, ⟨.text "null", span 5 36 3 9⟩,
    ⟨.null, span 6 45 2 2⟩]

def object : Object :=
  ⟨[(⟨"type", span 1 0 1 7⟩, .literal ⟨.text "string", span 1 0 9 17⟩),
    (⟨"enum", span 2 17 1 7⟩, .array (values.map .literal) ⟨⟨3, 1, 25⟩, ⟨7, 1, 47⟩⟩)],
    ⟨⟨1, 1, 0⟩, ⟨7, 1, 47⟩⟩⟩

/-- The schema is asked for in place. -/
def request : Request := .inPlace (.string ⟨object⟩) "marks" "Page"

/-- What is registered on an empty ledger. -/
def registered : List EnumDef :=
  ((request.perform object.node).runOn (.empty (.none 1))).2.enums

theorem read_repeating : Node.read text = .ok object.node := by decide +kernel

theorem fromText : object.node.FromText := ⟨text, object.node, read_repeating, .refl _⟩

end Repeating

theorem registered_enums_distinct_repeating :
    Repeating.object.node.FromText ∧ Repeating.request.node.FromText ∧
    Repeating.registered.map (·.values) = [(Repeating.values.take 2).map Literal.enumValue] ∧
    ∃ registered, Repeating.registered = [] ++ registered ∧
      ∀ e ∈ registered, ∃ s values,
        e.IsOf Repeating.object.node Repeating.request.node s values :=
  ⟨Repeating.fromText, Repeating.fromText, by decide +kernel,
    registered_enums_distinct (.empty (.none 1)) Repeating.fromText Repeating.fromText⟩

end ServiceModel

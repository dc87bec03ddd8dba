/-
Bodies of component responses. What resolves pointers undoes the escapes in them, and what takes
the name of a component response out of one does not. The anonymous shape of a body is called
after the name as it is written in the pointer, which is the name of the component exactly if it
holds neither a tilde nor a slash.
-/
import Mathlib
import ServiceModel.Proofs.Build.Outcome
import ServiceModel.Proofs.Document.Pointers
import ServiceModel.Interfaces.Operation

namespace ServiceModel

namespace Pointer

/-! ## Pointers to component responses -/

/-- The pointer to the component response with a name. -/
def ofResponseName (name : String) : String :=
  responsesLead ++ String.ofList (escape name.toList)

/-- The names that lead to a component response. -/
def responseNames (name : String) : List String := ["components", "responses", name]

theorem ofResponseName_eq_ofKeys (name : String) :
    ofResponseName name = ofKeys (responseNames name) := by
  have place : responsesLead.toList = '#' :: '/' :: (escape "components".toList ++
      '/' :: (escape "responses".toList ++ ['/'])) := by decide
  rw [ofResponseName, ofKeys, responseNames, ← String.toList_inj, String.toList_append, place,
    String.toList_ofList, String.toList_ofList]
  simp [List.flatMap_cons]

/-- The resolver looks for the name among the component responses. -/
theorem keys_ofResponseName (name : String) :
    keys (ofResponseName name) = .ok (responseNames name) := by
  rw [ofResponseName_eq_ofKeys, keys_ofKeys]

theorem escape_eq_nil {name : List Char} : escape name = [] ↔ name = [] := by
  constructor
  · intro h
    rw [← unescape_escape name, h]
    rfl
  · rintro rfl
    rfl

/-- The name is taken out of the pointer as it is written there. -/
theorem responseName?_ofResponseName {name : String} (some : name ≠ "") :
    responseName? (ofResponseName name) = .some (String.ofList (escape name.toList)) := by
  have filled : escape name.toList ≠ [] := by
    rw [Ne, escape_eq_nil, String.toList_eq_nil_iff]
    exact some
  rw [responseName?, ofResponseName, String.toList_append, String.toList_ofList,
    Text.after?_append]
  cases written : escape name.toList with
  | nil => exact absurd written filled
  | cons c rest => rfl

/-! ## Names without escapes -/

theorem length_le_escape (name : List Char) : name.length ≤ (escape name).length := by
  induction name with
  | nil => exact Nat.le_refl _
  | cons c rest ih =>
    rw [escape]
    split_ifs <;> simp only [List.length_cons] <;> omega

/-- Every escape makes a name longer, so only a name without any is written as it is. -/
theorem escape_eq_self_iff {name : List Char} : escape name = name ↔ '~' ∉ name ∧ '/' ∉ name := by
  induction name with
  | nil => simp [escape]
  | cons c rest ih =>
    have longer {d e : Char} : d :: e :: escape rest ≠ c :: rest := by
      intro same
      have grown := length_le_escape rest
      have length := congrArg List.length same
      simp only [List.length_cons] at length
      omega
    rw [escape]
    by_cases tilde : c = '~'
    · rw [if_pos tilde, tilde]
      exact iff_of_false (tilde ▸ longer) fun both => both.1 List.mem_cons_self
    · rw [if_neg tilde]
      by_cases slash : c = '/'
      · rw [if_pos slash, slash]
        exact iff_of_false (slash ▸ longer) fun both => both.2 List.mem_cons_self
      · rw [if_neg slash, List.cons.injEq, ih]
        simp only [List.mem_cons, not_or, true_and, Ne.symm tilde, Ne.symm slash, not_false_eq_true]

theorem ofList_escape_eq_iff {name : String} :
    String.ofList (escape name.toList) = name ↔ Plain name := by
  rw [← String.toList_inj, String.toList_ofList]
  exact escape_eq_self_iff

end Pointer

namespace OpenApi

open Service
open Text (replace)

variable {d : Description} {guards : Guards} {operation : Operation} {method : String}

/-! ## Bodies -/

/-- What a method returns whose response has its body described under a parent. -/
def returnTypeUnder (d : Description) (guards : Guards) (source : OrReference Response)
    (parent : String) : Build (Option ReturnType) := do
  let response ← source.resolve d.root Response.ofNode
  match ← contentSchema (← response.content) with
  | none => return none
  | some schema => do
    let type ← describe d.root guards schema "response" parent
    return some ⟨type.type, some type.loc⟩

/-- The parent of a body is the component that the response is, and else the method. -/
theorem returnTypeOf_under {primary : PrimaryResponse} {source : OrReference Response}
    {component : Option String} (hp : operation.primaryResponse = .ok (some primary))
    (hs : primary.source = .ok (some source)) (hc : componentName? source = .ok component) :
    returnTypeOf d guards operation method =
      returnTypeUnder d guards source (component.getD method) := by
  unfold returnTypeOf returnTypeUnder
  rw [hp, Build.read_ok_bind]
  dsimp only
  rw [hs, Build.read_ok_bind]
  refine Build.bind_congr fun response _ => Build.bind_congr fun content _ =>
    Build.bind_congr fun found _ => ?_
  cases found with
  | none => rfl
  | some schema =>
    dsimp only
    rw [hc]
    rfl

/-- An object shape in place is called after its place. -/
theorem describe_shape_named {root : Node} {s : ObjectSchema} {name parent : String}
    {type : Descriptor}
    (h : (describe root guards (.inline (.object s)) name parent).outcome = .ok type) :
    type.type.typeName.value = Naming.ofShape parent name := by
  rw [describe_inline, describeInPlace_object] at h
  obtain ⟨rules, -, h⟩ := Build.lift_bind_ok h
  obtain ⟨members, -, h⟩ := Build.lift_bind_ok h
  cases members with
  | none =>
    obtain ⟨properties, -, h, -⟩ := Build.bind_ok h
    obtain ⟨_, -, h, -⟩ := Build.bind_ok h
    cases Build.pure_ok h
    rfl
  | some members =>
    obtain ⟨uses, -, h, -⟩ := Build.bind_ok h
    obtain ⟨_, -, h, -⟩ := Build.bind_ok h
    cases Build.pure_ok h
    rfl

/-- A response that has an object shape in place as its body. -/
def HasShape (root : Node) (source : OrReference Response) : Prop :=
  ∃ response content s, source.resolve root Response.ofNode = .ok response ∧
    response.content = .ok content ∧
      (contentSchema content).outcome = .ok (some (.inline (.object s)))

theorem returnTypeUnder_shape_named {source : OrReference Response} {parent : String}
    {found : Option ReturnType} (hs : HasShape d.root source)
    (h : (returnTypeUnder d guards source parent).outcome = .ok found) :
    ∃ type, found = some type ∧ type.type.typeName.value = Naming.ofShape parent "response" := by
  obtain ⟨response, content, s, hr, hc, hf⟩ := hs
  unfold returnTypeUnder at h
  rw [hr, Build.read_ok_bind, hc, Build.read_ok_bind, Build.outcome_bind hf] at h
  obtain ⟨type, hd, h, -⟩ := Build.bind_ok h
  cases Build.pure_ok h
  exact ⟨_, rfl, describe_shape_named hd⟩

/-! ## Responses that are components -/

/-- How an operation is read whose success is a reference to the component response `name`. -/
structure NamesResponse (d : Description) (guards : Guards) (operation : Operation)
    (method name : String) (r : Reference) : Prop where
  /-- Behind the place of the responses, the tildes of the name are escaped first and its slashes
  then. -/
  written : (Pointer.ofResponseName name).toList = "#/components/responses/".toList ++
    replace ['/'] ['~', '1'] (replace ['~'] ['~', '0'] name.toList)
  /-- The resolver looks for the name. -/
  looked : Pointer.keys (Pointer.ofResponseName name) = .ok ["components", "responses", name]
  /-- The parent of the body is what is written in the pointer. -/
  taken : componentName? (.reference r) = .ok (some (String.ofList (Pointer.escape name.toList)))
  /-- That is the name exactly if the name holds no tilde and no slash. -/
  faithful : componentName? (.reference r) = .ok (some name) ↔
    '~' ∉ name.toList ∧ '/' ∉ name.toList
  /-- The body is described under a name without tilde and slash itself. -/
  returned : '~' ∉ name.toList → '/' ∉ name.toList →
    returnTypeOf d guards operation method = returnTypeUnder d guards (.reference r) name
  /-- The shape of the body is then called after the name. -/
  shaped : '~' ∉ name.toList → '/' ∉ name.toList → HasShape d.root (.reference r) →
    ∀ found, (returnTypeOf d guards operation method).outcome = .ok found →
      ∃ type, found = some type ∧ type.type.typeName.value = Naming.ofShape name "response"

theorem component_response_names {primary : PrimaryResponse} {r : Reference} {name : String}
    (hp : operation.primaryResponse = .ok (some primary))
    (hs : primary.source = .ok (some (.reference r)))
    (hr : r.pointer = .ok (Pointer.ofResponseName name)) (hn : name ≠ "") :
    NamesResponse d guards operation method name r := by
  have taken : componentName? (.reference r) =
      .ok (some (String.ofList (Pointer.escape name.toList))) := by
    rw [componentName?, hr, ← Pointer.responseName?_ofResponseName hn]
    rfl
  have returned (plain : Pointer.Plain name) : returnTypeOf d guards operation method =
      returnTypeUnder d guards (.reference r) name := by
    have same := Pointer.ofList_escape_eq_iff.2 plain
    rw [returnTypeOf_under hp hs taken, same, Option.getD_some]
  constructor
  · rw [Pointer.ofResponseName, String.toList_append, String.toList_ofList,
      Pointer.escape_eq_replace, Pointer.responsesLead]
  · exact Pointer.keys_ofResponseName name
  · exact taken
  · rw [taken, Except.ok.injEq, Option.some.injEq]
    exact Pointer.ofList_escape_eq_iff
  · exact fun tilde slash => returned ⟨tilde, slash⟩
  · intro tilde slash shape found h
    rw [returned ⟨tilde, slash⟩] at h
    exact returnTypeUnder_shape_named shape h

namespace Sample

/-- An object node of which nothing is known but its entries. -/
def object (entries : List (String × Node)) : Node :=
  .object (entries.map fun entry => (⟨entry.1, default⟩, entry.2)) default

/-- A text of which nothing else is known. -/
def text (value : String) : Node := .literal ⟨.text value, default⟩

/-- A description with one component response, whose body is an object shape in place. -/
def responding (name : String) : Description :=
  let body := object [("content", object [("application/json",
    object [("schema", object [("type", text "object")])])])]
  ⟨⟨[(⟨"components", default⟩, object [("responses", object [(name, body)])])], default⟩⟩

/-- A reference with the given pointer. -/
def referring (pointer : String) : Reference :=
  ⟨⟨[(⟨referenceName, default⟩, text pointer)], default⟩⟩

/-- An operation of which success is a reference. -/
def succeeding (pointer : String) : Operation :=
  let success := object [(referenceName, text pointer)]
  ⟨⟨[(⟨"responses", default⟩, object [("200", success)])], default⟩⟩

/-- The name of the type that a method `get` returns. -/
def returned (name pointer : String) : Option String := do
  let found ← (returnTypeOf (responding name) (.none 1) (succeeding pointer) "get").outcome.toOption
  return (← found).type.typeName.value

end Sample

theorem component_response_names_plain : NamesResponse (Sample.responding "Found") (.none 1)
    (Sample.succeeding "#/components/responses/Found") "get" "Found"
    (Sample.referring "#/components/responses/Found") :=
  component_response_names rfl rfl rfl (by decide)

/-- With a slash in its name, a component response is found and its body is called after the
escape. -/
theorem component_response_names_slash :
    Pointer.keys "#/components/responses/a~1b" = .ok ["components", "responses", "a/b"] ∧
      componentName? (.reference (Sample.referring "#/components/responses/a~1b")) =
        .ok (some "a~1b") ∧
      Sample.returned "a/b" "#/components/responses/a~1b" = some "a1BResponse" ∧
      Naming.ofShape "a/b" "response" = "aBResponse" := by
  refine ⟨by decide, rfl, ?_, by decide +kernel⟩
  cbv

end OpenApi

end ServiceModel

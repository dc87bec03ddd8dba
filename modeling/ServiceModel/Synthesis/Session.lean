/-
A synthesis that is asked again and again. It keeps a ledger: the guards that are held, and the
types, enums and unions that were defined so far. A request enters and gives up guards in the
ledger and adds to its tables, and what it did to the tables stays when it fails.

A request is answered in rounds, one for each request that it makes on the way. How many rounds
there can be is known beforehand: within one guard they go to smaller schemas, and only so many
guards can be entered.
-/
import ServiceModel.Synthesis.Describe

namespace ServiceModel

open Service

/-! ## Ledgers -/

/-- What a synthesis keeps from one request to the next. -/
structure Ledger where
  /-- The keys of what is being resolved. -/
  guards : Guards
  /-- The types without names of their own, in the order in which they were defined. -/
  types : List TypeDef
  enums : List EnumDef
  unions : List UnionDef
  deriving Repr

namespace Ledger

/-- Nothing is defined. -/
def empty (guards : Guards) : Ledger := ⟨guards, [], [], []⟩

/-- Puts a definition at the end of its table. -/
def add (l : Ledger) : Entry → Ledger
  | .type t => { l with types := l.types ++ [t] }
  | .enum e => { l with enums := l.enums ++ [e] }
  | .union u => { l with unions := l.unions ++ [u] }
  | _ => l

end Ledger

/-! ## Sessions -/

/-- A computation on a ledger. A failure keeps the ledger as it is then. -/
abbrev Session := ExceptT Failure (StateM Ledger)

namespace Session

variable {α : Type}

/-- What a session comes to on a ledger, and the ledger afterwards. -/
def runOn (x : Session α) (l : Ledger) : Except Failure α × Ledger := x.run.run l

/-- Adds a definition to the ledger. -/
def define (entry : Entry) : Session Unit := modify (·.add entry)

/-- Holds one more key while the body runs, and gives it up however that ends. -/
def guarded (key : String) (body : Session α) : Session α := do
  let inner ← (← get).guards.enter key
  modify fun l => { l with guards := inner }
  try body finally modify fun l => { l with guards := l.guards.exit }

end Session

/-! ## Requests -/

/-- What a synthesis can be asked for. -/
inductive Request where
  /-- The descriptor of a schema or of what a reference leads to. -/
  | describe (schema : SchemaOrReference) (name parent : String)
  /-- The descriptor of a schema in place. -/
  | inPlace (schema : Schema) (name parent : String)
  /-- The properties of an object schema. -/
  | properties (schema : ObjectSchema) (parent : String) (inherited : List Literal)

namespace Request

/-- What a request is answered with. -/
@[reducible] def Answer : Request → Type
  | describe .. => Descriptor
  | inPlace .. => Descriptor
  | properties .. => List Member

/-- One round, in which the requests that are made on the way are answered by `answer`. -/
def step (root : Node) (answer : (request : Request) → Session request.Answer) :
    (request : Request) → Session request.Answer
  | describe (.inline s) name parent => answer (inPlace s name parent)
  | describe (.reference r) name parent => do
    let pointer ← r.pointer
    let target ← SchemaOrReference.resolve root (.reference r)
    let rules ← target.rules root
    match Pointer.schemaName? pointer with
    | none => return .named ⟨pointer, some (← root.pointerLoc pointer)⟩ rules target.node.loc
    | some component => do
      let typeName : Located String := ⟨component, some (← root.pointerLoc pointer)⟩
      match target with
      | .object _ => return .named typeName rules target.node.loc
      | _ =>
        match ← target.enum? with
        | some (s, values) => do
          Session.define (.enum (s.enumDef typeName values))
          return .named typeName rules target.node.loc
        | none => Session.guarded pointer (answer (inPlace target name parent))
  | inPlace (.string s) name parent => do
    let rules ← (Schema.string s).rules root
    match ← s.enum with
    | some values => do
      let typeName : Located String := ⟨Naming.ofEnum parent name, none⟩
      Session.define (.enum (s.enumDef typeName values))
      return .named typeName rules s.object.loc
    | none => return .primitive (← s.typeName) rules s.default? s.const? s.object.loc
  | inPlace (.number s) _ _ => do
    let rules ← (Schema.number s).rules root
    return .primitive (← s.typeName) rules s.default? s.const? s.object.loc
  | inPlace (.boolean s) _ _ => do
    let rules ← (Schema.boolean s).rules root
    return .primitive (← s.typeName) rules s.default? s.const? s.object.loc
  | inPlace (.array s) name parent => do
    let rules ← (Schema.array s).rules root
    match ← s.items with
    | none => throw (.shape (.noItems s.object.start))
    | some items =>
      return .arrayOf (← answer (describe items name parent)) rules s.object.loc
  | inPlace (.object s) name parent => do
    let rules ← (Schema.object s).rules root
    let typeName : Located String := ⟨Naming.ofShape parent name, none⟩
    match ← s.oneOf with
    | some members => do
      let uses ← members.mapM fun member => do
        return (← answer (describe member.asSchema name parent)).type
      Session.define (.union ⟨typeName, uses, some s.object.loc, s.object.metadata⟩)
    | none => do
      let properties ← answer (properties s typeName.value [])
      Session.define (.type ⟨typeName, s.description?.map Literal.locatedText, properties, s.rules,
        some s.object.loc, none⟩)
    return .named typeName rules s.object.loc
  | properties s parent inherited => do
    let required := (← s.required) ++ inherited
    match ← s.allOf with
    | some branches => do
      let merged ← branches.mapM fun branch => do
        let key ← branch.guardKey
        Session.guarded key do
          match ← branch.asSchema.resolve root with
          | .object b => answer (properties b parent required)
          | _ => return []
      return merged.flatten
    | none =>
      match ← s.properties with
      | none => return []
      | some index =>
        index.entries.mapM fun entry => do
          let schema ← SchemaOrReference.ofNode entry.2
          let resolved ← schema.resolve root
          let type ← answer (describe schema entry.1.name parent)
          let rules ← resolved.rulesWhen root (required.any (·.text == entry.1.name))
          return propertyOf index entry.1.name resolved type rules

/-- The size of the node that a request is about. -/
def size : Request → Nat
  | describe (.inline s) .. => s.node.node.count
  | describe (.reference r) .. => r.object.node.count
  | inPlace s .. => s.node.node.count
  | properties s .. => s.object.node.count

/-- How many requests about one node may follow. -/
def stage : Request → Nat
  | describe .. => 2
  | inPlace .. => 1
  | properties .. => 0

/-- No requests that are made one by another nest deeper than this. -/
def depth (root : Node) (guards : Guards) (request : Request) : Nat :=
  guards.room * (3 * root.count + 3) + 3 * request.size + request.stage

/-- The answer in as many rounds. Past the last round a request is refused. -/
def within (root : Node) : Nat → (request : Request) → Session request.Answer
  | 0, _ => do throw (.cycle (.chain (← get).guards.held))
  | rounds + 1, request => request.step root (within root rounds)

/-- The answer. -/
def perform (root : Node) (request : Request) : Session request.Answer := do
  within root (request.depth root (← get).guards + 1) request

/-- The ledger after requests, one after another, whether they succeed or fail. -/
def performAll (root : Node) (requests : List Request) (l : Ledger) : Ledger :=
  requests.foldl (fun l request => ((request.perform root).runOn l).2) l

end Request

end ServiceModel

/-
Two documents side by side. A likeness relates nodes of the one to nodes of the other of which the
same is read: one value, items that are related one by one, or related values under the same names.
Beyond that it says which spans correspond and which failures are allowed. Whatever is read from
two related nodes is then related again, along pointers and references as well. Only few objects
are gone through entry by entry; of the others the first entries with each name are enough.

In parallel documents objects share their span in the one exactly if those related to them do in
the other, and a pairing relates documents that have one plain value. A document paired with itself
tells what holds of every single reading; two documents that differ in their spans, what a reading
owes to the spans.
-/
import ServiceModel.OpenApi.Metadata
import ServiceModel.Proofs.Build.Agree
import ServiceModel.Proofs.Document.Chain
import ServiceModel.Proofs.Document.Entries
import ServiceModel.Proofs.Document.Objects

namespace ServiceModel

open Service

/-! ## Likenesses -/

/-- A failure that what stands in a document may lead to, however much may be nested. -/
def Failure.OfReading : Failure → Prop
  | .load _ => True
  | .shape _ => True
  | .pointer _ => True
  | .cycle (.chain _) => True
  | _ => False

/-- Two entries with one name and related values, at corresponding spans. -/
structure EntriesAlike (nodes : Node → Node → Prop) (spans : String → String → Prop)
    (entry entry' : Key × Node) : Prop where
  name : entry.1.name = entry'.1.name
  value : nodes entry.2 entry'.2
  key : spans entry.1.loc entry'.1.loc
  whole : spans (Object.entryRange entry).encode (Object.entryRange entry').encode

/-- Two objects in which the same is found under every name. -/
structure ObjectsRead (nodes : Node → Node → Prop) (spans : String → String → Prop)
    (o o' : Object) : Prop where
  names : o.distinctKeys = o'.distinctKeys
  entry : ∀ name, Option.Rel (EntriesAlike nodes spans) (o.entry? name) (o'.entry? name)
  metadata : MetadataAlike spans o.metadata o'.metadata

/-- Two nodes of one form, of which the same is read. -/
inductive NodesRead (nodes : Node → Node → Prop) (spans : String → String → Prop) :
    Node → Node → Prop
  | literal {value : Primitive} {range range' : Text.Range} :
      NodesRead nodes spans (.literal ⟨value, range⟩) (.literal ⟨value, range'⟩)
  | array {items items' : List Node} {range range' : Text.Range} :
      List.Forall₂ nodes items items' →
      NodesRead nodes spans (.array items range) (.array items' range')
  | object {entries entries' : List (Key × Node)} {range range' : Text.Range} :
      ObjectsRead nodes spans ⟨entries, range⟩ ⟨entries', range'⟩ →
      NodesRead nodes spans (.object entries range) (.object entries' range')

/-- The names under which an object is gone through entry by entry, with any repetitions. -/
def walkedNames : List String := ["properties", "content", "scopes"]

/-- What stands in an object and is gone through entry by entry. -/
inductive Object.Walks (o : Object) : Object → Prop
  | value {name : String} {q : Object} :
      name ∈ walkedNames → o.value? name = some q.node → Walks o q
  | item {items : List Node} {range : Text.Range} {q : Object} :
      o.value? "security" = some (.array items range) → q.node ∈ items → Walks o q

/-- Two documents, with a relation between their nodes that goes from the roots down. -/
structure Likeness (root root' : Node) where
  nodes : Node → Node → Prop
  /-- The spans that correspond. -/
  spans : String → String → Prop
  /-- The failures that are allowed. -/
  fails : Failure → Prop
  roots : nodes root root'
  within : ∀ {n n'}, nodes n n' → n.Within root ∧ n'.Within root'
  alike : ∀ {n n'}, nodes n n' → NodesRead nodes spans n n'
  walked : ∀ {o q q' : Object}, o.node.Within root → o.Walks q → nodes q.node q'.node →
    List.Forall₂ (EntriesAlike nodes spans) q.entries q'.entries
  span : ∀ {n n'}, nodes n n' → spans n.loc n'.loc
  reading : ∀ {e : Failure}, e.OfReading → fails e

/-- A likeness under which the keys that are held in the one document coincide exactly if they do
in the other. -/
structure Parallel (root root' : Node) extends Likeness root root' where
  /-- How many guards may be held. -/
  limit : Int
  /-- Objects are at one place in both documents or in none. -/
  same_place : ∀ {o q o' q' : Object}, nodes o.node o'.node → nodes q.node q'.node →
    (o.range = q.range ↔ o'.range = q'.range)
  /-- Only a limit below the number of objects is ever exceeded. -/
  tooDeep : ∀ {key}, limit ≤ root.objects.length ∨ limit ≤ root'.objects.length →
    fails (.cycle (.tooDeep limit key))

/-- Two documents with one plain value as well. -/
structure Pairing (root root' : Node) extends Parallel root root' where
  plain : root.toJson = root'.toJson

namespace Likeness

variable {α α' β β' : Type} {root root' : Node} (p : Likeness root root')

/-- Objects that are related as nodes. -/
abbrev Objects (o o' : Object) : Prop := p.nodes o.node o'.node

/-- Values that are related as nodes. -/
abbrev Literals (l l' : Literal) : Prop := p.nodes (.literal l) (.literal l')

abbrev Entries : Key × Node → Key × Node → Prop := EntriesAlike p.nodes p.spans

/-- Objects that are related, and so are their entries one by one. -/
structure Walked (o o' : Object) : Prop where
  objects : p.Objects o o'
  entries : List.Forall₂ p.Entries o.entries o'.entries

/-- What is written in place in both documents, or referred to in both. -/
inductive Sources (Q : α → α' → Prop) : OrReference α → OrReference α' → Prop
  | inline {a : α} {a' : α'} : Q a a' → Sources Q (.inline a) (.inline a')
  | reference {r r' : Reference} : p.Objects r.object r'.object →
      Sources Q (.reference r) (.reference r')

/-- Readings that agree. -/
abbrev Agree (Q : α → α' → Prop) : Except Failure α → Except Failure α' → Prop :=
  ServiceModel.Agree p.fails Q

/-- Computations that agree. -/
abbrev Builds (Q : α → α' → Prop) : Build α → Build α' → Prop :=
  Build.Agree p.spans p.fails Q

/-- Two readings that fail. -/
theorem fails_both {Q : α → α' → Prop} {e e' : Failure} (h : e.OfReading) (h' : e'.OfReading) :
    p.Agree Q (.error e) (.error e') := .error (p.reading h) (p.reading h')

variable {p}

theorem Walked.keys_eq {o o' : Object} (h : p.Walked o o') : o.keys = o'.keys :=
  map_eq_of_forall₂ h.entries fun _ _ he => he.name

/-! ## Nodes -/

theorem value_eq {l l' : Literal} (h : p.Literals l l') : l.value = l'.value := by
  cases p.alike h
  rfl

theorem literal_span {l l' : Literal} (h : p.Literals l l') : p.spans l.loc l'.loc := by
  have hs := p.span h
  exact hs

theorem object_span {o o' : Object} (h : p.Objects o o') : p.spans o.loc o'.loc := by
  have hs := p.span h
  exact hs

theorem text_eq {l l' : Literal} (h : p.Literals l l') : l.text = l'.text := by
  rw [Literal.text, Literal.text, value_eq h]

theorem object? {n n' : Node} (h : p.nodes n n') :
    Option.Rel p.Objects n.object? n'.object? := by
  cases p.alike h with
  | literal => exact .none
  | array _ => exact .none
  | object _ => exact .some h

theorem asObject {n n' : Node} (h : p.nodes n n') (what : String) :
    p.Agree p.Objects (n.asObject what) (n'.asObject what) := by
  have ho := object? h
  unfold Node.asObject
  generalize n.object? = o, n'.object? = o' at ho ⊢
  cases ho with
  | none => exact p.fails_both trivial trivial
  | some ho => exact .ok ho

/-- A view of an object that a node has to be. -/
theorem view {n n' : Node} (h : p.nodes n n') (what : String) {make : Object → α}
    {make' : Object → α'} {Q : α → α' → Prop}
    (hm : ∀ o o', p.Objects o o' → Q (make o) (make' o')) :
    p.Agree Q (do return make (← n.asObject what)) (do return make' (← n'.asObject what)) :=
  (asObject h what).map hm

theorem asLiteral {n n' : Node} (h : p.nodes n n') :
    p.Agree p.Literals n.asLiteral n'.asLiteral := by
  cases p.alike h with
  | literal => exact .ok h
  | array _ => exact p.fails_both trivial trivial
  | object _ => exact p.fails_both trivial trivial

/-! ## Entries -/

section

variable {o o' : Object} (h : p.Objects o o')

include h

theorem objects_read : ObjectsRead p.nodes p.spans o o' := by
  cases p.alike h with
  | object he => exact he

theorem distinctKeys_eq : o.distinctKeys = o'.distinctKeys := (objects_read h).names

theorem firstEntry (name : String) : Option.Rel p.Entries (o.entry? name) (o'.entry? name) :=
  (objects_read h).entry name

theorem metadata : MetadataAlike p.spans o.metadata o'.metadata := (objects_read h).metadata

theorem value? (name : String) : Option.Rel p.nodes (o.value? name) (o'.value? name) :=
  rel_map (fun _ _ he => he.value) (firstEntry h name)

theorem keyLoc? (name : String) : Option.Rel p.spans (o.keyLoc? name) (o'.keyLoc? name) :=
  rel_map (fun _ _ he => he.key) (firstEntry h name)

theorem literal? (name : String) :
    Option.Rel p.Literals (o.literal? name) (o'.literal? name) := by
  have hv := value? h name
  unfold Object.literal?
  generalize o.value? name = v, o'.value? name = v' at hv ⊢
  cases hv with
  | none => exact .none
  | some hn =>
    cases p.alike hn with
    | literal => exact .some hn
    | array _ => exact .none
    | object _ => exact .none

theorem text? (name : String) : Option.Rel p.Literals (o.text? name) (o'.text? name) := by
  have hl := literal? h name
  unfold Object.text?
  generalize o.literal? name = l, o'.literal? name = l' at hl ⊢
  cases hl with
  | none => exact .none
  | some hl =>
    dsimp only
    rw [value_eq hl]
    split
    · exact .some hl
    · exact .none

theorem number? (name : String) : Option.Rel p.Literals (o.number? name) (o'.number? name) := by
  have hl := literal? h name
  unfold Object.number?
  generalize o.literal? name = l, o'.literal? name = l' at hl ⊢
  cases hl with
  | none => exact .none
  | some hl =>
    rw [Option.filter_some, Option.filter_some, value_eq hl]
    split
    · exact .some hl
    · exact .none

/-- An entry that is there carries its span, from its name to its value. -/
theorem known_entry {name : String} (hn : o.Has name) :
    Known p.spans (o.entryLoc? name) (o'.entryLoc? name) := by
  have he := firstEntry h name
  obtain ⟨e, found⟩ := hn
  unfold Object.entryLoc?
  rw [found] at he ⊢
  generalize o'.entry? name = e' at he ⊢
  cases he with
  | some he => exact .of_some he.whole

theorem requireText (name what : String) :
    p.Agree p.Literals (o.requireText name what) (o'.requireText name what) := by
  have hl := text? h name
  unfold Object.requireText
  generalize o.text? name = l, o'.text? name = l' at hl ⊢
  cases hl with
  | none => exact p.fails_both trivial trivial
  | some hl => exact .ok hl

theorem child {name : String} {read : Node → Except Failure α} {read' : Node → Except Failure α'}
    {Q : α → α' → Prop} (hr : ∀ n n', p.nodes n n' → p.Agree Q (read n) (read' n')) :
    p.Agree (Option.Rel Q) (o.child name read) (o'.child name read') := by
  have hv := value? h name
  unfold Object.child
  generalize o.value? name = v, o'.value? name = v' at hv ⊢
  cases hv with
  | none => exact .ok .none
  | @some n n' hn =>
    have hread := hr n n' hn
    dsimp only
    generalize read n = x, read' n' = x' at hread ⊢
    cases hread with
    | ok hq => exact .ok (.some hq)
    | error he he' => exact .error he he'

theorem array {name : String} {read : Node → Except Failure α} {read' : Node → Except Failure α'}
    {Q : α → α' → Prop} (hr : ∀ n n', p.nodes n n' → p.Agree Q (read n) (read' n')) :
    p.Agree (Option.Rel (List.Forall₂ Q)) (o.array name read) (o'.array name read') := by
  have hv := value? h name
  unfold Object.array
  generalize o.value? name = v, o'.value? name = v' at hv ⊢
  cases hv with
  | none => exact .ok .none
  | some hn =>
    cases p.alike hn with
    | literal => exact p.fails_both trivial trivial
    | object _ => exact p.fails_both trivial trivial
    | @array items items' _ _ hi =>
      have hread := Agree.mapM (hi.imp hr)
      dsimp only
      generalize items.mapM read = x, items'.mapM read' = x' at hread ⊢
      cases hread with
      | ok hq => exact .ok (.some hq)
      | error he he' => exact .error he he'

theorem literals (name : String) :
    p.Agree (Option.Rel (List.Forall₂ p.Literals)) (o.literals name) (o'.literals name) := by
  refine array h fun n n' hn => ?_
  cases p.alike hn with
  | literal => exact .ok hn
  | array _ => exact p.fails_both trivial trivial
  | object _ => exact p.fails_both trivial trivial

theorem index (name : String) :
    p.Agree (Option.Rel p.Objects) (o.index name) (o'.index name) :=
  child h fun _ _ hn => asObject hn _

/-- An object that is gone through entry by entry. -/
theorem walkedIndex {name : String} (hn : name ∈ walkedNames) :
    p.Agree (Option.Rel p.Walked) (o.index name) (o'.index name) := by
  refine (index h name).imp fun found found' hf _ hr => ?_
  cases hr with
  | none => exact .none
  | some hq =>
    obtain ⟨n, hv, ho⟩ := Object.child_eq_ok hf
    rw [← Node.asObject_ok ho] at hv
    exact .some ⟨hq, p.walked (p.within h).1 (.value hn hv) hq⟩

end

/-! ## Located values -/

theorem located {l l' : Literal} (h : p.Literals l l') :
    Located.Alike p.spans l.located l'.located := ⟨value_eq h, .some (literal_span h)⟩

theorem locatedText {l l' : Literal} (h : p.Literals l l') :
    Located.Alike p.spans l.locatedText l'.locatedText := ⟨text_eq h, .some (literal_span h)⟩

theorem locatedText? {l l' : Option Literal} (h : Option.Rel p.Literals l l') :
    Option.Rel (Located.Alike p.spans) (l.map Literal.locatedText) (l'.map Literal.locatedText) :=
  rel_map (fun _ _ hl => locatedText hl) h

theorem flag? {l l' : Literal} (h : p.Literals l l') :
    Option.Rel (Located.Alike p.spans) l.flag? l'.flag? := by
  unfold Literal.flag?
  rw [value_eq h]
  split
  · exact .some ⟨rfl, .some (literal_span h)⟩
  · exact .none

theorem amount? {l l' : Literal} (h : p.Literals l l') :
    Option.Rel (Located.Alike p.spans) l.amount? l'.amount? := by
  unfold Literal.amount?
  rw [value_eq h]
  split
  · exact .some ⟨rfl, .some (literal_span h)⟩
  · exact .some ⟨rfl, .some (literal_span h)⟩
  · exact .none

theorem isSet_eq {l l' : Option Literal} (h : Option.Rel p.Literals l l') :
    Literal.isSet l = Literal.isSet l' := by
  cases h with
  | none => rfl
  | @some l l' h =>
    show l.value.isTruthy = l'.value.isTruthy
    rw [value_eq h]

/-! ## References -/

theorem isReference_eq {n n' : Node} (h : p.nodes n n') : n.isReference = n'.isReference := by
  have ho := object? h
  unfold Node.isReference
  generalize n.object? = o, n'.object? = o' at ho ⊢
  cases ho with
  | none => rfl
  | @some o o' ho =>
    have hl := literal? ho referenceName
    dsimp only
    generalize o.literal? referenceName = l, o'.literal? referenceName = l' at hl ⊢
    cases hl with
    | none => rfl
    | some _ => rfl

/-! ## Pointers -/

theorem walk (keys : List String) : ∀ {e e' : Key × Node}, p.Entries e e' →
    Option.Rel p.Entries (Pointer.walk e keys) (Pointer.walk e' keys) := by
  induction keys with
  | nil => exact fun he => .some he
  | cons key rest ih =>
    intro e e' he
    have ho := object? he.value
    rw [Pointer.walk, Pointer.walk]
    generalize e.2.object? = o, e'.2.object? = o' at ho ⊢
    cases ho with
    | none => exact .none
    | @some o o' ho =>
      have hn := firstEntry ho key
      dsimp only
      generalize o.entry? key = n, o'.entry? key = n' at hn ⊢
      cases hn with
      | none => exact .none
      | some hn => exact ih hn

theorem entryAt (p : Likeness root root') (pointer : String) :
    p.Agree p.Entries (root.entryAt pointer) (root'.entryAt pointer) := by
  -- the walk starts at the root as at an entry without a name
  have top : p.Entries (⟨"", root.range⟩, root) (⟨"", root'.range⟩, root') :=
    ⟨rfl, p.roots, p.span p.roots, p.span p.roots⟩
  unfold Node.entryAt
  cases hk : Pointer.keys pointer with
  | error e =>
    have failed : e.OfReading := by
      unfold Pointer.keys at hk
      split at hk
      · cases hk
      · cases hk
      · cases hk; trivial
      · cases hk; trivial
    exact p.fails_both failed failed
  | ok keys =>
    have hw := walk keys top
    dsimp only
    generalize Pointer.walk (⟨"", root.range⟩, root) keys = e,
      Pointer.walk (⟨"", root'.range⟩, root') keys = e' at hw ⊢
    cases hw with
    | none => exact p.fails_both trivial trivial
    | some he => exact .ok he

theorem resolvePointer (p : Likeness root root') (pointer : String) :
    p.Agree p.nodes (root.resolve pointer) (root'.resolve pointer) := by
  have he := p.entryAt pointer
  unfold Node.resolve
  generalize root.entryAt pointer = e, root'.entryAt pointer = e' at he ⊢
  cases he with
  | ok he => exact .ok he.value
  | error he he' => exact .error he he'

theorem pointerLoc (p : Likeness root root') (pointer : String) :
    p.Agree p.spans (root.pointerLoc pointer) (root'.pointerLoc pointer) := by
  have he := p.entryAt pointer
  unfold Node.pointerLoc
  generalize root.entryAt pointer = e, root'.entryAt pointer = e' at he ⊢
  cases he with
  | ok he => exact .ok he.key
  | error he he' => exact .error he he'

/-! ## References -/

theorem reference {n n' : Node} (h : p.nodes n n') :
    p.Agree (fun r r' => p.Objects r.object r'.object) (Reference.ofNode n)
      (Reference.ofNode n') :=
  view h _ fun _ _ ho => ho

theorem pointer {r r' : Reference} (h : p.Objects r.object r'.object) :
    p.Agree Eq r.pointer r'.pointer :=
  (requireText h _ _).map fun _ _ => text_eq

/-- The pointer of a reference that a node has to be. -/
theorem nextPointer {n n' : Node} (h : p.nodes n n') :
    p.Agree Eq (Reference.ofNode n >>= Reference.pointer)
      (Reference.ofNode n' >>= Reference.pointer) :=
  (reference h).bind fun _ _ _ _ => pointer

/-- A chain ends in the other document as well, in a related node or both times in a failure. -/
theorem leads {seen : List String} {pointer : String} {result : Except Failure Node}
    (h : Reference.Leads root seen pointer result) :
    ∃ result', Reference.Leads root' seen pointer result' ∧ p.Agree p.nodes result result' := by
  induction h with
  | cycle hs => exact ⟨_, .cycle hs, p.fails_both trivial trivial⟩
  | @lost seen pointer e hs hn =>
    obtain ⟨e', hn', he, he'⟩ := (p.resolvePointer pointer).of_error hn
    exact ⟨_, .lost hs hn', .error he he'⟩
  | @landed seen pointer node hs hn hr =>
    obtain ⟨node', hn', related⟩ := (p.resolvePointer pointer).of_ok hn
    exact ⟨_, .landed hs hn' (isReference_eq related ▸ hr), .ok related⟩
  | @unnamed seen pointer node e hs hn hr ht =>
    obtain ⟨node', hn', related⟩ := (p.resolvePointer pointer).of_ok hn
    obtain ⟨e', ht', he, he'⟩ := (nextPointer related).of_error ht
    exact ⟨_, .unnamed hs hn' (isReference_eq related ▸ hr) ht', .error he he'⟩
  | @next seen pointer target node result hs hn hr ht _ ih =>
    obtain ⟨node', hn', related⟩ := (p.resolvePointer pointer).of_ok hn
    obtain ⟨_, ht', rfl⟩ := (nextPointer related).of_ok ht
    obtain ⟨result', rest, agree⟩ := ih
    exact ⟨result', .next hs hn' (isReference_eq related ▸ hr) ht' rest, agree⟩

theorem target {r r' : Reference} (h : p.Objects r.object r'.object) :
    p.Agree p.nodes (r.target root) (r'.target root') := by
  cases hp : r.pointer with
  | error e =>
    obtain ⟨e', hp', he, he'⟩ := (pointer h).of_error hp
    rw [Reference.target_eq_follow, Reference.target_eq_follow, hp, hp']
    exact .error he he'
  | ok pointer =>
    -- neither chain runs out of steps, though one document may have more references
    obtain ⟨_, hp', rfl⟩ := (Likeness.pointer h).of_ok hp
    obtain ⟨result', chain, agree⟩ := leads (p := p) (Reference.leads_target hp)
    rwa [(Reference.leads_target hp').unique chain]

theorem orReference {read : Node → Except Failure α} {read' : Node → Except Failure α'}
    {Q : α → α' → Prop} (hr : ∀ n n', p.nodes n n' → p.Agree Q (read n) (read' n')) {n n' : Node}
    (h : p.nodes n n') :
    p.Agree (p.Sources Q) (OrReference.ofNode read n) (OrReference.ofNode read' n') := by
  unfold OrReference.ofNode
  rw [isReference_eq h]
  split
  · exact (reference h).map fun _ _ => .reference
  · exact (hr n n' h).map fun _ _ => .inline

theorem resolve {read : Node → Except Failure α} {read' : Node → Except Failure α'}
    {Q : α → α' → Prop} (hr : ∀ n n', p.nodes n n' → p.Agree Q (read n) (read' n'))
    {source : OrReference α} {source' : OrReference α'} (h : p.Sources Q source source') :
    p.Agree Q (source.resolve root read) (source'.resolve root' read') := by
  cases h with
  | inline h => exact .ok h
  | reference h =>
    refine (target h).bind fun n n' _ _ hn => ?_
    have ho := object? hn
    generalize n.object? = o, n'.object? = o' at ho ⊢
    cases ho with
    | some _ => exact hr n n' hn
    -- the failure names the pointer, which is read once more
    | none => exact (pointer h).bind fun _ _ _ _ _ => p.fails_both trivial trivial

end Likeness

end ServiceModel

/-
Extensions of path items and operations in the interfaces. Operations are found by their verbs and
their parts by their names, so that an extension is left aside whatever its value is; in a method
it is a part of the metadata and of nothing else.
-/
import ServiceModel.Proofs.Build.Agree
import ServiceModel.Proofs.Build.Carry
import ServiceModel.Proofs.Document.Extension
import ServiceModel.Proofs.Interfaces.Alignment
import ServiceModel.Proofs.Interfaces.Reach
import ServiceModel.Proofs.Lists.Lookup

namespace ServiceModel

open Service

namespace Service

/-- The method without its metadata. -/
def Method.plain (m : Method) : Method := { m with metadata := none }

/-- The interface without the metadata of its methods. -/
def Interface.plain (i : Interface) : Interface := { i with methods := i.methods.map Method.plain }

end Service

namespace OpenApi

/-- The operation with other metadata of its method. -/
def BoundOperation.withMetadata (metadata : Option (List MetaValue)) (op : BoundOperation) :
    BoundOperation := { op with method := { op.method with metadata } }

/-- The operation without the metadata of its method. -/
def BoundOperation.plain (op : BoundOperation) : BoundOperation := op.withMetadata none

variable {d : Description} {guards : Guards}

/-! ## Operations -/

section

variable {o o' : Operation} (h : o.object.Resembles o'.object)

include h

theorem sourceNameOf_resembles (path : String) : sourceNameOf path o = sourceNameOf path o' := by
  have tags : o.tags = o'.tags := (h.plain "tags" (by decide)).array _
  rw [sourceNameOf, sourceNameOf, tags]

theorem descriptionOf_resembles : descriptionOf o = descriptionOf o' := by
  have summary : o.summary? = o'.summary? := (h.plain "summary" (by decide)).text?
  have detail : o.description? = o'.description? := (h.plain "description" (by decide)).text?
  rw [descriptionOf, descriptionOf, summary, detail]

theorem bodyParameter_resembles (method : String) :
    bodyParameter d guards o method o.object.metadata =
      bodyParameter d guards o' method o'.object.metadata := by
  have body : o.requestBody = o'.requestBody := (h.plain "requestBody" (by decide)).child _
  rw [bodyParameter, bodyParameter, body, h.bodyName]

theorem primaryResponse_resembles : o.primaryResponse = o'.primaryResponse := by
  have responses : o.responses = o'.responses := (h.plain "responses" (by decide)).index
  rw [Operation.primaryResponse, Operation.primaryResponse, responses]

theorem securityOptions_resembles : d.securityOptions o = d.securityOptions o' := by
  have security : o.security = o'.security := (h.plain "security" (by decide)).array _
  rw [Description.securityOptions, Description.securityOptions, security]

/-- Operations that resemble each other are bound in the same way, each with its own metadata. -/
theorem bind_resembles {item item' : PathItem} {path verb : String}
    (parameters : item.parameters = item'.parameters)
    (keyLoc : item.object.keyLoc? verb = item'.object.keyLoc? verb)
    (entryLoc : item.object.entryLoc? verb = item'.object.entryLoc? verb) :
    bind d guards item' path verb o' =
      BoundOperation.withMetadata o'.object.metadata <$> bind d guards item path verb o := by
  have operationId : o.operationId? = o'.operationId? := (h.plain "operationId" (by decide)).text?
  have own : o.parameters = o'.parameters := by
    rw [Operation.parameters, Operation.parameters, (h.plain "parameters" (by decide)).array]
  have deprecated : o.deprecated? = o'.deprecated? :=
    (h.plain "deprecated" (by decide)).literal?
  unfold bind
  simp only [sourceNameOf_resembles h, descriptionOf_resembles h, bodyParameter_resembles h,
    securityOptions_resembles h, returnTypeOf, successCodeOf, primaryResponse_resembles h,
    operationId, own, deprecated, parameters, keyLoc, entryLoc, map_bind, map_pure]
  rfl

end

/-! ## Path items -/

/-- What stands under a verb is the same, or operations that resemble each other. -/
inductive OperationsResemble : Option Node → Option Node → Prop
  | same (found : Option Node) : OperationsResemble found found
  | objects {o o' : Object} : o.Resembles o' → OperationsResemble (some o.node) (some o'.node)

/-- Path items that differ in extensions at most, their own and those of their operations. -/
structure ItemsResemble (o o' : Object) : Prop where
  range : o.range = o'.range
  plain : ∀ n, n ∉ verbs → Object.isMarked n = false → Object.SameUnder n o o'
  keys : o.distinctKeys.filter verbs.contains = o'.distinctKeys.filter verbs.contains
  keyLoc? : ∀ verb ∈ verbs, o.keyLoc? verb = o'.keyLoc? verb
  entryLoc? : ∀ verb ∈ verbs, o.entryLoc? verb = o'.entryLoc? verb
  operation : ∀ verb ∈ verbs, OperationsResemble (o.value? verb) (o'.value? verb)

namespace ItemsResemble

theorem refl (o : Object) : ItemsResemble o o :=
  ⟨rfl, fun _ _ _ => rfl, rfl, fun _ _ => rfl, fun _ _ => rfl, fun _ _ => .same _⟩

variable {o o' : Object} (h : ItemsResemble o o')

include h

theorem isReference : o.node.isReference = o'.node.isReference := by
  have same := (h.plain referenceName (by decide) (by decide)).literal?
  exact congrArg Option.isSome same

theorem pointer : Reference.pointer ⟨o⟩ = Reference.pointer ⟨o'⟩ := by
  have same := (h.plain referenceName (by decide) (by decide)).text?
  have start : o.start = o'.start := congrArg Text.Range.start h.range
  rw [Reference.pointer, Reference.pointer, Reference.literal, Reference.literal,
    Object.requireText, Object.requireText, same, start]

theorem parameters : PathItem.parameters ⟨o⟩ = PathItem.parameters ⟨o'⟩ := by
  have same := (h.plain "parameters" (by decide) (by decide)).array
    (OrReference.ofNode Parameter.ofNode)
  rw [PathItem.parameters, PathItem.parameters, same]

/-- The operations stand under the same verbs and resemble each other. -/
theorem operations {operations : List (String × Operation)}
    (ho : PathItem.operations ⟨o⟩ = .ok operations) :
    ∃ operations', PathItem.operations ⟨o'⟩ = .ok operations' ∧
      List.Forall₂ (fun op op' => op.1 = op'.1 ∧ op.1 ∈ OpenApi.verbs ∧
        op.2.object.Resembles op'.2.object) operations operations' := by
  -- the verbs are the same, so that the operations are compared one by one
  refine Agree.of_ok (F := fun _ => True) ?_ ho
  unfold PathItem.operations
  rw [← h.keys]
  refine (Agree.mapM (List.forall₂_same.2 fun verb hv => ?_)).map fun found found' hf =>
    forall₂_filterMap_id hf
  have hv : verb ∈ OpenApi.verbs := by simpa using (List.mem_filter.1 hv).2
  have read : Agree (fun _ => True)
      (Option.Rel fun op op' : Operation => op.object.Resembles op'.object)
      (o.readEntry verb Operation.ofNode) (o'.readEntry verb Operation.ofNode) := by
    rw [Object.readEntry, Object.readEntry, Object.child, Object.child]
    have stands := h.operation verb hv
    generalize o.value? verb = found at stands ⊢
    generalize o'.value? verb = found' at stands ⊢
    cases stands with
    | objects resembles => exact .ok (.some resembles)
    | same =>
      cases found with
      | none => exact .ok .none
      | some n =>
        dsimp only
        cases Operation.ofNode n with
        | error e => exact .error trivial trivial
        | ok op => exact .ok (.some (.refl _))
  refine read.map fun found found' hf => ?_
  cases hf with
  | none => exact .none
  | some hf => exact .some ⟨rfl, hv, hf⟩

end ItemsResemble

/-- Nodes that are the same, or path items that differ in extensions at most. -/
inductive NodesResemble : Node → Node → Prop
  | same (n : Node) : NodesResemble n n
  | objects {o o' : Object} : ItemsResemble o o' → NodesResemble o.node o'.node

namespace NodesResemble

variable {n n' : Node}

theorem isReference (h : NodesResemble n n') : n.isReference = n'.isReference := by
  cases h with
  | same => rfl
  | objects h => exact h.isReference

/-- References that resemble each other have the same pointer. -/
theorem reference (h : NodesResemble n n') {r : Reference} (hr : Reference.ofNode n = .ok r) :
    ∃ r', Reference.ofNode n' = .ok r' ∧ r.pointer = r'.pointer := by
  cases h with
  | same => exact ⟨r, hr, rfl⟩
  | objects h =>
    cases hr
    exact ⟨_, rfl, h.pointer⟩

theorem pathItem (h : NodesResemble n n') {item : PathItem} (hi : PathItem.ofNode n = .ok item) :
    ∃ item', PathItem.ofNode n' = .ok item' ∧ ItemsResemble item.object item'.object := by
  cases h with
  | same => exact ⟨item, hi, .refl _⟩
  | objects h =>
    cases hi
    exact ⟨_, rfl, h⟩

end NodesResemble

/-! ## Where path items stand -/

/-- References that stand for path items lead to nodes that stand for path items, and to nodes that
resemble them in the other document. -/
structure SameItems (root root' : Node) (Q : Node → Prop) : Prop where
  resolve : ∀ {r : Reference} {pointer : String} {n : Node}, Q r.object.node →
    r.pointer = .ok pointer → root.resolve pointer = .ok n →
      Q n ∧ ∃ n', root'.resolve pointer = .ok n' ∧ NodesResemble n n'

namespace SameItems

variable {root root' : Node} {Q : Node → Prop} (items : SameItems root root' Q) {r r' : Reference}

include items

/-- A chain of references ends in both documents, with path items that resemble each other. -/
theorem leads {seen : List String} {pointer : String} {n : Node}
    (h : Reference.Leads root seen pointer (.ok n)) (hr : Q r.object.node)
    (hp : r.pointer = .ok pointer) :
    Q n ∧ n.isReference = false ∧
      ∃ n', Reference.Leads root' seen pointer (.ok n') ∧ NodesResemble n n' := by
  -- along the chain of the first document the chain of the second one is built, and every node
  -- that it comes by stands for a path item
  generalize ends : (Except.ok n : Except Failure Node) = result at h
  induction h generalizing r with
  | landed hs hn hi =>
    cases ends
    obtain ⟨hq, n', hn', resembles⟩ := items.resolve hr hp hn
    exact ⟨hq, hi, n', .landed hs hn' (resembles.isReference ▸ hi), resembles⟩
  | next hs hn hi ht _ ih =>
    obtain ⟨hq, there, hn', alike⟩ := items.resolve hr hp hn
    obtain ⟨next, ho, ht⟩ := read_bind_ok ht
    obtain ⟨next', ho', same⟩ := alike.reference ho
    have landed : next.object.node = _ := View.reads_reference _ _ ho
    obtain ⟨hq, inPlace, n', rest, resembles⟩ := ih (landed ▸ hq) ht ends
    refine ⟨hq, inPlace, n', .next hs hn' (alike.isReference ▸ hi) ?_ rest, resembles⟩
    rw [ho', ← ht, same]
    rfl
  | _ => cases ends

theorem target {n : Node} (hr : Q r.object.node) (same : r.pointer = r'.pointer)
    (h : r.target root = .ok n) :
    Q n ∧ n.isReference = false ∧ ∃ n', r'.target root' = .ok n' ∧ NodesResemble n n' := by
  cases hp : r.pointer with
  | error e => rw [Reference.target_eq_follow, hp] at h; cases h
  | ok pointer =>
    obtain ⟨hq, inPlace, n', chain, resembles⟩ := items.leads (h ▸ Reference.leads_target hp) hr hp
    refine ⟨hq, inPlace, n', ?_, resembles⟩
    exact (Reference.leads_target (same ▸ hp)).unique chain

/-- What is read at nodes that resemble each other is resolved to path items that do so. -/
theorem source {n n' : Node} (hn : Q n) (h : NodesResemble n n') {source : OrReference PathItem}
    (hs : OrReference.ofNode PathItem.ofNode n = .ok source) :
    ∃ source', OrReference.ofNode PathItem.ofNode n' = .ok source' ∧
      ∀ item, source.resolve root PathItem.ofNode = .ok item →
        (Q (View.node item) ∧ (View.node item).isReference = false) ∧
          ∃ item', source'.resolve root' PathItem.ofNode = .ok item' ∧
            ItemsResemble item.object item'.object := by
  unfold OrReference.ofNode at hs ⊢
  rw [← h.isReference]
  split at hs
  · rename_i isReference
    rw [if_pos isReference]
    obtain ⟨r, hr, hs⟩ := read_bind_ok hs
    obtain ⟨r', hr', same⟩ := h.reference hr
    cases hs
    refine ⟨.reference r', by rw [hr']; rfl, fun item hi => ?_⟩
    have here : r.object.node = n := View.reads_reference n r hr
    obtain ⟨m, hm, hi⟩ := read_bind_ok hi
    obtain ⟨hq, inPlace, m', hm', resembles⟩ := items.target (here ▸ hn) same hm
    split at hi
    · rename_i o ho
      have there : View.node item = m := View.reads_pathItem m item hi
      obtain ⟨item', hi', alike⟩ := resembles.pathItem hi
      refine ⟨there ▸ ⟨hq, inPlace⟩, item', ?_, alike⟩
      obtain ⟨o', ho', -⟩ := read_bind_ok hi'
      obtain rfl := Node.asObject_ok ho'
      rw [OrReference.resolve, hm']
      exact hi'
    · obtain ⟨p, -, hi⟩ := read_bind_ok hi
      cases hi
  · rename_i inPlace
    rw [if_neg inPlace]
    obtain ⟨item, hi, hs⟩ := read_bind_ok hs
    obtain ⟨item', hi', alike⟩ := h.pathItem hi
    cases hs
    refine ⟨.inline item', by rw [hi']; rfl, fun found hf => ?_⟩
    cases hf
    have here : View.node item = n := View.reads_pathItem n item hi
    exact ⟨here ▸ ⟨hn, Bool.eq_false_iff.2 inPlace⟩, item', rfl, alike⟩

end SameItems

/-! ## Operations below a path -/

section

variable {d d' : Description} {P Q : Node → Prop} {paths paths' : Object} {path : String}

theorem readEntry_resembles {root root' : Node} (items : SameItems root root' Q)
    (stands : ∀ n, paths.value? path = some n → Q n)
    (h : Option.Rel NodesResemble (paths.value? path) (paths'.value? path))
    {found : Option (OrReference PathItem)}
    (hf : paths.readEntry path (OrReference.ofNode PathItem.ofNode) = .ok found) :
    ∃ found', paths'.readEntry path (OrReference.ofNode PathItem.ofNode) = .ok found' ∧
      Option.Rel (fun source source' : OrReference PathItem =>
        ∀ item, source.resolve root PathItem.ofNode = .ok item →
          (Q (View.node item) ∧ (View.node item).isReference = false) ∧
            ∃ item', source'.resolve root' PathItem.ofNode = .ok item' ∧
              ItemsResemble item.object item'.object) found found' := by
  rw [Object.readEntry, Object.child] at hf ⊢
  generalize paths.value? path = value at stands h hf
  generalize paths'.value? path = value' at h ⊢
  cases h with
  | none =>
    cases hf
    exact ⟨none, rfl, .none⟩
  | some resembles =>
    dsimp only at hf ⊢
    split at hf
    · rename_i source hs
      obtain ⟨source', hs', alike⟩ := items.source (stands _ rfl) resembles hs
      cases hf
      exact ⟨some source', by rw [hs'], .some alike⟩
    · cases hf

/-- Operations below one path that are the same but for metadata. -/
structure BoundAlike (path : String) (op op' : BoundOperation) : Prop where
  plain : op.plain = op'.plain
  path : op.path = path

/-- Below paths that resemble each other the same operations are bound, but for metadata. -/
theorem bindPath_resembles (same : d.Offers d' P) (items : SameItems d.root d'.root Q)
    (landed : ∀ n, Q n → n.isReference = false → P n)
    (stands : ∀ n, paths.value? path = some n → Q n)
    (h : Option.Rel NodesResemble (paths.value? path) (paths'.value? path)) :
    Build.Carries (List.Forall₂ (BoundAlike path)) (bindPath d guards paths path)
      (bindPath d' guards paths' path) := by
  unfold bindPath
  refine .lift_bind (fun _ => readEntry_resembles items stands h) fun found found' _ hf => ?_
  cases hf with
  | none => exact .pure .nil
  | some hs =>
    refine .lift_bind (fun item hi => (hs item hi).2) fun item item' hi alike => ?_
    obtain ⟨hq, inPlace⟩ := (hs item hi).1
    have among : P (View.node item) := landed _ hq inPlace
    refine .lift_bind (fun _ => alike.operations) fun operations operations' hops ho => ?_
    have inside : ∀ op ∈ operations, P (View.node op.2) := fun _ hop =>
      among_operations same among hops hop
    refine .mapM (((List.forall₂_and_left _ _).2 ⟨inside, ho⟩).imp ?_)
    rintro ⟨verb, operation⟩ ⟨_, operation'⟩ ⟨within, rfl, hv, resembles⟩
    have bound : bind d' guards item' path verb operation' =
        BoundOperation.withMetadata operation'.object.metadata <$>
          bind d guards item path verb operation := by
      rw [offers_bind same among within]
      exact bind_resembles resembles alike.parameters (alike.keyLoc? verb hv)
        (alike.entryLoc? verb hv)
    dsimp only
    rw [bound]
    refine .of_map fun op hop => ⟨rfl, ?_⟩
    exact (shows_of_binds (s := ⟨path, item, verb, operation⟩) hop).2.1

end

/-! ## Interfaces -/

/-- The object holds neither a reference nor an operation. -/
structure HoldsNoOperation (o : Object) : Prop where
  inPlace : o.node.isReference = false
  verbs : ∀ verb ∈ verbs, verb ∉ o.keys

/-- Paths that differ in extensions at most, their own and those of what stands below them. Paths
of their own come last and hold no operation. -/
structure AllPathsResemble (paths paths' : Object) : Prop where
  more : ∃ more, paths'.distinctKeys = paths.distinctKeys ++ more ∧
    ∀ path ∈ more, ∃ o, paths'.value? path = some o.node ∧ HoldsNoOperation o
  below : ∀ path ∈ paths.distinctKeys,
    Option.Rel NodesResemble (paths.value? path) (paths'.value? path)
  keyLoc? : ∀ path ∈ paths.distinctKeys, paths.keyLoc? path = paths'.keyLoc? path
  entryLoc? : ∀ path ∈ paths.distinctKeys, paths.entryLoc? path = paths'.entryLoc? path

theorem AllPathsResemble.refl (paths : Object) : AllPathsResemble paths paths where
  more := ⟨[], (List.append_nil _).symm, List.forall_mem_nil _⟩
  below _ _ := optionRel_self .same _
  keyLoc? _ _ := rfl
  entryLoc? _ _ := rfl

theorem bindPath_of_holdsNoOperation {paths o : Object} {path : String}
    (ho : paths.value? path = some o.node) (h : HoldsNoOperation o) :
    bindPath d guards paths path = pure [] := by
  have read : paths.readEntry path (OrReference.ofNode PathItem.ofNode) =
      .ok (some (.inline ⟨o⟩)) := by
    rw [Object.readEntry, Object.child, ho]
    dsimp only
    rw [OrReference.ofNode, if_neg (by rw [h.inPlace]; decide)]
    rfl
  have none : o.distinctKeys.filter verbs.contains = [] := by
    refine List.filter_eq_nil_iff.2 fun verb hv hm => ?_
    exact h.verbs verb (by simpa using hm) (List.mem_eraseDups.1 hv)
  have operations : PathItem.operations ⟨o⟩ = .ok [] := by
    rw [PathItem.operations, none]
    rfl
  unfold bindPath
  rw [read]
  refine (Build.read_ok_bind _ _).trans ((Build.read_ok_bind _ _).trans ?_)
  rw [operations]
  rfl

/-- Operations that are the same but for metadata, below paths that are named at the same place. -/
structure BoundBelow (paths paths' : Object) (op op' : BoundOperation) : Prop where
  plain : op.plain = op'.plain
  keyLoc? : paths.keyLoc? op.path = paths'.keyLoc? op.path
  entryLoc? : paths.entryLoc? op.path = paths'.entryLoc? op.path

section

variable {paths paths' : Object}

namespace BoundBelow

variable {op op' : BoundOperation} (h : BoundBelow paths paths' op op')

include h

theorem path : op.path = op'.path :=
  show op.plain.path = op'.plain.path by rw [h.plain]

theorem sourceName : op.sourceName = op'.sourceName :=
  show op.plain.sourceName = op'.plain.sourceName by rw [h.plain]

theorem interfaceName : op.interfaceName = op'.interfaceName :=
  show op.plain.interfaceName = op'.plain.interfaceName by rw [h.plain]

theorem method : op.method.plain = op'.method.plain :=
  show op.plain.method = op'.plain.method by rw [h.plain]

theorem request : op.request = op'.request :=
  show op.plain.request = op'.plain.request by rw [h.plain]

end BoundBelow

theorem bindAll_resembles {d' : Description} {P Q : Node → Prop} (same : d.Offers d' P)
    (items : SameItems d.root d'.root Q) (landed : ∀ n, Q n → n.isReference = false → P n)
    (stands : ∀ path n, paths.value? path = some n → Q n) (h : AllPathsResemble paths paths') :
    Build.Carries (List.Forall₂ (BoundBelow paths paths')) (bindAll d guards paths)
      (bindAll d' guards paths') := by
  -- what is new among the paths binds nothing, which leaves the paths that both documents have
  obtain ⟨more, keys, harmless⟩ := h.more
  have none : more.mapM (bindPath d' guards paths') = pure (more.map fun _ => []) := by
    rw [← List.mapM_pure]
    refine Build.mapM_congr fun path hp => ?_
    obtain ⟨o, ho, holds⟩ := harmless path hp
    exact bindPath_of_holdsNoOperation ho holds
  have rest : bindAll d' guards paths' = do
      return (← paths.distinctKeys.mapM (bindPath d' guards paths')).flatten := by
    unfold bindAll
    rw [keys, List.mapM_append, none]
    simp
  rw [rest]
  refine .bind (.mapM (List.forall₂_same.2 fun path hp => ?_)) fun groups groups' _ hg =>
    .pure (List.rel_flatten hg)
  refine (bindPath_resembles same items landed (stands path) (h.below path hp)).imp
    fun ops ops' hops => hops.imp ?_
  rintro op op' ⟨plain, rfl⟩
  exact ⟨plain, h.keyLoc? _ hp, h.entryLoc? _ hp⟩

theorem requestsOf_resembles {ops ops' : List BoundOperation}
    (h : List.Forall₂ (BoundBelow paths paths') ops ops') :
    requestsOf paths ops = requestsOf paths' ops' := by
  have same : ops.map (·.path) = ops'.map (·.path) :=
    map_eq_of_forall₂ h fun _ _ hb => hb.path
  unfold requestsOf
  rw [← same]
  refine List.map_congr_left fun path hm => ?_
  obtain ⟨op, hop, rfl⟩ := List.mem_map.1 (List.mem_eraseDups.1 hm)
  obtain ⟨op', -, hb⟩ := forall₂_mem_left h hop
  have below : List.Forall₂ (BoundBelow paths paths') (ops.filter (·.path == op.path))
      (ops'.filter (·.path == op.path)) :=
    List.rel_filter (fun b b' hb => by simp only [hb.path]) h
  rw [hb.keyLoc?, hb.entryLoc?,
    map_eq_of_forall₂ below fun _ _ hb => hb.request]

theorem interfaceOf_resembles (name : String) {ops ops' : List BoundOperation}
    (h : List.Forall₂ (BoundBelow paths paths') ops ops') :
    Agree (fun _ => True) (fun i i' => Interface.plain i = Interface.plain i')
      (interfaceOf d paths name ops) (interfaceOf d paths' name ops') := by
  have source : ops.head?.map (·.sourceName) = ops'.head?.map (·.sourceName) := by
    cases h with
    | nil => rfl
    | cons head _ => exact congrArg some head.sourceName
  have methods : ops.map (·.method.plain) = ops'.map (·.method.plain) :=
    map_eq_of_forall₂ h fun _ _ hb => hb.method
  unfold interfaceOf
  rw [← source]
  cases tagDescription d ((ops.head?.map (·.sourceName)).getD name) with
  | error e => exact .error trivial trivial
  | ok description =>
    refine .ok ?_
    simp only [Interface.plain, List.map_map]
    rw [requestsOf_resembles h]
    exact congrArg (Interface.mk _ _ · _) methods

theorem groupInterfaces_resembles {ops ops' : List BoundOperation}
    (h : List.Forall₂ (BoundBelow paths paths') ops ops') :
    Agree (fun _ => True) (List.Forall₂ fun i i' => Interface.plain i = Interface.plain i')
      (groupInterfaces d paths ops) (groupInterfaces d paths' ops') := by
  have same : ops.map (·.interfaceName) = ops'.map (·.interfaceName) :=
    map_eq_of_forall₂ h fun _ _ hb => hb.interfaceName
  unfold groupInterfaces
  rw [same]
  refine .mapM (List.forall₂_same.2 fun name _ => interfaceOf_resembles name ?_)
  exact List.rel_filter (fun b b' hb => by simp only [hb.interfaceName]) h

end

/-- The interfaces of descriptions whose paths resemble each other are the same, but for the
metadata of methods. -/
theorem interfacesOf_resembles {d' : Description} {P Q : Node → Prop} (same : d.Offers d' P)
    (items : SameItems d.root d'.root Q) (landed : ∀ n, Q n → n.isReference = false → P n)
    (stands : ∀ paths, d.paths = .ok (some paths) → ∀ path n, paths.value? path = some n → Q n)
    (h : ∀ found, d.paths = .ok found →
      ∃ found', d'.paths = .ok found' ∧ Option.Rel AllPathsResemble found found') :
    Build.Carries (List.Forall₂ fun i i' => Interface.plain i = Interface.plain i')
      (interfacesOf d guards) (interfacesOf d' guards) := by
  have counted {is is' : List Interface}
      (hi : List.Forall₂ (fun i i' => Interface.plain i = Interface.plain i') is is') :
      Build.Carries (List.Forall₂ fun i i' => Interface.plain i = Interface.plain i')
        (do Build.record (.interfaces is.length); return is)
        (do Build.record (.interfaces is'.length); return is') := by
    rw [hi.length_eq]
    exact .bind .refl fun _ _ _ _ => .pure hi
  unfold interfacesOf
  refine .lift_bind h fun found found' hp hr => ?_
  cases hr with
  | none => exact .bind (.pure .nil) fun is is' _ hi => counted hi
  | some resemble =>
    dsimp only
    simp only [← offers_groupInterfaces same]
    refine .bind (bindAll_resembles same items landed (stands _ hp) resemble)
      fun ops ops' _ hops => ?_
    exact .lift_bind (fun _ => (groupInterfaces_resembles hops).of_ok) fun is is' _ hi => counted hi

end OpenApi

end ServiceModel

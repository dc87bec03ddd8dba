/-
How a conversion fails. Whatever tree is converted, under whatever limit, there is a service in the
end or one of four failures: the description is not loaded, a node has not the shape asked for, a
pointer leads nowhere, or a chain does not end.

For this some steps rely on others. A number that a rule is made of was looked up as a number; the
key of a response that counts as a status code was read as one; and what is looked up by the name
of a path, a verb, a scheme or a property was found under that name before.
-/
import ServiceModel.Proofs.Conversion.Pairing
import ServiceModel.Proofs.Document.Diagonal
import ServiceModel.Proofs.Interfaces.Alignment

namespace ServiceModel

open Service OpenApi

/-! ## Failures -/

/-- The failures that the conversion of a tree may end in. -/
inductive Failure.OfTree : Failure → Prop
  | load (error : LoadError) : OfTree (.load error)
  | shape (error : ShapeError) : OfTree (.shape error)
  | pointer (error : PointerError) : OfTree (.pointer error)
  | cycle (error : CycleError) : OfTree (.cycle error)

theorem Failure.OfReading.ofTree {e : Failure} (h : e.OfReading) : e.OfTree := by
  cases e with
  | read _ => exact h.elim
  | load e => exact .load e
  | shape e => exact .shape e
  | pointer e => exact .pointer e
  | cycle e => exact .cycle e

/-- A tree is converted into a service or fails in one of these ways. -/
theorem convertTree_ends (options : Options) (root : Node) :
    (∃ service, (convertTree options root).outcome = .ok service) ∨
      ∃ e : Failure, (convertTree options root).outcome = .error e ∧ e.OfTree := by
  let p : Pairing root root := .diagonal root options.limit Failure.OfTree Failure.OfReading.ofTree
    fun _ => .cycle _
  have agree : p.Builds (Service.Alike p.spans) (convertTree options root)
      (convertTree options root) := p.convertTree rfl
  cases ho : (convertTree options root).outcome with
  | ok service => exact .inl ⟨service, rfl⟩
  | error e => exact .inr ⟨e, rfl, (agree.of_error ho).1⟩

/-! ## Numbers -/

namespace Object

variable {o : Object} {name : String}

/-- What is looked up as a number is one. -/
theorem amount?_of_number? {l : Literal} (h : o.number? name = some l) :
    ∃ amount, l.amount? = some amount := by
  have number : l.value.isNumber = true := (Option.filter_eq_some_iff.1 h).2
  obtain ⟨value, range⟩ := l
  cases value with
  | int i => exact ⟨_, rfl⟩
  | double x => exact ⟨_, rfl⟩
  | _ => cases number

/-- A field that holds a number gives the rule of that number, and any other field gives none. -/
structure RuledByNumber (o : Object) (name : String) : Prop where
  number : ∀ l, o.number? name = some l → ∃ amount, l.amount? = some amount ∧
    (∀ constraint, o.amountRule name constraint = [o.rule name (constraint amount)]) ∧
    ∀ constraint, o.propertyCountRule name constraint =
      [⟨constraint amount, o.entryLoc? name⟩]
  other : o.number? name = none → (∀ constraint, o.amountRule name constraint = []) ∧
    ∀ constraint, o.propertyCountRule name constraint = []

theorem ruledByNumber (o : Object) (name : String) : o.RuledByNumber name where
  number := by
    intro l h
    obtain ⟨amount, ha⟩ := amount?_of_number? h
    have found : (o.number? name).bind Literal.amount? = some amount := by
      rw [h]
      exact ha
    refine ⟨amount, ha, fun constraint => ?_, fun constraint => ?_⟩
    · rw [amountRule, found]
    · rw [propertyCountRule, found]
  other := by
    intro h
    refine ⟨fun constraint => ?_, fun constraint => ?_⟩
    · rw [amountRule, h]
      rfl
    · rw [propertyCountRule, h]
      rfl

end Object

namespace OpenApi

/-! ## Responses -/

/-- A primary response stands under its key. The key is the default one, without a code, or else a
number, which is the code. -/
structure PrimaryResponse.Coded (r : PrimaryResponse) : Prop where
  present : r.responses.Has r.key
  code : r.key = defaultResponseKey ∧ r.code = none ∨
    r.key ≠ defaultResponseKey ∧
      ∃ code, Text.Numeral.readDecimal r.key.toList = some code ∧ r.code = some code

theorem Operation.primaryResponse_coded {o : Operation} {r : PrimaryResponse}
    (h : o.primaryResponse = .ok (some r)) : r.Coded := by
  obtain ⟨found, -, h⟩ := read_bind_ok h
  cases found with
  | none => cases h
  | some responses =>
    have byDefault : (if responses.distinctKeys.contains defaultResponseKey then
        some ⟨responses, defaultResponseKey, none⟩ else none) = some r → r.Coded := by
      intro hd
      split at hd
      · rename_i hc
        cases hd
        exact ⟨Object.has_of_mem (List.contains_iff_mem.1 hc), .inl ⟨rfl, rfl⟩⟩
      · cases hd
    dsimp only at h
    split at h
    · exact byDefault (Except.ok.inj h)
    · rename_i key hk
      split at h
      · exact byDefault (Except.ok.inj h)
      · rename_i code hc
        cases h
        refine ⟨Object.has_of_mem (List.mem_of_find?_eq_some hk), .inr ⟨?_, code, hc, rfl⟩⟩
        -- the key starts with a two, which the default one does not
        rintro rfl
        have two := List.find?_some hk
        cases two

/-! ## Operations -/

/-- Verbs are looked up in the path item that they come from. -/
theorem PathItem.has_of_operations {item : PathItem} {operations : List (String × Operation)}
    (h : item.operations = .ok operations) : ∀ o ∈ operations, item.object.Has o.1 := by
  intro o ho
  obtain ⟨verb, -, rfl, hr⟩ := forall₂_mem_right (operations_forall₂ h) ho
  exact Object.has_of_child hr

/-- Operations are bound below paths that are there. -/
theorem has_of_bindAll {d : Description} {guards : Guards} {paths : Object}
    {operations : List BoundOperation} (h : (bindAll d guards paths).outcome = .ok operations) :
    ∀ op ∈ operations, paths.Has op.path := by
  obtain ⟨sites, groups, hs, hb, rfl⟩ := bindAll_sites h
  intro op ho
  obtain ⟨group, hg, ho⟩ := List.mem_flatten.1 ho
  obtain ⟨path, hp, below⟩ := forall₂_mem_right (paths_of_sites hs hb) hg
  rw [below op ho]
  exact Object.has_of_mem hp

/-! ## Schemes -/

/-- A scheme is declared under its key among the components. -/
theorem Description.has_of_schemeUnder {d : Description} {key : String} {scheme : Scheme}
    (h : d.schemeUnder key = .ok (some scheme)) :
    ∃ components index, d.components = .ok (some components) ∧
      components.securitySchemes = .ok (some index) ∧ index.Has key := by
  obtain ⟨found, hc, h⟩ := read_bind_ok h
  cases found with
  | none => cases h
  | some components =>
    obtain ⟨found, hi, h⟩ := read_bind_ok h
    cases found with
    | none => cases h
    | some index =>
      obtain ⟨found, hd, h⟩ := read_bind_ok h
      cases found with
      | none => cases h
      | some definition => exact ⟨components, index, hc, hi, Object.has_of_child hd⟩

end OpenApi

/-! ## Properties -/

/-- The property is named by a key that is there, with the span of that key. -/
def Service.Member.NamedByKey (m : Service.Member) : Prop :=
  ∃ index : Object, index.Has m.name.value ∧ m.name.loc = index.keyLoc? m.name.value

/-- Properties are named by keys that are there, those of branches as well. The induction is on the
calls that the synthesis makes, of which only those for branches matter. -/
theorem propertiesOf_named {root : Node} {guards : Guards} {s : ObjectSchema} {parent : String}
    {inherited : List Literal} {properties : List Service.Member}
    (h : (propertiesOf root guards s parent inherited).outcome = .ok properties) :
    ∀ m ∈ properties, m.NamedByKey := by
  generalize hc : Call.properties guards s parent inherited = call
  induction call using Call.induction root generalizing guards s parent inherited properties with
  | step call ih =>
    subst hc
    rw [propertiesOf_eq] at h
    obtain ⟨own, ho, h⟩ := Build.lift_bind_ok h
    obtain ⟨found, hf, h⟩ := Build.lift_bind_ok h
    cases found with
    | some branches =>
      obtain ⟨merged, hb, h, -⟩ := Build.bind_ok h
      cases Build.pure_ok h
      intro m hm
      obtain ⟨ms, hms, hm⟩ := List.mem_flatten.1 hm
      obtain ⟨branch, hbr, h⟩ := forall₂_mem_right (Build.mapM_forall₂ hb) hms
      obtain ⟨key, hk, h⟩ := Build.lift_bind_ok h
      obtain ⟨inner, hi, h⟩ := Build.lift_bind_ok h
      obtain ⟨target, ht, h⟩ := Build.lift_bind_ok h
      cases target with
      | object b => exact ih _ (.branch ho hf hbr hk hi ht) h rfl m hm
      | _ =>
        cases Build.pure_ok h
        cases hm
    | none =>
      obtain ⟨found, hp, h⟩ := Build.lift_bind_ok h
      cases found with
      | none =>
        cases Build.pure_ok h
        intro m hm
        cases hm
      | some index =>
        intro m hm
        obtain ⟨entry, he, h⟩ := forall₂_mem_right (Build.mapM_forall₂ h) hm
        obtain ⟨schema, -, h⟩ := Build.lift_bind_ok h
        obtain ⟨resolved, -, h⟩ := Build.lift_bind_ok h
        obtain ⟨type, -, h, -⟩ := Build.bind_ok h
        obtain ⟨rules, -, h⟩ := Build.lift_bind_ok h
        cases Build.pure_ok h
        exact ⟨index, Object.has_of_entry he, rfl⟩

/-! ## Conversions -/

/-- What the steps of a conversion rely on. -/
structure Node.Reliable (root : Node) : Prop where
  /-- Rules of numbers are made of numbers. -/
  numbers : ∀ o : Object, o.node.Within root → ∀ name, o.RuledByNumber name
  /-- Keys that are status codes are numbers. -/
  codes : ∀ o : Operation, o.object.node.Within root → ∀ r,
    o.primaryResponse = .ok (some r) → r.Coded
  /-- Paths are read where they occur. -/
  paths : ∀ paths : Object, paths.node.Within root → ∀ path ∈ paths.distinctKeys, ∀ found,
    paths.readEntry path (OrReference.ofNode PathItem.ofNode) = .ok found → found.isSome
  /-- The paths of operations are looked up among those that occur. -/
  operations : ∀ d : Description, d.root = root → ∀ guards paths operations,
    (bindAll d guards paths).outcome = .ok operations → ∀ op ∈ operations, paths.Has op.path
  /-- Verbs are looked up in the path item that they come from. -/
  verbs : ∀ item : PathItem, item.object.node.Within root → ∀ operations,
    item.operations = .ok operations → ∀ o ∈ operations, item.object.Has o.1
  /-- Schemes are looked up among those that are declared. -/
  schemes : ∀ d : Description, d.root = root → ∀ key scheme,
    d.schemeUnder key = .ok (some scheme) → ∃ components index,
      d.components = .ok (some components) ∧ components.securitySchemes = .ok (some index) ∧
        index.Has key
  /-- Properties are looked up among the properties that they come from. -/
  properties : ∀ s : ObjectSchema, s.object.node.Within root →
    ∀ guards parent inherited properties,
      (propertiesOf root guards s parent inherited).outcome = .ok properties →
        ∀ m ∈ properties, m.NamedByKey

/-- Whatever tree is converted, under whatever limit, there is a service in the end or one of the
four failures, and no step is left without what it relies on. -/
theorem convertTree_total (options : Options) (root : Node) :
    ((∃ service, (convertTree options root).outcome = .ok service) ∨
      ∃ e : Failure, (convertTree options root).outcome = .error e ∧ e.OfTree) ∧
      root.Reliable where
  left := convertTree_ends options root
  right := {
    numbers := fun o _ name => o.ruledByNumber name
    codes := fun _ _ _ h => Operation.primaryResponse_coded h
    paths := fun _ _ _ hp _ h => Option.isSome_iff_exists.2 (Object.readEntry_of_mem hp h)
    operations := fun _ _ _ _ _ h => has_of_bindAll h
    verbs := fun _ _ _ h => PathItem.has_of_operations h
    schemes := fun _ _ _ _ h => Description.has_of_schemeUnder h
    properties := fun _ _ _ _ _ _ h => propertiesOf_named h }

end ServiceModel

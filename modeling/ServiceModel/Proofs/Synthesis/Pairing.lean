/-
The synthesis of types in two documents side by side. Calls that stand at related schemas, with
guards that are held in step, agree: both give descriptors that are alike and record what is
alike, or both fail. The spans of a document have a part in the synthesis at one place only, the
keys of branches, and these coincide in the one document exactly if they do in the other.
-/
import ServiceModel.Proofs.Synthesis.Calls
import ServiceModel.Proofs.Synthesis.Keys

namespace ServiceModel

open Service

/-- Descriptors that differ in nothing but their spans. -/
structure Descriptor.Alike (S : String → String → Prop) (d d' : Descriptor) : Prop where
  type : TypeUse.Alike S d.type d'.type
  default : Option.Rel (Located.Alike S) d.default d'.default
  constant : Option.Rel (Located.Alike S) d.constant d'.constant
  loc : S d.loc d'.loc

namespace Likeness

variable {root root' : Node} {p : Likeness root root'}

/-! ## Parts of descriptors -/

theorem named {name name' : Located String} {rules rules' : List Rule} {loc loc' : String}
    (hn : Located.Alike p.spans name name') (hr : List.Forall₂ (Rule.Alike p.spans) rules rules')
    (hl : p.spans loc loc') :
    Descriptor.Alike p.spans (.named name rules loc) (.named name' rules' loc') where
  type := ⟨hn, rfl, rfl, hr⟩
  default := .none
  constant := .none
  loc := hl

theorem primitive {name name' : Located String} {rules rules' : List Rule} {loc loc' : String}
    {default default' constant constant' : Option Literal}
    (hn : Located.Alike p.spans name name') (hr : List.Forall₂ (Rule.Alike p.spans) rules rules')
    (hd : Option.Rel p.Literals default default')
    (hc : Option.Rel p.Literals constant constant') (hl : p.spans loc loc') :
    Descriptor.Alike p.spans (.primitive name rules default constant loc)
      (.primitive name' rules' default' constant' loc') where
  type := ⟨hn, rfl, rfl, hr⟩
  default := rel_map (fun _ _ h => located h) hd
  constant := rel_map (fun _ _ h => located h) hc
  loc := hl

theorem arrayOf {item item' : Descriptor} {rules rules' : List Rule} {loc loc' : String}
    (hi : Descriptor.Alike p.spans item item')
    (hr : List.Forall₂ (Rule.Alike p.spans) rules rules') (hl : p.spans loc loc') :
    Descriptor.Alike p.spans (.arrayOf item rules loc) (.arrayOf item' rules' loc') where
  type := ⟨hi.type.typeName, hi.type.isPrimitive, rfl, hr⟩
  default := .none
  constant := .none
  loc := hl

theorem stringType {s s' : StringSchema} (h : p.Views s s') :
    p.Agree (Located.Alike p.spans) s.typeName s'.typeName := by
  have ho : p.Objects s.object s'.object := h
  have type : p.Agree (Located.Alike p.spans) (do return (← s.type).locatedText)
      (do return (← s'.type).locatedText) :=
    (requireText ho _ _).map fun _ _ hl => locatedText hl
  have hf := text? ho "format"
  unfold StringSchema.typeName StringSchema.format?
  generalize s.object.text? "format" = f, s'.object.text? "format" = f' at hf ⊢
  cases hf with
  | none => exact type
  | @some f f' hf =>
    rw [Option.filter_some, Option.filter_some, text_eq hf]
    by_cases listed : StringSchema.formatTypes.contains f'.text = true
    · rw [if_pos listed, if_pos listed]
      exact .ok ⟨text_eq hf, .some (object_span ho)⟩
    · rw [if_neg listed, if_neg listed]
      exact type

theorem numberType {s s' : NumberSchema} (h : p.Views s s') :
    p.Agree (Located.Alike p.spans) s.typeName s'.typeName := by
  have ho : p.Objects s.object s'.object := h
  refine (requireText ho _ _).bind fun type type' _ _ ht => ?_
  have hf := text? ho "format"
  unfold NumberSchema.format?
  generalize s.object.text? "format" = f, s'.object.text? "format" = f' at hf ⊢
  cases hf with
  | none => exact .ok (locatedText ht)
  | some hf =>
    rw [Option.bind_some, Option.bind_some, text_eq ht, text_eq hf]
    split
    · exact .ok ⟨rfl, .some (object_span ho)⟩
    · exact .ok (locatedText ht)

theorem booleanType {s s' : BooleanSchema} (h : p.Views s s') :
    p.Agree (Located.Alike p.spans) s.typeName s'.typeName := by
  have ho : p.Objects s.object s'.object := h
  exact (requireText ho _ _).map fun _ _ hl => locatedText hl

/-! ## Enums -/

theorem any_same {kept kept' : List Literal} (hk : List.Forall₂ p.Literals kept kept')
    {l l' : Literal} (hl : p.Literals l l') :
    kept.any (fun k => l.value.same k.value) = kept'.any fun k => l'.value.same k.value :=
  any_eq_of_forall₂ hk fun k k' h => by rw [value_eq hl, value_eq h]

theorem distinctLiterals {values values' : List Literal}
    (h : List.Forall₂ p.Literals values values') :
    List.Forall₂ p.Literals (distinctLiterals values) (distinctLiterals values') := by
  -- what is kept so far is compared by value alone
  have loop : ∀ {xs xs' kept kept' : List Literal}, List.Forall₂ p.Literals xs xs' →
      List.Forall₂ p.Literals kept kept' →
      List.Forall₂ p.Literals
        (List.eraseDupsBy.loop (fun l m => l.value.same m.value) xs kept)
        (List.eraseDupsBy.loop (fun l m => l.value.same m.value) xs' kept') := by
    intro xs xs' kept kept' hx
    induction hx generalizing kept kept' with
    | nil => exact fun hk => List.rel_reverse hk
    | cons head _ ih =>
      intro hk
      rw [List.eraseDupsBy.loop, List.eraseDupsBy.loop, any_same hk head]
      split
      · exact ih hk
      · exact ih (.cons head hk)
  exact loop h .nil

theorem enumDef {s s' : StringSchema} {name name' : Located String} {values values' : List Literal}
    (hn : Located.Alike p.spans name name') (hv : List.Forall₂ p.Literals values values')
    (hl : Known p.spans (s.object.entryLoc? "enum") (s'.object.entryLoc? "enum")) :
    EnumDef.Alike p.spans (s.enumDef name values) (s'.enumDef name' values') where
  name := hn
  values := List.rel_map (fun _ _ h => ⟨located h, .of_some (literal_span h)⟩)
    (distinctLiterals hv)
  loc := hl

/-- The values that an enum lists, with the entry that they stand in. -/
theorem enum? {s s' : Schema} (h : p.Schemas s s') :
    p.Agree (Option.Rel fun found found' => List.Forall₂ p.Literals found.2 found'.2 ∧
      Known p.spans (found.1.object.entryLoc? "enum") (found'.1.object.entryLoc? "enum"))
      s.enum? s'.enum? := by
  cases h with
  | string h =>
    refine (enum h).map fun values values' hv => ?_
    cases hv with
    | none => exact .none
    | some hv => exact .some hv
  | _ => exact .ok .none

/-! ## Properties -/

theorem description? {s s' : Schema} (h : p.Schemas s s') :
    Option.Rel p.Literals s.description? s'.description? := by
  cases h with
  | string h => exact text? h _
  | number h => exact text? h _
  | boolean h => exact text? h _
  | array h => exact text? h _
  | object h => exact text? h _

theorem prose {l l' : Option Literal} (h : Option.Rel p.Literals l l') :
    Option.Rel (Prose.Alike p.spans) (l.map fun l => .one l.locatedText)
      (l'.map fun l => .one l.locatedText) := by
  cases h with
  | none => exact .none
  | some hl => exact .some (locatedText hl)

theorem isRequired_eq {names names' : List Literal} (h : List.Forall₂ p.Literals names names')
    (name : String) : names.any (·.text == name) = names'.any (·.text == name) :=
  any_eq_of_forall₂ h fun l l' hl => by rw [text_eq hl]

theorem propertyOf {index index' : Object} (hi : p.Objects index index') (name : String)
    {s s' : Schema} (hs : p.Schemas s s') {d d' : Descriptor}
    (hd : Descriptor.Alike p.spans d d') {rules rules' : List Rule}
    (hr : List.Forall₂ (Rule.Alike p.spans) rules rules') :
    Member.Alike p.spans (propertyOf index name s d rules)
      (propertyOf index' name s' d' rules') where
  name := ⟨rfl, keyLoc? hi name⟩
  description := prose (description? hs)
  type := ⟨hd.type.typeName, hd.type.isPrimitive, hd.type.isArray, hr⟩
  default := hd.default
  constant := hd.constant
  loc := .of_some (object_span hs.node)
  metadata := metadata hs.node

/-! ## References -/

/-- What a text that is no local pointer stands for is not found. -/
theorem resolve_of_not_local {root : Node} {r : Reference} {pointer : String}
    (h : r.pointer = .ok pointer) (hl : pointer.toList.head? ≠ some '#') :
    SchemaOrReference.resolve root (.reference r) = .error (.pointer (.notLocal pointer)) := by
  have keys : Pointer.keys pointer = .error (.pointer (.notLocal pointer)) := by
    unfold Pointer.keys
    split
    · rename_i ht; rw [ht] at hl; exact absurd rfl hl
    · rename_i ht; rw [ht] at hl; exact absurd rfl hl
    · rename_i ht; rw [ht] at hl; exact absurd rfl hl
    · rfl
  have target : r.target root = .error (.pointer (.notLocal pointer)) := by
    unfold Reference.target Node.resolve Node.entryAt
    rw [h]
    simp only [bind, Except.bind, keys]
  rw [SchemaOrReference.resolve, target]
  rfl

/-- A branch in place is no reference. -/
theorem isReference_of_branch {s b : ObjectSchema} {branches : List (OrReference ObjectSchema)}
    (h : s.allOf = .ok (some branches)) (hb : .inline b ∈ branches) :
    b.object.node.isReference = false := by
  obtain ⟨n, -, hm⟩ := ObjectSchema.composition_member h hb
  have same : b.object.node = n := ObjectSchema.member_node hm
  rw [same]
  unfold ObjectSchema.member at hm
  split at hm
  · obtain ⟨r, -, hm⟩ := read_bind_ok hm
    cases hm
  · exact Bool.eq_false_iff.2 (by assumption)

/-! ## Comparing computations -/

/-- A way to compare computations on two documents that are like each other. It goes along the
steps of a computation. The guards that are held on both sides are related, and no more is known of
them than how one goes on under the pointer of a reference or under the key of a branch. -/
structure Judgement (p : Likeness root root') where
  holds : {α α' : Type} → (α → α' → Prop) → Build α → Build α' → Prop
  held : Guards → Guards → Prop
  pure {α α' : Type} {Q : α → α' → Prop} {a : α} {a' : α'} : Q a a' → holds Q (pure a) (pure a')
  fail {α α' : Type} {Q : α → α' → Prop} {e e' : Failure} :
    e.OfReading → e'.OfReading → holds Q (Build.fail e) (Build.fail e')
  record {e e' : Entry} :
    e.Alike p.spans e' → holds (fun _ _ => True) (Build.record e) (Build.record e')
  bind {α α' β β' : Type} {Q : α → α' → Prop} {R : β → β' → Prop} {x : Build α} {x' : Build α'}
    {f : α → Build β} {f' : α' → Build β'} :
    holds Q x x' → (∀ a a', Q a a' → holds R (f a) (f' a')) → holds R (x >>= f) (x' >>= f')
  lift_bind {α α' β β' : Type} {Q : α → α' → Prop} {R : β → β' → Prop}
    {source : Except Failure α} {source' : Except Failure α'} {f : α → Build β}
    {f' : α' → Build β'} :
    p.Agree Q source source' →
    (∀ a a', source = .ok a → source' = .ok a' → Q a a' → holds R (f a) (f' a')) →
    holds R ((liftM source : Build α) >>= f) ((liftM source' : Build α') >>= f')
  /-- Under the pointer of a reference that leads somewhere. -/
  component {α α' : Type} {Q : α → α' → Prop} {g g' : Guards} {r r' : Reference}
    {pointer : String} {target : Schema} {next : Guards → Build α} {next' : Guards → Build α'} :
    held g g' → p.Objects r.object r'.object → r.pointer = .ok pointer → r'.pointer = .ok pointer →
    SchemaOrReference.resolve root (.reference r) = .ok target →
    (∀ inner inner', g.enter pointer = .ok inner → held inner inner' →
      holds Q (next inner) (next' inner')) →
    holds Q
      (do
        let inner ← g.enter pointer
        next inner)
      (do
        let inner ← g'.enter pointer
        next' inner)
  /-- Under the key of a branch. -/
  branch {α α' : Type} {Q : α → α' → Prop} {g g' : Guards} {m m' : OrReference ObjectSchema}
    {next : Guards → Schema → Build α} {next' : Guards → Schema → Build α'} :
    held g g' → p.Sources p.Views m m' →
    (∀ b, m = .inline b → b.object.node.isReference = false) →
    (∀ key inner inner' s s', m.guardKey = .ok key → g.enter key = .ok inner →
      m.asSchema.resolve root = .ok s → held inner inner' → p.Schemas s s' →
      holds Q (next inner s) (next' inner' s')) →
    holds Q
      (do
        let key ← m.guardKey
        let inner ← g.enter key
        let target ← m.asSchema.resolve root
        next inner target)
      (do
        let key ← m'.guardKey
        let inner ← g'.enter key
        let target ← m'.asSchema.resolve root'
        next' inner target)

namespace Judgement

variable (J : Judgement p)

theorem mapM {α α' β β' : Type} {R : β → β' → Prop} {f : α → Build β} {f' : α' → Build β'}
    {xs : List α} {xs' : List α'} (h : List.Forall₂ (fun a a' => J.holds R (f a) (f' a')) xs xs') :
    J.holds (List.Forall₂ R) (xs.mapM f) (xs'.mapM f') := by
  induction h with
  | nil => exact J.pure .nil
  | cons hx _ ih =>
    rw [List.mapM_cons, List.mapM_cons]
    refine J.bind hx fun b b' hb => ?_
    exact J.bind ih fun bs bs' hbs => J.pure (.cons hb hbs)

/-! ## Calls -/

/-- Calls at related schemas, with guards that are related. -/
inductive Calls : Call → Call → Prop
  | describe {g g' : Guards} {s s' : SchemaOrReference} {name parent : String} :
      J.held g g' → p.Sources p.Schemas s s' →
      Calls (.describe g s name parent) (.describe g' s' name parent)
  | inPlace {g g' : Guards} {s s' : Schema} {name parent : String} :
      J.held g g' → p.Schemas s s' →
      Calls (.inPlace g s name parent) (.inPlace g' s' name parent)
  | properties {g g' : Guards} {s s' : ObjectSchema} {parent : String}
      {inherited inherited' : List Literal} :
      J.held g g' → p.Views s s' → List.Forall₂ p.Literals inherited inherited' →
      Calls (.properties g s parent inherited) (.properties g' s' parent inherited')

/-- The answers of two calls compare. -/
def Answered : Call → Call → Prop
  | .describe g s name parent, .describe g' s' name' parent' =>
    J.holds (Descriptor.Alike p.spans) (describe root g s name parent)
      (describe root' g' s' name' parent')
  | .inPlace g s name parent, .inPlace g' s' name' parent' =>
    J.holds (Descriptor.Alike p.spans) (describeInPlace root g s name parent)
      (describeInPlace root' g' s' name' parent')
  | .properties g s parent inherited, .properties g' s' parent' inherited' =>
    J.holds (List.Forall₂ (Member.Alike p.spans)) (propertiesOf root g s parent inherited)
      (propertiesOf root' g' s' parent' inherited')
  | _, _ => False

/-- The use of an enum that is recorded. -/
theorem describe_enum {s s' : StringSchema} {name name' : Located String}
    {values values' : List Literal} {rules rules' : List Rule} {loc loc' : String}
    (hn : Located.Alike p.spans name name') (hv : List.Forall₂ p.Literals values values')
    (he : Known p.spans (s.object.entryLoc? "enum") (s'.object.entryLoc? "enum"))
    (hr : List.Forall₂ (Rule.Alike p.spans) rules rules') (hl : p.spans loc loc') :
    J.holds (Descriptor.Alike p.spans)
      (do
        Build.record (.enum (s.enumDef name values))
        return .named name rules loc)
      (do
        Build.record (.enum (s'.enumDef name' values'))
        return .named name' rules' loc') :=
  J.bind (J.record (.enum (enumDef hn hv he))) fun _ _ _ => J.pure (named hn hr hl)

section

variable {g g' : Guards} (hg : J.held g g') {name parent : String}

include hg

theorem answered_inline {s s' : Schema} (h : p.Schemas s s')
    (made : ∀ made made', Call.Makes root (.describe g (.inline s) name parent) made →
      J.Calls made made' → J.Answered made made') :
    J.holds (Descriptor.Alike p.spans) (describe root g (.inline s) name parent)
      (describe root' g' (.inline s') name parent) := by
  rw [describe_inline, describe_inline]
  exact made _ _ .inPlace (.inPlace hg h)

theorem answered_reference {r r' : Reference} (h : p.Objects r.object r'.object)
    (made : ∀ made made', Call.Makes root (.describe g (.reference r) name parent) made →
      J.Calls made made' → J.Answered made made') :
    J.holds (Descriptor.Alike p.spans) (describe root g (.reference r) name parent)
      (describe root' g' (.reference r') name parent) := by
  rw [describe_reference, describe_reference]
  refine J.lift_bind (pointer h) fun pointer pointer' hp hp' same => ?_
  subst same
  refine J.lift_bind (resolveSchema (.reference h)) fun target target' ht _ hs => ?_
  refine J.lift_bind (rules hs) fun rules rules' _ _ hr => ?_
  have hl := object_span hs.node
  cases hn : Pointer.schemaName? pointer with
  | none =>
    exact J.lift_bind (p.pointerLoc pointer) fun _ _ _ _ hloc =>
      J.pure (named ⟨rfl, .some hloc⟩ hr hl)
  | some component =>
    refine J.lift_bind (p.pointerLoc pointer) fun loc loc' _ _ hloc => ?_
    have name : Located.Alike p.spans ⟨component, some loc⟩ ⟨component, some loc'⟩ :=
      ⟨rfl, .some hloc⟩
    have listed := enum? hs
    have same := hs
    cases hs with
    | object _ => exact J.pure (named name hr hl)
    | _ =>
      refine J.lift_bind listed fun found found' hf _ he => ?_
      cases he with
      | some he => exact J.describe_enum name he.1 he.2 hr hl
      | none =>
        refine J.component hg h hp hp' ht fun inner inner' hi hin => ?_
        exact made _ _ (.component hp ht hn hf (by rintro _ ⟨⟩) hi) (.inPlace hin same)

theorem answered_inPlace {s s' : Schema} (h : p.Schemas s s')
    (made : ∀ made made', Call.Makes root (.inPlace g s name parent) made →
      J.Calls made made' → J.Answered made made') :
    J.holds (Descriptor.Alike p.spans) (describeInPlace root g s name parent)
      (describeInPlace root' g' s' name parent) := by
  have hr := rules h
  have hl := object_span h.node
  cases h with
  | string h =>
    rw [describeInPlace_string, describeInPlace_string]
    refine J.lift_bind hr fun rules rules' _ _ hr => ?_
    refine J.lift_bind (enum h) fun found found' _ _ he => ?_
    cases he with
    | some he => exact J.describe_enum ⟨rfl, .none⟩ he.1 he.2 hr hl
    | none =>
      refine J.lift_bind (stringType h) fun type type' _ _ ht => ?_
      exact J.pure (primitive ht hr (literal? h _) (literal? h _) hl)
  | number h =>
    rw [describeInPlace_number, describeInPlace_number]
    refine J.lift_bind hr fun rules rules' _ _ hr => ?_
    refine J.lift_bind (numberType h) fun type type' _ _ ht => ?_
    exact J.pure (primitive ht hr (literal? h _) (literal? h _) hl)
  | boolean h =>
    rw [describeInPlace_boolean, describeInPlace_boolean]
    refine J.lift_bind hr fun rules rules' _ _ hr => ?_
    refine J.lift_bind (booleanType h) fun type type' _ _ ht => ?_
    exact J.pure (primitive ht hr (literal? h _) (literal? h _) hl)
  | array h =>
    rw [describeInPlace_array, describeInPlace_array]
    refine J.lift_bind hr fun rules rules' _ _ hr => ?_
    refine J.lift_bind (items h) fun found found' hf _ hi => ?_
    cases hi with
    | none => exact J.fail trivial trivial
    | some hi =>
      refine J.bind (made _ _ (.items hf) (.describe hg hi)) fun item item' hitem => ?_
      exact J.pure (arrayOf hitem hr hl)
  | object h =>
    rw [describeInPlace_object, describeInPlace_object]
    refine J.lift_bind hr fun rules rules' _ _ hr => ?_
    refine J.lift_bind (composition h "oneOf") fun found found' hf _ hm => ?_
    have typeName : Located.Alike p.spans ⟨Naming.ofShape parent name, none⟩
        ⟨Naming.ofShape parent name, none⟩ := .of_value _
    cases hm with
    | some hm =>
      refine J.bind (Q := List.Forall₂ (TypeUse.Alike p.spans)) (J.mapM ?_) fun uses uses' hu => ?_
      · have here := (List.forall₂_and_left _ _).2 ⟨fun _ hm => hm, hm⟩
        refine here.imp fun m m' hm => ?_
        refine J.bind (made _ _ (.member hf hm.1) (.describe hg (asSchema hm.2))) fun d d' hd => ?_
        exact J.pure hd.type
      · refine J.bind (J.record (.union ⟨typeName, hu, .of_some hl, metadata h⟩)) fun _ _ _ => ?_
        exact J.pure (named typeName hr hl)
    | none =>
      refine J.bind (made _ _ (.properties hf) (.properties hg h .nil)) fun ps ps' hps => ?_
      have description := locatedText? (text? h "description")
      refine J.bind (J.record (.type ⟨typeName, description, hps, objectRules h, .of_some hl,
        .none⟩)) fun _ _ _ => ?_
      exact J.pure (named typeName hr hl)

theorem answered_properties {s s' : ObjectSchema} {inherited inherited' : List Literal}
    (h : p.Views s s') (hi : List.Forall₂ p.Literals inherited inherited')
    (made : ∀ made made', Call.Makes root (.properties g s parent inherited) made →
      J.Calls made made' → J.Answered made made') :
    J.holds (List.Forall₂ (Member.Alike p.spans)) (propertiesOf root g s parent inherited)
      (propertiesOf root' g' s' parent inherited') := by
  rw [propertiesOf_eq, propertiesOf_eq]
  refine J.lift_bind (required h) fun own own' ho _ hown => ?_
  -- what a schema requires goes on to its branches, before what it was asked for itself
  have needed := List.rel_append hown hi
  refine J.lift_bind (composition h "allOf") fun found found' hf _ hb => ?_
  cases hb with
  | some hb =>
    refine J.bind (Q := List.Forall₂ (List.Forall₂ (Member.Alike p.spans))) (J.mapM ?_)
      fun merged merged' hm => J.pure (List.rel_flatten hm)
    have here := (List.forall₂_and_left _ _).2 ⟨fun _ hm => hm, hb⟩
    refine here.imp fun m m' hm => ?_
    refine J.branch hg hm.2 (fun b hb => isReference_of_branch hf (hb ▸ hm.1)) ?_
    intro key inner inner' t t' hk hin ht hguards hs
    cases hs with
    | object hs => exact made _ _ (.branch ho hf hm.1 hk hin ht) (.properties hguards hs needed)
    | _ => exact J.pure .nil
  | none =>
    refine J.lift_bind (properties h) fun found found' hp _ hx => ?_
    cases hx with
    | none => exact J.pure .nil
    | some hx =>
      have here := (List.forall₂_and_left _ _).2 ⟨fun _ hm => hm, hx.entries⟩
      refine J.mapM (here.imp fun e e' he => ?_)
      refine J.lift_bind (schemaOrReference he.2.value) fun source source' hs _ hsource => ?_
      refine J.lift_bind (resolveSchema hsource) fun t t' _ _ ht => ?_
      have call : J.Calls (.describe g source e.1.name parent)
          (.describe g' source' e.1.name parent) := .describe hg hsource
      rw [← he.2.name, ← isRequired_eq needed]
      refine J.bind (made _ _ (.property hf hp he.1 hs) call) fun type type' htype => ?_
      refine J.lift_bind (rulesWhen ht _) fun rules rules' _ _ hr => ?_
      exact J.pure (propertyOf hx.objects _ ht htype hr)

end

/-- Calls at related schemas, with guards that are related, are answered alike. -/
theorem answered {call call' : Call} (h : J.Calls call call') : J.Answered call call' := by
  induction call using Call.induction root generalizing call' with
  | step call ih =>
    have made : ∀ made made', Call.Makes root call made → J.Calls made made' →
        J.Answered made made' := fun made _ hm hc => ih made hm hc
    cases h with
    | @describe g g' s s' name parent hg hs =>
      cases hs with
      | inline hs => exact J.answered_inline hg hs made
      | reference hr => exact J.answered_reference hg hr made
    | inPlace hg hs => exact J.answered_inPlace hg hs made
    | properties hg hs hi => exact J.answered_properties hg hs hi made

end Judgement

end Likeness

/-! ## Guards in step -/

namespace Parallel

open Likeness

variable {root root' : Node} {p : Parallel root root'}

/-- The key of a reference that leads somewhere is a key of both documents. -/
theorem keys_of_resolve {r : Reference} {pointer : String} {target : Schema}
    (hp : r.pointer = .ok pointer)
    (ht : SchemaOrReference.resolve root (.reference r) = .ok target) :
    p.Keys pointer pointer := by
  refine .pointer ?_
  by_contra hl
  rw [resolve_of_not_local hp hl] at ht
  cases ht

/-- What goes on with a key that is no local pointer fails, whether or not the key can be
entered. -/
theorem fails_of_not_local {α : Type} {root : Node} {g : Guards} {r : Reference} {pointer : String}
    {F : Failure → Prop} {next : Guards → Schema → Build α} (hp : r.pointer = .ok pointer)
    (hl : pointer.toList.head? ≠ some '#') (reading : F (.pointer (.notLocal pointer)))
    (entering : ∀ e, g.enter pointer = .error e → F e) :
    ∃ e, (do
      let inner ← g.enter pointer
      let target ← SchemaOrReference.resolve root (.reference r)
      next inner target : Build α).outcome = .error e ∧ F e := by
  cases he : g.enter pointer with
  | error e => exact ⟨e, rfl, entering e he⟩
  | ok inner =>
    rw [resolve_of_not_local hp hl]
    exact ⟨_, rfl, reading⟩

/-- A branch that is gone through under its key. -/
theorem builds_branch {α α' : Type} {Q : α → α' → Prop} {first : String} {g g' : Guards}
    {m m' : OrReference ObjectSchema} {next : Guards → Schema → Build α}
    {next' : Guards → Schema → Build α'} (hg : p.Guarded first g g') (h : p.Sources p.Views m m')
    (inline : ∀ b, m = .inline b → b.object.node.isReference = false)
    (hn : ∀ key inner inner' s s', m.guardKey = .ok key → g.enter key = .ok inner →
      m.asSchema.resolve root = .ok s → p.Guarded first inner inner' → p.Schemas s s' →
      p.Builds Q (next inner s) (next' inner' s')) :
    p.Builds Q
      (do
        let key ← m.guardKey
        let inner ← g.enter key
        let target ← m.asSchema.resolve root
        next inner target)
      (do
        let key ← m'.guardKey
        let inner ← g'.enter key
        let target ← m'.asSchema.resolve root'
        next' inner target) := by
  have target := resolveSchema (asSchema h)
  have under {key key' : String} (hm : m.guardKey = .ok key) (hk : p.Keys key key')
      (known : key ∈ root.guardKeys) (known' : key' ∈ root'.guardKeys) :
      p.Builds Q
        (do
          let inner ← g.enter key
          let target ← m.asSchema.resolve root
          next inner target)
        (do
          let inner ← g'.enter key'
          let target ← m'.asSchema.resolve root'
          next' inner target) := by
    have held := enter hg hk (List.mem_cons_of_mem _ known) (List.mem_cons_of_mem _ known')
    refine .lift_bind held fun inner inner' hi _ hin => ?_
    exact .lift_bind target fun s s' ht _ hs => hn key inner inner' s s' hm hi ht hin hs
  cases h with
  | @inline b b' hb =>
    have plain := inline b rfl
    have plain' : b'.object.node.isReference = false := (isReference_eq hb).symm.trans plain
    refine .lift_bind (Q := fun key key' => key = branchKey b.object ∧ key' = branchKey b'.object)
      (.ok ⟨rfl, rfl⟩) ?_
    rintro _ _ hk - ⟨rfl, rfl⟩
    exact under hk (.branch hb) (Node.branchKey_mem_guardKeys (p.within hb).1 plain)
      (Node.branchKey_mem_guardKeys (p.within hb).2 plain')
  | @reference r r' hr =>
    refine .lift_bind (pointer hr) fun key key' hp hp' same => ?_
    subst same
    have known := Node.pointer_mem_guardKeys (p.within hr).1 hp
    have known' := Node.pointer_mem_guardKeys (p.within hr).2 hp'
    by_cases hl : key.toList.head? = some '#'
    · exact under hp (.pointer hl) known known'
    · -- the key may look like one that is held, in one of the documents only
      refine .of_failures ?_ ?_
      · exact fails_of_not_local hp hl (p.reading trivial) fun e he =>
          enter_fails hg (List.mem_cons_of_mem _ known) he
      · exact fails_of_not_local hp' hl (p.reading trivial) fun e he =>
          enter_fails' hg (List.mem_cons_of_mem _ known') he

/-- Computations that agree, with guards that are held in step. -/
def agreement (p : Parallel root root') (first : String) : Judgement p.toLikeness where
  holds := p.Builds
  held := p.Guarded first
  pure h := .pure h
  fail h h' := .fail (p.reading h) (p.reading h')
  record h := .record h
  bind h hf := .bind h hf
  lift_bind h hf := .lift_bind h hf
  component := by
    intro α α' Q g g' r r' pointer target next next' hg h hp hp' ht hn
    -- a pointer that leads somewhere is local, so it is the key of no branch
    have held := enter hg (keys_of_resolve hp ht)
      (List.mem_cons_of_mem _ (Node.pointer_mem_guardKeys (p.within h).1 hp))
      (List.mem_cons_of_mem _ (Node.pointer_mem_guardKeys (p.within h).2 hp'))
    exact .lift_bind held fun inner inner' hi _ hin => hn inner inner' hi hin
  branch := builds_branch

variable {first : String} {g g' : Guards}

theorem describe_agrees {s s' : SchemaOrReference} (hg : p.Guarded first g g')
    (h : p.Sources p.Schemas s s') (name parent : String) :
    p.Builds (Descriptor.Alike p.spans) (describe root g s name parent)
      (describe root' g' s' name parent) :=
  (p.agreement first).answered (.describe hg h)

theorem propertiesOf_agrees {s s' : ObjectSchema} (hg : p.Guarded first g g') (h : p.Views s s')
    (parent : String) :
    p.Builds (List.Forall₂ (Member.Alike p.spans)) (propertiesOf root g s parent [])
      (propertiesOf root' g' s' parent []) :=
  (p.agreement first).answered (.properties hg h .nil)

end Parallel

end ServiceModel

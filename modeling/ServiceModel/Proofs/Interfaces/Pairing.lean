/-
The interfaces of two descriptions side by side. Operations that are related are bound alike: their
methods and requests differ in nothing but spans, and each of them carries the span of the entry
that it stands in. Since operations keep their paths and the names of their interfaces, they are
grouped alike as well.
-/
import ServiceModel.Interfaces.Basic
import ServiceModel.Proofs.Interfaces.SecurityPairing
import ServiceModel.Proofs.Lists.Grouped
import ServiceModel.Proofs.Synthesis.Pairing

namespace ServiceModel

open Service OpenApi

/-- Operations that are bound alike. -/
structure OpenApi.BoundOperation.Alike (S : String → String → Prop) (b b' : BoundOperation) :
    Prop where
  path : b.path = b'.path
  sourceName : b.sourceName = b'.sourceName
  interfaceName : b.interfaceName = b'.interfaceName
  method : Method.Alike S b.method b'.method
  request : HttpMethod.Alike S b.request b'.request

namespace Parallel

open Likeness

variable {d d' : Description} {p : Parallel d.root d'.root}

/-! ## Constructs -/

/-- The media types of a content are gone through one by one. -/
theorem content {o o' : Object} (h : p.Objects o o') :
    p.Agree (Option.Rel p.Walked) (o.index "content") (o'.index "content") :=
  walkedIndex h (by decide)

theorem firstSchema {content content' : Option Object}
    (h : Option.Rel p.Walked content content') :
    p.Agree (Option.Rel (p.Sources p.Schemas)) (OpenApi.firstSchema content)
      (OpenApi.firstSchema content') := by
  cases h with
  | none => exact .ok .none
  | @some o o' ho =>
    unfold OpenApi.firstSchema
    dsimp only
    rw [ho.keys_eq]
    split
    · exact .ok .none
    · have media : ∀ n n', p.nodes n n' →
          p.Agree (fun m m' => p.Objects m.object m'.object) (MediaType.ofNode n)
            (MediaType.ofNode n') := fun _ _ hn => view hn _ fun _ _ ho => ho
      refine (child ho.objects media).bind fun found found' _ _ hf => ?_
      cases hf with
      | none => exact .ok .none
      | some hm => exact child hm fun _ _ => schemaOrReference

theorem parameter {n n' : Node} (h : p.nodes n n') :
    p.Agree p.Views (Parameter.ofNode n) (Parameter.ofNode n') := view h _ fun _ _ ho => ho

theorem requestBody {n n' : Node} (h : p.nodes n n') :
    p.Agree p.Views (RequestBody.ofNode n) (RequestBody.ofNode n') := view h _ fun _ _ ho => ho

theorem response {n n' : Node} (h : p.nodes n n') :
    p.Agree p.Views (Response.ofNode n) (Response.ofNode n') := view h _ fun _ _ ho => ho

theorem operation {n n' : Node} (h : p.nodes n n') :
    p.Agree p.Views (Operation.ofNode n) (Operation.ofNode n') := view h _ fun _ _ ho => ho

theorem pathItem {n n' : Node} (h : p.nodes n n') :
    p.Agree p.Views (PathItem.ofNode n) (PathItem.ofNode n') := view h _ fun _ _ ho => ho

/-- The parameters that are listed in two objects. -/
theorem parameters {o o' : Object} (h : p.Objects o o') :
    p.Agree (List.Forall₂ (p.Sources p.Views))
      (do return (← o.array "parameters" (OrReference.ofNode Parameter.ofNode)).getD [])
      (do return (← o'.array "parameters" (OrReference.ofNode Parameter.ofNode)).getD []) :=
  (array h fun _ _ => orReference fun _ _ => parameter).map fun _ _ hl => rel_getD hl .nil

theorem parameterSchema {q q' : Parameter} (h : p.Views q q') :
    p.Agree (Option.Rel (p.Sources p.Schemas)) q.schema q'.schema := by
  have ho : p.Objects q.object q'.object := h
  refine (child ho fun _ _ => schemaOrReference).bind fun found found' _ _ hf => ?_
  cases hf with
  | some hs => exact .ok (.some hs)
  | none => exact (content ho).bind fun _ _ _ _ hc => firstSchema hc

/-- The operations of a path item stand under the same verbs, each in an entry that is there. -/
theorem operations {i i' : PathItem} (h : p.Views i i') :
    p.Agree (List.Forall₂ fun o o' => o.1 = o'.1 ∧ p.Views o.2 o'.2 ∧
      Known p.spans (i.object.entryLoc? o.1) (i'.object.entryLoc? o'.1))
      i.operations i'.operations := by
  have ho : p.Objects i.object i'.object := h
  unfold PathItem.operations
  rw [distinctKeys_eq ho]
  refine (Agree.mapM (List.forall₂_same.2 fun verb _ => ?_)).map fun found found' hf =>
    forall₂_filterMap_id hf
  refine (child ho fun _ _ => operation).bind fun found found' hf _ hop => .ok ?_
  cases hop with
  | none => exact .none
  | some hop => exact .some ⟨rfl, hop, known_entry ho (Object.has_of_child hf)⟩

/-! ## Contents -/

theorem contentSchema {content content' : Option Object}
    (h : Option.Rel p.Walked content content') :
    p.Builds (Option.Rel (p.Sources p.Schemas)) (OpenApi.contentSchema content)
      (OpenApi.contentSchema content') := by
  cases h with
  | none => exact .pure .none
  | @some o o' ho =>
    have first := Build.Agree.lift (S := p.spans) (firstSchema (.some ho))
    -- that there are other media types depends on the names alone
    unfold OpenApi.contentSchema
    dsimp only
    rw [ho.keys_eq]
    split
    · exact .bind (.record (.violation ⟨rfl, object_span ho.objects⟩)) fun _ _ _ => first
    · exact first

/-! ## Parameters -/

theorem bodyName {metadata metadata' : Option (List MetaValue)}
    (h : MetadataAlike p.spans metadata metadata') :
    Option.Rel (Located.Alike p.spans) (bodyName? metadata) (bodyName? metadata') := by
  have found : Option.Rel (MetaValue.Alike p.spans)
      ((metadata.getD []).find? (Naming.kebab ·.key.value == bodyNameExtension))
      ((metadata'.getD []).find? (Naming.kebab ·.key.value == bodyNameExtension)) :=
    rel_find? (rel_getD h .nil) fun m m' hm => by rw [hm.key.value]
  unfold bodyName?
  generalize (metadata.getD []).find? (Naming.kebab ·.key.value == bodyNameExtension) = m,
    (metadata'.getD []).find? (Naming.kebab ·.key.value == bodyNameExtension) = m' at found ⊢
  cases found with
  | none => exact .none
  | some hm =>
    dsimp only
    rw [hm.value.value]
    split
    · exact .some ⟨rfl, hm.value.loc⟩
    · exact .none

section

variable {first : String} {g g' : Guards} (hg : p.Guarded first g g')

include hg

theorem bodyParameter {o o' : Operation} (h : p.Views o o') (method : String)
    {metadata metadata' : Option (List MetaValue)}
    (hm : MetadataAlike p.spans metadata metadata') :
    p.Builds (Option.Rel (Member.Alike p.spans)) (OpenApi.bodyParameter d g o method metadata)
      (OpenApi.bodyParameter d' g' o' method metadata') := by
  have body : p.Agree (Option.Rel (p.Sources p.Views)) o.requestBody o'.requestBody :=
    child h fun _ _ => orReference fun _ _ => requestBody
  refine .lift_bind body fun found found' _ _ hf => ?_
  cases hf with
  | none => exact .pure .none
  | some hs =>
    refine .lift_bind (resolve (fun _ _ => requestBody) hs) fun b b' _ _ hb => ?_
    have hb : p.Objects b.object b'.object := hb
    refine .lift_bind (content hb) fun content content' _ _ hc => ?_
    refine .bind (contentSchema hc) fun found found' hschema => ?_
    cases hschema with
    | none => exact .pure .none
    | some hs =>
      have name := rel_getD (bodyName hm) (Located.Alike.of_value defaultBodyName)
      refine .lift_bind (resolveSchema hs) fun resolved resolved' _ _ hr => ?_
      rw [name.value]
      refine .bind (describe_agrees hg hs _ _) fun type type' ht => ?_
      rw [RequestBody.required?, RequestBody.required?, isSet_eq (literal? hb "required")]
      refine .lift_bind (rulesWhen hr _) fun rules rules' _ _ hrules => .pure (.some ?_)
      exact ⟨name, prose (text? hb _), ⟨ht.type.typeName, ht.type.isPrimitive, ht.type.isArray,
        hrules⟩, .none, .none, .of_some (object_span hb), Likeness.metadata hb⟩

theorem methodParameter {q q' : Parameter} (h : p.Views q q') {s s' : SchemaOrReference}
    (hs : p.Sources p.Schemas s s') (method : String) :
    p.Builds (Member.Alike p.spans) (OpenApi.methodParameter d g q s method)
      (OpenApi.methodParameter d' g' q' s' method) := by
  have hq : p.Objects q.object q'.object := h
  refine .lift_bind (resolveSchema hs) fun resolved resolved' _ _ hr => ?_
  refine .lift_bind (requireText hq _ _) fun name name' _ _ hn => ?_
  rw [text_eq hn]
  refine .bind (describe_agrees hg hs _ _) fun type type' ht => ?_
  rw [Parameter.required?, Parameter.required?, isSet_eq (literal? hq "required")]
  refine .lift_bind (rulesWhen hr _) fun rules rules' _ _ hrules => .pure ?_
  exact ⟨locatedText hn, prose (text? hq _), ⟨ht.type.typeName, ht.type.isPrimitive,
    ht.type.isArray, hrules⟩, ht.default, ht.constant, .of_some (object_span hq), metadata hq⟩

end

theorem arrayForm {q q' : Parameter} (h : p.Views q q') :
    p.Builds (Located.Alike p.spans) (OpenApi.arrayForm q) (OpenApi.arrayForm q') := by
  have hq : p.Objects q.object q'.object := h
  have style := text? hq "style"
  have explode := isSet_eq (literal? hq "explode")
  unfold OpenApi.arrayForm Parameter.style? Parameter.explode?
  rw [explode]
  generalize q.object.text? "style" = l, q'.object.text? "style" = l' at style ⊢
  cases style with
  | none => exact .pure (.of_value _)
  | @some l l' hl =>
    have span := literal_span hl
    dsimp only
    rw [text_eq hl]
    split
    · exact .bind (.record (.violation ⟨rfl, span⟩)) fun _ _ _ => .pure (.of_loc span)
    · split
      · exact .pure (.of_loc span)
      · exact .pure (.of_loc span)

theorem arrayFormAt {q q' : Parameter} (h : p.Views q q') (place : String)
    {s s' : SchemaOrReference} (hs : p.Sources p.Schemas s s') :
    p.Builds (Option.Rel (Located.Alike p.spans)) (OpenApi.arrayFormAt d q place s)
      (OpenApi.arrayFormAt d' q' place s') := by
  unfold OpenApi.arrayFormAt
  split
  · refine .lift_bind (resolveSchema hs) fun t t' _ _ ht => ?_
    cases ht with
    | array _ => exact .bind (arrayForm h) fun _ _ hf => .pure (.some hf)
    | _ => exact .pure .none
  · exact .pure .none

theorem requestParameter {q q' : Parameter} (h : p.Views q q') {s s' : SchemaOrReference}
    (hs : p.Sources p.Schemas s s') :
    p.Builds (HttpParameter.Alike p.spans) (OpenApi.requestParameter d q s)
      (OpenApi.requestParameter d' q' s') := by
  have hq : p.Objects q.object q'.object := h
  refine .lift_bind (requireText hq _ _) fun place place' _ _ hp => ?_
  rw [text_eq hp]
  refine .bind (arrayFormAt h _ hs) fun form form' hf => ?_
  refine .lift_bind (requireText hq _ _) fun name name' _ _ hn => .pure ?_
  exact ⟨locatedText hn, locatedText hp, hf, .of_some (object_span hq)⟩

theorem parameterOf {first : String} {g g' : Guards} (hg : p.Guarded first g g')
    (method : String) {source source' : OrReference Parameter}
    (h : p.Sources p.Views source source') :
    p.Builds (Option.Rel fun both both' => Member.Alike p.spans both.1 both'.1 ∧
        HttpParameter.Alike p.spans both.2 both'.2)
      (OpenApi.parameterOf d g method source) (OpenApi.parameterOf d' g' method source') := by
  refine .lift_bind (resolve (fun _ _ => parameter) h) fun q q' _ _ hq => ?_
  have ho : p.Objects q.object q'.object := hq
  refine .lift_bind (requireText ho _ _) fun place place' _ _ hp => ?_
  rw [text_eq hp]
  split
  · exact .bind (.record (.violation ⟨rfl, literal_span hp⟩)) fun _ _ _ => .pure .none
  · refine .lift_bind (parameterSchema hq) fun found found' _ _ hf => ?_
    cases hf with
    | none =>
      exact .lift_bind (requireText ho _ _) fun _ _ _ _ _ =>
        .fail (p.reading trivial) (p.reading trivial)
    | some hs =>
      refine .bind (methodParameter hg hq hs method) fun ours ours' hours => ?_
      exact .bind (requestParameter hq hs) fun theirs theirs' htheirs =>
        .pure (.some ⟨hours, htheirs⟩)

/-! ## Responses -/

variable (p) in
/-- The response under one key, of one code, among responses that are related. -/
structure Primaries (r r' : PrimaryResponse) : Prop where
  responses : p.Objects r.responses r'.responses
  key : r.key = r'.key
  code : r.code = r'.code

theorem primaryResponse {o o' : Operation} (h : p.Views o o') :
    p.Agree (Option.Rel p.Primaries) o.primaryResponse o'.primaryResponse := by
  refine (index (p := p.toLikeness) h "responses").bind fun found found' _ _ hf => ?_
  cases hf with
  | none => exact .ok .none
  | @some r r' hr =>
    -- the key is chosen by the names of the responses, which are the same
    have byDefault : Option.Rel p.Primaries
        (if r'.distinctKeys.contains defaultResponseKey then
          some ⟨r, defaultResponseKey, none⟩ else none)
        (if r'.distinctKeys.contains defaultResponseKey then
          some ⟨r', defaultResponseKey, none⟩ else none) := by
      split
      · exact .some ⟨hr, rfl, rfl⟩
      · exact .none
    dsimp only
    rw [distinctKeys_eq hr]
    split
    · exact .ok byDefault
    · split
      · exact .ok byDefault
      · exact .ok (.some ⟨hr, rfl, rfl⟩)

theorem primarySource {r r' : PrimaryResponse} (h : p.Primaries r r') :
    p.Agree (Option.Rel (p.Sources p.Views)) r.source r'.source := by
  unfold PrimaryResponse.source
  rw [h.key]
  exact child h.responses fun _ _ => orReference fun _ _ => response

theorem primaryLoc {r r' : PrimaryResponse} (h : p.Primaries r r') :
    Option.Rel p.spans r.loc r'.loc := by
  unfold PrimaryResponse.loc
  rw [h.key]
  exact keyLoc? h.responses _

theorem componentName? {source source' : OrReference Response}
    (h : p.Sources p.Views source source') :
    p.Agree Eq (OpenApi.componentName? source) (OpenApi.componentName? source') := by
  cases h with
  | inline _ => exact .ok rfl
  | reference hr => exact (pointer hr).map fun _ _ same => congrArg _ same

theorem returnTypeOf {first : String} {g g' : Guards} (hg : p.Guarded first g g')
    {o o' : Operation} (h : p.Views o o') (method : String) :
    p.Builds (Option.Rel (ReturnType.Alike p.spans)) (OpenApi.returnTypeOf d g o method)
      (OpenApi.returnTypeOf d' g' o' method) := by
  refine .lift_bind (primaryResponse h) fun found found' _ _ hf => ?_
  cases hf with
  | none => exact .pure .none
  | some hr =>
    refine .lift_bind (primarySource hr) fun found found' _ _ hf => ?_
    cases hf with
    | none => exact .pure .none
    | some hs =>
      refine .lift_bind (resolve (fun _ _ => response) hs) fun r r' _ _ hresp => ?_
      refine .lift_bind (content hresp) fun content content' _ _ hc => ?_
      refine .bind (contentSchema hc) fun found found' hschema => ?_
      cases hschema with
      | none => exact .pure .none
      | some hschema =>
        refine .lift_bind (componentName? hs) fun name name' _ _ same => ?_
        subst same
        refine .bind (describe_agrees hg hschema _ _) fun type type' ht => .pure (.some ?_)
        exact ⟨ht.type, .of_some ht.loc⟩

theorem successCodeOf (verb : String) {o o' : Operation} (h : p.Views o o') :
    p.Agree (Located.Alike p.spans) (OpenApi.successCodeOf d verb o)
      (OpenApi.successCodeOf d' verb o') := by
  refine (primaryResponse h).bind fun found found' _ _ hf => ?_
  cases hf with
  | none => exact .ok (.of_value _)
  | some hr =>
    have loc := primaryLoc hr
    dsimp only
    rw [hr.code]
    split
    · exact .ok ⟨rfl, loc⟩
    · refine (primarySource hr).bind fun found found' _ _ hf => ?_
      cases hf with
      | none => exact .ok ⟨rfl, loc⟩
      | some hs =>
        refine (resolve (fun _ _ => response) hs).bind fun r r' _ _ hresp => ?_
        refine (content hresp).bind fun content content' _ _ hc => ?_
        cases hc with
        | none => exact .ok ⟨rfl, loc⟩
        | some hc =>
          dsimp only
          rw [hc.keys_eq]
          split
          · exact .ok ⟨rfl, loc⟩
          · exact .ok ⟨rfl, loc⟩

/-! ## Operations -/

theorem descriptionOf {o o' : Operation} (h : p.Views o o') :
    Option.Rel (Prose.Alike p.spans) (OpenApi.descriptionOf o) (OpenApi.descriptionOf o') := by
  have ho : p.Objects o.object o'.object := h
  have summary := text? ho "summary"
  have detail := text? ho "description"
  unfold OpenApi.descriptionOf Operation.summary? Operation.description?
  generalize o.object.text? "summary" = s, o'.object.text? "summary" = s' at summary ⊢
  generalize o.object.text? "description" = t, o'.object.text? "description" = t' at detail ⊢
  cases summary with
  | none =>
    cases detail with
    | none => exact .none
    | some ht => exact .some (locatedText ht)
  | some hs =>
    cases detail with
    | none => exact .some (locatedText hs)
    | some ht => exact .some (.cons (locatedText hs) (.cons (locatedText ht) .nil))

theorem sourceNameOf (path : String) {o o' : Operation} (h : p.Views o o') :
    p.Agree Eq (OpenApi.sourceNameOf path o) (OpenApi.sourceNameOf path o') := by
  refine (literals (p := p.toLikeness) h "tags").bind fun found found' _ _ hf => ?_
  -- the first segment of the path is the same for both
  cases hf with
  | none => dsimp only; split <;> exact .ok rfl
  | some hl =>
    cases hl with
    | nil => dsimp only; split <;> exact .ok rfl
    | cons head _ => exact .ok (text_eq head)

theorem bind {first : String} {g g' : Guards} (hg : p.Guarded first g g') {i i' : PathItem}
    (hi : p.Views i i') (path verb : String)
    (hl : Known p.spans (i.object.entryLoc? verb) (i'.object.entryLoc? verb))
    {o o' : Operation} (h : p.Views o o') :
    p.Builds (fun b b' => BoundOperation.Alike p.spans b b' ∧ b.path = path)
      (OpenApi.bind d g i path verb o) (OpenApi.bind d' g' i' path verb o') := by
  have ho : p.Objects o.object o'.object := h
  have hit : p.Objects i.object i'.object := hi
  have id := text? ho "operationId"
  have name : (o.operationId?.map Literal.text).getD "" =
      (o'.operationId?.map Literal.text).getD "" := by
    unfold Operation.operationId?
    generalize o.object.text? "operationId" = l, o'.object.text? "operationId" = l' at id ⊢
    cases id with
    | none => rfl
    | some hl => exact text_eq hl
  have nameLoc : Option.Rel p.spans (o.operationId?.map Literal.loc)
      (o'.operationId?.map Literal.loc) := rel_map (fun _ _ hl => literal_span hl) id
  have deprecated : Option.Rel (Located.Alike p.spans) (o.deprecated?.bind Literal.flag?)
      (o'.deprecated?.bind Literal.flag?) := by
    have hd := literal? ho "deprecated"
    unfold Operation.deprecated?
    generalize o.object.literal? "deprecated" = l, o'.object.literal? "deprecated" = l' at hd ⊢
    cases hd with
    | none => exact .none
    | some hl => exact flag? hl
  unfold OpenApi.bind
  refine .lift_bind (sourceNameOf path h) fun sourceName sourceName' _ _ same => ?_
  subst same
  rw [name]
  refine .bind (bodyParameter hg h _ (metadata ho)) fun body body' hbody => ?_
  refine .lift_bind (parameters hit) fun shared shared' _ _ hshared => ?_
  refine .lift_bind (parameters ho) fun own own' _ _ hown => ?_
  have sources := List.rel_append hshared hown
  refine .bind (.mapM (sources.imp fun _ _ => parameterOf hg _)) fun found found' hfound => ?_
  have both := forall₂_filterMap_id hfound
  refine .lift_bind (securityOptions h) fun security security' _ _ hsec => ?_
  refine .bind (returnTypeOf hg h _) fun result result' hresult => ?_
  refine .lift_bind (successCodeOf verb h) fun code code' _ _ hcode => .pure ?_
  -- the body comes first, among the parameters of the method and of the request
  have carried : List.Forall₂ (HttpParameter.Alike p.spans)
      (body.map bodyRequestParameter).toList (body'.map bodyRequestParameter).toList :=
    rel_toList (rel_map (fun _ _ hb => ⟨hb.name, .of_value _, .none, hb.loc⟩) hbody)
  refine ⟨?_, rfl⟩
  exact {
    path := rfl
    sourceName := rfl
    interfaceName := rfl
    method := {
      name := ⟨rfl, nameLoc⟩
      description := descriptionOf h
      parameters := List.rel_append (rel_toList hbody) (List.rel_map (fun _ _ hb => hb.1) both)
      security := hsec
      returnType := hresult
      deprecated
      loc := hl
      metadata := metadata ho }
    request := {
      name := ⟨rfl, nameLoc⟩
      verb := ⟨rfl, keyLoc? hit verb⟩
      parameters := List.rel_append carried (List.rel_map (fun _ _ hb => hb.2) both)
      successCode := hcode
      loc := hl } }

theorem tagDescription (p : Parallel d.root d'.root) (name : String) :
    p.Agree (Option.Rel (Located.Alike p.spans)) (OpenApi.tagDescription d name)
      (OpenApi.tagDescription d' name) := by
  have tags : p.Agree (Option.Rel (List.Forall₂ p.Views)) (d.object.array "tags" Tag.ofNode)
      (d'.object.array "tags" Tag.ofNode) :=
    array p.roots fun _ _ hn => view hn _ fun _ _ ho => ho
  have found : ∀ {ts ts' : List Tag}, List.Forall₂ p.Views ts ts' →
      p.Agree (Option.Rel (Located.Alike p.spans)) (OpenApi.tagDescription.find name ts)
        (OpenApi.tagDescription.find name ts') := by
    intro ts ts' h
    induction h with
    | nil => exact .ok .none
    | @cons t t' _ _ head _ ih =>
      have ht : p.Objects t.object t'.object := head
      refine (requireText ht _ _).bind fun tag tag' _ _ hl => ?_
      rw [text_eq hl]
      split
      · exact .ok (locatedText? (text? ht _))
      · exact ih
  exact (tags.map fun _ _ hl => rel_getD hl .nil).bind fun _ _ _ _ hl => found hl

section

variable (p) in
/-- Operations that are bound alike, below a path the entry of which is there. -/
structure Bound (paths paths' : Object) (b b' : BoundOperation) : Prop where
  alike : BoundOperation.Alike p.spans b b'
  known : Known p.spans (paths.entryLoc? b.path) (paths'.entryLoc? b.path)

variable {paths paths' : Object} (hp : p.Objects paths paths')

include hp

theorem bindPath {first : String} {g g' : Guards} (hg : p.Guarded first g g') (path : String) :
    p.Builds (List.Forall₂ (p.Bound paths paths')) (OpenApi.bindPath d g paths path)
      (OpenApi.bindPath d' g' paths' path) := by
  have item : p.Agree (Option.Rel (p.Sources p.Views))
      (paths.readEntry path (OrReference.ofNode PathItem.ofNode))
      (paths'.readEntry path (OrReference.ofNode PathItem.ofNode)) :=
    child hp fun _ _ => orReference fun _ _ => pathItem
  refine .lift_bind item fun found found' hf _ hs => ?_
  cases hs with
  | none => exact .pure .nil
  | some hs =>
    have known := known_entry hp (Object.has_of_child hf)
    refine .lift_bind (resolve (fun _ _ => pathItem) hs) fun i i' _ _ hi => ?_
    refine .lift_bind (operations hi) fun os os' _ _ hos => .mapM (hos.imp ?_)
    rintro ⟨verb, o⟩ ⟨_, o'⟩ ⟨rfl, ho, hl⟩
    refine (bind hg hi path verb hl ho).imp ?_
    rintro b b' ⟨alike, rfl⟩
    exact ⟨alike, known⟩

theorem bindAll {first : String} {g g' : Guards} (hg : p.Guarded first g g') :
    p.Builds (List.Forall₂ (p.Bound paths paths')) (OpenApi.bindAll d g paths)
      (OpenApi.bindAll d' g' paths') := by
  unfold OpenApi.bindAll
  rw [distinctKeys_eq hp]
  refine .bind (.mapM (List.forall₂_same.2 fun path _ => bindPath hp hg path)) ?_
  exact fun groups groups' hgroups => .pure (List.rel_flatten hgroups)

/-! ## Interfaces -/

/-- The requests of operations are the same, path by path. -/
theorem requestsOf {ops ops' : List BoundOperation}
    (h : List.Forall₂ (p.Bound paths paths') ops ops') :
    List.Forall₂ (HttpPath.Alike p.spans) (OpenApi.requestsOf paths ops)
      (OpenApi.requestsOf paths' ops') := by
  have same : ops.map (·.path) = ops'.map (·.path) :=
    map_eq_of_forall₂ h fun _ _ hb => hb.alike.path
  have known : ∀ path ∈ ops'.map (·.path),
      Known p.spans (paths.entryLoc? path) (paths'.entryLoc? path) := by
    intro path hm
    -- a path that is asked for is that of an operation below it
    rw [← same] at hm
    obtain ⟨b, hb, rfl⟩ := List.mem_map.1 hm
    obtain ⟨b', -, hbb⟩ := forall₂_mem_left h hb
    exact hbb.known
  unfold OpenApi.requestsOf
  rw [same]
  refine List.rel_map (R := fun path path' => path = path' ∧ path ∈ ops'.map (·.path)) ?_
    (List.forall₂_same.2 fun path hm => ⟨rfl, List.mem_eraseDups.1 hm⟩)
  rintro path _ ⟨rfl, hm⟩
  have below : List.Forall₂ (p.Bound paths paths') (ops.filter (·.path == path))
      (ops'.filter (·.path == path)) :=
    List.rel_filter (fun b b' hb => by simp only [hb.alike.path]) h
  exact ⟨⟨rfl, keyLoc? hp path⟩, List.rel_map (fun _ _ hb => hb.alike.request) below, known path hm⟩

theorem interfaceOf (name : String) {ops ops' : List BoundOperation}
    (h : List.Forall₂ (p.Bound paths paths') ops ops') :
    p.Agree (Interface.Alike p.spans) (OpenApi.interfaceOf d paths name ops)
      (OpenApi.interfaceOf d' paths' name ops') := by
  have source : ops.head?.map (·.sourceName) = ops'.head?.map (·.sourceName) := by
    cases h with
    | nil => rfl
    | cons head _ => exact congrArg some head.alike.sourceName
  unfold OpenApi.interfaceOf
  rw [source]
  refine (tagDescription p _).map fun description description' hd => ?_
  exact ⟨.of_value name, hd, List.rel_map (fun _ _ hb => hb.alike.method) h, requestsOf hp h⟩

theorem groupInterfaces {ops ops' : List BoundOperation}
    (h : List.Forall₂ (p.Bound paths paths') ops ops') :
    p.Agree (List.Forall₂ (Interface.Alike p.spans)) (OpenApi.groupInterfaces d paths ops)
      (OpenApi.groupInterfaces d' paths' ops') := by
  have same : ops.map (·.interfaceName) = ops'.map (·.interfaceName) :=
    map_eq_of_forall₂ h fun _ _ hb => hb.alike.interfaceName
  unfold OpenApi.groupInterfaces
  rw [same]
  refine .mapM (List.forall₂_same.2 fun name _ => interfaceOf hp name ?_)
  exact List.rel_filter (fun b b' hb => by simp only [hb.alike.interfaceName]) h

end

theorem interfacesOf {first : String} {g g' : Guards} (hg : p.Guarded first g g') :
    p.Builds (List.Forall₂ (Interface.Alike p.spans)) (OpenApi.interfacesOf d g)
      (OpenApi.interfacesOf d' g') := by
  have done {is is' : List Interface} (h : List.Forall₂ (Interface.Alike p.spans) is is') :
      p.Builds (List.Forall₂ (Interface.Alike p.spans))
        (do
          Build.record (.interfaces is.length)
          return is)
        (do
          Build.record (.interfaces is'.length)
          return is') := by
    rw [h.length_eq]
    exact .bind (.record .interfaces) fun _ _ _ => .pure h
  refine .lift_bind (index p.roots "paths") fun found found' _ _ hf => ?_
  cases hf with
  | none => exact done .nil
  | some hp =>
    refine .bind (bindAll hp hg) fun ops ops' hops => ?_
    exact .lift_bind (groupInterfaces hp hops) fun _ _ _ _ hi => done hi

end Parallel

end ServiceModel

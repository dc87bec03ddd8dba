/-
The security of the methods of a service. Every requirement is one option, be it a requirement of
the operation itself or, where the operation has no list of its own, one of the description. An
option has one scheme for each key of the requirement that is declared with a type that a service
can show; a scheme of OAuth 2 has one flow for each kind that it declares, and a flow one scope for
each entry among its scopes.
-/
import ServiceModel.Proofs.Conversion.Reach
import ServiceModel.Proofs.Interfaces.Methods
import ServiceModel.Proofs.Interfaces.SecurityPairing
import ServiceModel.Proofs.Synthesis.Flattening

namespace ServiceModel

open Service OpenApi

/-! ## Lists -/

/-- Where some elements give nothing and the others one value each, the values stand beside the
elements that give one. -/
theorem forall₂_filterMap {α β : Type} {S : α → Option β → Prop} {p : α → Bool}
    {R : α → β → Prop} (nothing : ∀ x, S x none → p x = false)
    (one : ∀ x y, S x (some y) → p x = true ∧ R x y) {xs : List α} {found : List (Option β)}
    (h : List.Forall₂ S xs found) : List.Forall₂ R (xs.filter p) (found.filterMap id) := by
  induction h with
  | nil => exact .nil
  | @cons x y? xs found hx _ ih =>
    cases y? with
    | none =>
      rw [List.filter_cons_of_neg (by simp [nothing x hx])]
      exact ih
    | some y =>
      obtain ⟨kept, hr⟩ := one x y hx
      rw [List.filter_cons_of_pos kept]
      exact .cons hr ih

/-- Where no name is repeated, an entry is found under its name. -/
theorem Object.entry?_of_mem {o : Object} (distinct : o.keys.Nodup) {entry : Key × Node}
    (h : entry ∈ o.entries) : o.entry? entry.1.name = some entry := by
  obtain ⟨found, hf⟩ := Object.has_of_entry h
  have same : found.1.name = entry.1.name := by simpa using List.find?_some hf
  rw [hf, List.inj_on_of_nodup_map distinct (List.mem_of_find?_eq_some hf) h same]

/-! ## Scopes -/

/-- The scope has the name of the entry, with the span of that name. -/
structure ShowsScope (index : Object) (entry : Key × Node) (scope : Scope) : Prop where
  name : scope.name.value = entry.1.name
  loc : index.keys.Nodup → scope.name.loc = some entry.1.loc

/-- There is one scope for each entry among those of the flow, in order. -/
def OAuthFlow.ShowsScopes (flow : OAuthFlow) (scopes : List Scope) : Prop :=
  match flow.object.value? "scopes" with
  | none => scopes = []
  | some node => ∃ index : Object, index.node = node ∧
    List.Forall₂ (ShowsScope index) index.entries scopes

theorem OAuthFlow.showsScopes {flow : OAuthFlow} {scopes : List Scope}
    (h : flow.scopesOf = .ok scopes) : flow.ShowsScopes scopes := by
  obtain ⟨found, hf, h⟩ := read_bind_ok h
  unfold ShowsScopes
  cases found with
  | none =>
    cases h
    rw [Object.absent_of_child hf]
  | some index =>
    obtain ⟨node, hv, hr⟩ := Object.child_eq_ok hf
    rw [hv]
    refine ⟨index, Node.asObject_ok hr, ?_⟩
    have read : List.Forall₂ _ index.entries scopes := read_mapM_forall₂ h
    refine ((List.forall₂_and_left index.entries scopes).2 ⟨fun _ he => he, read⟩).imp ?_
    rintro entry scope ⟨he, hs⟩
    obtain ⟨description, -, hs⟩ := read_bind_ok hs
    cases hs
    refine ⟨rfl, fun distinct => ?_⟩
    show index.keyLoc? entry.1.name = _
    rw [Object.keyLoc?, Object.entry?_of_mem distinct he]
    rfl

/-! ## Flows -/

/-- The kinds of flows in the order in which they are shown, by name, with what each keeps of the
fields of a flow. -/
def flowKinds : List (String × (OAuthFlow → Grant)) :=
  let url (l : Option Literal) := l.map Literal.locatedText
  [("authorizationCode", fun f => .authorizationCode (url f.authorizationUrl?) (url f.tokenUrl?)),
    ("clientCredentials", fun f => .clientCredentials (url f.tokenUrl?)),
    ("implicit", fun f => .implicit (url f.authorizationUrl?)),
    ("password", fun f => .password (url f.tokenUrl?))]

/-- The flow has what is declared under the name of its kind. -/
structure ShowsFlow (object : Object) (kind : String × (OAuthFlow → Grant)) (flow : Flow) :
    Prop where
  type : flow.type = ⟨kind.1, object.keyLoc? kind.1⟩
  fields : ∃ f : OAuthFlow, object.value? kind.1 = some f.object.node ∧ flow.grant = kind.2 f ∧
    flow.refreshUrl = f.refreshUrl?.map Literal.locatedText ∧ f.ShowsScopes flow.scopes

/-- There is one flow for each kind that is declared among the flows of the scheme. -/
def OAuth2Scheme.ShowsFlows (s : OAuth2Scheme) (flows : List Flow) : Prop :=
  match s.object.value? "flows" with
  | none => flows = []
  | some node => ∃ object : Object, object.node = node ∧
    List.Forall₂ (ShowsFlow object) (flowKinds.filter fun kind => (object.value? kind.1).isSome)
      flows

namespace OAuthFlows

theorem flow_shows {flows : OAuthFlows} {loc : Option String} {name : String}
    {grant : OAuthFlow → Grant} {part : List Flow}
    (h : flows.flow loc name (·.object.child name OAuthFlow.ofNode) grant = .ok part) :
    List.Forall₂ (ShowsFlow flows.object)
      ([(name, grant)].filter fun kind => (flows.object.value? kind.1).isSome) part := by
  obtain ⟨found, hf, h⟩ := read_bind_ok h
  replace hf : flows.object.child name OAuthFlow.ofNode = .ok found := hf
  cases found with
  | none =>
    cases h
    rw [List.filter_cons_of_neg (by simp [Object.absent_of_child hf])]
    exact .nil
  | some f =>
    obtain ⟨scopes, hs, h⟩ := read_bind_ok h
    cases h
    obtain ⟨node, hv, hr⟩ := Object.child_eq_ok hf
    have same : f.object.node = node := View.reads_asObject (fun _ => rfl) node f hr
    rw [List.filter_cons_of_pos (by simp [hv])]
    exact .cons ⟨rfl, f, by rw [same]; exact hv, rfl, rfl, OAuthFlow.showsScopes hs⟩ .nil

theorem flowsOf_shows {flows : OAuthFlows} {loc : Option String} {shown : List Flow}
    (h : flows.flowsOf loc = .ok shown) :
    List.Forall₂ (ShowsFlow flows.object)
      (flowKinds.filter fun kind => (flows.object.value? kind.1).isSome) shown := by
  obtain ⟨code, h₁, h⟩ := read_bind_ok h
  obtain ⟨credentials, h₂, h⟩ := read_bind_ok h
  obtain ⟨implicit, h₃, h⟩ := read_bind_ok h
  obtain ⟨password, h₄, h⟩ := read_bind_ok h
  cases h
  have split : flowKinds = (flowKinds.take 1 ++ (flowKinds.drop 1).take 1 ++
      (flowKinds.drop 2).take 1) ++ flowKinds.drop 3 := rfl
  rw [split, List.filter_append, List.filter_append, List.filter_append]
  exact List.rel_append (List.rel_append (List.rel_append (flow_shows h₁) (flow_shows h₂))
    (flow_shows h₃)) (flow_shows h₄)

end OAuthFlows

/-! ## Schemes -/

namespace SecurityScheme

def object : SecurityScheme → Object
  | .http s => s.object
  | .apiKey s => s.object
  | .oauth2 s => s.object
  | .openId s => s.object

/-- The type that the scheme is declared with. -/
def type? (s : SecurityScheme) : Option String := (s.object.literal? "type").map Literal.text

/-- The credential keeps what is declared for its type. -/
def Shows : SecurityScheme → Credential → Prop
  | .http _, credential => credential = .basic
  | .apiKey s, credential => ∃ parameter place, s.name = .ok parameter ∧ s.location = .ok place ∧
    credential = .apiKey parameter.locatedText place.locatedText
  | .oauth2 s, credential => ∃ flows, credential = .oauth2 flows ∧ s.ShowsFlows flows
  | .openId _, _ => False

/-- A scheme is sorted by its type. -/
theorem type?_of_classify {node : Node} {s : SecurityScheme} (h : classify node = some s) :
    s.type? = some (match s with
      | .http _ => "http"
      | .apiKey _ => "apiKey"
      | .oauth2 _ => "oauth2"
      | .openId _ => "openIdConnect") := by
  unfold classify at h
  split at h
  · cases h
  · rename_i o _
    split at h
    · cases h
    · split at h <;> cases h <;> simp [type?, object, *]

theorem classify_of_resolve {root : Node} {definition : OrReference SecurityScheme}
    {s : SecurityScheme} (hd : ∃ node, OrReference.ofNode ofNode node = .ok definition)
    (h : resolve root definition = .ok s) : ∃ node, classify node = some s := by
  cases definition with
  | inline scheme =>
    cases h
    obtain ⟨node, hn⟩ := hd
    unfold OrReference.ofNode at hn
    split at hn
    · obtain ⟨r, -, hn⟩ := read_bind_ok hn
      cases hn
    · obtain ⟨scheme, hs, hn⟩ := read_bind_ok hn
      cases hn
      unfold ofNode at hs
      split at hs
      · cases hs
        exact ⟨node, by assumption⟩
      · cases hs
  | reference r =>
    obtain ⟨node, -, h⟩ := read_bind_ok h
    split at h
    · cases h
      exact ⟨node, by assumption⟩
    · obtain ⟨pointer, -, h⟩ := read_bind_ok h
      cases h

end SecurityScheme

/-- The type of the declared schemes that a credential shows. -/
def Service.Credential.schemeType : Credential → String
  | .basic => "http"
  | .apiKey _ _ => "apiKey"
  | .oauth2 _ => "oauth2"

namespace SecurityScheme

variable {s : SecurityScheme} {name : Located String} {loc : Option String}

theorem schemeOf_none (h : s.schemeOf name loc = .ok none) : ∃ scheme, s = .openId scheme := by
  cases s with
  | openId scheme => exact ⟨scheme, rfl⟩
  | http s =>
    obtain ⟨_, -, h⟩ := read_bind_ok h
    cases h
  | apiKey s =>
    obtain ⟨_, -, h⟩ := read_bind_ok h
    obtain ⟨_, -, h⟩ := read_bind_ok h
    obtain ⟨_, -, h⟩ := read_bind_ok h
    cases h
  | oauth2 s =>
    obtain ⟨flows, -, h⟩ := read_bind_ok h
    obtain ⟨_, -, h⟩ := read_bind_ok h
    cases flows with
    | none => cases h
    | some flows =>
      obtain ⟨_, -, h⟩ := read_bind_ok h
      cases h

theorem schemeOf_some {scheme : Scheme} {node : Node} (hs : classify node = some s)
    (h : s.schemeOf name loc = .ok (some scheme)) :
    scheme.name = name ∧ s.Shows scheme.credential ∧
      s.type? = some scheme.credential.schemeType := by
  have type := type?_of_classify hs
  cases s with
  | openId scheme => cases h
  | http s =>
    obtain ⟨_, -, h⟩ := read_bind_ok h
    cases h
    exact ⟨rfl, rfl, type⟩
  | apiKey s =>
    obtain ⟨_, -, h⟩ := read_bind_ok h
    obtain ⟨parameter, hp, h⟩ := read_bind_ok h
    obtain ⟨place, hl, h⟩ := read_bind_ok h
    cases h
    exact ⟨rfl, ⟨parameter, place, hp, hl, rfl⟩, type⟩
  | oauth2 s =>
    obtain ⟨found, hf, h⟩ := read_bind_ok h
    obtain ⟨_, -, h⟩ := read_bind_ok h
    cases found with
    | none =>
      cases h
      refine ⟨rfl, ⟨[], rfl, ?_⟩, type⟩
      rw [OAuth2Scheme.ShowsFlows, Object.absent_of_child hf]
    | some declared =>
      obtain ⟨flows, hflows, h⟩ := read_bind_ok h
      cases h
      obtain ⟨node, hv, hr⟩ := Object.child_eq_ok hf
      refine ⟨rfl, ⟨flows, rfl, ?_⟩, type⟩
      rw [OAuth2Scheme.ShowsFlows, hv]
      exact ⟨declared.object, View.reads_asObject (fun _ => rfl) node declared hr,
        OAuthFlows.flowsOf_shows hflows⟩

end SecurityScheme

/-! ## Options -/

namespace OpenApi

namespace Description

/-- The scheme that is declared under a key, in place or by a reference. -/
def declared? (d : Description) (key : String) : Option SecurityScheme :=
  match d.declaredSchemes with
  | .ok (some index) =>
    match index.readEntry key (OrReference.ofNode SecurityScheme.ofNode) with
    | .ok (some definition) => (SecurityScheme.resolve d.root definition).toOption
    | _ => none
  | _ => none

/-- The types of schemes that a service can show. -/
def shownTypes : List String := ["http", "apiKey", "oauth2"]

/-- Is a scheme of one of these types declared under a key? -/
def shows (d : Description) (key : String) : Bool :=
  ((d.declared? key).bind SecurityScheme.type?).any shownTypes.contains

/-- The scheme shows what is declared under the key. -/
structure ShowsScheme (d : Description) (key : String) (scheme : Scheme) : Prop where
  name : scheme.name.value = key
  credential : ∃ s, d.declared? key = some s ∧ s.Shows scheme.credential ∧
    s.type? = some scheme.credential.schemeType

variable {d : Description} {key : String}

/-- A key that nothing is declared under gives no scheme. What is declared under the others was
sorted by its type, and is what the scheme is made of. -/
theorem schemeUnder_declared {found : Option Scheme} (h : d.schemeUnder key = .ok found) :
    d.declared? key = none ∧ found = none ∨
      ∃ s node keyLoc loc, d.declared? key = some s ∧ SecurityScheme.classify node = some s ∧
        s.schemeOf ⟨key, keyLoc⟩ loc = .ok found := by
  rw [schemeUnder_eq] at h
  obtain ⟨index?, hi, h⟩ := read_bind_ok h
  unfold declared?
  rw [hi]
  cases index? with
  | none =>
    cases h
    exact .inl ⟨rfl, rfl⟩
  | some index =>
    obtain ⟨definition?, hd, h⟩ := read_bind_ok h
    dsimp only
    rw [hd]
    cases definition? with
    | none =>
      cases h
      exact .inl ⟨rfl, rfl⟩
    | some definition =>
      obtain ⟨s, hs, h⟩ := read_bind_ok h
      obtain ⟨source, -, read⟩ := Object.child_eq_ok hd
      obtain ⟨node, sorted⟩ := SecurityScheme.classify_of_resolve ⟨source, read⟩ hs
      refine .inr ⟨s, node, _, _, ?_, sorted, h⟩
      dsimp only
      rw [hs]
      rfl

theorem not_shows_of_schemeUnder (h : d.schemeUnder key = .ok none) : d.shows key = false := by
  rcases schemeUnder_declared h with ⟨absent, -⟩ | ⟨s, node, _, _, declared, sorted, none⟩
  · rw [shows, absent]
    rfl
  · obtain ⟨scheme, rfl⟩ := SecurityScheme.schemeOf_none none
    rw [shows, declared, Option.bind_some, SecurityScheme.type?_of_classify sorted]
    rfl

theorem shows_of_schemeUnder {scheme : Scheme} (h : d.schemeUnder key = .ok (some scheme)) :
    d.shows key = true ∧ d.ShowsScheme key scheme := by
  rcases schemeUnder_declared h with ⟨-, none⟩ | ⟨s, node, _, _, declared, sorted, some⟩
  · cases none
  · obtain ⟨name, credential, type⟩ := SecurityScheme.schemeOf_some sorted some
    refine ⟨?_, by rw [name], s, declared, credential, type⟩
    rw [shows, declared, Option.bind_some, type]
    cases scheme.credential <;> rfl

/-- The option has one scheme for each key of the requirement that is declared with a type that
can be shown, in the order of the keys. -/
def ShowsOption (d : Description) (requirement : SecurityRequirement) (option : SecurityOption) :
    Prop :=
  List.Forall₂ d.ShowsScheme (requirement.object.keys.filter d.shows) option.schemes

theorem optionOf_shows {requirement : SecurityRequirement} {option : SecurityOption}
    (h : d.optionOf requirement = .ok option) : d.ShowsOption requirement option := by
  obtain ⟨found, hf, h⟩ := read_bind_ok h
  cases h
  exact forall₂_filterMap (fun _ => not_shows_of_schemeUnder) (fun _ _ => shows_of_schemeUnder)
    (read_mapM_forall₂ hf)

end Description

/-! ## Requirements -/

/-- The requirements are the items of the list under the key `security`, one by one. -/
def Lists (o : Object) (requirements : List SecurityRequirement) : Prop :=
  ∃ range, o.value? "security" = some (.array (requirements.map (·.object.node)) range)

/-- The requirements that hold for an operation: those of its own list, if it has one, and else
those of the description. -/
def Requires (d : Description) (o : Operation) (requirements : List SecurityRequirement) : Prop :=
  Lists o.object requirements ∨
    o.object.value? "security" = none ∧
      (Lists d.object requirements ∨ d.object.value? "security" = none ∧ requirements = [])

theorem lists_of_array {o : Object} {requirements : List SecurityRequirement}
    (h : o.array "security" SecurityRequirement.ofNode = .ok (some requirements)) :
    Lists o requirements := by
  obtain ⟨items, range, hv, hm⟩ := Object.array_items h
  refine ⟨range, ?_⟩
  have same : items = requirements.map (·.object.node) := by
    rw [← List.forall₂_eq_eq_eq]
    refine List.forall₂_map_right_iff.2 ((read_mapM_forall₂ hm).imp fun item r hr => ?_)
    exact (View.reads_asObject (fun _ => rfl) item r hr).symm
  rw [hv, same]

/-- The security of a method has one option for each requirement of its operation. -/
def Site.Secured (d : Description) (s : Site) (m : Method) : Prop :=
  ∃ requirements, Requires d s.operation requirements ∧
    List.Forall₂ d.ShowsOption requirements m.security

theorem securityOptions_shown {d : Description} {o : Operation} {options : List SecurityOption}
    (h : d.securityOptions o = .ok options) :
    ∃ requirements, Requires d o requirements ∧
      List.Forall₂ d.ShowsOption requirements options := by
  have each : ∀ {requirements : List SecurityRequirement},
      requirements.mapM d.optionOf = .ok options →
        List.Forall₂ d.ShowsOption requirements options :=
    fun h => (read_mapM_forall₂ h).imp fun _ _ => Description.optionOf_shows
  obtain ⟨own, ho, h⟩ := read_bind_ok h
  cases own with
  | some requirements => exact ⟨requirements, .inl (lists_of_array ho), each h⟩
  | none =>
    obtain ⟨shared, hs, h⟩ := read_bind_ok h
    have absent := Object.absent_of_array ho
    cases shared with
    | some requirements => exact ⟨requirements, .inr ⟨absent, .inl (lists_of_array hs)⟩, each h⟩
    | none => exact ⟨[], .inr ⟨absent, .inr ⟨Object.absent_of_array hs, rfl⟩⟩, each h⟩

theorem secured_of_binds {d : Description} {guards : Guards} (s : Site) (op : BoundOperation)
    (h : Binds d guards s op) : s.Secured d op.method := by
  obtain ⟨parts, has, rfl⟩ := binds_ok h
  exact securityOptions_shown has.security

end OpenApi

/-! ## Services -/

/-- When a document becomes a service, no security is lost: each operation is a method of the
interface of its name, with one option for each requirement that holds for it. -/
theorem convertTree_secured {options : Options} {root : Node} {service : Service}
    (h : (convertTree options root).outcome = .ok service) :
    ∃ d, Description.ofNode root = .ok d ∧ d.root = root ∧
      MethodsShow d (Site.Secured d) service.interfaces := by
  obtain ⟨d, hd, h⟩ := Build.lift_bind_ok h
  have read := descriptionOfTree_ok hd
  obtain ⟨components, hp, -⟩ := (Description.yields_of_service h).passes
  exact ⟨d, read, View.reads_description root d read,
    interfacesOf_methods secured_of_binds (Description.passes_ok hp).1⟩

namespace Sample

/-- A description whose operations differ in their own requirements, of which one has none, one
has an empty list, and one has two. -/
def securedTree : Node :=
  let none : Node := .array [] default
  let requirement (keys : List String) : Node := (bareObject (keys.map fun key => (key, none))).node
  let operation (requirements : List Node) : Node :=
    (bareObject [("security", .array requirements default)]).node
  (bareObject [("openapi", bareText "3.0"),
    ("info", (bareObject [("title", bareText "T"), ("version", bareText "1")]).node),
    ("paths", (bareObject [("/", (bareObject [("get", (bareObject []).node),
      ("put", operation []),
      ("post", operation [requirement ["key"], requirement ["absent"]])]).node)]).node),
    ("components", (bareObject [("securitySchemes", (bareObject [
      ("connect", (bareObject [("type", bareText "openIdConnect")]).node),
      ("granted", (bareObject [("type", bareText "oauth2"), ("flows", (bareObject [
        ("password", (bareObject [("scopes", (bareObject [("read", bareText "Reads"),
          ("write", bareText "Writes")]).node)]).node),
        ("implicit", (bareObject []).node)]).node)]).node),
      ("key", (bareObject [("type", bareText "apiKey"), ("name", bareText "K"),
        ("in", bareText "header")]).node),
      ("link", (bareObject [("$ref", bareText "#/components/securitySchemes/key")]).node)]).node)
      ]).node),
    ("security", .array [requirement ["link", "connect", "granted"]] default)]).node

/-- The names of the schemes of an option, each with its flows and their scopes. -/
def schemeNames (option : SecurityOption) : List (String × List (String × List String)) :=
  option.schemes.map fun scheme => (scheme.name.value,
    match scheme.credential with
    | .oauth2 flows => flows.map fun flow => (flow.type.value, flow.scopes.map (·.name.value))
    | _ => [])

theorem schemeNames_securedTree :
    (convertTree options securedTree).outcome.toOption.map (fun service =>
      service.interfaces.flatMap fun i => i.methods.map fun m => m.security.map schemeNames) =
      some [[[("link", []), ("granted", [("implicit", []), ("password", ["read", "write"])])]],
        [], [[("key", [])], []]] := by
  cbv

end Sample

theorem convertTree_sample_secured :
    ∃ service, (convertTree Sample.options Sample.securedTree).outcome = .ok service ∧
      (service.interfaces.flatMap fun i => i.methods.map fun m =>
          m.security.map Sample.schemeNames) =
        [[[("link", []), ("granted", [("implicit", []), ("password", ["read", "write"])])]],
          [], [[("key", [])], []]] ∧
      ∃ d, Description.ofNode Sample.securedTree = .ok d ∧ d.root = Sample.securedTree ∧
        MethodsShow d (Site.Secured d) service.interfaces := by
  obtain ⟨service, h, names⟩ := read_map_ok Sample.schemeNames_securedTree
  exact ⟨service, h, names, convertTree_secured h⟩

end ServiceModel

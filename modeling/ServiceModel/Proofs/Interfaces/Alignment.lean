/-
The methods of interfaces and their HTTP bindings are aligned. Each operation of the description
is one method and one request, in the interface of its name; both are found at the same place
when the methods are gone through in order and the requests path by path. The parameters of the
two agree one by one: the body comes first, and then those that are declared, without cookies.
-/
import ServiceModel.Proofs.Conversion.Outcome
import ServiceModel.Proofs.Interfaces.Grouping
import ServiceModel.Proofs.Interfaces.Sites

namespace ServiceModel.OpenApi

open Service

variable {d : Description} {guards : Guards}

/-! ## Parameters -/

/-- The parameter of a method and that of a request are the same. -/
structure SameParameter (m : Service.Member) (r : HttpParameter) : Prop where
  name : m.name = r.name
  loc : m.loc = r.loc

/-- The parameter is sent as a cookie. -/
def Parameter.isCookie (p : Parameter) : Bool :=
  match p.location with
  | .ok place => place.text == "cookie"
  | .error _ => false

/-- The parameter of a request is the declared one, in the place that is declared for it. -/
structure ShowsParameter (p : Parameter) (r : HttpParameter) : Prop where
  name : p.name.map Literal.locatedText = .ok r.name
  place : p.location.map Literal.locatedText = .ok r.place
  loc : r.loc = some p.object.loc

theorem ShowsParameter.place_ne {p : Parameter} {r : HttpParameter} (h : ShowsParameter p r)
    (hc : p.isCookie = false) : r.place.value ≠ "cookie" := by
  intro he
  have hp := h.place
  unfold Parameter.isCookie at hc
  cases hl : p.location with
  | error e => rw [hl] at hp; cases hp
  | ok place =>
    rw [hl] at hp hc
    have same : place.locatedText = r.place := Except.ok.inj hp
    rw [← same] at he
    have differs : (place.text == "cookie") = false := hc
    exact beq_eq_false_iff_ne.1 differs he

theorem methodParameter_ok {p : Parameter} {schema : SchemaOrReference} {method : String}
    {m : Service.Member} (h : (methodParameter d guards p schema method).outcome = .ok m) :
    p.name.map Literal.locatedText = .ok m.name ∧ m.loc = some p.object.loc := by
  obtain ⟨resolved, -, h⟩ := Build.lift_bind_ok h
  obtain ⟨name, hn, h⟩ := Build.lift_bind_ok h
  obtain ⟨type, -, h, -⟩ := Build.bind_ok h
  obtain ⟨rules, -, h⟩ := Build.lift_bind_ok h
  cases Build.pure_ok h
  rw [hn]
  exact ⟨rfl, rfl⟩

theorem requestParameter_ok {p : Parameter} {schema : SchemaOrReference} {r : HttpParameter}
    (h : (requestParameter d p schema).outcome = .ok r) : ShowsParameter p r := by
  obtain ⟨place, hp, h⟩ := Build.lift_bind_ok h
  obtain ⟨form, -, h, -⟩ := Build.bind_ok h
  obtain ⟨name, hn, h⟩ := Build.lift_bind_ok h
  cases Build.pure_ok h
  exact ⟨by rw [hn]; rfl, by rw [hp]; rfl, rfl⟩

/-- What a declared parameter becomes: nothing if it is a cookie, or else a parameter of the
method and one of the request, with the schema that it has. -/
theorem parameterOf_cases {method : String} {source : OrReference Parameter}
    {found : Option (Service.Member × HttpParameter)}
    (h : (parameterOf d guards method source).outcome = .ok found) :
    ∃ p, source.resolve d.root Parameter.ofNode = .ok p ∧
      (p.isCookie = true ∧ found = none ∨
        p.isCookie = false ∧ ∃ schema m r, found = some (m, r) ∧ p.schema = .ok (some schema) ∧
          (methodParameter d guards p schema method).outcome = .ok m ∧
          (requestParameter d p schema).outcome = .ok r) := by
  obtain ⟨p, hp, h⟩ := Build.lift_bind_ok h
  obtain ⟨place, hl, h⟩ := Build.lift_bind_ok h
  refine ⟨p, hp, ?_⟩
  have cookie : p.isCookie = (place.text == "cookie") := by
    unfold Parameter.isCookie
    rw [hl]
  rw [cookie]
  by_cases hc : (place.text == "cookie") = true
  · rw [if_pos hc] at h
    obtain ⟨_, -, h, -⟩ := Build.bind_ok h
    cases Build.pure_ok h
    exact .inl ⟨hc, rfl⟩
  · rw [if_neg hc] at h
    refine .inr ⟨Bool.eq_false_iff.2 hc, ?_⟩
    obtain ⟨schema, hs, h⟩ := Build.lift_bind_ok h
    cases schema with
    | none =>
      obtain ⟨name, -, h⟩ := Build.lift_bind_ok h
      cases h
    | some schema =>
      obtain ⟨m, hm, h, -⟩ := Build.bind_ok h
      obtain ⟨r, hr, h, -⟩ := Build.bind_ok h
      cases Build.pure_ok h
      exact ⟨schema, m, r, rfl, hs, hm, hr⟩

/-- The two parameters that a declared one becomes are the same. -/
theorem parameterOf_ok {method : String} {source : OrReference Parameter}
    {found : Option (Service.Member × HttpParameter)}
    (h : (parameterOf d guards method source).outcome = .ok found) :
    ∃ p, source.resolve d.root Parameter.ofNode = .ok p ∧
      (p.isCookie = true ∧ found = none ∨
        p.isCookie = false ∧ ∃ both, found = some both ∧ ShowsParameter p both.2 ∧
          SameParameter both.1 both.2) := by
  obtain ⟨p, hp, cookie | ⟨plain, schema, m, r, rfl, -, hm, hr⟩⟩ := parameterOf_cases h
  · exact ⟨p, hp, .inl cookie⟩
  · obtain ⟨name, loc⟩ := methodParameter_ok hm
    have shows := requestParameter_ok hr
    refine ⟨p, hp, .inr ⟨plain, (m, r), rfl, shows, ?_, ?_⟩⟩
    · exact Except.ok.inj (name.symm.trans shows.name)
    · rw [loc, shows.loc]

/-- The declared parameters without the cookies, each of them in a relation to what it is read
as. -/
theorem parameters_forall₂ {method : String}
    {R : Parameter → Service.Member × HttpParameter → Prop}
    (one : ∀ {source read}, (parameterOf d guards method source).outcome = .ok read →
      ∃ p, source.resolve d.root Parameter.ofNode = .ok p ∧
        (p.isCookie = true ∧ read = none ∨
          p.isCookie = false ∧ ∃ both, read = some both ∧ R p both)) :
    ∀ {sources : List (OrReference Parameter)}
      {found : List (Option (Service.Member × HttpParameter))},
      List.Forall₂ (fun source read => (parameterOf d guards method source).outcome = .ok read)
        sources found →
      ∃ declared,
        List.Forall₂ (fun source p => source.resolve d.root Parameter.ofNode = .ok p) sources
          declared ∧
        List.Forall₂ R (declared.filter (!·.isCookie)) (found.filterMap id)
  | [], _, .nil => ⟨[], .nil, .nil⟩
  | source :: sources, read :: found, .cons h rest => by
    obtain ⟨declared, hr, hs⟩ := parameters_forall₂ one rest
    obtain ⟨p, hp, ⟨hc, rfl⟩ | ⟨hc, both, rfl, shows⟩⟩ := one h
    · refine ⟨p :: declared, .cons hp hr, ?_⟩
      rw [List.filter_cons_of_neg (by simp [hc])]
      exact hs
    · refine ⟨p :: declared, .cons hp hr, ?_⟩
      rw [List.filter_cons_of_pos (by simp [hc])]
      exact .cons shows hs

/-! ## Operations -/

/-- The parameters of the operation at a site: that of the body, if there is one, and those that
the path item and the operation declare, in this order and without the cookies. -/
structure ShowsParameters (d : Description) (guards : Guards) (s : Site)
    (ours : List Service.Member) (theirs : List HttpParameter) : Prop where
  /-- The parameters of the method and of the request agree one by one. -/
  same : List.Forall₂ SameParameter ours theirs
  /-- The body is first, and the others are the declared ones in their places. -/
  body : ∃ body rest sources declared,
    (bodyParameter d guards s.operation s.operation.name s.operation.object.metadata).outcome =
      .ok body ∧
    theirs = (body.map bodyRequestParameter).toList ++ rest ∧
    (∀ r, body.map bodyRequestParameter = some r → r.place.value = "body") ∧
    (do return (← s.item.parameters) ++ (← s.operation.parameters)) =
      (.ok sources : Except Failure _) ∧
    List.Forall₂ (fun source p => source.resolve d.root Parameter.ofNode = .ok p) sources
      declared ∧
    List.Forall₂ ShowsParameter (declared.filter (!·.isCookie)) rest
  no_cookie : ∀ r ∈ theirs, r.place.value ≠ "cookie"

/-- A method and a request show the operation at a site. -/
structure Shows (d : Description) (guards : Guards) (s : Site) (m : Method) (r : HttpMethod) :
    Prop where
  verb : r.verb.value = s.verb
  loc : m.loc = s.item.object.entryLoc? s.verb ∧ r.loc = m.loc
  named : s.operation.name ≠ "" → m.name.value = s.operation.name ∧ r.name = m.name
  unnamed : s.operation.name = "" →
    m.name.value = "UNNAMED" ∧ r.name.value = "unknown" ∧ r.name.loc = m.name.loc
  parameters : ShowsParameters d guards s m.parameters r.parameters

theorem nameOr_of_ne {name : String} (h : name ≠ "") (fallback : String) :
    nameOr name fallback = name := by
  unfold nameOr
  rw [if_neg (fun he => h (String.isEmpty_iff.1 he))]

theorem nameOr_empty {fallback : String} : nameOr "" fallback = fallback := rfl

theorem same_body (body : Option Service.Member) :
    List.Forall₂ SameParameter body.toList (body.map bodyRequestParameter).toList := by
  cases body with
  | none => exact .nil
  | some body => exact .cons ⟨rfl, rfl⟩ .nil

theorem body_place {body : Option Service.Member} {r : HttpParameter}
    (h : body.map bodyRequestParameter = some r) : r.place.value = "body" := by
  obtain ⟨b, -, rfl⟩ := Option.map_eq_some_iff.1 h
  rfl

theorem Site.HasParts.showsParameters {s : Site} {parts : Parts} (has : s.HasParts d guards parts) :
    ShowsParameters d guards s (s.assemble parts).method.parameters
      (s.assemble parts).request.parameters := by
  obtain ⟨declared, hr, hd⟩ :=
    parameters_forall₂ parameterOf_ok (Build.mapM_forall₂ has.declared)
  refine ⟨?_, ⟨parts.body, _, parts.sources, declared, has.body, rfl, fun r => body_place,
    has.sources, hr, ?_⟩, ?_⟩
  · refine List.rel_append (same_body parts.body) ?_
    refine List.forall₂_map_left_iff.2 (List.forall₂_map_right_iff.2 ?_)
    refine List.forall₂_same.2 fun both hm => ?_
    obtain ⟨p, -, -, same⟩ := forall₂_mem_right hd hm
    exact same
  · exact List.forall₂_map_right_iff.2 (hd.imp fun p both h => h.1)
  · intro r hm
    rcases List.mem_append.1 hm with hm | hm
    · rw [body_place (Option.mem_toList.1 hm)]
      decide
    · -- a declared cookie has been left out
      obtain ⟨both, hboth, rfl⟩ := List.mem_map.1 hm
      obtain ⟨p, hp, shows, -⟩ := forall₂_mem_right hd hboth
      exact shows.place_ne (by simpa using (List.mem_filter.1 hp).2)

/-- An operation that is bound is shown by its method and its request, stands below its path, and
belongs to the interface of its name. -/
theorem shows_of_binds {s : Site} {op : BoundOperation} (h : Binds d guards s op) :
    Shows d guards s op.method op.request ∧ op.path = s.path ∧
      s.interfaceName = .ok op.interfaceName := by
  obtain ⟨parts, has, rfl⟩ := binds_ok h
  refine ⟨?_, rfl, by rw [Site.interfaceName, has.sourceName]; rfl⟩
  refine ⟨rfl, ⟨rfl, rfl⟩, fun hn => ?_, fun hn => ?_, has.showsParameters⟩
  · have own := nameOr_of_ne hn unnamedMethod
    have own' := nameOr_of_ne hn unnamedRequest
    exact ⟨own, congrArg (Located.mk · _) (own'.trans own.symm)⟩
  · refine ⟨?_, ?_, rfl⟩
    · exact (congrArg (nameOr · unnamedMethod) hn).trans nameOr_empty
    · exact (congrArg (nameOr · unnamedRequest) hn).trans nameOr_empty

theorem isIn_of_binds {s : Site} {op : BoundOperation} (h : Binds d guards s op) (name : String) :
    s.isIn name = (op.interfaceName == name) := by
  unfold Site.isIn
  rw [(shows_of_binds h).2.2]

/-! ## Interfaces -/

/-- The interfaces show the operations of a description: each one in the interface of its name,
once, in order, as a method and as the request at the same place. -/
structure Aligned (d : Description) (guards : Guards) (sites : List Site)
    (interfaces : List Interface) : Prop where
  /-- The names of the interfaces are those of the operations, in the order of their first use. -/
  names : ∃ names, List.Forall₂ (fun s name => s.interfaceName = .ok name) sites names ∧
    interfaces.map (·.name.value) = names.eraseDups
  distinct : (interfaces.map (·.name.value)).Nodup
  paths : ∀ i ∈ interfaces, (i.http.map (·.path.value)).Nodup
  shown : ∀ i ∈ interfaces, ∃ pairs : List (Method × HttpMethod),
    List.Forall₂ (fun s pair => Shows d guards s pair.1 pair.2)
      (sites.filter (·.isIn i.name.value)) pairs ∧
    i.methods = pairs.map (·.1) ∧ i.http.flatMap (·.methods) = pairs.map (·.2)
  /-- The requests of a path are those of the operations below it. -/
  below : ∀ i ∈ interfaces, ∀ entry ∈ i.http,
    List.Forall₂ (fun s r => ∃ m, Shows d guards s m r)
      ((sites.filter (·.isIn i.name.value)).filter (·.path == entry.path.value)) entry.methods

/-- What is bound below a path has that path. -/
theorem paths_of_sites {paths : Object} :
    ∀ {keys : List String} {sites : List (List Site)} {groups : List (List BoundOperation)},
      List.Forall₂ (SitesAt d paths) keys sites →
      List.Forall₂ (List.Forall₂ (Binds d guards)) sites groups →
      List.Forall₂ (fun path ys => ∀ y ∈ ys, BoundOperation.path y = path) keys groups
  | [], [], [], .nil, .nil => .nil
  | _ :: _, _ :: _, _ :: _, .cons ⟨_, _, _, _, here⟩ hs, .cons hb hbs => by
    refine .cons (fun op hm => ?_) (paths_of_sites hs hbs)
    obtain ⟨s, hsm, bound⟩ := forall₂_mem_right hb hm
    obtain ⟨verb, -, same, -⟩ := forall₂_mem_right here hsm
    rw [(shows_of_binds bound).2.1, same]

/-- The operations with the name of an interface are bound to those that it has. -/
theorem binds_of_groups {paths : Object} {sites : List Site} {operations : List BoundOperation}
    {name : String} {i : Interface} (hb : List.Forall₂ (Binds d guards) sites operations)
    (hg : Groups paths operations name i) :
    List.Forall₂ (Binds d guards) (sites.filter (·.isIn i.name.value))
      (withKey (·.interfaceName) operations name) := by
  refine List.rel_filter (fun s op h => ?_) hb
  show s.isIn i.name.value = true ↔ (op.interfaceName == name) = true
  rw [isIn_of_binds h, hg.named]

theorem below_of_binds {paths : Object} {sites : List Site} {operations : List BoundOperation}
    (hb : List.Forall₂ (Binds d guards) sites operations) {entry : HttpPath}
    (he : entry ∈ requestsOf paths operations) :
    List.Forall₂ (fun s r => ∃ m, Shows d guards s m r)
      (sites.filter (·.path == entry.path.value)) entry.methods := by
  obtain ⟨path, -, rfl⟩ := List.mem_map.1 he
  have here : List.Forall₂ (Binds d guards) (sites.filter (·.path == path))
      (operations.filter (·.path == path)) := by
    refine List.rel_filter (fun s op h => ?_) hb
    show (s.path == path) = true ↔ (op.path == path) = true
    rw [(shows_of_binds h).2.1]
  exact List.forall₂_map_right_iff.2 (here.imp fun s op h => ⟨op.method, (shows_of_binds h).1⟩)

theorem aligned_of_groups {paths : Object} {sites : List (List Site)}
    {groups : List (List BoundOperation)} {interfaces : List Interface}
    (hs : List.Forall₂ (SitesAt d paths) paths.distinctKeys sites)
    (hb : List.Forall₂ (List.Forall₂ (Binds d guards)) sites groups)
    (hi : groupInterfaces d paths groups.flatten = .ok interfaces) :
    Aligned d guards sites.flatten interfaces := by
  -- operations are bound one by one, so that what is selected by name stays side by side
  have bound : List.Forall₂ (Binds d guards) sites.flatten groups.flatten :=
    List.rel_flatten hb
  have names := groupInterfaces_names hi
  have each : ∀ i ∈ interfaces, ∃ name, Groups paths groups.flatten name i := by
    intro i hm
    obtain ⟨name, -, hg⟩ := forall₂_mem_right (groupInterfaces_forall₂ hi) hm
    exact ⟨name, hg⟩
  refine ⟨⟨groups.flatten.map (·.interfaceName), ?_, names⟩, ?_, fun i hm => ?_, fun i hm => ?_,
    fun i hm entry he => ?_⟩
  · exact List.forall₂_map_right_iff.2 (bound.imp fun s op h => (shows_of_binds h).2.2)
  · rw [names]
    exact nodup_eraseDups _
  · obtain ⟨name, hg⟩ := each i hm
    rw [hg.http, requestsOf_paths]
    exact nodup_eraseDups _
  · obtain ⟨name, hg⟩ := each i hm
    have members := binds_of_groups bound hg
    -- no path comes twice, so that going path by path does not change the order
    have distinct : paths.distinctKeys.Nodup := nodup_eraseDups _
    have grouped : Grouped (·.path) (withKey (·.interfaceName) groups.flatten name) :=
      grouped_filter distinct (paths_of_sites hs hb) _
    refine ⟨(withKey (·.interfaceName) groups.flatten name).map fun op => (op.method, op.request),
      ?_, ?_, ?_⟩
    · exact List.forall₂_map_right_iff.2 (members.imp fun s op h => (shows_of_binds h).1)
    · rw [hg.methods, List.map_map]
      rfl
    · rw [hg.http, requestsOf_methods grouped, List.map_map]
      rfl
  · obtain ⟨name, hg⟩ := each i hm
    rw [hg.http] at he
    exact below_of_binds (binds_of_groups bound hg) he

/-- The interfaces of a description show its operations. -/
theorem interfacesOf_aligned {interfaces : List Interface}
    (h : (interfacesOf d guards).outcome = .ok interfaces) :
    ∃ sites, SitesOf d sites ∧ Aligned d guards sites interfaces := by
  obtain ⟨paths, sites, groups, listed, hs, hb, hg⟩ := interfacesOf_ok h
  exact ⟨sites.flatten, listed, aligned_of_groups hs hb hg⟩

end ServiceModel.OpenApi

namespace ServiceModel

open OpenApi

/-- No operation is lost, repeated or misaligned by a conversion: the interfaces of the service
show the operations of the description in document order. -/
theorem convert_aligned {options : Options} {text : String} {service : Service}
    (h : (convert options text).outcome = .ok service) :
    ∃ root d sites, treeOf text = .ok root ∧ Description.ofNode root = .ok d ∧
      SitesOf d sites ∧ Aligned d (.none options.limit) sites service.interfaces := by
  obtain ⟨root, d, ht, hd, -, yields⟩ := convert_ok h
  obtain ⟨components, hp, -⟩ := yields.passes
  obtain ⟨sites, hs, aligned⟩ := interfacesOf_aligned (Description.passes_ok hp).1
  exact ⟨root, d, sites, ht, hd, hs, aligned⟩

namespace Sample

/-- The requests of a service: for each interface its paths, and for each path the verbs with the
names of their parameters. -/
def requests (service : Service) : List (String × List (String × List (String × List String))) :=
  service.interfaces.map fun i => (i.name.value, i.http.map fun below =>
    (below.path.value, below.methods.map fun m => (m.verb.value, m.parameters.map (·.name.value))))

theorem requests_farmText :
    (convert options farmText).outcome.toOption.map requests =
      some [("sheep", [("/sheep", [("get", ["breed"]), ("put", ["body"])])]),
        ("fish", [("/fish", [("get", [])])])] := by
  rw [convert_eq_convertTree treeOf_farmText]
  cbv

end Sample

theorem convert_sample_aligned :
    ∃ service, (convert Sample.options Sample.farmText).outcome = .ok service ∧
      Sample.requests service =
        [("sheep", [("/sheep", [("get", ["breed"]), ("put", ["body"])])]),
          ("fish", [("/fish", [("get", [])])])] ∧
      ∃ root d sites, treeOf Sample.farmText = .ok root ∧ Description.ofNode root = .ok d ∧
        SitesOf d sites ∧ Aligned d (.none Sample.options.limit) sites service.interfaces := by
  obtain ⟨service, ok, shown⟩ := read_map_ok Sample.requests_farmText
  exact ⟨service, ok, shown, convert_aligned ok⟩

end ServiceModel

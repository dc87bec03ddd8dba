/-
What a conversion reports. Each operation is reported for its body, then for its parameters and
then for its response, and operations are reported in document order. What there is to report is
read off the description here; nothing else is reported, and nothing is reported twice.
-/
import ServiceModel.Proofs.Conversion.Outcome
import ServiceModel.Proofs.Interfaces.Sites
import ServiceModel.Proofs.Synthesis.Records

namespace ServiceModel

open Service Build

namespace OpenApi

/-! ## What there is to report -/

/-- A content is reported if it declares several types. -/
def contentReport (content : Option Object) : Option Violation :=
  content.bind fun o => if 1 < o.entries.length then some ⟨.contentTypes, o.loc⟩ else none

/-- Is the schema that of an array? -/
def isArray : Schema → Bool
  | .array _ => true
  | _ => false

namespace Parameter

/-- A style of paths is reported. -/
def styleReport (p : Parameter) : Option Violation :=
  p.style?.bind fun style =>
    if style.text ∈ ["matrix", "label"] then some ⟨.style style.text, style.loc⟩ else none

/-- In a place where arrays need a style, an array is reported for its style. -/
def arrayReport (p : Parameter) (place : String) (schema : Schema) : Option Violation :=
  if isArray schema ∧ place ∈ ["header", "path", "query"] then p.styleReport else none

/-- A parameter is reported if it is a cookie, or else if it is an array, for its style. -/
def report (root : Node) (p : Parameter) : Except Failure (Option Violation) := do
  let place ← p.location
  if place.text = "cookie" then return some ⟨.cookie, place.loc⟩
  else
    match ← p.schema with
    | none => return none
    | some source => return p.arrayReport place.text (← source.resolve root)

end Parameter

namespace Operation

/-- The content of the body of an operation. -/
def bodyContent (root : Node) (o : Operation) : Except Failure (Option Object) := do
  match ← o.requestBody with
  | none => return none
  | some source => (← source.resolve root RequestBody.ofNode).content

/-- The content of the response that says what success is. -/
def successContent (root : Node) (o : Operation) : Except Failure (Option Object) := do
  match ← o.primaryResponse with
  | none => return none
  | some primary =>
    match ← primary.source with
    | none => return none
    | some source => (← source.resolve root Response.ofNode).content

end Operation

/-- The reports of an operation: for its body, for the parameters of its path and its own in
order, and for its response. -/
def Site.reports (root : Node) (s : Site) : Except Failure (List Violation) := do
  let body ← s.operation.bodyContent root
  let sources := (← s.item.parameters) ++ (← s.operation.parameters)
  let declared ← sources.mapM fun source => do
    (← source.resolve root Parameter.ofNode).report root
  let success ← s.operation.successContent root
  return (contentReport body).toList ++ declared.filterMap id ++ (contentReport success).toList

/-- The violations are the reports of the operations, one operation after another. -/
def AreReports (root : Node) (sites : List Site) (found : List Violation) : Prop :=
  ∃ groups, List.Forall₂ (fun s reports => Site.reports root s = .ok reports) sites groups ∧
    found = groups.flatten

theorem AreReports.nil {root : Node} : AreReports root [] [] := ⟨[], .nil, rfl⟩

theorem AreReports.append {root : Node} {sites others : List Site} {found rest : List Violation}
    (h : AreReports root sites found) (ho : AreReports root others rest) :
    AreReports root (sites ++ others) (found ++ rest) := by
  obtain ⟨groups, hg, rfl⟩ := h
  obtain ⟨groups', hg', rfl⟩ := ho
  exact ⟨groups ++ groups', List.rel_append hg hg', List.flatten_append.symm⟩

variable {d : Description} {guards : Guards}

/-! ## Contents -/

theorem reports_contentSchema {content : Option Object} :
    Reports (fun _ found => found = (contentReport content).toList) (contentSchema content) := by
  unfold contentSchema contentReport
  cases content with
  | none => exact .pure rfl
  | some o =>
    have keys : o.keys.length = o.entries.length := List.length_map _
    simp only [keys, Option.bind_some]
    split
    · exact .record_bind (.lift fun _ _ => rfl)
    · exact .lift fun _ _ => rfl

theorem silent_describe {schema : SchemaOrReference} {name parent : String} :
    Silent (describe d.root guards schema name parent) :=
  Call.silent_run (.describe guards schema name parent)

theorem reports_bodyParameter {o : Operation} {method : String}
    {metadata : Option (List MetaValue)} :
    Reports (fun _ found => ∃ content, o.bodyContent d.root = .ok content ∧
        found = (contentReport content).toList)
      (bodyParameter d guards o method metadata) := by
  refine .lift_bind fun found hf => ?_
  cases found with
  | none => exact .pure ⟨none, by rw [Operation.bodyContent, hf]; rfl, rfl⟩
  | some source =>
    refine .lift_bind fun body hb => ?_
    refine .lift_bind fun content hc => ?_
    have same : o.bodyContent d.root = .ok content := by
      rw [Operation.bodyContent, read_bind_of_ok hf]
      exact (read_bind_of_ok hb _).trans hc
    refine .bind reports_contentSchema ?_
    rintro schema _ rfl
    cases schema with
    | none => exact .pure ⟨content, same, by simp⟩
    | some schema =>
      refine .lift_bind fun resolved _ => ?_
      refine .silent_bind silent_describe fun type => ?_
      exact .lift_bind fun rules _ => .pure ⟨content, same, by simp⟩

theorem reports_returnTypeOf {o : Operation} {method : String} :
    Reports (fun _ found => ∃ content, o.successContent d.root = .ok content ∧
        found = (contentReport content).toList)
      (returnTypeOf d guards o method) := by
  refine .lift_bind fun primary hp => ?_
  cases primary with
  | none => exact .pure ⟨none, by rw [Operation.successContent, hp]; rfl, rfl⟩
  | some primary =>
    refine .lift_bind fun source hs => ?_
    cases source with
    | none =>
      refine .pure ⟨none, ?_, rfl⟩
      rw [Operation.successContent, read_bind_of_ok hp]
      exact read_bind_of_ok hs _
    | some source =>
      refine .lift_bind fun response hr => ?_
      refine .lift_bind fun content hc => ?_
      have same : o.successContent d.root = .ok content := by
        rw [Operation.successContent, read_bind_of_ok hp]
        exact (read_bind_of_ok hs _).trans ((read_bind_of_ok hr _).trans hc)
      refine .bind reports_contentSchema ?_
      rintro schema _ rfl
      cases schema with
      | none => exact .pure ⟨content, same, by simp⟩
      | some schema =>
        refine .lift_bind fun parent _ => ?_
        exact .silent_bind silent_describe fun type => .pure ⟨content, same, by simp⟩

/-! ## Parameters -/

theorem reports_arrayForm {p : Parameter} :
    Reports (fun _ found => found = p.styleReport.toList) (arrayForm p) := by
  unfold arrayForm Parameter.styleReport
  cases p.style? with
  | none => exact .pure rfl
  | some style =>
    have listed : unsupportedStyles.contains style.text = true ↔
        style.text ∈ ["matrix", "label"] := List.contains_iff_mem
    simp only [listed, Option.bind_some]
    split
    · exact .record_bind (.pure rfl)
    · split <;> exact .pure rfl

theorem reports_arrayFormAt {p : Parameter} {place : String} {source : SchemaOrReference}
    {schema : Schema} (hs : source.resolve d.root = .ok schema) :
    Reports (fun _ found => found = (p.arrayReport place schema).toList)
      (arrayFormAt d p place source) := by
  have listed : arrayPlaces.contains place = true ↔ place ∈ ["header", "path", "query"] :=
    List.contains_iff_mem
  unfold arrayFormAt Parameter.arrayReport
  simp only [listed]
  by_cases hp : place ∈ ["header", "path", "query"]
  · rw [if_pos hp]
    refine .lift_bind fun resolved hr => ?_
    cases Except.ok.inj (hs.symm.trans hr)
    cases schema with
    | array s =>
      rw [if_pos ⟨rfl, hp⟩]
      refine .bind reports_arrayForm ?_
      rintro form _ rfl
      exact .pure (by simp)
    | _ => exact .pure (by simp [isArray])
  · rw [if_neg hp, if_neg fun h => hp h.2]
    exact .pure rfl

theorem reports_requestParameter {p : Parameter} {place : Literal} {source : SchemaOrReference}
    {schema : Schema} (hl : p.location = .ok place) (hs : source.resolve d.root = .ok schema) :
    Reports (fun _ found => found = (p.arrayReport place.text schema).toList)
      (requestParameter d p source) := by
  refine .lift_bind fun place' hl' => ?_
  cases Except.ok.inj (hl.symm.trans hl')
  refine .bind (reports_arrayFormAt hs) ?_
  rintro form _ rfl
  exact .lift_bind fun name _ => .pure (List.append_nil _)

/-- The schema of a parameter is found when the parameter is described. -/
theorem reports_methodParameter {p : Parameter} {source : SchemaOrReference} {method : String} :
    Reports (fun _ found => found = [] ∧ ∃ schema, source.resolve d.root = .ok schema)
      (methodParameter d guards p source method) := by
  refine .lift_bind fun schema hs => ?_
  refine .lift_bind fun name _ => ?_
  refine .silent_bind silent_describe fun type => ?_
  exact .lift_bind fun rules _ => .pure ⟨rfl, schema, hs⟩

theorem reports_parameterOf {source : OrReference Parameter} {method : String} :
    Reports (fun _ found => ∃ p report, source.resolve d.root Parameter.ofNode = .ok p ∧
        p.report d.root = .ok report ∧ found = report.toList)
      (parameterOf d guards method source) := by
  refine .lift_bind fun p hp => ?_
  refine .lift_bind fun place hl => ?_
  by_cases hc : place.text = "cookie"
  · rw [if_pos (beq_iff_eq.2 hc)]
    refine .record_bind (.pure ⟨p, some ⟨.cookie, place.loc⟩, hp, ?_, rfl⟩)
    rw [Parameter.report, read_bind_of_ok hl, if_pos hc]
    rfl
  · rw [if_neg fun h => hc (beq_iff_eq.1 h)]
    refine .lift_bind fun found hf => ?_
    cases found with
    | none => exact .lift_bind fun name _ => .fail
    | some sub =>
      refine .bind reports_methodParameter ?_
      rintro ours _ ⟨rfl, schema, hs⟩
      refine .bind (reports_requestParameter hl hs) ?_
      rintro request _ rfl
      refine .pure ⟨p, p.arrayReport place.text schema, hp, ?_, by simp⟩
      rw [Parameter.report, read_bind_of_ok hl, if_neg hc, read_bind_of_ok hf]
      exact read_bind_of_ok hs _

/-- The parameters of an operation are reported one by one, in order. -/
theorem mapM_report_ok {sources : List (OrReference Parameter)} {groups : List (List Violation)}
    (h : List.Forall₂ (fun source found => ∃ p report,
      source.resolve d.root Parameter.ofNode = .ok p ∧ p.report d.root = .ok report ∧
        found = report.toList) sources groups) :
    ∃ declared, sources.mapM (fun source => do
        (← source.resolve d.root Parameter.ofNode).report d.root) = .ok declared ∧
      groups.flatten = declared.filterMap id := by
  induction h with
  | nil => exact ⟨[], rfl, rfl⟩
  | @cons source _ sources _ head _ ih =>
    obtain ⟨p, report, hp, hr, rfl⟩ := head
    obtain ⟨declared, hd, same⟩ := ih
    refine ⟨report :: declared, ?_, ?_⟩
    · rw [List.mapM_cons, read_bind_of_ok ((read_bind_of_ok hp _).trans hr), read_bind_of_ok hd]
      rfl
    · rw [List.flatten_cons, same]
      cases report <;> rfl

/-! ## Operations -/

/-- The records of each operation are its reports. -/
theorem reports_bind {s : Site} :
    Reports (fun _ found => s.reports d.root = .ok found)
      (OpenApi.bind d guards s.item s.path s.verb s.operation) := by
  refine .lift_bind fun sourceName _ => ?_
  refine .bind reports_bodyParameter ?_
  rintro body _ ⟨bodyContent, hb, rfl⟩
  refine .lift_bind fun shared hs => ?_
  refine .lift_bind fun own ho => ?_
  refine .bind (Reports.mapM fun source _ => reports_parameterOf) ?_
  rintro found _ ⟨groups, hg, rfl⟩
  refine .lift_bind fun security _ => ?_
  refine .bind reports_returnTypeOf ?_
  rintro returnType _ ⟨successContent, hc, rfl⟩
  refine .lift_bind fun code _ => .pure ?_
  obtain ⟨declared, hd, same⟩ := mapM_report_ok hg
  rw [Site.reports, read_bind_of_ok hb, read_bind_of_ok hs, read_bind_of_ok ho,
    read_bind_of_ok hd, read_bind_of_ok hc, same]
  simp [pure, Except.pure]

/-- The reports of the operations below a path. -/
theorem reports_bindPath {paths : Object} {path : String} (hp : path ∈ paths.distinctKeys) :
    Reports (fun _ found => ∃ sites, SitesAt d paths path sites ∧ AreReports d.root sites found)
      (bindPath d guards paths path) := by
  refine .lift_bind fun found hf => ?_
  obtain ⟨source, rfl⟩ := Object.readEntry_of_mem hp hf
  refine .lift_bind fun item hi => ?_
  refine .lift_bind fun listed hl => ?_
  let site (o : String × Operation) : Site := ⟨path, item, o.1, o.2⟩
  have each : ∀ o ∈ listed, Reports (fun _ found => (site o).reports d.root = .ok found)
      (OpenApi.bind d guards item path o.1 o.2) := fun o _ => reports_bind
  refine (Reports.mapM each).imp ?_
  rintro _ _ ⟨groups, hg, rfl⟩
  refine ⟨listed.map site, ⟨source, item, hf, hi, ?_⟩, groups, ?_, rfl⟩
  · refine List.forall₂_map_right_iff.2 ((operations_forall₂ hl).imp fun verb o ho => ?_)
    exact ⟨rfl, rfl, ho.1, ho.2⟩
  · exact List.forall₂_map_left_iff.2 hg

/-- The paths and what is reported below them, with the operations that stand there. -/
theorem sites_of_reports {paths : Object} {keys : List String} {groups : List (List Violation)}
    (h : List.Forall₂ (fun path found => ∃ sites, SitesAt d paths path sites ∧
      AreReports d.root sites found) keys groups) :
    ∃ sites, List.Forall₂ (SitesAt d paths) keys sites ∧
      AreReports d.root sites.flatten groups.flatten := by
  induction h with
  | nil => exact ⟨[], .nil, .nil⟩
  | cons head _ ih =>
    obtain ⟨here, hh, hr⟩ := head
    obtain ⟨others, ho, hs⟩ := ih
    exact ⟨here :: others, .cons hh ho, hr.append hs⟩

theorem reports_bindAll {paths : Object} :
    Reports (fun _ found => ∃ sites, List.Forall₂ (SitesAt d paths) paths.distinctKeys sites ∧
        AreReports d.root sites.flatten found)
      (bindAll d guards paths) := by
  refine .bind (Reports.mapM fun path hp => reports_bindPath hp) ?_
  rintro found _ ⟨groups, hg, rfl⟩
  obtain ⟨sites, hs, hr⟩ := sites_of_reports hg
  exact .pure ⟨sites, hs, by rwa [List.append_nil]⟩

/-- The pass over the interfaces reports what there is to report of the operations. -/
theorem reports_interfacesOf :
    Reports (fun _ found => ∃ sites, SitesOf d sites ∧ AreReports d.root sites found)
      (interfacesOf d guards) := by
  refine .lift_bind fun listed hl => ?_
  unfold SitesOf
  rw [hl]
  cases listed with
  | none =>
    refine .silent_bind (.pure rfl) fun interfaces => ?_
    exact .silent_bind (.record rfl) fun _ => .pure ⟨[], rfl, .nil⟩
  | some paths =>
    refine .bind reports_bindAll ?_
    rintro operations found ⟨sites, hs, hr⟩
    refine .lift_bind fun interfaces _ => ?_
    refine .silent_bind (.record rfl) fun _ => .pure ?_
    exact ⟨sites.flatten, ⟨sites, hs, rfl⟩, by rwa [List.append_nil]⟩

/-! ## Components -/

/-- The pass over the components reports nothing. -/
theorem silent_componentTypes : Silent (d.componentTypes guards) := by
  refine .lift_bind fun components _ => ?_
  cases components with
  | none => exact .pure rfl
  | some components =>
    refine .lift_bind fun schemas _ => ?_
    cases schemas with
    | none => exact .pure rfl
    | some schemas =>
      refine .silent_bind (Silent.mapM fun name _ => ?_) fun found => .pure rfl
      refine .lift_bind fun source _ => ?_
      cases source with
      | none => exact .pure rfl
      | some source =>
        refine .lift_bind fun inner _ => ?_
        refine .lift_bind fun target _ => ?_
        cases target with
        | object s =>
          refine .silent_bind (Call.silent_run (.properties inner s name [])) fun properties => ?_
          exact .silent_bind (.record rfl) fun _ => .pure rfl
        | _ => exact .pure rfl

end OpenApi

open OpenApi

/-- The violations of a conversion are the reports of the operations of the description, in
document order. -/
theorem convert_reports {options : Options} {text : String} {service : Service}
    (h : (convert options text).outcome = .ok service) :
    ∃ root d sites, treeOf text = .ok root ∧ Description.ofNode root = .ok d ∧ SitesOf d sites ∧
      AreReports root sites (violationsIn (convert options text).journal) := by
  obtain ⟨root, d, ht, hd, rfl, yields⟩ := convert_ok h
  obtain ⟨components, hp, -⟩ := yields.passes
  obtain ⟨hi, hc⟩ := Description.passes_ok hp
  obtain ⟨sites, hs, hr⟩ := reports_interfacesOf _ hi
  refine ⟨d.root, d, sites, ht, hd, hs, ?_⟩
  rw [convert_journal h ht hd, violationsIn_append, silent_componentTypes _ hc, List.append_nil]
  exact hr

namespace Sample

/-- A description with one operation, which is reported for a cookie and for its response. -/
def reported : String :=
  "\x7b'openapi':'3.0','info':\x7b'title':'T','version':'1'\x7d,'paths':\x7b'/':\x7b'get':\x7b" ++
    "'parameters':[\x7b'in':'cookie'\x7d]," ++
    "'responses':\x7b'200':\x7b'content':\x7b'a':\x7b\x7d,'b':\x7b\x7d\x7d\x7d\x7d\x7d\x7d\x7d\x7d"

def reportedTree : Node :=
  .object [(key "openapi" 1 10, leaf "3.0" 11 16),
    (key "info" 17 23, .object [(key "title" 25 32, leaf "T" 33 36),
      (key "version" 37 46, leaf "1" 47 50)] (span 24 51)),
    (key "paths" 52 59, .object [(key "/" 61 64, .object [(key "get" 66 71,
      .object [(key "parameters" 73 85,
          .array [.object [(key "in" 88 92, leaf "cookie" 93 101)] (span 87 102)] (span 86 103)),
        (key "responses" 104 115, .object [(key "200" 117 122, .object [(key "content" 124 133,
          .object [(key "a" 135 138, .object [] (span 139 141)),
            (key "b" 142 145, .object [] (span 146 148))] (span 134 149))] (span 123 150))]
          (span 116 151))] (span 72 152))] (span 65 153))] (span 60 154))] (span 0 155)

theorem treeOf_reported : treeOf reported = .ok reportedTree :=
  treeOf_of_spelled (append_spelled (append_spelled rfl rfl) rfl) (by decide +kernel)
    (by decide +kernel)

/-- The description is converted with two violations. -/
theorem conversion_reportedTree :
    ((convertTree options reportedTree).outcome.isOk,
      violationsIn (convertTree options reportedTree).journal) =
        (true, [⟨.cookie, (span 93 101).encode⟩, ⟨.contentTypes, (span 134 149).encode⟩]) := by
  cbv

theorem convertTree_reportedTree : (convertTree options reportedTree).outcome.isOk = true :=
  congrArg Prod.fst conversion_reportedTree

theorem violationsIn_reportedTree : violationsIn (convertTree options reportedTree).journal =
    [⟨.cookie, (span 93 101).encode⟩, ⟨.contentTypes, (span 134 149).encode⟩] :=
  congrArg Prod.snd conversion_reportedTree

end Sample

theorem convert_reported_reports :
    ∃ service, (convert Sample.options Sample.reported).outcome = .ok service ∧
      (∃ root d sites, treeOf Sample.reported = .ok root ∧ Description.ofNode root = .ok d ∧
        SitesOf d sites ∧
        AreReports root sites (violationsIn (convert Sample.options Sample.reported).journal)) ∧
      violationsIn (convert Sample.options Sample.reported).journal =
        [⟨.cookie, (Sample.span 93 101).encode⟩, ⟨.contentTypes, (Sample.span 134 149).encode⟩] := by
  obtain ⟨service, ok⟩ := exists_convert Sample.treeOf_reported Sample.convertTree_reportedTree
  refine ⟨service, ok, convert_reports ok, ?_⟩
  rw [convert_eq_convertTree Sample.treeOf_reported]
  exact Sample.violationsIn_reportedTree

end ServiceModel

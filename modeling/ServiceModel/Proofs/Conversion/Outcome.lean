/-
What a conversion that succeeds has gone through: the text is a tree, the tree a description, and
the two passes over the description have come to the interfaces and to the types of the
components. The service is made of these and of what the passes record.
-/
import Mathlib
import ServiceModel.Conversion
import ServiceModel.Proofs.Build.Outcome
import ServiceModel.Proofs.Document.Equality
import ServiceModel.Proofs.Document.Within

namespace ServiceModel

open Service OpenApi

namespace OpenApi.Description

/-- The passes over a description: the interfaces, and then the types of the components. -/
def passes (d : Description) (guards : Guards) : Build (List Interface × List TypeDef) := do
  let interfaces ← interfacesOf d guards
  return (interfaces, ← d.componentTypes guards)

theorem passes_ok {d : Description} {guards : Guards} {interfaces : List Interface}
    {components : List TypeDef} (h : (d.passes guards).outcome = .ok (interfaces, components)) :
    (interfacesOf d guards).outcome = .ok interfaces ∧
      (d.componentTypes guards).outcome = .ok components := by
  obtain ⟨interfaces', hi, h, -⟩ := Build.bind_ok h
  obtain ⟨components', hc, h, -⟩ := Build.bind_ok h
  cases Build.pure_ok h
  exact ⟨hi, hc⟩

theorem passes_journal {d : Description} {guards : Guards}
    {found : List Interface × List TypeDef} (h : (d.passes guards).outcome = .ok found) :
    (d.passes guards).journal =
      (interfacesOf d guards).journal ++ (d.componentTypes guards).journal := by
  obtain ⟨interfaces, -, h, hj⟩ := Build.bind_ok h
  obtain ⟨components, -, h, hj'⟩ := Build.bind_ok h
  rw [passes, hj, hj', Build.pure_eq, List.append_nil]

/-- A service is made of what the passes come to and of what they record. -/
structure Yields (d : Description) (options : Options) (service : Service) : Prop where
  passes : ∃ components, (d.passes (.none options.limit)).outcome =
      .ok (service.interfaces, components) ∧
    service.types = foldTypes (components ++
      (d.passes (.none options.limit)).journal.filterMap Entry.type?)
  enums : service.enums =
    foldEnums ((d.passes (.none options.limit)).journal.filterMap Entry.enum?)
  unions : service.unions =
    foldUnions ((d.passes (.none options.limit)).journal.filterMap Entry.union?)

theorem yields_of_service {d : Description} {options : Options} {service : Service}
    (h : (d.service options).outcome = .ok service) : d.Yields options service := by
  obtain ⟨⟨⟨interfaces, components⟩, journal⟩, hp, h, -⟩ := Build.bind_ok h
  obtain ⟨hp, hj⟩ := Build.listen_ok hp
  obtain ⟨⟨title, major⟩, -, h⟩ := Build.lift_bind_ok h
  cases Build.pure_ok h
  refine ⟨⟨components, hp, ?_⟩, ?_, ?_⟩
  · rw [hj]; rfl
  · rw [hj]; rfl
  · rw [hj]; rfl

/-- What is recorded on the way to a service is recorded by the passes. -/
theorem service_journal {d : Description} {options : Options} {service : Service}
    (h : (d.service options).outcome = .ok service) :
    (d.service options).journal = (interfacesOf d (.none options.limit)).journal ++
      (d.componentTypes (.none options.limit)).journal := by
  obtain ⟨⟨found, journal⟩, hp, h, hj⟩ := Build.bind_ok h
  obtain ⟨hp, -⟩ := Build.listen_ok hp
  obtain ⟨⟨title, major⟩, -, h, hj'⟩ := Build.bind_ok h
  rw [OpenApi.Description.service, hj, hj']
  simp only [Build.liftM_eq, Build.lift, Build.pure_eq, List.append_nil]
  exact passes_journal hp

end OpenApi.Description

/-- A tree that is a description is read as one, with a version that is understood. -/
theorem descriptionOfTree_read {options : Options} {root : Node} {d : Description}
    (h : descriptionOfTree options root = .ok d) :
    Description.ofNode root = .ok d ∧ d.checkVersion = .ok () := by
  have read : (do let d ← Description.ofNode root; d.checkVersion; return d) = .ok d := by
    unfold descriptionOfTree at h
    split at h
    · obtain ⟨_, -, h⟩ := read_bind_ok h
      exact h
    · exact h
  obtain ⟨d', hn, h⟩ := read_bind_ok read
  obtain ⟨_, hc, h⟩ := read_bind_ok h
  cases h
  exact ⟨hn, hc⟩

theorem descriptionOfTree_ok {options : Options} {root : Node} {d : Description}
    (h : descriptionOfTree options root = .ok d) : Description.ofNode root = .ok d :=
  (descriptionOfTree_read h).1

/-- A text that is converted is a description that yields the service. -/
theorem convert_ok {options : Options} {text : String} {service : Service}
    (h : (convert options text).outcome = .ok service) :
    ∃ root d, treeOf text = .ok root ∧ Description.ofNode root = .ok d ∧ d.root = root ∧
      d.Yields options service := by
  obtain ⟨root, ht, h⟩ := Build.lift_bind_ok h
  obtain ⟨d, hd, h⟩ := Build.lift_bind_ok h
  have hn := descriptionOfTree_ok hd
  exact ⟨root, d, ht, hn, View.reads_description root d hn,
    Description.yields_of_service h⟩

/-- A conversion records what the passes over its description record, and nothing else. -/
theorem convert_journal {options : Options} {text : String} {service : Service} {root : Node}
    {d : Description} (h : (convert options text).outcome = .ok service)
    (ht : treeOf text = .ok root) (hd : Description.ofNode root = .ok d) :
    (convert options text).journal = (interfacesOf d (.none options.limit)).journal ++
      (d.componentTypes (.none options.limit)).journal := by
  obtain ⟨root', ht', h, hj⟩ := Build.bind_ok h
  cases Except.ok.inj (ht.symm.trans ht')
  obtain ⟨d', hd', h, hj'⟩ := Build.bind_ok h
  cases Except.ok.inj (hd.symm.trans (descriptionOfTree_ok hd'))
  rw [convert, hj, convertTree, hj']
  simp only [Build.liftM_eq, Build.lift, List.nil_append]
  exact Description.service_journal h

/-- A text is converted by converting its tree. -/
theorem convert_eq_convertTree {options : Options} {text : String} {root : Node}
    (h : treeOf text = .ok root) : convert options text = convertTree options root := by
  rw [convert, h]
  rfl

theorem exists_convert {options : Options} {text : String} {root : Node}
    (ht : treeOf text = .ok root) (h : (convertTree options root).outcome.isOk = true) :
    ∃ service, (convert options text).outcome = .ok service := by
  rw [convert_eq_convertTree ht]
  cases ho : (convertTree options root).outcome with
  | ok service => exact ⟨service, rfl⟩
  | error e => rw [ho] at h; cases h

/-! ## Texts in pieces -/

theorem append_spelled {s t : String} {cs ds : List Char} (hs : s = String.ofList cs)
    (ht : t = String.ofList ds) : s ++ t = String.ofList (cs ++ ds) := by
  rw [hs, ht, String.ofList_append]

theorem not_mem_of_spelled {text : String} {chars : List Char} {c : Char}
    (spelled : text = String.ofList chars) (h : c ∉ chars) : c ∉ text.toList := by
  rwa [spelled, String.toList_ofList]

/-- A text of allowed characters, the tokens of which make one node, has the tree of this node. -/
theorem treeOf_of_spelled {text : String} {chars : List Char} {root : Node}
    (spelled : text = String.ofList chars)
    (allowed : (Node.untabbed chars).all Yaml.isAllowed = true)
    (composed : (Yaml.Node.ofTokens (Yaml.Token.ofText (Node.untabbed chars))).toOption.join.map
      Node.ofYaml = some (.ok root)) : treeOf text = .ok root := by
  rw [treeOf, Node.read, spelled, String.toList_ofList, allowed]
  cases made : Yaml.Node.ofTokens (Yaml.Token.ofText (Node.untabbed chars)) with
  | error fault =>
    rw [made] at composed
    cases composed
  | ok node? =>
    cases node? with
    | none =>
      rw [made] at composed
      cases composed
    | some node =>
      rw [made] at composed
      have tree : Node.ofYaml node = .ok root := Option.some.inj composed
      show (Node.ofYaml node).mapError Failure.read = _
      rw [tree]
      rfl

/-! ## A conversion -/

namespace Sample

/-- A description with one operation and one component, which the operation uses. -/
def text : String :=
  "\x7b'openapi':'3.0','info':\x7b'title':'T','version':'1'\x7d," ++
    "'paths':\x7b'/':\x7b'get':\x7b'parameters':[\x7b'name':'q','in':'path'," ++
    "'schema':\x7b'$ref':'#/components/schemas/S'\x7d\x7d]\x7d\x7d\x7d," ++
    "'components':\x7b'schemas':\x7b'S':\x7b\x7d\x7d\x7d\x7d"

/-- No more than one reference may be nested. -/
def options : Options := { limit := 1 }

/-- Descriptions are checked against the outline of their language as well. -/
def checked : Options := { options with strict := true }

/-- The span between two offsets; the text has one line. -/
def span (start stop : Nat) : Text.Range := ⟨⟨1, start + 1, start⟩, ⟨1, stop + 1, stop⟩⟩

def key (name : String) (start stop : Nat) : Key := ⟨name, span start stop⟩

def leaf (text : String) (start stop : Nat) : Node := .literal ⟨.text text, span start stop⟩

/-- What a description starts with. -/
def heading : List (Key × Node) :=
  [(key "openapi" 1 10, leaf "3.0.3" 11 18),
    (key "info" 19 25, .object [(key "title" 27 34, leaf "T" 35 38),
      (key "version" 39 48, leaf "1" 49 52)] (span 26 53))]

/-- An operation with a parameter, the schema of which is a component, and with a response. -/
def operation : Object :=
  ⟨[(key "parameters" 75 87, .array [.object [(key "name" 90 96, leaf "q" 97 100),
      (key "in" 101 105, leaf "query" 106 113), (key "schema" 114 122,
        .object [(key "$ref" 124 130, leaf "#/components/schemas/S" 131 155)] (span 123 156))]
      (span 89 157)] (span 88 158)),
    (key "responses" 159 170, .object [(key "200" 172 177,
      .object [(key "description" 179 192, leaf "D" 193 196)] (span 178 197))] (span 171 198))],
    span 74 199⟩

def tree : Node :=
  .object [(key "openapi" 1 10, leaf "3.0" 11 16),
    (key "info" 17 23, .object [(key "title" 25 32, leaf "T" 33 36),
      (key "version" 37 46, leaf "1" 47 50)] (span 24 51)),
    (key "paths" 52 59, .object [(key "/" 61 64, .object [(key "get" 66 71,
      .object [(key "parameters" 73 85, .array [.object [(key "name" 88 94, leaf "q" 95 98),
        (key "in" 99 103, leaf "path" 104 110), (key "schema" 111 119,
          .object [(key "$ref" 121 127, leaf "#/components/schemas/S" 128 152)] (span 120 153))]
        (span 87 154)] (span 86 155))] (span 72 156))] (span 65 157))] (span 60 158)),
    (key "components" 159 171, .object [(key "schemas" 173 182,
      .object [(key "S" 184 187, .object [] (span 188 190))] (span 183 191))] (span 172 192))]
    (span 0 193)

-- the characters are given to the kernel, for which it is slow to find them in a text
theorem treeOf_text : treeOf text = .ok tree :=
  treeOf_of_spelled (append_spelled (append_spelled (append_spelled rfl rfl) rfl) rfl)
    (by decide +kernel) (by decide +kernel)

theorem convertTree_tree : (convertTree options tree).outcome.isOk = true := by cbv

theorem converts : ∃ service, (convert options text).outcome = .ok service :=
  exists_convert treeOf_text convertTree_tree

/-- A description with three operations below two paths. One has a parameter that no request shows,
and one has a body. The types of the body and of a part of the component have no names. -/
def farmText : String :=
  "\x7b'openapi':'3.0','info':\x7b'title':'T','version':'1'\x7d,'paths':\x7b'/sheep':\x7b'get':" ++
    "\x7b'parameters':[\x7b'name':'breed','in':'query','schema':" ++
    "\x7b'$ref':'#/components/schemas/Breed'\x7d\x7d," ++
    "\x7b'name':'visit','in':'cookie','schema':\x7b'type':'string'\x7d\x7d]\x7d," ++
    "'put':\x7b'requestBody':\x7b'content':\x7b'text/json':\x7b'schema':" ++
    "\x7b'properties':\x7b'name':\x7b'type':'string'\x7d\x7d\x7d\x7d\x7d\x7d\x7d\x7d," ++
    "'/fish':\x7b'get':\x7b\x7d\x7d\x7d,'components':\x7b'schemas':\x7b'Breed':" ++
    "\x7b'properties':\x7b'origin':\x7b\x7d\x7d\x7d\x7d\x7d\x7d"

def farmTree : Node :=
  .object [(key "openapi" 1 10, leaf "3.0" 11 16),
    (key "info" 17 23, .object [(key "title" 25 32, leaf "T" 33 36),
      (key "version" 37 46, leaf "1" 47 50)] (span 24 51)),
    (key "paths" 52 59, .object [(key "/sheep" 61 69, .object [
      (key "get" 71 76, .object [(key "parameters" 78 90, .array [
        .object [(key "name" 93 99, leaf "breed" 100 107), (key "in" 108 112, leaf "query" 113 120),
          (key "schema" 121 129, .object [(key "$ref" 131 137,
            leaf "#/components/schemas/Breed" 138 166)] (span 130 167))] (span 92 168),
        .object [(key "name" 170 176, leaf "visit" 177 184),
          (key "in" 185 189, leaf "cookie" 190 198), (key "schema" 199 207,
            .object [(key "type" 209 215, leaf "string" 216 224)] (span 208 225))]
          (span 169 226)] (span 91 227))] (span 77 228)),
      (key "put" 229 234, .object [(key "requestBody" 236 249, .object [(key "content" 251 260,
        .object [(key "text/json" 262 273, .object [(key "schema" 275 283,
          .object [(key "properties" 285 297, .object [(key "name" 299 305,
            .object [(key "type" 307 313, leaf "string" 314 322)] (span 306 323))] (span 298 324))]
            (span 284 325))] (span 274 326))] (span 261 327))] (span 250 328))] (span 235 329))]
      (span 70 330)),
      (key "/fish" 331 338, .object [(key "get" 340 345, .object [] (span 346 348))]
        (span 339 349))] (span 60 350)),
    (key "components" 351 363, .object [(key "schemas" 365 374, .object [(key "Breed" 376 383,
      .object [(key "properties" 385 397, .object [(key "origin" 399 407,
        .object [] (span 408 410))] (span 398 411))] (span 384 412))] (span 375 413))]
      (span 364 414))] (span 0 415)

theorem treeOf_farmText : treeOf farmText = .ok farmTree :=
  treeOf_of_spelled
    (append_spelled (append_spelled (append_spelled (append_spelled (append_spelled
      (append_spelled (append_spelled rfl rfl) rfl) rfl) rfl) rfl) rfl) rfl)
    (by decide +kernel) (by decide +kernel)

end Sample

end ServiceModel

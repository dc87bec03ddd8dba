/-
Repeated names in a description. Everything that is looked up by name is the first entry with the
name, so that a description and what is left of it when only first entries are kept are converted
into the same service. Properties, contents, scopes, requirements and extensions are gone through
entry by entry instead; there a name that is repeated counts as often as it stands there.
-/
import ServiceModel.Proofs.Conversion.Pairing
import ServiceModel.Proofs.Document.Dedup

namespace ServiceModel

open Service OpenApi

/-- A document in which no name is repeated where objects are gone through entry by entry, and the
document with only the first entries of its objects: unless they are checked against the language,
both are converted into one service, with the same records and violations on the way, or neither
is converted. -/
theorem convertTree_dedup (options : Options) (unchecked : options.strict = false) {root : Node}
    (once : root.WalkedOnce) :
    (∃ s, (convertTree options root).outcome = .ok s ∧
        (convertTree options root.dedup).outcome = .ok s ∧
        (convertTree options root).journal = (convertTree options root.dedup).journal ∧
        violationsIn (convertTree options root).journal =
          violationsIn (convertTree options root.dedup).journal) ∨
      ∃ e e', (convertTree options root).outcome = .error e ∧
        (convertTree options root.dedup).outcome = .error e' := by
  let p := Parallel.deduped once options.limit
  have agree : p.Builds (Service.Alike Eq) (convertTree options root)
      (convertTree options root.dedup) :=
    p.convertTree rfl fun strict => by rw [unchecked] at strict; cases strict
  cases ho : (convertTree options root).outcome with
  | error e =>
    obtain ⟨-, e', he, -⟩ := agree.of_error ho
    exact .inr ⟨e, e', rfl, he⟩
  | ok s =>
    obtain ⟨s', ho', alike, records⟩ := agree.of_ok ho
    have journal := eq_of_forall₂ (fun _ _ h => Entry.Alike.eq h) records
    cases Service.Alike.eq alike
    exact .inl ⟨s, rfl, ho', journal, by rw [journal]⟩

namespace Sample

/-- A description whose version is given twice. -/
def repeatedVersion : Node :=
  .object [(key "openapi" 1 10, leaf "3.0" 11 16), (key "openapi" 17 26, leaf "2.0" 27 32),
    (key "info" 33 39, .object [(key "title" 41 48, leaf "T" 49 52),
      (key "version" 53 62, leaf "1" 63 66)] (span 40 67)),
    (key "paths" 68 75, .object [] (span 76 78))] (span 0 79)

/-- A description with one type that gives a property twice. -/
def repeatedProperty : Node :=
  .object [(key "openapi" 1 10, leaf "3.0" 11 16),
    (key "info" 17 23, .object [(key "title" 25 32, leaf "T" 33 36),
      (key "version" 37 46, leaf "1" 47 50)] (span 24 51)),
    (key "paths" 52 59, .object [] (span 60 62)),
    (key "components" 63 75, .object [(key "schemas" 77 86, .object [(key "P" 88 91,
      .object [(key "properties" 93 105, .object [
        (key "a" 107 110, .object [(key "type" 112 118, leaf "string" 119 127)] (span 111 128)),
        (key "a" 129 132, .object [(key "type" 134 140, leaf "string" 141 149)] (span 133 150))]
        (span 106 151))] (span 92 152))] (span 87 153))] (span 76 154))] (span 0 155)

/-- How many properties each type of the service that a tree describes has. -/
def propertyCounts (root : Node) : Option (List Nat) :=
  (convertTree options root).outcome.toOption.map (·.types.map (·.properties.length))

end Sample

theorem convertTree_dedup_version :
    Sample.options.strict = false ∧ Sample.repeatedVersion.WalkedOnce ∧
    Sample.repeatedVersion.dedup ≠ Sample.repeatedVersion ∧
    (convertTree Sample.options Sample.repeatedVersion).outcome.isOk = true ∧
    ((∃ s, (convertTree Sample.options Sample.repeatedVersion).outcome = .ok s ∧
        (convertTree Sample.options Sample.repeatedVersion.dedup).outcome = .ok s ∧
        (convertTree Sample.options Sample.repeatedVersion).journal =
          (convertTree Sample.options Sample.repeatedVersion.dedup).journal ∧
        violationsIn (convertTree Sample.options Sample.repeatedVersion).journal =
          violationsIn (convertTree Sample.options Sample.repeatedVersion.dedup).journal) ∨
      ∃ e e', (convertTree Sample.options Sample.repeatedVersion).outcome = .error e ∧
        (convertTree Sample.options Sample.repeatedVersion.dedup).outcome = .error e') := by
  have once : Sample.repeatedVersion.WalkedOnce := Node.walkedOnce_of_objects (by decide)
  refine ⟨rfl, once, fun same => ?_, by cbv, convertTree_dedup Sample.options rfl once⟩
  have fewer : Sample.repeatedVersion.dedup.count ≠ Sample.repeatedVersion.count := by decide
  exact fewer (congrArg Node.count same)

/-- A property that is given twice is in the service twice, and with first entries only it is there
once. -/
theorem convertTree_dedup_property :
    Sample.propertyCounts Sample.repeatedProperty = some [2] ∧
      Sample.propertyCounts Sample.repeatedProperty.dedup = some [1] := by
  constructor <;> cbv

end ServiceModel

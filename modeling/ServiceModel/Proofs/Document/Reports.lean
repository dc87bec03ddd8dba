/-
Which texts have an error without a report of its own: those with a character that no text may
hold, those that end in an escape beyond the last character or in a version with a number that is
too long, and those in which a scalar that is not what it seems to be is the first thing that does
not fit into a tree.
-/
import ServiceModel.Document.Read
import ServiceModel.Proofs.Yaml.Composer
import ServiceModel.Proofs.Yaml.Faults
import ServiceModel.Proofs.Yaml.Scalars

namespace ServiceModel

open Text (Position)

/-! ## The parts of a markup node -/

namespace Yaml

/-- What a markup node is made of: its scalars, and what no tree has. -/
inductive Part where
  | scalar (text : String) (tag : ScalarTag) (mark : Nat)
  | cycle (start : Position)
  | complexKey (start : Position)
  deriving DecidableEq, Repr

/-- Why a part does not fit into a tree. -/
def Part.error? : Part → Option ReadError
  | .scalar text tag mark =>
    match Scalar.value mark tag text with
    | .ok _ => none
    | .error fault => some (.fault fault)
  | .cycle start => some (.recursion start)
  | .complexKey start => some (.complexKey start)

namespace Node

mutual

/-- The parts of a markup node in the order of the text. -/
def parts : Node → List Part
  | .scalar text tag range => [.scalar text tag (range.start.offset.toNat + 1)]
  | .sequence items _ => partsAmong items
  | .mapping entries _ => partsUnder entries
  | .cycle start => [.cycle start]

def partsAmong : List Node → List Part
  | [] => []
  | item :: rest => item.parts ++ partsAmong rest

def partsUnder : List (Node × Node) → List Part
  | [] => []
  | (.scalar _ _ _, value) :: rest => value.parts ++ partsUnder rest
  | (key, value) :: rest =>
    .complexKey (ServiceModel.Node.startOf key) :: (value.parts ++ partsUnder rest)

end

end Node

end Yaml

namespace ReadError

/-- The error of a reading that fails. -/
def of? {α : Type} : Except ReadError α → Option ReadError
  | .ok _ => none
  | .error e => some e

theorem of?_eq_some {α : Type} {reading : Except ReadError α} {e : ReadError} :
    of? reading = some e ↔ reading = .error e := by
  cases reading with
  | ok x => exact ⟨nofun, nofun⟩
  | error e' => exact ⟨fun h => congrArg _ (Option.some.inj h), fun h => congrArg _ (Except.error.inj h)⟩

end ReadError

namespace Node

open Yaml (Part)

mutual

/-- A markup node fails with the error of the first part that does not fit. -/
theorem ofYaml_parts :
    ∀ node : Yaml.Node, ReadError.of? (ofYaml node) = node.parts.findSome? Part.error?
  | .scalar text tag range => by
    rw [ofYaml, Yaml.Node.parts, List.findSome?_singleton, Part.error?]
    cases Yaml.Scalar.value (range.start.offset.toNat + 1) tag text <;> rfl
  | .sequence items range => by
    rw [ofYaml, Yaml.Node.parts, ← ofItems_parts items]
    cases ofItems items <;> rfl
  | .mapping entries range => by
    rw [ofYaml, Yaml.Node.parts, ← ofEntries_parts entries]
    cases ofEntries entries <;> rfl
  | .cycle start => rfl

theorem ofItems_parts : ∀ items : List Yaml.Node,
    ReadError.of? (ofItems items) = (Yaml.Node.partsAmong items).findSome? Part.error?
  | [] => rfl
  | item :: rest => by
    rw [ofItems, Yaml.Node.partsAmong, List.findSome?_append, ← ofYaml_parts item,
      ← ofItems_parts rest]
    cases ofYaml item <;> cases ofItems rest <;> rfl

theorem ofEntries_parts : ∀ entries : List (Yaml.Node × Yaml.Node),
    ReadError.of? (ofEntries entries) = (Yaml.Node.partsUnder entries).findSome? Part.error?
  | [] => rfl
  | (.scalar text tag range, value) :: rest => by
    rw [ofEntries, Yaml.Node.partsUnder, List.findSome?_append, ← ofYaml_parts value,
      ← ofEntries_parts rest]
    cases ofYaml value <;> cases ofEntries rest <;> rfl
  | (.sequence _ _, _) :: _ => rfl
  | (.mapping _ _, _) :: _ => rfl
  | (.cycle _, _) :: _ => rfl

end

/-! ## Errors without report -/

/-- The characters have a reading that fails without a report. -/
inductive Unreported (chars : List Char) : Prop
  | character {c : Char} : c ∈ chars → Yaml.isAllowed c = false → Unreported chars
  | escape {fault : Yaml.Fault} : (∀ c ∈ chars, Yaml.isAllowed c = true) →
      Yaml.Node.ofTokens (Yaml.Token.ofText chars) = .error fault → fault ≠ .malformed →
      Yaml.HoldsEscape fault chars → Unreported chars
  | version : (∀ c ∈ chars, Yaml.isAllowed c = true) →
      Yaml.Node.ofTokens (Yaml.Token.ofText chars) = .error .number → Yaml.HoldsVersion chars →
      Unreported chars
  | scalar {node : Yaml.Node} {before after : List Part} {text : String} {tag : Yaml.ScalarTag}
      {mark : Nat} : (∀ c ∈ chars, Yaml.isAllowed c = true) →
      Yaml.Node.ofTokens (Yaml.Token.ofText chars) = .ok (some node) →
      node.parts = before ++ .scalar text tag mark :: after → (∀ p ∈ before, p.error? = none) →
      Yaml.Scalar.Misfit tag text.toList → Unreported chars

theorem fault_isReported {fault : Yaml.Fault} :
    (ReadError.fault fault).isReported = false ↔ fault ≠ .malformed := by
  cases fault <;> decide

/-- The fault of a text that is not malformed otherwise is that of an escape or of a version. -/
theorem ofTokens_error {chars : List Char} {fault : Yaml.Fault}
    (h : Yaml.Node.ofTokens (Yaml.Token.ofText chars) = .error fault) :
    Yaml.Ascribed chars fault := by
  have draws := Yaml.Node.ofTokens_draws (Yaml.Token.ofText chars)
  rw [h] at draws
  cases draws with
  | malformed => exact .inl rfl
  | fault hm hk => exact Yaml.Token.ofText_ascribed hm hk

/-- The first part that does not fit into a tree is a scalar that is not what it seems to be. -/
def HasMisfit (node : Yaml.Node) : Prop :=
  ∃ before text tag mark after, node.parts = before ++ Part.scalar text tag mark :: after ∧
    (∀ p ∈ before, p.error? = none) ∧ Yaml.Scalar.Misfit tag text.toList

/-- A markup node has an error without report if the first part that does not fit is a misfit. -/
theorem ofYaml_unreported_iff {node : Yaml.Node} :
    (∃ e, ofYaml node = .error e ∧ e.isReported = false) ↔ HasMisfit node := by
  constructor
  · rintro ⟨e, failed, unreported⟩
    have first : node.parts.findSome? Part.error? = some e := by
      rw [← ofYaml_parts, ReadError.of?_eq_some, failed]
    obtain ⟨before, part, after, shape, error, fits⟩ := List.findSome?_eq_some_iff.1 first
    cases part with
    | cycle start =>
      cases error
      cases unreported
    | complexKey start =>
      cases error
      cases unreported
    | scalar text tag mark =>
      refine ⟨before, text, tag, mark, after, shape, fits, ?_⟩
      rw [Part.error?] at error
      split at error
      · cases error
      · rename_i fault refused
        cases error
        exact (Yaml.Scalar.value_fails_iff mark).1 ⟨fault, refused, fault_isReported.1 unreported⟩
  · rintro ⟨before, text, tag, mark, after, shape, fits, misfit⟩
    obtain ⟨fault, failed, other⟩ := (Yaml.Scalar.value_fails_iff mark).2 misfit
    have error : (Part.scalar text tag mark).error? = some (.fault fault) := by
      rw [Part.error?, failed]
    have first : node.parts.findSome? Part.error? = some (.fault fault) :=
      List.findSome?_eq_some_iff.2 ⟨before, _, after, shape, error, fits⟩
    rw [← ofYaml_parts, ReadError.of?_eq_some] at first
    exact ⟨_, first, fault_isReported.2 other⟩

/-- Where all characters are allowed it is the composer that fails, or a part of what it makes. -/
theorem unreported_iff_of_allowed {chars : List Char} (h : ∀ c ∈ chars, Yaml.isAllowed c = true) :
    Unreported chars ↔
      (∃ fault, Yaml.Node.ofTokens (Yaml.Token.ofText chars) = .error fault ∧
        fault ≠ .malformed) ∨
      ∃ node, Yaml.Node.ofTokens (Yaml.Token.ofText chars) = .ok (some node) ∧ HasMisfit node := by
  constructor
  · intro unreported
    cases unreported with
    | character hc refused =>
      rw [h _ hc] at refused
      cases refused
    | escape _ failed other _ => exact .inl ⟨_, failed, other⟩
    | version _ failed _ => exact .inl ⟨_, failed, nofun⟩
    | scalar _ composed shape fits misfit =>
      exact .inr ⟨_, composed, _, _, _, _, _, shape, fits, misfit⟩
  · rintro (⟨fault, failed, other⟩ | ⟨node, composed, before, text, tag, mark, after, misfit⟩)
    · cases (ofTokens_error failed).resolve_left other with
      | escape held => exact .escape h failed other held
      | version held => exact .version h failed held
    · exact .scalar h composed misfit.1 misfit.2.1 misfit.2.2

/-- A text has an error without report exactly if its characters are unreported. -/
theorem read_unreported_iff (text : String) :
    (∃ e, read text = .error e ∧ e.isReported = false) ↔ Unreported (untabbed text.toList) := by
  rw [read]
  generalize untabbed text.toList = chars
  cases allowed : chars.all Yaml.isAllowed with
  | false =>
    obtain ⟨c, hc, refused⟩ := List.all_eq_false.1 allowed
    refine ⟨fun _ => .character hc (Bool.eq_false_iff.2 refused), fun _ => ⟨.character, rfl, rfl⟩⟩
  | true =>
    rw [Bool.not_true, if_neg Bool.false_ne_true,
      unreported_iff_of_allowed (List.all_eq_true.1 allowed)]
    cases composed : Yaml.Node.ofTokens (Yaml.Token.ofText chars) with
    | error fault => simp [fault_isReported]
    | ok node? =>
      cases node? with
      | none => simp [ReadError.isReported]
      | some node => simpa using ofYaml_unreported_iff

end Node

end ServiceModel

/-
Conversions do not depend on spans. Two documents that differ in nothing but their spans, and in
each of which no two objects have the same span, are converted into services that differ in nothing
but their spans, with the same unsupported features; or neither of them is converted.

The one use that a conversion makes of a span is to tell branches in place apart, and a document
that is read from a text has its objects at different places of it.
-/
import ServiceModel.Proofs.Conversion.Failures
import ServiceModel.Proofs.Document.Respan

namespace ServiceModel

open Service OpenApi

/-- Two services that are the same without their spans, with spans in the same places. -/
def Service.SameButSpans (s s' : Service) : Prop := s.Alike (fun _ _ => True) s'

/-- Two computations that come to services and features that are the same without their spans, or
that both fail as the conversion of a tree may. -/
inductive SameConversion (x x' : Build Service) : Prop
  | services {s s' : Service} : x.outcome = .ok s → x'.outcome = .ok s' → s.SameButSpans s' →
      (violationsIn x.journal).map (·.feature) = (violationsIn x'.journal).map (·.feature) →
      SameConversion x x'
  | failures {e e' : Failure} : x.outcome = .error e → x'.outcome = .error e' → e.OfTree →
      e'.OfTree → SameConversion x x'

/-- Documents that differ in nothing but their spans are converted in the same way, unless objects
of one of them share a span. -/
theorem convertTree_respan (options : Options) {root root' : Node} (same : root.bare = root'.bare)
    (apart : root.Apart) (apart' : root'.Apart) :
    SameConversion (convertTree options root) (convertTree options root') := by
  let p := Pairing.respanned same apart apart' options.limit Failure.OfTree
    Failure.OfReading.ofTree (.cycle _)
  have agree : p.Builds (Service.Alike p.spans) (convertTree options root)
      (convertTree options root') := p.convertTree rfl
  cases ho : (convertTree options root).outcome with
  | ok service =>
    obtain ⟨service', ho', alike, journals⟩ := agree.of_ok ho
    exact .services ho ho' alike
      (map_eq_of_forall₂ (violations_alike journals) fun _ _ h => h.feature)
  | error e =>
    obtain ⟨he, e', ho', he'⟩ := agree.of_error ho
    exact .failures ho ho' he he'

/-- The sample one line further down. -/
def Sample.lower : Node :=
  Sample.tree.respan fun r =>
    ⟨{ r.start with line := r.start.line + 1 }, { r.stop with line := r.stop.line + 1 }⟩

theorem convertTree_sample_respan :
    Sample.tree.bare = Sample.lower.bare ∧ Sample.tree.Apart ∧ Sample.lower.Apart ∧
      SameConversion (convertTree Sample.options Sample.tree)
        (convertTree Sample.options Sample.lower) := by
  have same : Sample.tree.bare = Sample.lower.bare := by decide
  have apart : Sample.tree.Apart := by decide
  have apart' : Sample.lower.Apart := by decide
  exact ⟨same, apart, apart', convertTree_respan Sample.options same apart apart'⟩

end ServiceModel

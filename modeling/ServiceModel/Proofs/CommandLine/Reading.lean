/-
What a run makes of a text that is no document: it ends with the message of the error, unless the
error has no report; then it is given up.
-/
import ServiceModel.CommandLine.Run
import ServiceModel.Proofs.Document.Reports

namespace ServiceModel.CommandLine

open Node (Unreported untabbed)

/-- The run converts a text: its arguments name a file that holds it. -/
structure Converts (args : List String) (files : Files) (text : String) where
  input : String
  arguments : Arguments
  bytes : List UInt8
  asked : request args = .ok (.convert input arguments)
  nameable : (Path.ofText input).isNameable = true
  stored : files.read (Path.ofText input) = .ok bytes
  decoded : textOf (Path.ofText input) bytes = .ok text

/-- A text without tree is converted to its error, and nothing else is said. -/
theorem convertText_of_unread [LanguageModel] {path : Path} {a : Arguments} {text : String} {e : ReadError}
    (h : Node.read text = .error e) : convertText path a text = ⟨"", .error (.read e)⟩ := by
  have tree : treeOf text = .error (.read e) := by rw [treeOf, h]; rfl
  have built : convert ⟨path.text, a.maxDepth, a.strict⟩ text = ⟨[], .error (.read e)⟩ := by
    rw [convert, tree]
    rfl
  rw [convertText, built]
  rfl

theorem run_of_unread [LanguageModel] {args : List String} {files : Files} {text : String}
    {e : ReadError} (converts : Converts args files text) (h : Node.read text = .error e) :
    run args files =
      if e.isReported then .ok ⟨failureExit, "", errorText e.message, files⟩
      else .error (.text e) := by
  obtain ⟨input, a, bytes, asked, nameable, stored, decoded⟩ := converts
  have converted : convertInput (Path.ofText input) a
      ((files.read (Path.ofText input)).mapError (·.message (Path.ofText input))) =
        ⟨"", .error (.read e)⟩ := by
    rw [stored]
    show convertInput (Path.ofText input) a (.ok bytes) = _
    rw [convertInput, decoded]
    exact convertText_of_unread h
  simp only [run, asked, nameable, Bool.not_true, Bool.false_eq_true, if_false, converted,
    Failure.unreported?]
  cases e.isReported <;> rfl

/-- Every error of a text is reported exactly if its characters are not unreported. A run that
converts a text without tree ends with the message of the error then, and is given up else. -/
theorem read_reported_iff [LanguageModel] (text : String) :
    ((∀ e, Node.read text = .error e → e.isReported = true) ↔
      ¬ Unreported (untabbed text.toList)) ∧
    ∀ {args : List String} {files : Files}, Converts args files text →
      ∀ e, Node.read text = .error e →
        (Unreported (untabbed text.toList) → run args files = .error (.text e)) ∧
        (¬ Unreported (untabbed text.toList) →
          run args files = .ok ⟨failureExit, "", errorText e.message, files⟩) := by
  have unreported := Node.read_unreported_iff text
  have reported : (∀ e, Node.read text = .error e → e.isReported = true) ↔
      ¬ Unreported (untabbed text.toList) := by
    rw [← unreported]
    push Not
    exact forall_congr' fun e => forall_congr' fun _ => (Bool.not_eq_false _).symm.to_iff
  refine ⟨reported, fun converts e failed => ?_⟩
  rw [run_of_unread converts failed]
  constructor
  · intro h
    obtain ⟨e', failed', silent⟩ := unreported.2 h
    rw [failed] at failed'
    cases failed'
    rw [silent, if_neg Bool.false_ne_true]
  · intro h
    rw [reported.2 h e failed, if_pos rfl]

/-- A lone bracket is malformed, and a run says so. -/
theorem read_reported_bracket : run ["--input", "a"] [(⟨"", ["a"]⟩, [0x5b])] =
    .ok ⟨failureExit, "", errorText "Malformed document", [(⟨"", ["a"]⟩, [0x5b])]⟩ :=
  have failed : Node.read "[" = .error (.fault .malformed) := rfl
  have reported : ∀ e, Node.read "[" = .error e → e.isReported = true := by
    intro e h
    rw [failed] at h
    cases h
    rfl
  ((read_reported_iff "[").2
    { input := "a", arguments := { input := some "a" }, bytes := [0x5b], asked := by decide +kernel,
      nameable := by decide +kernel, stored := by decide +kernel, decoded := by decide +kernel } _ failed).2
    ((read_reported_iff "[").1.1 reported)

/-- The character of deletion has an error without report, and a run with it is given up. -/
theorem unreported_delete : Node.read "\x7f" = .error .character ∧
    ReadError.isReported .character = false ∧
      run ["--input", "a"] [(⟨"", ["a"]⟩, [0x7f])] = .error (.text .character) :=
  have failed : Node.read "\x7f" = .error .character := rfl
  ⟨failed, rfl, run_of_unread
    { input := "a", arguments := { input := some "a" }, bytes := [0x7f], asked := by decide +kernel,
      nameable := by decide +kernel, stored := by decide +kernel, decoded := by decide +kernel } failed⟩

end ServiceModel.CommandLine

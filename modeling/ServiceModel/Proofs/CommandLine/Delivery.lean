/-
What a run leaves behind. A run whose input cannot be loaded or converted prints nothing and leaves
all files as they were. One that has a service prints it, or writes the same text to the file that
it was asked to write, and changes no other file; the exit code says whether a validation that was
asked for has found something. A file that cannot be written ends the run with a message, unless
there can be no file at its path: then the run is given up.
-/
import ServiceModel.CommandLine.Run
import ServiceModel.Proofs.Conversion.Outcome
import ServiceModel.Proofs.Lists.Lookup
import ServiceModel.Proofs.Text.Utf8

namespace ServiceModel.CommandLine

open Service

/-! ## Files -/

namespace Files

/-- A file that is put holds its bytes, and all other files hold theirs. -/
theorem lookup_put (p q : Path) (bytes : List UInt8) (files : Files) :
    (files.put p bytes).lookup q = if q = p then some bytes else files.lookup q := by
  induction files with
  | nil => exact lookup_cons_if q p bytes []
  | cons file rest ih =>
    obtain ⟨here, old⟩ := file
    rw [put]
    by_cases hp : here = p
    · subst hp
      rw [if_pos rfl, lookup_cons_if, lookup_cons_if]
      split <;> rfl
    · rw [if_neg hp, lookup_cons_if, lookup_cons_if, ih]
      by_cases hq : q = here
      · have apart : q ≠ p := fun h => hp (hq.symm.trans h)
        rw [if_pos hq, if_neg apart, if_pos hq]
      · rw [if_neg hq, if_neg hq]

theorem write_ok {files files' : Files} {p : Path} {bytes : List UInt8}
    (h : files.write p bytes = .ok files') : files' = files.put p bytes := by
  unfold write at h
  obtain ⟨_, -, h⟩ := read_bind_ok h
  split at h
  · cases h
  · exact (Except.ok.inj h).symm

end Files

theorem unixLines_of_not_mem {chars : List Char} (h : '\r' ∉ chars) : unixLines chars = chars := by
  fun_induction unixLines chars with
  | case1 rest => exact absurd List.mem_cons_self h
  | case2 rest => exact absurd List.mem_cons_self h
  | case3 c rest _ _ ih => rw [ih (List.not_mem_of_not_mem_cons h)]
  | case4 => rfl

/-- A text whose lines end in line feeds is read as it was written. -/
theorem textOf_toUTF8 {path : Path} {text : String} (h : '\r' ∉ text.toList) :
    textOf path text.toUTF8.toList = .ok text := by
  rw [textOf, Text.Utf8.decode_toUTF8]
  dsimp only
  rw [unixLines_of_not_mem h, String.ofList_toList]

/-! ## What is left behind -/

/-- What a run prints. One that is given up is given up before it prints. -/
def printed : Except Breakdown Outcome → String
  | .ok o => o.stdout
  | .error _ => ""

/-- The files after a run. One that is given up is given up before it writes. -/
def filesAfter (files : Files) : Except Breakdown Outcome → Files
  | .ok o => o.files
  | .error _ => files

/-- The exit code of a run that is not given up. -/
def exitCode? : Except Breakdown Outcome → Option UInt32
  | .ok o => some o.exit
  | .error _ => none

/-- The input is loaded and converted into the service. -/
def Loads [LanguageModel] (files : Files) (input : String) (a : Arguments) (service : Service) :
    Prop :=
  (Path.ofText input).isNameable = true ∧ ∃ bytes text,
    files.read (Path.ofText input) = .ok bytes ∧ textOf (Path.ofText input) bytes = .ok text ∧
      (convert ⟨(Path.ofText input).text, a.maxDepth, a.strict⟩ text).outcome = .ok service

/-- The bytes of a service as it is written. -/
def writtenBytes (service : Service) : List UInt8 := (rendered service).toUTF8.toList

/-- An input is loaded as one service, whatever else is asked for. -/
theorem Loads.unique [LanguageModel] {files : Files} {input : String} {a b : Arguments}
    {service service' : Service} (h : Loads files input a service) (h' : Loads files input b service')
    (depth : b.maxDepth = a.maxDepth) (strict : b.strict = a.strict) : service' = service := by
  obtain ⟨-, bytes, text, read, decoded, converted⟩ := h
  obtain ⟨-, bytes', text', read', decoded', converted'⟩ := h'
  obtain rfl := Except.ok.inj (read.symm.trans read')
  obtain rfl := Except.ok.inj (decoded.symm.trans decoded')
  rw [depth, strict] at converted'
  exact Except.ok.inj (converted'.symm.trans converted)

theorem Loads.of_same [LanguageModel] {files : Files} {input : String} {a b : Arguments}
    {service : Service} (h : Loads files input a service) (depth : b.maxDepth = a.maxDepth)
    (strict : b.strict = a.strict) : Loads files input b service := by
  unfold Loads
  rw [depth, strict]
  exact h

/-! ## Runs step by step -/

theorem convertText_service [LanguageModel] {path : Path} {a : Arguments} {text : String} :
    (convertText path a text).service =
      (convert ⟨path.text, a.maxDepth, a.strict⟩ text).outcome := by
  unfold convertText
  dsimp only
  cases (convert ⟨path.text, a.maxDepth, a.strict⟩ text).outcome <;> rfl

/-- An input is loaded exactly if its conversion has a service. -/
theorem loads_iff [LanguageModel] {files : Files} {input : String} {a : Arguments}
    {service : Service} :
    Loads files input a service ↔ (Path.ofText input).isNameable = true ∧
      (convertInput (Path.ofText input) a
        ((files.read (Path.ofText input)).mapError (·.message (Path.ofText input)))).service =
          .ok service := by
  refine and_congr_right fun _ => ?_
  cases hr : files.read (Path.ofText input) with
  | error e => simp [convertInput, Except.mapError]
  | ok bytes =>
    cases hd : textOf (Path.ofText input) bytes with
    | error e => simp [convertInput, Except.mapError, hd]
    | ok text => simp [convertInput, Except.mapError, hd, convertText_service]

section

variable {args : List String} {files : Files} {input : String} {a : Arguments} {service : Service}

/-- A run that has a service goes on to deliver it. -/
theorem run_of_loads [LanguageModel] (asked : request args = .ok (.convert input a))
    (loads : Loads files input a service) :
    ∃ messages, run args files = deliver a files messages service := by
  obtain ⟨nameable, converted⟩ := loads_iff.1 loads
  refine ⟨(convertInput (Path.ofText input) a
    ((files.read (Path.ofText input)).mapError (·.message (Path.ofText input)))).messages, ?_⟩
  simp only [run, asked, nameable, Bool.not_true, Bool.false_eq_true, if_false, converted]

/-- A run that has no service is given up or ends with a message. -/
theorem run_of_not_loads [LanguageModel] (asked : request args = .ok (.convert input a))
    (fails : ∀ service, ¬ Loads files input a service) :
    (∃ b, run args files = .error b) ∨
      ∃ errors, run args files = .ok ⟨failureExit, "", errors, files⟩ := by
  by_cases nameable : (Path.ofText input).isNameable = true
  · cases converted : (convertInput (Path.ofText input) a
        ((files.read (Path.ofText input)).mapError (·.message (Path.ofText input)))).service with
    | ok service => exact absurd (loads_iff.2 ⟨nameable, converted⟩) (fails service)
    | error e =>
      simp only [run, asked, nameable, Bool.not_true, Bool.false_eq_true, if_false, converted]
      cases e.unreported? with
      | some error => exact .inl ⟨_, rfl⟩
      | none => exact .inr ⟨_, rfl⟩
  · refine .inl ⟨.path (Path.ofText input), ?_⟩
    simp only [run, asked, nameable, Bool.not_false, if_true]

theorem verdict_exit (a : Arguments) (service : Service) :
    (verdict a service).1 = if a.validate ∧ service.defects ≠ [] then 1 else 0 := by
  unfold verdict
  cases a.validate with
  | false => simp
  | true => cases service.defects <;> simp

variable (messages : String)

theorem deliver_printed (files : Files) (service : Service) (messages : String)
    (h : a.outputPath? = none) :
    ∃ errors, deliver a files messages service =
      .ok ⟨(verdict a service).1, rendered service, errors, files⟩ := by
  simp only [deliver, h]
  exact ⟨_, rfl⟩

theorem deliver_unnameable {path : Path} (h : a.outputPath? = some path)
    (hp : path.isNameable = false) : deliver a files messages service = .error (.path path) := by
  simp only [deliver, h, hp, Bool.not_false, if_true]

theorem deliver_written {path : Path} {files' : Files} (h : a.outputPath? = some path)
    (hp : path.isNameable = true) (hw : files.write path (writtenBytes service) = .ok files') :
    ∃ errors, deliver a files messages service =
      .ok ⟨(verdict a service).1, "", errors, files'⟩ := by
  unfold writtenBytes at hw
  simp only [deliver, h, hp, Bool.not_true, Bool.false_eq_true, if_false, hw]
  exact ⟨_, rfl⟩

theorem deliver_unwritable {path : Path} {e : FileError} (h : a.outputPath? = some path)
    (hp : path.isNameable = true) (hw : files.write path (writtenBytes service) = .error e) :
    ∃ errors, deliver a files messages service = .ok ⟨failureExit, "", errors, files⟩ := by
  unfold writtenBytes at hw
  simp only [deliver, h, hp, Bool.not_true, Bool.false_eq_true, if_false, hw]
  exact ⟨_, rfl⟩

end

/-! ## The discipline of a run -/

/-- What a run promises that converts an input, with or without an output file. -/
structure Disciplined [LanguageModel] (args : List String) (files : Files) (input : String)
    (a : Arguments) : Prop where
  /-- Without a service, nothing is printed and no file is touched. -/
  fails : (∀ service, ¬ Loads files input a service) →
    printed (run args files) = "" ∧ filesAfter files (run args files) = files
  /-- No file but the one that is asked for is created or changed. -/
  frame : ∀ q, a.outputPath? ≠ some q →
    (filesAfter files (run args files)).lookup q = files.lookup q
  /-- Without an output file, the service is printed. -/
  prints : ∀ {service}, Loads files input a service → a.outputPath? = none →
    printed (run args files) = rendered service ∧ filesAfter files (run args files) = files
  /-- With an output file that can be written, the file holds what any run without one prints
  that is the same otherwise. -/
  writes : ∀ {service path files'}, Loads files input a service → a.outputPath? = some path →
    path.isNameable = true → files.write path (writtenBytes service) = .ok files' →
      printed (run args files) = "" ∧
      ∀ {args' b}, request args' = .ok (.convert input b) → b.maxDepth = a.maxDepth →
        b.strict = a.strict → b.outputPath? = none →
        (filesAfter files (run args files)).lookup path =
          some (printed (run args' files)).toUTF8.toList
  /-- An output file that cannot be written ends the run with the code of failures. -/
  unwritable : ∀ {service path e}, Loads files input a service → a.outputPath? = some path →
    path.isNameable = true → files.write path (writtenBytes service) = .error e →
      exitCode? (run args files) = some failureExit ∧ printed (run args files) = "" ∧
        filesAfter files (run args files) = files
  /-- Where there can be no file, the run is given up, with all files as they were. -/
  unnameable : ∀ {service path}, Loads files input a service → a.outputPath? = some path →
    path.isNameable = false → run args files = .error (.path path)
  /-- A run that delivers its service says whether a validation has found something. -/
  exits : ∀ {service}, Loads files input a service →
    (∀ path, a.outputPath? = some path →
      path.isNameable = true ∧ ∃ files', files.write path (writtenBytes service) = .ok files') →
    exitCode? (run args files) = some (if a.validate ∧ service.defects ≠ [] then 1 else 0)
  /-- Validation and further messages make no difference to what is printed or written. -/
  steady : ∀ {args' b}, request args' = .ok (.convert input b) → b.maxDepth = a.maxDepth →
    b.strict = a.strict → b.output = a.output →
    printed (run args' files) = printed (run args files) ∧
      filesAfter files (run args' files) = filesAfter files (run args files)

section

variable {args args' : List String} {files : Files} {input : String} {a b : Arguments}
  {service : Service}

/-- What is printed, and what the files are, when a run delivers a service. -/
theorem delivered (a : Arguments) (files : Files) (service : Service) (messages : String) :
    (printed (deliver a files messages service), filesAfter files (deliver a files messages service)) =
      match a.outputPath? with
      | none => (rendered service, files)
      | some path =>
        if path.isNameable then
          match files.write path (writtenBytes service) with
          | .ok files' => ("", files')
          | .error _ => ("", files)
        else ("", files) := by
  cases h : a.outputPath? with
  | none =>
    obtain ⟨errors, same⟩ := deliver_printed files service messages h
    rw [same]
    rfl
  | some path =>
    dsimp only
    split
    · rename_i hp
      split
      · rename_i files' hw
        obtain ⟨errors, same⟩ := deliver_written messages h hp hw
        rw [same]
        rfl
      · rename_i e hw
        obtain ⟨errors, same⟩ := deliver_unwritable messages h hp hw
        rw [same]
        rfl
    · rename_i hp
      rw [deliver_unnameable messages h (Bool.eq_false_iff.2 hp)]
      rfl

/-- What a run prints and writes is told by its input, its limit, its strictness and its output. -/
theorem run_same [LanguageModel] (asked : request args = .ok (.convert input a))
    (asked' : request args' = .ok (.convert input b)) (depth : b.maxDepth = a.maxDepth)
    (strict : b.strict = a.strict) (output : b.output = a.output) :
    printed (run args' files) = printed (run args files) ∧
      filesAfter files (run args' files) = filesAfter files (run args files) := by
  by_cases loads : ∃ service, Loads files input a service
  · obtain ⟨service, loads⟩ := loads
    obtain ⟨messages, same⟩ := run_of_loads asked loads
    obtain ⟨messages', same'⟩ := run_of_loads asked' (loads.of_same depth strict)
    have path : b.outputPath? = a.outputPath? := by
      unfold Arguments.outputPath?
      rw [output]
    have here := delivered a files service messages
    have there := delivered b files service messages'
    rw [path, ← here, Prod.mk.injEq] at there
    rw [same, same']
    exact there
  · have fails : ∀ service, ¬ Loads files input a service := fun s hs => loads ⟨s, hs⟩
    have fails' : ∀ service, ¬ Loads files input b service :=
      fun s hs => loads ⟨s, hs.of_same depth.symm strict.symm⟩
    rcases run_of_not_loads asked fails with ⟨e, same⟩ | ⟨errors, same⟩ <;>
      rcases run_of_not_loads asked' fails' with ⟨e', same'⟩ | ⟨errors', same'⟩ <;>
        · rw [same, same']
          exact ⟨rfl, rfl⟩

theorem run_fails [LanguageModel] (asked : request args = .ok (.convert input a))
    (fails : ∀ service, ¬ Loads files input a service) :
    printed (run args files) = "" ∧ filesAfter files (run args files) = files := by
  rcases run_of_not_loads asked fails with ⟨e, same⟩ | ⟨errors, same⟩ <;>
    · rw [same]
      exact ⟨rfl, rfl⟩

theorem run_prints [LanguageModel] (asked : request args = .ok (.convert input a))
    (loads : Loads files input a service) (h : a.outputPath? = none) :
    printed (run args files) = rendered service ∧ filesAfter files (run args files) = files := by
  obtain ⟨messages, same⟩ := run_of_loads asked loads
  obtain ⟨errors, there⟩ := deliver_printed files service messages h
  rw [same, there]
  exact ⟨rfl, rfl⟩

theorem run_writes [LanguageModel] {path : Path} {files' : Files}
    (asked : request args = .ok (.convert input a)) (loads : Loads files input a service) (h : a.outputPath? = some path)
    (hp : path.isNameable = true) (hw : files.write path (writtenBytes service) = .ok files') :
    printed (run args files) = "" ∧ filesAfter files (run args files) = files' := by
  obtain ⟨messages, same⟩ := run_of_loads asked loads
  obtain ⟨errors, there⟩ := deliver_written messages h hp hw
  rw [same, there]
  exact ⟨rfl, rfl⟩

/-- Only the output file is touched: there is nothing to write without a service, and writing
leaves all other files as they were. -/
theorem run_frame [LanguageModel] (asked : request args = .ok (.convert input a)) {q : Path}
    (hq : a.outputPath? ≠ some q) :
    (filesAfter files (run args files)).lookup q = files.lookup q := by
  by_cases loads : ∃ service, Loads files input a service
  · obtain ⟨service, loads⟩ := loads
    obtain ⟨messages, same⟩ := run_of_loads asked loads
    have there := congrArg Prod.snd (delivered a files service messages)
    dsimp only at there
    rw [same, there]
    split
    · rfl
    · rename_i path h
      split
      · split
        · rename_i files' hw
          have apart : q ≠ path := fun e => hq (e ▸ h)
          rw [Files.write_ok hw, Files.lookup_put, if_neg apart]
        · rfl
      · rfl
  · rw [(run_fails asked fun s hs => loads ⟨s, hs⟩).2]

theorem run_exits [LanguageModel] (asked : request args = .ok (.convert input a))
    (loads : Loads files input a service)
    (writable : ∀ path, a.outputPath? = some path →
      path.isNameable = true ∧ ∃ files', files.write path (writtenBytes service) = .ok files') :
    exitCode? (run args files) = some (if a.validate ∧ service.defects ≠ [] then 1 else 0) := by
  obtain ⟨messages, same⟩ := run_of_loads asked loads
  rw [same, ← verdict_exit]
  cases h : a.outputPath? with
  | none =>
    obtain ⟨errors, there⟩ := deliver_printed files service messages h
    rw [there]
    rfl
  | some path =>
    obtain ⟨hp, files', hw⟩ := writable path h
    obtain ⟨errors, there⟩ := deliver_written messages h hp hw
    rw [there]
    rfl

/-- A run that converts an input is disciplined. -/
theorem run_disciplined [LanguageModel] (asked : request args = .ok (.convert input a)) :
    Disciplined args files input a where
  fails := run_fails asked
  frame q := run_frame asked
  prints := run_prints asked
  writes := by
    intro service path files' loads h hp hw
    obtain ⟨silent, after⟩ := run_writes asked loads h hp hw
    refine ⟨silent, fun {args' b} asked' depth strict none => ?_⟩
    rw [after, Files.write_ok hw, Files.lookup_put, if_pos rfl,
      (run_prints asked' (loads.of_same depth strict) none).1]
    rfl
  unwritable := by
    intro service path e loads h hp hw
    obtain ⟨messages, same⟩ := run_of_loads asked loads
    obtain ⟨errors, there⟩ := deliver_unwritable messages h hp hw
    rw [same, there]
    exact ⟨rfl, rfl, rfl⟩
  unnameable := by
    intro service path loads h hp
    obtain ⟨messages, same⟩ := run_of_loads asked loads
    rw [same, deliver_unnameable messages h hp]
  exits := run_exits asked
  steady := run_same asked

end

/-! ## Runs of the sample -/

namespace Sample

/-- A file with the sample description. -/
def files : Files := [(⟨"", ["a"]⟩, ServiceModel.Sample.text.toUTF8.toList)]

theorem text_returnless : '\r' ∉ ServiceModel.Sample.text.toList :=
  not_mem_of_spelled (append_spelled (append_spelled (append_spelled rfl rfl) rfl) rfl)
    (by decide +kernel)

theorem loads {a : Arguments} (depth : a.maxDepth = 64) (strict : a.strict = false) :
    ∃ service, Loads files "a" a service := by
  have tree : (convertTree ⟨"a", 64, false⟩ ServiceModel.Sample.tree).outcome.isOk = true := by cbv
  obtain ⟨service, converted⟩ := exists_convert ServiceModel.Sample.treeOf_text tree
  refine ⟨service, by decide +kernel, ServiceModel.Sample.text.toUTF8.toList,
    ServiceModel.Sample.text, by decide +kernel, textOf_toUTF8 text_returnless, ?_⟩
  rw [depth, strict]
  exact converted

end Sample

/-- The sample is written to a file beside it, and the validation finds nothing. -/
theorem run_disciplined_sample :
    request ["--input", "a", "--validate", "--output", "b"] =
        .ok (.convert "a" { input := some "a", output := some "b", validate := true }) ∧
      (∃ service, Loads Sample.files "a"
        { input := some "a", output := some "b", validate := true } service) ∧
      Disciplined ["--input", "a", "--validate", "--output", "b"] Sample.files "a"
        { input := some "a", output := some "b", validate := true } :=
  have asked : request ["--input", "a", "--validate", "--output", "b"] =
      .ok (.convert "a" { input := some "a", output := some "b", validate := true }) := by
    decide +kernel
  ⟨asked, Sample.loads rfl rfl, run_disciplined asked⟩

/-- Where no file can be named, a run with a service is given up: it has no exit code. -/
theorem run_unnameable :
    ∃ service, Loads Sample.files "a" { input := some "a", output := some "\x00" } service ∧
      Arguments.outputPath? { input := some "a", output := some "\x00" } = some ⟨"", ["\x00"]⟩ ∧
      exitCode? (run ["--input", "a", "--output", "\x00"] Sample.files) = none := by
  have asked : request ["--input", "a", "--output", "\x00"] =
      .ok (.convert "a" { input := some "a", output := some "\x00" }) := by decide +kernel
  obtain ⟨service, loads⟩ := Sample.loads (a := { input := some "a", output := some "\x00" }) rfl rfl
  have path : Arguments.outputPath? { input := some "a", output := some "\x00" } =
      some ⟨"", ["\x00"]⟩ := by decide +kernel
  obtain ⟨messages, same⟩ := run_of_loads asked loads
  refine ⟨service, loads, path, ?_⟩
  rw [same, deliver_unnameable messages path (by decide +kernel)]
  rfl

end ServiceModel.CommandLine

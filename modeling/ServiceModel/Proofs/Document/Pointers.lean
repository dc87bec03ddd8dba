/-
Pointers address the ways through a document. A pointer that is written from names is read as those
names again, whatever characters they hold: tildes are escaped before slashes and undone after
them, so that no tilde of a name is taken for a part of an escape. Resolving a pointer steps from
the root into the first entry with each name in turn, and fails exactly where a step does. The span
of the name that a pointer ends on is found by a walk of its own, which gets as far as resolving and
fails in the same way.
-/
import ServiceModel.Proofs.Document.Replace
import ServiceModel.Proofs.Text.Replace
import ServiceModel.Proofs.Text.Split
import Mathlib.Data.List.Induction

namespace ServiceModel

namespace Pointer

open Text (cut replace replace_one replace_one_other replace_two replace_two_other)

/-! ## The escapes as replacements -/

/-- Tildes are escaped first, and slashes then. -/
theorem escape_eq_replace (name : List Char) :
    escape name = replace ['/'] ['~', '1'] (replace ['~'] ['~', '0'] name) := by
  induction name with
  | nil => simp [escape]
  | cons c rest ih =>
    rw [escape]
    by_cases tilde : c = '~'
    · rw [if_pos tilde, replace_one tilde, List.cons_append, List.cons_append, List.nil_append,
        replace_one_other (by decide), replace_one_other (by decide), ih]
    · rw [if_neg tilde, replace_one_other tilde]
      by_cases slash : c = '/'
      · rw [if_pos slash, replace_one slash, ih]
        rfl
      · rw [if_neg slash, replace_one_other slash, ih]

/-- No digit gets to the front by replacing escaped slashes. -/
theorem head?_replace_slash {text : List Char} (h : text.head? ≠ some '0') :
    (replace ['~', '1'] ['/'] text).head? ≠ some '0' := by
  match text with
  | [] => simp
  | c :: rest =>
    by_cases escaped : c = '~' ∧ rest.head? = some '1'
    · obtain ⟨rfl, found⟩ := escaped
      obtain ⟨behind, rfl⟩ := List.head?_eq_some_iff.1 found
      rw [replace_two]
      simp
    · rw [replace_two_other fun hc hr => escaped ⟨hc, hr⟩]
      exact h

/-- Escaped slashes are undone first, and escaped tildes then. -/
theorem unescape_eq_replace (written : List Char) :
    unescape written = replace ['~', '0'] ['~'] (replace ['~', '1'] ['/'] written) := by
  fun_induction unescape written with
  | case1 rest ih =>
    rw [replace_two_other (by simp), replace_two_other (c := '0') (by simp), replace_two, ih]
    rfl
  | case2 rest ih =>
    rw [replace_two, List.singleton_append, replace_two_other (by simp), ih]
  | case3 c rest notTilde notSlash ih =>
    -- a tilde that starts no escape stays one, since undoing slashes puts no digit behind it
    have plain (d : Char) (hd : d = '0' ∨ d = '1') : c = '~' → rest.head? ≠ some d := by
      rintro rfl found
      obtain ⟨behind, rfl⟩ := List.head?_eq_some_iff.1 found
      rcases hd with rfl | rfl
      · exact notTilde behind rfl rfl
      · exact notSlash behind rfl rfl
    rw [replace_two_other (plain '1' (.inr rfl)),
      replace_two_other fun hc => head?_replace_slash (plain '0' (.inl rfl) hc), ih]
  | case4 => simp

/-! ## Escaped names -/

theorem unescape_escape (name : List Char) : unescape (escape name) = name := by
  induction name with
  | nil => rfl
  | cons c rest ih =>
    rw [escape]
    by_cases tilde : c = '~'
    · rw [if_pos tilde, unescape, ih, tilde]
    · rw [if_neg tilde]
      by_cases slash : c = '/'
      · rw [if_pos slash, unescape, ih, slash]
      · rw [if_neg slash, unescape, ih]
        · rintro _ rfl
          exact absurd rfl tilde
        · rintro _ rfl
          exact absurd rfl tilde

theorem slash_not_mem_escape (name : List Char) : '/' ∉ escape name := by
  induction name with
  | nil => simp [escape]
  | cons c rest ih =>
    rw [escape]
    by_cases tilde : c = '~'
    · simp [if_pos tilde, ih]
    · by_cases slash : c = '/'
      · simp [if_neg tilde, if_pos slash, ih]
      · simp [if_neg tilde, if_neg slash, ih, Ne.symm slash]

theorem unescape_eq_nil {written : List Char} : unescape written = [] ↔ written = [] := by
  constructor
  · intro h
    fun_cases unescape written <;> simp_all [unescape]
  · rintro rfl
    rfl

/-! ## Pointers written from names -/

theorem keys_of_slash (body : List Char) :
    keys (String.ofList ('#' :: '/' :: body)) =
      .ok ((cut '/' body).map fun piece => String.ofList (unescape piece)) := by
  unfold keys
  rw [String.toList_ofList]
  rfl

/-- The names that a pointer is written from are the names that are read from it. -/
theorem keys_ofKeys (names : List String) : keys (ofKeys names) = .ok names := by
  cases names with
  | nil =>
    unfold keys ofKeys
    rw [String.toList_ofList]
    rfl
  | cons first rest =>
    let pieces := rest.map fun name => escape name.toList
    have plain : ∀ piece ∈ pieces, '/' ∉ piece := by
      intro piece hp
      obtain ⟨name, -, rfl⟩ := List.mem_map.1 hp
      exact slash_not_mem_escape _
    have written : ofKeys (first :: rest) =
        String.ofList ('#' :: '/' :: (escape first.toList ++ pieces.flatMap ('/' :: ·))) := by
      rw [ofKeys, List.flatMap_cons, List.cons_append, List.flatMap_map]
    -- no escaped name holds a slash, so that the pieces are the escaped names
    rw [written, keys_of_slash, Text.cut_flatMap plain (slash_not_mem_escape _), List.map_cons,
      unescape_escape, String.ofList_toList, List.map_map]
    have back : ((fun piece => String.ofList (unescape piece)) ∘ fun name : String =>
        escape name.toList) = id := by
      funext name
      rw [Function.comp_apply, unescape_escape, String.ofList_toList, id]
    rw [back, List.map_id]

theorem walk_concat (entry : Key × Node) (names : List String) (name : String) :
    walk entry (names ++ [name]) = (walk entry names).bind fun last => Node.entry? last.2 name := by
  induction names generalizing entry with
  | nil =>
    rw [List.nil_append, walk_eq_bind, walk, Option.bind_some]
    exact Option.bind_fun_some _
  | cons first rest ih =>
    rw [List.cons_append, walk_eq_bind, walk_eq_bind, Option.bind_assoc]
    exact congrArg _ (funext fun next => ih next)

end Pointer

namespace Node

/-! ## Steps from name to name -/

/-- The names lead from the root to a node, each to the first entry with the name; the text is the
written span of the last name, or of the root where there is none. -/
inductive Stepped (root : Node) : List String → Node → String → Prop
  | start : Stepped root [] root root.loc
  | step {names : List String} {before after : List (Key × Node)} {entry : Key × Node}
      {range : Text.Range} {loc : String} :
      Stepped root names (.object (before ++ entry :: after) range) loc →
      (∀ other ∈ before, other.1.name ≠ entry.1.name) →
      Stepped root (names ++ [entry.1.name]) entry.2 entry.1.loc

theorem entry?_eq_some_iff {node : Node} {name : String} {entry : Key × Node} :
    node.entry? name = some entry ↔
      entry.1.name = name ∧ ∃ before after range,
        node = .object (before ++ entry :: after) range ∧
          ∀ other ∈ before, other.1.name ≠ name := by
  cases node with
  | literal l => simp [ entry?, object?]
  | array items range => simp [ entry?, object?]
  | object entries range =>
    change entries.find? (·.1.name == name) = some entry ↔ _
    rw [List.find?_eq_some_iff_append]
    simp

/-- Stepping and walking are one. -/
theorem stepped_iff {root node : Node} {names : List String} {loc : String} :
    root.Stepped names node loc ↔
      ∃ entry, Pointer.walk (⟨"", root.range⟩, root) names = some entry ∧ entry.2 = node ∧
        entry.1.loc = loc := by
  constructor
  · intro h
    induction h with
    | start => exact ⟨_, rfl, rfl, rfl⟩
    | @step names before after entry range loc _ first ih =>
      obtain ⟨last, walked, at_, -⟩ := ih
      refine ⟨entry, ?_, rfl, rfl⟩
      rw [Pointer.walk_concat, walked, Option.bind_some]
      exact entry?_eq_some_iff.2 ⟨rfl, before, after, range, at_, first⟩
  · rintro ⟨entry, walked, rfl, rfl⟩
    -- a step is made at the end of the way, so that the names are taken off from there
    induction names using List.reverseRecOn generalizing entry with
    | nil =>
      cases walked
      exact .start
    | append_singleton names name ih =>
      rw [Pointer.walk_concat] at walked
      obtain ⟨last, before, found⟩ := Option.bind_eq_some_iff.1 walked
      obtain ⟨rfl, others, after, range, at_, first⟩ := entry?_eq_some_iff.1 found
      have reached := ih last before
      rw [at_] at reached
      exact .step reached first

/-! ## Resolving and locating as loops -/

/-- One turn of a loop along the names of a pointer: the first entry with the next name. -/
def stepTo (pointer : String) (node : Node) (name : String) : Except Failure (Key × Node) :=
  match node.entry? name with
  | some entry => .ok entry
  | none => .error (.pointer (.unresolvable pointer))

/-- What is kept of the entries along the way is kept of the last one, and where the way ends early
the loop does. -/
theorem foldlM_stepTo {α : Type} (pointer : String) (keep : Key × Node → α) (at_ : α → Node)
    (same : ∀ entry, at_ (keep entry) = entry.2) (names : List String) (entry : Key × Node) :
    names.foldlM (fun kept name => do return keep (← (at_ kept).stepTo pointer name)) (keep entry) =
      match Pointer.walk entry names with
      | some last => .ok (keep last)
      | none => .error (.pointer (.unresolvable pointer)) := by
  induction names generalizing entry with
  | nil => rfl
  | cons name rest ih =>
    rw [List.foldlM_cons, Pointer.walk_eq_bind, same, stepTo]
    cases Node.entry? entry.2 name with
    | none => rfl
    | some next => exact ih next

/-- Resolving goes from node to node. -/
theorem resolve_eq_foldlM (root : Node) (pointer : String) :
    root.resolve pointer = (do
      let names ← Pointer.keys pointer
      names.foldlM (fun node name => do return (← node.stepTo pointer name).2) root) := by
  unfold resolve entryAt
  cases Pointer.keys pointer with
  | error e => rfl
  | ok names =>
    have loop := foldlM_stepTo pointer Prod.snd id (fun _ => rfl) names (⟨"", root.range⟩, root)
    refine Eq.trans ?_ loop.symm
    dsimp only
    cases Pointer.walk (⟨"", root.range⟩, root) names <;> rfl

/-- Locating goes from node to node as well, and keeps the span of the last name. -/
theorem pointerLoc_eq_foldlM (root : Node) (pointer : String) :
    root.pointerLoc pointer = (do
      let names ← Pointer.keys pointer
      let last ← names.foldlM (fun last name => do
        let entry ← last.1.stepTo pointer name
        return (entry.2, entry.1.loc)) (root, root.loc)
      return last.2) := by
  unfold pointerLoc entryAt
  cases Pointer.keys pointer with
  | error e => rfl
  | ok names =>
    have loop := foldlM_stepTo pointer (fun entry => (entry.2, entry.1.loc)) Prod.fst
      (fun _ => rfl) names (⟨"", root.range⟩, root)
    refine Eq.trans ?_ (congrArg (· >>= fun last => pure last.2) loop.symm)
    dsimp only
    cases Pointer.walk (⟨"", root.range⟩, root) names <;> rfl

/-! ## Where pointers lead -/

theorem entryAt_of_keys {root : Node} {pointer : String} {names : List String}
    (h : Pointer.keys pointer = .ok names) :
    root.entryAt pointer =
      match Pointer.walk (⟨"", root.range⟩, root) names with
      | some entry => .ok entry
      | none => .error (.pointer (.unresolvable pointer)) := by
  cases hw : Pointer.walk (⟨"", root.range⟩, root) names <;> simp [entryAt, h, hw]

theorem entryAt_eq_ok_iff {root : Node} {pointer : String} {entry : Key × Node} :
    root.entryAt pointer = .ok entry ↔
      ∃ names, Pointer.keys pointer = .ok names ∧
        Pointer.walk (⟨"", root.range⟩, root) names = some entry := by
  cases hk : Pointer.keys pointer with
  | error e => simp [entryAt, hk]
  | ok names =>
    rw [entryAt_of_keys hk]
    cases hw : Pointer.walk (⟨"", root.range⟩, root) names with
    | none => simp [hw]
    | some last => simp [hw]

theorem resolve_eq_map (root : Node) (pointer : String) :
    root.resolve pointer = (root.entryAt pointer).map (·.2) := by
  unfold resolve
  cases root.entryAt pointer <;> rfl

theorem pointerLoc_eq_map (root : Node) (pointer : String) :
    root.pointerLoc pointer = (root.entryAt pointer).map (·.1.loc) := by
  unfold pointerLoc
  cases root.entryAt pointer <;> rfl

theorem map_entryAt_eq_ok_iff {α : Type} {root : Node} {pointer : String} {keep : Key × Node → α}
    {kept : α} :
    (root.entryAt pointer).map keep = .ok kept ↔
      ∃ names entry, Pointer.keys pointer = .ok names ∧
        Pointer.walk (⟨"", root.range⟩, root) names = some entry ∧ keep entry = kept := by
  constructor
  · intro h
    cases he : root.entryAt pointer with
    | error e => rw [he] at h; cases h
    | ok entry =>
      rw [he] at h
      obtain ⟨names, hk, hw⟩ := entryAt_eq_ok_iff.1 he
      exact ⟨names, entry, hk, hw, Except.ok.inj h⟩
  · rintro ⟨names, entry, hk, hw, rfl⟩
    rw [entryAt_eq_ok_iff.2 ⟨names, hk, hw⟩]
    rfl

theorem resolve_eq_ok_iff {root node : Node} {pointer : String} :
    root.resolve pointer = .ok node ↔
      ∃ names loc, Pointer.keys pointer = .ok names ∧ root.Stepped names node loc := by
  simp only [resolve_eq_map, map_entryAt_eq_ok_iff, stepped_iff]
  constructor
  · rintro ⟨names, entry, hk, hw, same⟩
    exact ⟨names, entry.1.loc, hk, entry, hw, same, rfl⟩
  · rintro ⟨names, loc, hk, entry, hw, same, -⟩
    exact ⟨names, entry, hk, hw, same⟩

theorem pointerLoc_eq_ok_iff {root : Node} {pointer loc : String} :
    root.pointerLoc pointer = .ok loc ↔
      ∃ names node, Pointer.keys pointer = .ok names ∧ root.Stepped names node loc := by
  simp only [pointerLoc_eq_map, map_entryAt_eq_ok_iff, stepped_iff]
  constructor
  · rintro ⟨names, entry, hk, hw, same⟩
    exact ⟨names, entry.2, hk, entry, hw, rfl, same⟩
  · rintro ⟨names, node, hk, entry, hw, -, same⟩
    exact ⟨names, entry, hk, hw, same⟩

theorem resolve_error_iff {root : Node} {pointer : String} {e : Failure} :
    root.resolve pointer = .error e ↔ root.pointerLoc pointer = .error e := by
  rw [resolve_eq_map, pointerLoc_eq_map]
  cases root.entryAt pointer with
  | error lost => simp [Except.map]
  | ok entry => exact ⟨nofun, nofun⟩

end Node

open Text (cut replace)

/-- The pointers that lead into a document are the ways of names through it. -/
structure PointersLead (root : Node) : Prop where
  /-- Behind the number sign, each name follows a slash, its tildes escaped first and its slashes
  then. -/
  written : ∀ names : List String, (Pointer.ofKeys names).toList =
    '#' :: names.flatMap fun name =>
      '/' :: replace ['/'] ['~', '1'] (replace ['~'] ['~', '0'] name.toList)
  /-- Between slashes, escaped slashes are undone first and escaped tildes then. -/
  split : ∀ body : List Char, Pointer.keys (String.ofList ('#' :: '/' :: body)) =
    .ok ((cut '/' body).map fun piece =>
      String.ofList (replace ['~', '0'] ['~'] (replace ['~', '1'] ['/'] piece)))
  decoded : ∀ names, Pointer.keys (Pointer.ofKeys names) = .ok names
  /-- The pointer that names are written to leads where they do, and nowhere exactly if they lead
  nowhere. -/
  leads : ∀ names node,
    root.resolve (Pointer.ofKeys names) = .ok node ↔ ∃ loc, root.Stepped names node loc
  nowhere : ∀ names e, root.resolve (Pointer.ofKeys names) = .error e ↔
    e = .pointer (.unresolvable (Pointer.ofKeys names)) ∧ ¬ ∃ node loc, root.Stepped names node loc
  /-- Every pointer is resolved in one loop over its names, and located in another one. -/
  resolving : ∀ pointer, root.resolve pointer = (do
    let names ← Pointer.keys pointer
    names.foldlM (fun node name => do return (← node.stepTo pointer name).2) root)
  locating : ∀ pointer, root.pointerLoc pointer = (do
    let names ← Pointer.keys pointer
    let last ← names.foldlM (fun last name => do
      let entry ← last.1.stepTo pointer name
      return (entry.2, entry.1.loc)) (root, root.loc)
    return last.2)
  /-- Both lead to the end of the same way or fail in the same way. -/
  reaches : ∀ pointer node, root.resolve pointer = .ok node ↔
    ∃ names loc, Pointer.keys pointer = .ok names ∧ root.Stepped names node loc
  locates : ∀ pointer loc, root.pointerLoc pointer = .ok loc ↔
    ∃ names node, Pointer.keys pointer = .ok names ∧ root.Stepped names node loc
  fails : ∀ pointer e, root.resolve pointer = .error e ↔ root.pointerLoc pointer = .error e

/-- Pointers lead along the names of entries through every document, and along nothing else. -/
theorem pointers_lead (root : Node) : PointersLead root where
  written names := by
    rw [Pointer.ofKeys, String.toList_ofList]
    simp only [Pointer.escape_eq_replace]
  split body := by
    rw [Pointer.keys_of_slash]
    simp only [Pointer.unescape_eq_replace]
  decoded := Pointer.keys_ofKeys
  leads names node := by
    rw [Node.resolve_eq_ok_iff, Pointer.keys_ofKeys]
    constructor
    · rintro ⟨_, loc, ⟨⟩, stepped⟩
      exact ⟨loc, stepped⟩
    · rintro ⟨loc, stepped⟩
      exact ⟨names, loc, rfl, stepped⟩
  nowhere names e := by
    simp only [Node.stepped_iff, Node.resolve, Node.entryAt_of_keys (Pointer.keys_ofKeys names)]
    cases Pointer.walk (⟨"", root.range⟩, root) names with
    | none => simp [eq_comm]
    | some entry => simp
  resolving := root.resolve_eq_foldlM
  locating := root.pointerLoc_eq_foldlM
  reaches _ _ := Node.resolve_eq_ok_iff
  locates _ _ := Node.pointerLoc_eq_ok_iff
  fails _ _ := Node.resolve_error_iff

end ServiceModel

/-
What is kept when one definition is kept for every name: definitions that were there, under the
names that were there, in the order in which the names first occur, and for each name the last
definition with that name. The names and the last definitions leave no choice, and what is kept
tells as much about what may still come as all that was there: definitions can be folded piece by
piece.
-/
import ServiceModel.Proofs.Lists.Distinct
import ServiceModel.Service.Fold
import Mathlib.Data.List.Induction

namespace ServiceModel.Service

variable {α : Type} {name : α → String}

theorem mem_putByName {item x : α} {kept : List α} (h : x ∈ putByName name item kept) :
    x = item ∨ x ∈ kept := by
  induction kept with
  | nil => exact .inl (List.mem_singleton.1 h)
  | cons y kept ih =>
    rw [putByName] at h
    split at h
    · rcases List.mem_cons.1 h with rfl | h
      · exact .inl rfl
      · exact .inr (List.mem_cons_of_mem _ h)
    · rcases List.mem_cons.1 h with rfl | h
      · exact .inr List.mem_cons_self
      · rcases ih h with rfl | h
        · exact .inl rfl
        · exact .inr (List.mem_cons_of_mem _ h)

/-- A definition that is put takes the place of one with its name, or comes last. -/
theorem names_putByName (item : α) (kept : List α) :
    (putByName name item kept).map name =
      if name item ∈ kept.map name then kept.map name else kept.map name ++ [name item] := by
  induction kept with
  | nil => rfl
  | cons x kept ih =>
    rw [putByName]
    by_cases hx : name x = name item
    · rw [if_pos hx]
      simp [hx]
    · -- its place, if there is one, is further on
      rw [if_neg hx, List.map_cons, ih]
      have hx' : ¬ name item = name x := fun h => hx h.symm
      by_cases hk : name item ∈ kept.map name
      · rw [if_pos hk, List.map_cons, if_pos (List.mem_cons_of_mem _ hk)]
      · have hk' : name item ∉ (x :: kept).map name := by
          rw [List.map_cons, List.mem_cons]
          rintro (h | h)
          · exact hx' h
          · exact hk h
        rw [if_neg hk, if_neg hk', List.map_cons, List.cons_append]

theorem foldByName_concat (items : List α) (item : α) :
    foldByName name (items ++ [item]) = putByName name item (foldByName name items) := by
  rw [foldByName, List.foldl_append]
  rfl

/-- Only what was there is kept. -/
theorem mem_foldByName {items : List α} {x : α} (h : x ∈ foldByName name items) : x ∈ items := by
  induction items using List.reverseRecOn with
  | nil => cases h
  | append_singleton items item ih =>
    rw [foldByName_concat] at h
    rcases mem_putByName h with rfl | h
    · exact List.mem_append_right _ (List.mem_singleton.2 rfl)
    · exact List.mem_append_left _ (ih h)

/-- The names are those that were there, each once, in the order of their first occurrence. -/
theorem names_foldByName (items : List α) :
    (foldByName name items).map name = (items.map name).eraseDups := by
  induction items using List.reverseRecOn with
  | nil => rfl
  | append_singleton items item ih =>
    rw [foldByName_concat, names_putByName, ih, List.map_append, List.map_singleton,
      eraseDups_concat]
    simp only [List.mem_eraseDups]

theorem nodup_names_foldByName (items : List α) : ((foldByName name items).map name).Nodup := by
  rw [names_foldByName]
  exact nodup_eraseDups _

theorem mem_names_foldByName {items : List α} {n : String} :
    n ∈ (foldByName name items).map name ↔ n ∈ items.map name := by
  rw [names_foldByName, List.mem_eraseDups]

/-! ## The last definition -/

/-- The last definition with a name. -/
def lastNamed (name : α → String) (items : List α) (n : String) : Option α :=
  (items.filter (name · == n)).getLast?

theorem lastNamed_append (first rest : List α) (n : String) :
    lastNamed name (first ++ rest) n = (lastNamed name rest n).or (lastNamed name first n) := by
  simp [lastNamed, List.getLast?_append]

theorem lastNamed_eq_none {items : List α} {n : String} :
    lastNamed name items n = none ↔ ∀ x ∈ items, name x ≠ n := by
  simp [lastNamed]

theorem mem_of_lastNamed {items : List α} {n : String} {x : α}
    (h : lastNamed name items n = some x) : x ∈ items :=
  List.mem_of_mem_filter (List.mem_of_getLast? h)

theorem find?_putByName (item : α) (kept : List α) (n : String) :
    (putByName name item kept).find? (name · == n) =
      if name item = n then some item else kept.find? (name · == n) := by
  induction kept with
  | nil => by_cases hn : name item = n <;> simp [putByName, hn]
  | cons x kept ih =>
    rw [putByName]
    by_cases hx : name x = name item
    · by_cases hn : name item = n <;> simp [hx, hn]
    · rw [if_neg hx]
      by_cases hn : name x = n
      · have differs : name item ≠ n := fun h => hx (hn.trans h.symm)
        simp [hn, differs]
      · simp [hn, ih]

/-- Under each name the last definition with that name is found. -/
theorem find?_foldByName (items : List α) (n : String) :
    (foldByName name items).find? (name · == n) = lastNamed name items n := by
  induction items using List.reverseRecOn with
  | nil => rfl
  | append_singleton items item ih =>
    rw [foldByName_concat, find?_putByName, ih, lastNamed_append]
    by_cases hn : name item = n <;> simp [lastNamed, hn]

/-- What is kept is the last definition with its name. -/
theorem lastNamed_of_mem_foldByName {items : List α} {x : α} (h : x ∈ foldByName name items) :
    lastNamed name items (name x) = some x := by
  rw [← find?_foldByName]
  cases hf : (foldByName name items).find? (name · == name x) with
  | none => simpa using List.find?_eq_none.1 hf x h
  | some y =>
    have same : name y = name x := by simpa using List.find?_some hf
    have here : y ∈ foldByName name items := List.mem_of_find?_eq_some hf
    rw [List.inj_on_of_nodup_map (nodup_names_foldByName items) here h same]

/-! ## Folding piece by piece -/

/-- A definition whose name is not there yet comes last. -/
theorem putByName_fresh {item : α} {kept : List α} (h : name item ∉ kept.map name) :
    putByName name item kept = kept ++ [item] := by
  induction kept with
  | nil => rfl
  | cons x kept ih =>
    rw [List.map_cons, List.mem_cons, not_or] at h
    have differs : name x ≠ name item := fun he => h.1 he.symm
    rw [putByName, if_neg differs, ih h.2, List.cons_append]

/-- Nothing is lost where every name occurs once. -/
theorem foldByName_eq_self {items : List α} (h : (items.map name).Nodup) :
    foldByName name items = items := by
  induction items using List.reverseRecOn with
  | nil => rfl
  | append_singleton items item ih =>
    rw [List.map_append, List.map_singleton, List.nodup_append] at h
    obtain ⟨distinct, -, apart⟩ := h
    have fresh : name item ∉ items.map name := fun hm =>
      apart _ hm _ (List.mem_singleton.2 rfl) rfl
    rw [foldByName_concat, ih distinct, putByName_fresh fresh]

theorem foldByName_foldByName (items : List α) :
    foldByName name (foldByName name items) = foldByName name items :=
  foldByName_eq_self (nodup_names_foldByName items)

/-- What comes behind does not see whether the front is folded already. -/
theorem foldByName_foldByName_append (front rest : List α) :
    foldByName name (foldByName name front ++ rest) = foldByName name (front ++ rest) := by
  induction rest using List.reverseRecOn with
  | nil => rw [List.append_nil, List.append_nil, foldByName_foldByName]
  | append_singleton rest item ih =>
    rw [← List.append_assoc, ← List.append_assoc, foldByName_concat, foldByName_concat, ih]

/-- Each name stands once, in the order of the first occurrences, with its last definition. -/
structure KeepsLast (name : α → String) (items kept : List α) : Prop where
  names : kept.map name = (items.map name).eraseDups
  last : ∀ x ∈ kept, lastNamed name items (name x) = some x

theorem keepsLast_foldByName (items : List α) : KeepsLast name items (foldByName name items) :=
  ⟨names_foldByName items, fun _ => lastNamed_of_mem_foldByName⟩

/-- The last definitions of the distinct names are all that is kept. -/
theorem KeepsLast.map_some {items kept : List α} (h : KeepsLast name items kept) :
    kept.map some = (items.map name).eraseDups.map (lastNamed name items) := by
  rw [← h.names, List.map_map]
  exact List.map_congr_left fun x hx => (h.last x hx).symm

theorem KeepsLast.unique {items kept kept' : List α} (h : KeepsLast name items kept)
    (h' : KeepsLast name items kept') : kept = kept' :=
  List.map_injective_iff.2 (fun _ _ => Option.some.inj) (h.map_some.trans h'.map_some.symm)

/-- Folding pieces one after another is folding them together. -/
theorem foldl_foldByName (pieces : List (List α)) (front : List α) :
    pieces.foldl (fun kept piece => foldByName name (kept ++ piece)) (foldByName name front) =
      foldByName name (front ++ pieces.flatten) := by
  induction pieces generalizing front with
  | nil => rw [List.foldl_nil, List.flatten_nil, List.append_nil]
  | cons piece pieces ih =>
    rw [List.foldl_cons, foldByName_foldByName_append, ih, List.flatten_cons, List.append_assoc]

/-- What folding by name comes to, for every list of definitions. -/
structure FoldsByName (name : α → String) : Prop where
  /-- The names stand in the order of their first occurrence, each with its last definition, and
  nothing else has these names and definitions. -/
  keeps : ∀ items kept, foldByName name items = kept ↔ KeepsLast name items kept
  /-- What was folded may be folded on. -/
  incremental : ∀ front rest,
    foldByName name (foldByName name front ++ rest) = foldByName name (front ++ rest)
  idempotent : ∀ items, foldByName name (foldByName name items) = foldByName name items
  /-- Any number of pieces may be folded one after another. -/
  pieces : ∀ pieces : List (List α),
    pieces.foldl (fun kept piece => foldByName name (kept ++ piece)) [] =
      foldByName name pieces.flatten

/-- Types, enums, unions and whatever else has a name fold to the last value of each name at the
place of the first, in one go or piece by piece. -/
theorem foldByName_folds (name : α → String) : FoldsByName name where
  keeps items kept := by
    constructor
    · rintro rfl
      exact keepsLast_foldByName items
    · exact (keepsLast_foldByName items).unique
  incremental := foldByName_foldByName_append
  idempotent := foldByName_foldByName
  pieces pieces := foldl_foldByName pieces []

/-- A later definition takes the place of the first one of its name. -/
example : foldByName Prod.fst [("A", 1), ("B", 2), ("A", 3)] = [("A", 3), ("B", 2)] := by decide

end ServiceModel.Service

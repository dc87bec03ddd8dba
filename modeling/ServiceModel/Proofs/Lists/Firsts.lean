/-
The first of those that are the same. `eraseDupsBy` goes through a list and keeps what is the same
as nothing before it: what is kept stands in the order of the list, no two of it are the same, and
everything in the list is the same as one of it.
-/
import Mathlib.Data.List.Induction

namespace ServiceModel

variable {α : Type}

/-- What stands in a place is the same as nothing before it. -/
def FirstAt (same : α → α → Prop) (xs : List α) (i : Nat) : Prop :=
  ∃ x, xs[i]? = some x ∧ ∀ j < i, ∀ y, xs[j]? = some y → ¬ same x y

/-- What is kept of a list if the first of those that are the same is. -/
structure KeepsFirsts (same : α → α → Prop) (xs kept : List α) : Prop where
  distinct : kept.Pairwise fun x y => ¬ same x y
  complete : ∀ x ∈ xs, ∃ y ∈ kept, same x y
  places : ∃ places : List Nat, places.Pairwise (· < ·) ∧ (∀ i, i ∈ places ↔ FirstAt same xs i) ∧
    kept.map some = places.map (xs[·]?)

variable {same same' : α → α → Prop} {xs kept : List α} {x : α} {i : Nat}

theorem FirstAt.lt (h : FirstAt same xs i) : i < xs.length := by
  obtain ⟨x, hx, -⟩ := h
  exact (List.getElem?_eq_some_iff.1 hx).1

/-- Whether a place is a first one is told by what stands before it. -/
theorem firstAt_append {ys : List α} (h : i < xs.length) :
    FirstAt same (xs ++ ys) i ↔ FirstAt same xs i := by
  unfold FirstAt
  rw [List.getElem?_append_left h]
  refine exists_congr fun x => and_congr_right fun _ => forall₂_congr fun j hj => ?_
  rw [List.getElem?_append_left (Nat.lt_trans hj h)]

theorem firstAt_last : FirstAt same (xs ++ [x]) xs.length ↔ ∀ y ∈ xs, ¬ same x y := by
  constructor
  · rintro ⟨x', hx, before⟩ y hy
    cases (List.getElem?_concat_length ..).symm.trans hx
    obtain ⟨j, hj, rfl⟩ := List.getElem_of_mem hy
    exact before j hj _ ((List.getElem?_append_left hj).trans (List.getElem?_eq_getElem hj))
  · intro h
    refine ⟨x, List.getElem?_concat_length, fun j hj y hy => h y ?_⟩
    rw [List.getElem?_append_left hj] at hy
    exact List.mem_of_getElem? hy

/-- With one more element, its place is one more first one if it is the same as nothing. -/
theorem firstAt_concat : FirstAt same (xs ++ [x]) i ↔
    FirstAt same xs i ∨ i = xs.length ∧ ∀ y ∈ xs, ¬ same x y := by
  constructor
  · intro h
    have bound := h.lt
    rw [List.length_append, List.length_singleton] at bound
    rcases Nat.lt_succ_iff_lt_or_eq.1 bound with less | rfl
    · exact .inl ((firstAt_append less).1 h)
    · exact .inr ⟨rfl, firstAt_last.1 h⟩
  · rintro (h | ⟨rfl, h⟩)
    · exact (firstAt_append h.lt).2 h
    · exact firstAt_last.2 h

/-- Whether a place is a first one depends on what is the same as its element alone. -/
theorem firstAt_congr (hx : xs[i]? = some x) (h : ∀ y ∈ xs, (same x y ↔ same' x y)) :
    FirstAt same xs i ↔ FirstAt same' xs i := by
  refine exists_congr fun z => and_congr_right fun hz => forall₂_congr fun j _ => ?_
  cases hx.symm.trans hz
  exact forall₂_congr fun y hy => not_congr (h y (List.mem_of_getElem? hy))

namespace KeepsFirsts

theorem subset (h : KeepsFirsts same xs kept) : kept ⊆ xs := by
  intro x hx
  obtain ⟨places, -, -, same⟩ := h.places
  have found : some x ∈ places.map (xs[·]?) := same ▸ List.mem_map_of_mem hx
  obtain ⟨i, -, hi⟩ := List.mem_map.1 found
  exact List.mem_of_getElem? hi

theorem nil : KeepsFirsts same ([] : List α) [] where
  distinct := .nil
  complete x hx := nomatch hx
  places := by
    refine ⟨[], .nil, fun i => ⟨nofun, fun h => ?_⟩, rfl⟩
    exact absurd h.lt (Nat.not_lt_zero i)

/-- The places in the list without its last element are places in the list. -/
theorem map_places {places : List Nat} (h : ∀ i ∈ places, FirstAt same xs i) :
    places.map ((xs ++ [x])[·]?) = places.map (xs[·]?) :=
  List.map_congr_left fun i hi => List.getElem?_append_left (h i hi).lt

/-- One more element, which is the same as one that is kept. -/
theorem concat_same (keeps : KeepsFirsts same xs kept)
    (found : ∃ y ∈ kept, same x y) : KeepsFirsts same (xs ++ [x]) kept where
  distinct := keeps.distinct
  complete y hy := by
    rcases List.mem_append.1 hy with hy | hy
    · exact keeps.complete y hy
    · cases List.mem_singleton.1 hy
      exact found
  places := by
    obtain ⟨places, sorted, firsts, eq⟩ := keeps.places
    refine ⟨places, sorted, fun i => ?_, ?_⟩
    · rw [firsts, firstAt_concat]
      obtain ⟨y, hy, found⟩ := found
      exact (or_iff_left fun last => last.2 y (keeps.subset hy) found).symm
    · rw [map_places fun i hi => (firsts i).1 hi, eq]

/-- One more element, which is the same as nothing that is kept. -/
theorem concat_new (symm : ∀ x y, same x y → same y x)
    (trans : ∀ x y z, same x y → same y z → same x z) (refl : same x x)
    (keeps : KeepsFirsts same xs kept) (new : ∀ y ∈ kept, ¬ same x y) :
    KeepsFirsts same (xs ++ [x]) (kept ++ [x]) where
  distinct := by
    refine List.pairwise_append.2 ⟨keeps.distinct, List.pairwise_singleton _ _, ?_⟩
    rintro y hy z hz found
    cases List.mem_singleton.1 hz
    exact new y hy (symm _ _ found)
  complete y hy := by
    rcases List.mem_append.1 hy with hy | hy
    · obtain ⟨z, hz, found⟩ := keeps.complete y hy
      exact ⟨z, List.mem_append_left _ hz, found⟩
    · cases List.mem_singleton.1 hy
      exact ⟨x, List.mem_append_right _ (List.mem_singleton.2 rfl), refl⟩
  places := by
    obtain ⟨places, sorted, firsts, eq⟩ := keeps.places
    -- whatever stands before it is the same as something that is kept
    have first : ∀ y ∈ xs, ¬ same x y := by
      intro y hy found
      obtain ⟨z, hz, kept⟩ := keeps.complete y hy
      exact new z hz (trans _ _ _ found kept)
    refine ⟨places ++ [xs.length], ?_, fun i => ?_, ?_⟩
    · refine List.pairwise_append.2 ⟨sorted, List.pairwise_singleton _ _, ?_⟩
      rintro i hi j hj
      cases List.mem_singleton.1 hj
      exact ((firsts i).1 hi).lt
    · rw [List.mem_append, List.mem_singleton, firsts, firstAt_concat, and_iff_left first]
    · rw [List.map_append, List.map_append, map_places fun i hi => (firsts i).1 hi, eq]
      simp

end KeepsFirsts

/-! ## Erasing what is the same -/

variable (r : α → α → Bool)

theorem eraseDupsBy_loop_concat (xs kept : List α) (x : α) :
    List.eraseDupsBy.loop r (xs ++ [x]) kept =
      if (List.eraseDupsBy.loop r xs kept).any (r x) then List.eraseDupsBy.loop r xs kept
      else List.eraseDupsBy.loop r xs kept ++ [x] := by
  induction xs generalizing kept with
  | nil =>
    simp only [List.nil_append, List.eraseDupsBy.loop, List.any_reverse]
    cases kept.any (r x) <;> simp
  | cons head xs ih =>
    rw [List.cons_append, List.eraseDupsBy.loop, List.eraseDupsBy.loop]
    cases kept.any (r head) <;> exact ih _

/-- An element that is the same as nothing that is kept stands last. -/
theorem eraseDupsBy_concat (xs : List α) (x : α) :
    (xs ++ [x]).eraseDupsBy r =
      if (xs.eraseDupsBy r).any (r x) then xs.eraseDupsBy r else xs.eraseDupsBy r ++ [x] :=
  eraseDupsBy_loop_concat r xs [] x

/-- Of an equivalence, the first of each class is kept. -/
theorem keepsFirsts_eraseDupsBy (refl : ∀ x, r x x = true)
    (symm : ∀ x y, r x y = true → r y x = true)
    (trans : ∀ x y z, r x y = true → r y z = true → r x z = true) (xs : List α) :
    KeepsFirsts (r · · = true) xs (xs.eraseDupsBy r) := by
  induction xs using List.reverseRecOn with
  | nil => exact .nil
  | append_singleton xs x ih =>
    rw [eraseDupsBy_concat]
    split
    · rename_i found
      exact ih.concat_same (by simpa using found)
    · rename_i new
      exact ih.concat_new symm trans (refl x) (by simpa using new)

end ServiceModel

/-
Lists that are grouped by a key: the elements of each key stand next to each other, so that going
through the distinct keys and taking the elements of each gives the list back.
-/
import ServiceModel.Proofs.Lists.Distinct
import Mathlib.Data.List.Forall2

namespace ServiceModel

/-! ## Lists side by side -/

theorem forall₂_mem_left {α β : Type} {R : α → β → Prop} {xs : List α} {ys : List β}
    (h : List.Forall₂ R xs ys) {x : α} (hx : x ∈ xs) : ∃ y ∈ ys, R x y := by
  induction h with
  | nil => cases hx
  | cons hr _ ih =>
    rcases List.mem_cons.1 hx with rfl | hx
    · exact ⟨_, List.mem_cons_self, hr⟩
    · obtain ⟨y, hy, hxy⟩ := ih hx
      exact ⟨y, List.mem_cons_of_mem _ hy, hxy⟩

theorem forall₂_mem_right {α β : Type} {R : α → β → Prop} {xs : List α} {ys : List β}
    (h : List.Forall₂ R xs ys) {y : β} (hy : y ∈ ys) : ∃ x ∈ xs, R x y := by
  induction h with
  | nil => cases hy
  | cons hr _ ih =>
    rcases List.mem_cons.1 hy with rfl | hy
    · exact ⟨_, List.mem_cons_self, hr⟩
    · obtain ⟨x, hx, hxy⟩ := ih hy
      exact ⟨x, List.mem_cons_of_mem _ hx, hxy⟩

/-! ## Groups -/

variable {α κ : Type} [BEq κ] [LawfulBEq κ] {f : α → κ}

/-- The elements with a key. -/
def withKey (f : α → κ) (xs : List α) (k : κ) : List α := xs.filter (f · == k)

/-- The elements of each key stand next to each other. -/
def Grouped (f : α → κ) (xs : List α) : Prop :=
  (xs.map f).eraseDups.flatMap (withKey f xs) = xs

theorem withKey_self {ys : List α} {k : κ} (h : ∀ y ∈ ys, f y = k) : withKey f ys k = ys :=
  List.filter_eq_self.2 fun y hy => beq_iff_eq.2 (h y hy)

theorem withKey_eq_nil {ys : List α} {k : κ} (h : ∀ y ∈ ys, f y ≠ k) : withKey f ys k = [] :=
  List.filter_eq_nil_iff.2 fun y hy he => h y hy (beq_iff_eq.1 he)

theorem eraseDups_of_forall_eq {ks : List κ} {k : κ} (h : ∀ k' ∈ ks, k' = k) (hn : ks ≠ []) :
    ks.eraseDups = [k] := by
  cases ks with
  | nil => exact absurd rfl hn
  | cons k' ks =>
    have same : k' = k := h k' List.mem_cons_self
    subst same
    have others : ks.filter (fun k => !k == k') = [] := by
      refine List.filter_eq_nil_iff.2 fun k hk => ?_
      have := h k (List.mem_cons_of_mem _ hk)
      simp [this]
    rw [List.eraseDups_cons, others, List.eraseDups_nil]

/-- The elements of one more key may come first. -/
theorem grouped_append {ys zs : List α} {k : κ} (hy : ∀ y ∈ ys, f y = k)
    (hz : ∀ z ∈ zs, f z ≠ k) (h : Grouped f zs) : Grouped f (ys ++ zs) := by
  by_cases hn : ys = []
  · rw [hn]
    exact h
  · -- the first group brings one key, and none of the others has it
    have first : (ys.map f).eraseDups = [k] := by
      refine eraseDups_of_forall_eq (fun k' hk' => ?_) (fun he => hn (List.map_eq_nil_iff.1 he))
      obtain ⟨y, hm, rfl⟩ := List.mem_map.1 hk'
      exact hy y hm
    have others : (zs.map f).removeAll (ys.map f) = zs.map f := by
      refine List.filter_eq_self.2 fun k' hk' => ?_
      obtain ⟨z, hm, rfl⟩ := List.mem_map.1 hk'
      have fresh : f z ∉ ys.map f := by
        intro hf
        obtain ⟨y, hym, he⟩ := List.mem_map.1 hf
        exact hz z hm (he ▸ hy y hym)
      simpa using fresh
    -- so each key finds its elements in one part only
    have ofFirst : withKey f (ys ++ zs) k = ys := by
      rw [withKey, List.filter_append]
      change withKey f ys k ++ withKey f zs k = ys
      rw [withKey_self hy, withKey_eq_nil hz, List.append_nil]
    have ofOthers : ∀ k' ∈ (zs.map f).eraseDups, withKey f (ys ++ zs) k' = withKey f zs k' := by
      intro k' hk'
      obtain ⟨z, hm, rfl⟩ := List.mem_map.1 (List.mem_eraseDups.1 hk')
      have none : withKey f ys (f z) = [] :=
        withKey_eq_nil fun y hym he => hz z hm (he ▸ hy y hym)
      rw [withKey, List.filter_append]
      change withKey f ys (f z) ++ withKey f zs (f z) = _
      rw [none, List.nil_append]
    unfold Grouped
    rw [List.map_append, List.eraseDups_append, first, others, List.cons_append,
      List.nil_append, List.flatMap_cons, ofFirst]
    congr 1
    exact (List.flatMap_congr ofOthers).trans h

/-- Groups with distinct keys, one after another, are grouped. -/
theorem grouped_flatten {ks : List κ} {groups : List (List α)} (hk : ks.Nodup)
    (h : List.Forall₂ (fun k ys => ∀ y ∈ ys, f y = k) ks groups) : Grouped f groups.flatten := by
  induction h with
  | nil => rfl
  | @cons k ys ks groups hy hg ih =>
    obtain ⟨hk, hks⟩ := List.nodup_cons.1 hk
    refine grouped_append hy (fun z hz he => hk ?_) (ih hks)
    obtain ⟨zs, hzs, hz⟩ := List.mem_flatten.1 hz
    obtain ⟨k', hk', hall⟩ := forall₂_mem_right hg hzs
    exact he ▸ hall z hz ▸ hk'

end ServiceModel

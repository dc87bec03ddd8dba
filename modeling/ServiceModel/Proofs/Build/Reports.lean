/-
What a computation with a journal reports. `Reports P` says of a computation that its value and
the violations that it records satisfy `P` together, if it comes to a value at all. Violations
stand in the order in which they are recorded, so that those of a step come before those of the
steps after it.
-/
import ServiceModel.Conversion
import ServiceModel.Proofs.Build.Outcome
import ServiceModel.Proofs.Lists.Grouped

namespace ServiceModel

open Service

variable {α β : Type}

theorem violationsIn_append (first rest : List Entry) :
    violationsIn (first ++ rest) = violationsIn first ++ violationsIn rest := by
  simp [violationsIn]

namespace Build

/-- If the computation comes to a value, then the value and the violations satisfy `P`. -/
def Reports (P : α → List Violation → Prop) (build : Build α) : Prop :=
  ∀ a, build.outcome = .ok a → P a (violationsIn build.journal)

/-- The computation reports nothing. -/
abbrev Silent (build : Build α) : Prop := Reports (fun _ found => found = []) build

namespace Reports

variable {P Q : α → List Violation → Prop} {R : β → List Violation → Prop}

theorem imp {x : Build α} (h : Reports P x) (hi : ∀ a found, P a found → Q a found) :
    Reports Q x := by
  intro a ha
  exact hi a _ (h a ha)

theorem pure {a : α} (h : P a []) : Reports P (pure a) := by
  intro b hb
  cases pure_ok hb
  exact h

theorem fail {failure : Failure} : Reports P (fail failure) := by
  intro a ha
  cases ha

theorem lift {source : Except Failure α} (h : ∀ a, source = .ok a → P a []) :
    Reports P (liftM source) := by
  intro a ha
  exact h a ha

theorem bind {x : Build α} {f : α → Build β} (hx : Reports P x)
    (hf : ∀ a found, P a found → Reports (fun b rest => R b (found ++ rest)) (f a)) :
    Reports R (x >>= f) := by
  intro b hb
  obtain ⟨a, ha, hb, hj⟩ := bind_ok hb
  rw [hj, violationsIn_append]
  exact hf a _ (hx a ha) b hb

theorem lift_bind {source : Except Failure α} {f : α → Build β}
    (hf : ∀ a, source = .ok a → Reports R (f a)) :
    Reports R ((liftM source : Build α) >>= f) := by
  refine bind (P := fun a found => source = .ok a ∧ found = []) (lift fun a ha => ⟨ha, rfl⟩) ?_
  rintro a _ ⟨ha, rfl⟩
  exact hf a ha

/-- What a silent step comes to is not asked for. -/
theorem silent_bind {x : Build α} {f : α → Build β} (hx : Silent x)
    (hf : ∀ a, Reports R (f a)) : Reports R (x >>= f) := by
  refine bind hx ?_
  rintro a _ rfl
  exact hf a

theorem record_bind {v : Violation} {f : Unit → Build β}
    (hf : Reports (fun b rest => R b (v :: rest)) (f ())) :
    Reports R (record (.violation v) >>= f) := by
  refine bind (P := fun _ found => found = [v]) (fun _ _ => rfl) ?_
  rintro _ _ rfl
  exact hf

/-- What is reported at the members of a list is put together in their order. -/
theorem mapM {γ : Type} {f : α → Build γ} {member : α → List Violation → Prop} {xs : List α}
    (h : ∀ x ∈ xs, Reports (fun _ found => member x found) (f x)) :
    Reports (fun _ found => ∃ groups, List.Forall₂ member xs groups ∧ found = groups.flatten)
      (xs.mapM f) := by
  induction xs with
  | nil => exact pure ⟨[], .nil, rfl⟩
  | cons x xs ih =>
    rw [List.mapM_cons]
    refine bind (h x List.mem_cons_self) fun _ here hh => ?_
    refine bind (ih fun x' hx' => h x' (List.mem_cons_of_mem _ hx')) ?_
    rintro _ _ ⟨groups, hg, rfl⟩
    exact pure ⟨here :: groups, .cons hh hg, by simp⟩

end Reports

namespace Silent

theorem record {e : Entry} (h : e.violation? = none) : Silent (record e) := by
  intro _ _
  simp [violationsIn, Build.record, h]

theorem mapM {f : α → Build β} {xs : List α} (h : ∀ x ∈ xs, Silent (f x)) :
    Silent (xs.mapM f) := by
  refine (Reports.mapM h).imp ?_
  rintro _ _ ⟨groups, hg, rfl⟩
  refine List.flatten_eq_nil_iff.2 fun found hm => ?_
  obtain ⟨_, -, nothing⟩ := forall₂_mem_right hg hm
  exact nothing

end Silent

end Build

end ServiceModel

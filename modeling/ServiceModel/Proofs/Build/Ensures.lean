/-
What a computation with a journal ensures. `Ensures A P Q` says that every record satisfies `P`
and that the value satisfies `Q`, provided that every record satisfies `A`: what is recorded may
rely on what the whole journal promises, for instance that a name is defined in the end. It is
proved step by step, along the binds of the computation; a failure keeps it.
-/
import ServiceModel.Proofs.Build.Outcome

namespace ServiceModel.Build

variable {α β : Type}

/-! ## Ensuring -/

/-- Every record satisfies `P` and the value satisfies `Q`, provided that every record satisfies
`A`. -/
def Ensures (A P : Entry → Prop) (Q : α → Prop) (build : Build α) : Prop :=
  (∀ e ∈ build.journal, A e) →
    (∀ e ∈ build.journal, P e) ∧ ∀ a, build.outcome = .ok a → Q a

namespace Ensures

variable {A P : Entry → Prop} {Q : α → Prop} {R : β → Prop}

theorem pure {a : α} (h : Q a) : Ensures A P Q (pure a) := by
  intro _
  refine ⟨fun e he => ?_, fun b hb => ?_⟩
  · cases he
  · cases pure_ok hb; exact h

theorem fail {failure : Failure} : Ensures A P Q (fail failure) := by
  intro _
  exact ⟨fun e he => (by cases he), fun a ha => (by cases ha)⟩

theorem lift {source : Except Failure α} (h : ∀ a, source = .ok a → Q a) :
    Ensures A P Q (liftM source) := by
  intro _
  exact ⟨fun e he => (by cases he), fun a ha => h a ha⟩

theorem imp {R : α → Prop} {build : Build α} (h : Ensures A P Q build) (hq : ∀ a, Q a → R a) :
    Ensures A P R build :=
  fun hA => ⟨(h hA).1, fun a ha => hq a ((h hA).2 a ha)⟩

/-- What is recorded may be relied on from then on. -/
theorem record {e : Entry} (h : A e → P e) : Ensures A P (fun _ => A e) (record e) := by
  intro hA
  have he : A e := hA e (List.mem_singleton.2 rfl)
  refine ⟨fun e' he' => ?_, fun _ _ => he⟩
  cases List.mem_singleton.1 he'
  exact h he

theorem bind {x : Build α} {f : α → Build β} (hx : Ensures A P Q x)
    (hf : ∀ a, x.outcome = .ok a → Q a → Ensures A P R (f a)) : Ensures A P R (x >>= f) := by
  intro hA
  rw [bind_eq] at hA ⊢
  cases ho : x.outcome with
  | error e =>
    rw [ho] at hA
    exact ⟨(hx hA).1, fun b hb => by cases hb⟩
  | ok a =>
    rw [ho] at hA
    obtain ⟨hj, hq⟩ := hx fun e he => hA e (List.mem_append_left _ he)
    obtain ⟨hj', hr⟩ := hf a ho (hq a ho) fun e he => hA e (List.mem_append_right _ he)
    refine ⟨fun e he => ?_, hr⟩
    rcases List.mem_append.1 he with he | he
    · exact hj e he
    · exact hj' e he

theorem lift_bind {source : Except Failure α} {f : α → Build β}
    (hf : ∀ a, source = .ok a → Ensures A P R (f a)) :
    Ensures A P R ((liftM source : Build α) >>= f) :=
  bind (Q := fun a => source = .ok a) (lift fun _ h => h) fun a _ ha => hf a ha

theorem mapM {f : α → Build β} :
    ∀ {xs : List α}, (∀ x ∈ xs, Ensures A P R (f x)) →
      Ensures A P (fun ys => ∀ y ∈ ys, R y) (xs.mapM f)
  | [], _ => by
    rw [List.mapM_nil]
    exact pure fun y hy => by cases hy
  | x :: xs, h => by
    rw [List.mapM_cons]
    refine bind (h x List.mem_cons_self) fun y _ hy => ?_
    refine bind (mapM fun x' hx' => h x' (List.mem_cons_of_mem _ hx')) fun ys _ hys => ?_
    refine pure fun y' hy' => ?_
    rcases List.mem_cons.1 hy' with rfl | hy'
    · exact hy
    · exact hys y' hy'

end Ensures

end ServiceModel.Build

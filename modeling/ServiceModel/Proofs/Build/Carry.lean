/-
One computation in place of another. What the first one comes to, the second one comes to as well,
up to a relation between the values, and it records the same on the way. Nothing is said of what
the second one does where the first one fails.
-/
import ServiceModel.Proofs.Build.Outcome

namespace ServiceModel.Build

variable {α α' β β' : Type}

/-- If the first computation comes to a value, the second one comes to a value that is related to
it by `Q`, with the same journal. -/
def Carries (Q : α → α' → Prop) (x : Build α) (x' : Build α') : Prop :=
  ∀ a, x.outcome = .ok a → ∃ a', x'.outcome = .ok a' ∧ Q a a' ∧ x.journal = x'.journal

namespace Carries

variable {Q : α → α' → Prop} {R : β → β' → Prop} {x : Build α} {x' : Build α'}

theorem pure {a : α} {a' : α'} (h : Q a a') : Carries Q (pure a) (pure a') := by
  intro b hb
  cases pure_ok hb
  exact ⟨a', rfl, h, rfl⟩

theorem of_map {f : α → α'} (h : ∀ a, x.outcome = .ok a → Q a (f a)) : Carries Q x (f <$> x) := by
  intro a ha
  have mapped : f <$> x = ⟨x.journal, .ok (f a)⟩ := by
    rw [map_eq_pure_bind, bind_eq, ha]
    simp only [pure_eq, List.append_nil]
  rw [mapped]
  exact ⟨f a, rfl, h a ha, rfl⟩

theorem imp {R : α → α' → Prop} (hx : Carries Q x x') (h : ∀ a a', Q a a' → R a a') :
    Carries R x x' := by
  intro a ha
  obtain ⟨a', ha', hq, hj⟩ := hx a ha
  exact ⟨a', ha', h a a' hq, hj⟩

theorem bind {f : α → Build β} {f' : α' → Build β'} (hx : Carries Q x x')
    (hf : ∀ a a', x.outcome = .ok a → Q a a' → Carries R (f a) (f' a')) :
    Carries R (x >>= f) (x' >>= f') := by
  intro b hb
  obtain ⟨a, ha, hb, hj⟩ := bind_ok hb
  obtain ⟨a', ha', hq, same⟩ := hx a ha
  obtain ⟨b', hb', hr, rest⟩ := hf a a' ha hq b hb
  rw [hj, bind_eq, ha']
  exact ⟨b', hb', hr, by rw [same, rest]⟩

theorem lift_bind {source : Except Failure α} {source' : Except Failure α'} {f : α → Build β}
    {f' : α' → Build β'} (h : ∀ a, source = .ok a → ∃ a', source' = .ok a' ∧ Q a a')
    (hf : ∀ a a', source = .ok a → Q a a' → Carries R (f a) (f' a')) :
    Carries R ((liftM source : Build α) >>= f) ((liftM source' : Build α') >>= f') := by
  refine bind (Q := Q) (fun a ha => ?_) hf
  obtain ⟨a', ha', hq⟩ := h a ha
  exact ⟨a', ha', hq, rfl⟩

theorem mapM {f : α → Build β} {f' : α' → Build β'} {xs : List α} {xs' : List α'}
    (h : List.Forall₂ (fun a a' => Carries R (f a) (f' a')) xs xs') :
    Carries (List.Forall₂ R) (xs.mapM f) (xs'.mapM f') := by
  induction h with
  | nil => exact .pure .nil
  | cons hx _ ih =>
    rw [List.mapM_cons, List.mapM_cons]
    refine bind hx fun b b' _ hb => ?_
    exact bind ih fun bs bs' _ hbs => .pure (.cons hb hbs)

theorem refl {x : Build α} : Carries Eq x x := fun a ha => ⟨a, ha, rfl, rfl⟩

/-- A computation is carried together with its records. -/
theorem listen (h : Carries Q x x') :
    Carries (fun r r' => Q r.1 r'.1 ∧ r.2 = r'.2) (listen x) (listen x') := by
  rintro ⟨a, journal⟩ hr
  obtain ⟨ha, rfl⟩ := listen_ok hr
  obtain ⟨a', ha', hq, hj⟩ := h a ha
  exact ⟨_, outcome_listen ha', ⟨hq, hj⟩, hj⟩

end Carries

end ServiceModel.Build

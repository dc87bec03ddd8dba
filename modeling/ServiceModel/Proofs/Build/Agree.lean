/-
Two computations side by side. They agree if both come to values, which are then related, or both
fail, each in a way that is allowed. `Agree` says so of what is read from a document, `Build.Agree`
of what is built with a journal; where both come to values, the journals are alike as well.
Agreement is proved step by step, along the binds of the two computations.
-/
import ServiceModel.Proofs.Build.Outcome
import ServiceModel.Proofs.Service.Alike

namespace ServiceModel

variable {α α' β β' : Type} {F : Failure → Prop}

/-! ## Readings -/

/-- Both readings come to values that are related by `Q`, or both fail as `F` allows. -/
inductive Agree (F : Failure → Prop) (Q : α → α' → Prop) :
    Except Failure α → Except Failure α' → Prop
  | ok {a : α} {a' : α'} : Q a a' → Agree F Q (.ok a) (.ok a')
  | error {e e' : Failure} : F e → F e' → Agree F Q (.error e) (.error e')

namespace Agree

variable {Q : α → α' → Prop} {R : β → β' → Prop} {x : Except Failure α} {x' : Except Failure α'}

theorem bind {f : α → Except Failure β} {f' : α' → Except Failure β'} (hx : Agree F Q x x')
    (hf : ∀ a a', x = .ok a → x' = .ok a' → Q a a' → Agree F R (f a) (f' a')) :
    Agree F R (x >>= f) (x' >>= f') := by
  cases hx with
  | ok h => exact hf _ _ rfl rfl h
  | error h h' => exact .error h h'

theorem imp {R : α → α' → Prop} (hx : Agree F Q x x')
    (h : ∀ a a', x = .ok a → x' = .ok a' → Q a a' → R a a') : Agree F R x x' := by
  cases hx with
  | ok hq => exact .ok (h _ _ rfl rfl hq)
  | error he he' => exact .error he he'

theorem of_ok {a : α} (hx : Agree F Q x x') (h : x = .ok a) : ∃ a', x' = .ok a' ∧ Q a a' := by
  subst h
  cases hx with
  | ok hq => exact ⟨_, rfl, hq⟩

theorem of_error {e : Failure} (hx : Agree F Q x x') (h : x = .error e) :
    ∃ e', x' = .error e' ∧ F e ∧ F e' := by
  subst h
  cases hx with
  | error he he' => exact ⟨_, rfl, he, he'⟩

/-- What is made of what is read, without reading more. -/
theorem map {f : α → β} {f' : α' → β'} (hx : Agree F Q x x')
    (hf : ∀ a a', Q a a' → R (f a) (f' a')) :
    Agree F R (do return f (← x)) (do return f' (← x')) :=
  hx.bind fun a a' _ _ h => .ok (hf a a' h)

theorem mapM {f : α → Except Failure β} {f' : α' → Except Failure β'} {xs : List α}
    {xs' : List α'} (h : List.Forall₂ (fun a a' => Agree F R (f a) (f' a')) xs xs') :
    Agree F (List.Forall₂ R) (xs.mapM f) (xs'.mapM f') := by
  induction h with
  | nil => exact .ok .nil
  | cons hx _ ih =>
    rw [List.mapM_cons, List.mapM_cons]
    refine hx.bind fun b b' _ _ hb => ?_
    exact ih.bind fun bs bs' _ _ hbs => .ok (.cons hb hbs)

end Agree

/-! ## Computations with a journal -/

namespace Build

/-- Both computations come to values that are related by `Q`, with journals that are alike, or
both fail as `F` allows. -/
inductive Agree (S : String → String → Prop) (F : Failure → Prop) (Q : α → α' → Prop) :
    Build α → Build α' → Prop
  | value {journal journal' : List Entry} {a : α} {a' : α'} :
      List.Forall₂ (Entry.Alike S) journal journal' → Q a a' →
      Agree S F Q ⟨journal, .ok a⟩ ⟨journal', .ok a'⟩
  | failure {journal journal' : List Entry} {e e' : Failure} :
      F e → F e' → Agree S F Q ⟨journal, .error e⟩ ⟨journal', .error e'⟩

namespace Agree

variable {S : String → String → Prop} {Q : α → α' → Prop} {R : β → β' → Prop} {x : Build α}
  {x' : Build α'}

theorem pure {a : α} {a' : α'} (h : Q a a') : Agree S F Q (pure a) (pure a') := .value .nil h

theorem fail {e e' : Failure} (h : F e) (h' : F e') :
    Agree S F Q (fail e : Build α) (fail e' : Build α') := .failure h h'

theorem of_failures (h : ∃ e, x.outcome = .error e ∧ F e) (h' : ∃ e, x'.outcome = .error e ∧ F e) :
    Agree S F Q x x' := by
  obtain ⟨e, ho, hf⟩ := h
  obtain ⟨e', ho', hf'⟩ := h'
  cases x
  cases x'
  cases ho
  cases ho'
  exact .failure hf hf'

theorem imp {R : α → α' → Prop} (hx : Agree S F Q x x') (h : ∀ a a', Q a a' → R a a') :
    Agree S F R x x' := by
  cases hx with
  | value hj hq => exact .value hj (h _ _ hq)
  | failure he he' => exact .failure he he'

theorem of_ok {a : α} (hx : Agree S F Q x x') (h : x.outcome = .ok a) :
    ∃ a', x'.outcome = .ok a' ∧ Q a a' ∧ List.Forall₂ (Entry.Alike S) x.journal x'.journal := by
  cases hx with
  | value hj hq =>
    cases h
    exact ⟨_, rfl, hq, hj⟩
  | failure _ _ => cases h

theorem of_error {e : Failure} (hx : Agree S F Q x x') (h : x.outcome = .error e) :
    F e ∧ ∃ e', x'.outcome = .error e' ∧ F e' := by
  cases hx with
  | value _ _ => cases h
  | failure he he' =>
    cases h
    exact ⟨he, _, rfl, he'⟩

theorem record {e e' : Entry} (h : e.Alike S e') :
    Agree S F (fun _ _ => True) (record e) (record e') := .value (.cons h .nil) trivial

theorem lift {source : Except Failure α} {source' : Except Failure α'}
    (h : ServiceModel.Agree F Q source source') :
    Agree S F Q (liftM source : Build α) (liftM source' : Build α') := by
  cases h with
  | ok h => exact .value .nil h
  | error h h' => exact .failure h h'

theorem bind {f : α → Build β} {f' : α' → Build β'} (hx : Agree S F Q x x')
    (hf : ∀ a a', Q a a' → Agree S F R (f a) (f' a')) :
    Agree S F R (x >>= f) (x' >>= f') := by
  cases hx with
  | failure h h' => exact .failure h h'
  | @value journal journal' a a' hj hq =>
    have rest := hf a a' hq
    rw [bind_eq, bind_eq]
    revert rest
    dsimp only
    generalize f a = y
    generalize f' a' = y'
    intro rest
    cases rest with
    | failure h h' => exact .failure h h'
    | value hj' hr => exact .value (List.rel_append hj hj') hr

theorem lift_bind {source : Except Failure α} {source' : Except Failure α'} {f : α → Build β}
    {f' : α' → Build β'} (h : ServiceModel.Agree F Q source source')
    (hf : ∀ a a', source = .ok a → source' = .ok a' → Q a a' → Agree S F R (f a) (f' a')) :
    Agree S F R ((liftM source : Build α) >>= f) ((liftM source' : Build α') >>= f') := by
  refine bind (Q := fun a a' => source = .ok a ∧ source' = .ok a' ∧ Q a a') (lift ?_) ?_
  · exact h.imp fun a a' ha ha' hq => ⟨ha, ha', hq⟩
  · rintro a a' ⟨ha, ha', hq⟩
    exact hf a a' ha ha' hq

theorem mapM {f : α → Build β} {f' : α' → Build β'} {xs : List α} {xs' : List α'}
    (h : List.Forall₂ (fun a a' => Agree S F R (f a) (f' a')) xs xs') :
    Agree S F (List.Forall₂ R) (xs.mapM f) (xs'.mapM f') := by
  induction h with
  | nil => exact .pure .nil
  | cons hx _ ih =>
    rw [List.mapM_cons, List.mapM_cons]
    refine bind hx fun b b' hb => ?_
    exact bind ih fun bs bs' hbs => .pure (.cons hb hbs)

/-- Computations that agree do so with their records as a part of their values. -/
theorem listen (h : Agree S F Q x x') :
    Agree S F (fun r r' => Q r.1 r'.1 ∧ List.Forall₂ (Entry.Alike S) r.2 r'.2) (listen x)
      (listen x') := by
  cases h with
  | failure h h' => exact .failure h h'
  | value hj hq => exact .value hj ⟨hq, hj⟩

end Agree

end Build

end ServiceModel

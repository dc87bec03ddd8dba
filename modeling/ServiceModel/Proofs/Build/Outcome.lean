/-
The outcomes of computations, step by step: a computation that comes to a value has come to one
at each of its steps, and one that goes through a list has come to one at each member. First for
what is read from a document, then for what is built with a journal.
-/
import ServiceModel.Build
import Mathlib.Data.List.Forall2

namespace ServiceModel

variable {α β : Type}

/-! ## Readings -/

theorem read_bind_ok {ε : Type} {x : Except ε α} {f : α → Except ε β} {b : β}
    (h : (x >>= f) = .ok b) : ∃ a, x = .ok a ∧ f a = .ok b := by
  cases x with
  | error e => cases h
  | ok a => exact ⟨a, rfl, h⟩

/-- A reading goes on with what was read. -/
theorem read_bind_of_ok {ε : Type} {x : Except ε α} {a : α} (h : x = .ok a)
    (f : α → Except ε β) : (x >>= f) = f a := by
  rw [h]; rfl

/-- A reading of which something is known has come to a value. -/
theorem read_map_ok {ε : Type} {x : Except ε α} {f : α → β} {b : β}
    (h : x.toOption.map f = some b) : ∃ a, x = .ok a ∧ f a = b := by
  cases x with
  | error e => cases h
  | ok a => exact ⟨a, rfl, Option.some.inj h⟩

theorem read_bind_congr {ε : Type} {x : Except ε α} {f g : α → Except ε β}
    (h : ∀ a, x = .ok a → f a = g a) : (x >>= f) = (x >>= g) := by
  cases x with
  | error e => rfl
  | ok a => exact h a rfl

theorem read_mapM_forall₂ {ε : Type} {f : α → Except ε β} :
    ∀ {xs : List α} {ys : List β}, xs.mapM f = .ok ys → List.Forall₂ (fun x y => f x = .ok y) xs ys
  | [], ys, h => by
    rw [List.mapM_nil] at h
    cases h; exact .nil
  | x :: xs, ys, h => by
    rw [List.mapM_cons] at h
    obtain ⟨y, hy, h⟩ := read_bind_ok h
    obtain ⟨ys', hys, h⟩ := read_bind_ok h
    cases h
    exact .cons hy (read_mapM_forall₂ hys)

namespace Build

/-! ## Computations with a journal -/

theorem liftM_eq (source : Except Failure α) : (liftM source : Build α) = lift source := rfl

theorem bind_ok {x : Build α} {f : α → Build β} {b : β} (h : (x >>= f).outcome = .ok b) :
    ∃ a, x.outcome = .ok a ∧ (f a).outcome = .ok b ∧
      (x >>= f).journal = x.journal ++ (f a).journal := by
  rw [bind_eq] at h ⊢
  cases hx : x.outcome with
  | error e => rw [hx] at h; cases h
  | ok a => rw [hx] at h; exact ⟨a, rfl, h, rfl⟩

theorem outcome_bind {x : Build α} {f : α → Build β} {a : α} (h : x.outcome = .ok a) :
    (x >>= f).outcome = (f a).outcome := by
  rw [bind_eq, h]

/-- A computation goes on with what was read. -/
theorem read_ok_bind (a : α) (f : α → Build β) :
    ((liftM (.ok a : Except Failure α) : Build α) >>= f) = f a := rfl

theorem lift_bind_ok {source : Except Failure α} {f : α → Build β} {b : β}
    (h : ((liftM source : Build α) >>= f).outcome = .ok b) :
    ∃ a, source = .ok a ∧ (f a).outcome = .ok b := by
  obtain ⟨a, ha, hb, -⟩ := bind_ok h
  exact ⟨a, ha, hb⟩

theorem bind_congr {x : Build α} {f g : α → Build β} (h : ∀ a, x.outcome = .ok a → f a = g a) :
    (x >>= f) = (x >>= g) := by
  rw [bind_eq, bind_eq]
  cases hx : x.outcome with
  | error e => rfl
  | ok a => simp only [h a hx]

theorem lift_bind_congr {source : Except Failure α} {f g : α → Build β}
    (h : ∀ a, source = .ok a → f a = g a) :
    ((liftM source : Build α) >>= f) = ((liftM source : Build α) >>= g) := by
  cases source with
  | error e => rfl
  | ok a => rw [bind_eq, bind_eq, liftM_eq]; simp only [lift, h a rfl]

theorem mapM_congr {f g : α → Build β} :
    ∀ {xs : List α}, (∀ x ∈ xs, f x = g x) → xs.mapM f = xs.mapM g
  | [], _ => rfl
  | x :: xs, h => by
    rw [List.mapM_cons, List.mapM_cons, h x List.mem_cons_self,
      mapM_congr fun x' hx' => h x' (List.mem_cons_of_mem _ hx')]

theorem pure_ok {a b : α} (h : (pure a : Build α).outcome = .ok b) : a = b := by
  cases h; rfl

theorem mapM_forall₂ {f : α → Build β} :
    ∀ {xs : List α} {ys : List β}, (xs.mapM f).outcome = .ok ys →
      List.Forall₂ (fun x y => (f x).outcome = .ok y) xs ys
  | [], ys, h => by
    rw [List.mapM_nil] at h
    cases pure_ok h; exact .nil
  | x :: xs, ys, h => by
    rw [List.mapM_cons] at h
    obtain ⟨y, hy, h, -⟩ := bind_ok h
    obtain ⟨ys', hys, h, -⟩ := bind_ok h
    cases pure_ok h
    exact .cons hy (mapM_forall₂ hys)

/-- What is listened to comes with its records. -/
theorem listen_ok {x : Build α} {a : α} {journal : List Entry}
    (h : (listen x).outcome = .ok (a, journal)) : x.outcome = .ok a ∧ journal = x.journal := by
  unfold listen at h
  cases hx : x.outcome with
  | error e => rw [hx] at h; cases h
  | ok b => rw [hx] at h; cases h; exact ⟨rfl, rfl⟩

theorem outcome_listen {x : Build α} {a : α} (h : x.outcome = .ok a) :
    (listen x).outcome = .ok (a, x.journal) := by
  rw [listen, h]
  rfl

end Build

end ServiceModel

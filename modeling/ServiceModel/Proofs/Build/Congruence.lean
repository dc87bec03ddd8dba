/-
Relations between computations that hold of equal ones and are kept along binds. Two computations
that only differ in some of their parts are related by each of them as soon as those parts are;
what is read, recorded and gone through between the parts need not be looked at again.
-/
import ServiceModel.Proofs.Build.Outcome

namespace ServiceModel.Build

variable {α β : Type}

/-- The relation holds of equal computations, and of computations that go on in related ways with a
value of related ones. -/
structure Congruence (R : ∀ {α : Type}, Build α → Build α → Prop) : Prop where
  refl : ∀ {α : Type} (x : Build α), R x x
  bind : ∀ {α β : Type} {x y : Build α} {f g : α → Build β}, R x y →
    (∀ a, x.outcome = .ok a → R (f a) (g a)) → R (x >>= f) (y >>= g)

namespace Congruence

variable {R : ∀ {α : Type}, Build α → Build α → Prop} (c : Congruence R)

include c

/-- What is read first is the same for both. -/
theorem lift_bind {source : Except Failure α} {f g : α → Build β}
    (hf : ∀ a, source = .ok a → R (f a) (g a)) :
    R ((liftM source : Build α) >>= f) ((liftM source : Build α) >>= g) :=
  c.bind (c.refl _) hf

theorem mapM {f g : α → Build β} :
    ∀ {xs : List α}, (∀ x ∈ xs, R (f x) (g x)) → R (xs.mapM f) (xs.mapM g)
  | [], _ => c.refl _
  | x :: xs, h => by
    rw [List.mapM_cons, List.mapM_cons]
    refine c.bind (h x List.mem_cons_self) fun y _ => ?_
    refine c.bind (mapM fun x' hx' => h x' (List.mem_cons_of_mem _ hx')) fun ys _ => ?_
    exact c.refl _

end Congruence

theorem eq_congruence : Congruence Eq where
  refl _ := rfl
  bind hx hf := hx ▸ bind_congr fun a ha => hf a (hx ▸ ha)

/-! ## Computations that are covered -/

/-- If the first computation comes to a value, the second one does the same. -/
def Covered (x y : Build α) : Prop := ∀ a, x.outcome = .ok a → y = x

theorem Covered.congruence : Congruence Covered where
  refl _ _ _ := rfl
  bind hx hf := by
    intro b hb
    obtain ⟨a, ha, hb, -⟩ := bind_ok hb
    rw [hx a ha]
    refine bind_congr fun a' ha' => ?_
    cases ha.symm.trans ha'
    exact hf a ha b hb

end ServiceModel.Build

/-
Computations under two limits. `Extends x y` says that `y` does what `x` does, records included,
unless `x` fails because it is nested too deep. It is kept along binds, and it starts where a
guard is entered: with the same keys held and a limit that is no smaller, entering differs only
where the smaller limit is exceeded.
-/
import ServiceModel.Guards
import ServiceModel.Proofs.Build.Congruence

namespace ServiceModel

namespace Build

variable {α β : Type}

/-- The computation fails because the limit is exceeded. -/
def TooDeep (x : Build α) : Prop :=
  ∃ limit key, x.outcome = .error (.cycle (.tooDeep limit key))

theorem TooDeep.bind {x : Build α} (h : x.TooDeep) (f : α → Build β) : (x >>= f).TooDeep := by
  obtain ⟨limit, key, h⟩ := h
  refine ⟨limit, key, ?_⟩
  rw [bind_eq, h]

/-- The second computation does the same, unless the first one is nested too deep. -/
def Extends (x y : Build α) : Prop := x.TooDeep ∨ y = x

namespace Extends

theorem refl (x : Build α) : Extends x x := .inr rfl

theorem bind {x y : Build α} {f g : α → Build β} (hx : Extends x y)
    (hf : ∀ a, x.outcome = .ok a → Extends (f a) (g a)) : Extends (x >>= f) (y >>= g) := by
  rcases hx with deep | rfl
  · exact .inl (deep.bind f)
  · cases ho : y.outcome with
    | error e =>
      refine .inr ?_
      rw [bind_eq, bind_eq, ho]
    | ok a =>
      rcases hf a ho with ⟨limit, key, deep⟩ | same
      · refine .inl ⟨limit, key, ?_⟩
        rw [bind_eq, ho]
        exact deep
      · refine .inr ?_
        rw [bind_eq, bind_eq, ho]
        simp only [same]

theorem congruence : Congruence Extends where
  refl := refl
  bind := bind

/-- What is read first is the same for both. -/
theorem lift_bind {source : Except Failure α} {f g : α → Build β}
    (hf : ∀ a, source = .ok a → Extends (f a) (g a)) :
    Extends ((liftM source : Build α) >>= f) ((liftM source : Build α) >>= g) :=
  congruence.lift_bind hf

theorem mapM {f g : α → Build β} {xs : List α} (h : ∀ x ∈ xs, Extends (f x) (g x)) :
    Extends (xs.mapM f) (xs.mapM g) :=
  congruence.mapM h

theorem listen {x y : Build α} (h : Extends x y) : Extends (listen x) (listen y) := by
  rcases h with ⟨limit, key, deep⟩ | rfl
  · refine .inl ⟨limit, key, ?_⟩
    show Except.map _ x.outcome = _
    rw [deep]
    rfl
  · exact refl _

end Extends

end Build

namespace Guards

/-- The same held keys under another limit. -/
def under (limit : Int) (g : Guards) : Guards := ⟨limit, g.held⟩

theorem enter_limit {g inner : Guards} {key : String} (h : g.enter key = .ok inner) :
    inner.limit = g.limit := by
  rw [(enter_ok h).1]

/-- Entering under a limit that is no smaller, before computations that go on with what is held
then. -/
theorem enter_bind_extends {α : Type} {g : Guards} {limit : Int} (h : g.limit ≤ limit)
    {key : String} {f f' : Guards → Build α}
    (hf : ∀ inner, g.enter key = .ok inner → (f inner).Extends (f' (inner.under limit))) :
    Build.Extends ((liftM (g.enter key) : Build Guards) >>= f)
      ((liftM ((g.under limit).enter key) : Build Guards) >>= f') := by
  by_cases hk : g.held.contains key = true
  · -- the key is held: both fail with the same chain
    refine .inr ?_
    have he : g.enter key = .error (.cycle (.chain (g.held ++ [key]))) := by
      rw [enter, if_pos hk]
    have he' : (g.under limit).enter key = .error (.cycle (.chain (g.held ++ [key]))) := by
      rw [enter, under, if_pos hk]
    rw [he, he']
    rfl
  · by_cases hl : g.limit ≤ g.held.length
    · -- only the smaller limit need be exceeded
      have he : g.enter key = .error (.cycle (.tooDeep g.limit key)) := by
        rw [enter, if_neg hk, if_pos hl]
      rw [he]
      exact .inl ⟨g.limit, key, rfl⟩
    · have he : g.enter key = .ok ⟨g.limit, g.held ++ [key]⟩ := by
        rw [enter, if_neg hk, if_neg hl]
      have he' : (g.under limit).enter key = .ok ⟨limit, g.held ++ [key]⟩ := by
        rw [enter, under, if_neg hk, if_neg (by simp only; omega)]
      have hrest := hf _ he
      rw [he, he']
      exact hrest

end Guards

end ServiceModel

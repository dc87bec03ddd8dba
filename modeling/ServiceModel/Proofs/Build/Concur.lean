/-
Two computations that concur: as far as both of them come to values, the values are related, and
so are the journals, entry by entry. Nothing is said where one of them fails. This is what is left
of agreement where the two may run out of guards at different points.
-/
import ServiceModel.Proofs.Build.Agree

namespace ServiceModel.Build

variable {α α' β β' : Type}

/-- If both computations come to values, these are related by `Q`, and their journals by `E`. -/
def Concur (E : Entry → Entry → Prop) (Q : α → α' → Prop) (x : Build α) (x' : Build α') : Prop :=
  ∀ a a', x.outcome = .ok a → x'.outcome = .ok a' → Q a a' ∧ List.Forall₂ E x.journal x'.journal

namespace Concur

variable {E : Entry → Entry → Prop} {Q : α → α' → Prop} {R : β → β' → Prop} {x : Build α}
  {x' : Build α'}

theorem pure {a : α} {a' : α'} (h : Q a a') : Concur E Q (pure a) (pure a') := by
  intro b b' hb hb'
  cases pure_ok hb
  cases pure_ok hb'
  exact ⟨h, .nil⟩

theorem fail {e : Failure} : Concur E Q (fail e) x' := by
  intro a a' ha
  cases ha

theorem record {e e' : Entry} (h : E e e') : Concur E (fun _ _ => True) (record e) (record e') :=
  fun _ _ _ _ => ⟨trivial, .cons h .nil⟩

theorem bind {f : α → Build β} {f' : α' → Build β'} (hx : Concur E Q x x')
    (hf : ∀ a a', Q a a' → Concur E R (f a) (f' a')) : Concur E R (x >>= f) (x' >>= f') := by
  intro b b' hb hb'
  obtain ⟨a, ha, hb, hj⟩ := bind_ok hb
  obtain ⟨a', ha', hb', hj'⟩ := bind_ok hb'
  obtain ⟨hq, before⟩ := hx a a' ha ha'
  obtain ⟨hr, after⟩ := hf a a' hq b b' hb hb'
  rw [hj, hj']
  exact ⟨hr, List.rel_append before after⟩

theorem lift_bind {source : Except Failure α} {source' : Except Failure α'} {f : α → Build β}
    {f' : α' → Build β'}
    (hf : ∀ a a', source = .ok a → source' = .ok a' → Concur E R (f a) (f' a')) :
    Concur E R ((liftM source : Build α) >>= f) ((liftM source' : Build α') >>= f') :=
  bind (Q := fun a a' => source = .ok a ∧ source' = .ok a') (fun _ _ ha ha' => ⟨⟨ha, ha'⟩, .nil⟩)
    fun a a' h => hf a a' h.1 h.2

/-- Both computations go on with readings that agree. -/
theorem agree_bind {F : Failure → Prop} {source : Except Failure α} {source' : Except Failure α'}
    {f : α → Build β} {f' : α' → Build β'} (h : ServiceModel.Agree F Q source source')
    (hf : ∀ a a', source = .ok a → source' = .ok a' → Q a a' → Concur E R (f a) (f' a')) :
    Concur E R ((liftM source : Build α) >>= f) ((liftM source' : Build α') >>= f') := by
  refine lift_bind fun a a' ha ha' => ?_
  obtain ⟨b, hb, hq⟩ := h.of_ok ha
  cases ha'.symm.trans hb
  exact hf a a' ha ha' hq

end Concur

end ServiceModel.Build

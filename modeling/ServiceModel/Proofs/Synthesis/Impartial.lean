/-
Guards decide whether a call is answered, never how. Two runs of one call that differ in the guards
that are held give one answer and record the same, as far as both of them come to an answer. And
where one run comes to an answer, so does every run that holds fewer guards under the same limit.
-/
import ServiceModel.Proofs.Build.Concur
import ServiceModel.Proofs.Synthesis.Congruence

namespace ServiceModel

/-! ## Any two runs -/

namespace Call

/-- Two runs of one computation, as far as both of them come to a value. -/
abbrev Same {α : Type} : Build α → Build α → Prop := Build.Concur Eq Eq

theorem same_congruence : Build.Congruence Same where
  refl x a a' ha ha' := by
    cases ha.symm.trans ha'
    exact ⟨rfl, List.forall₂_same.2 fun _ _ => rfl⟩
  bind hx hf := by
    intro b b' hb hb'
    obtain ⟨a, ha, hb, hj⟩ := Build.bind_ok hb
    obtain ⟨a', ha', hb', hj'⟩ := Build.bind_ok hb'
    obtain ⟨rfl, before⟩ := hx a a' ha ha'
    obtain ⟨same, after⟩ := hf a ha b b' hb hb'
    rw [hj, hj']
    exact ⟨same, List.rel_append before after⟩

/-- Each run goes on under guards of its own. -/
theorem same_enters : Guards.Enters Same fun _ _ => True :=
  fun _ hf => .lift_bind fun inner inner' hi _ => hf inner inner' hi trivial

/-- Under all guards that allow for an answer it is the same one. -/
theorem run_same {root : Node} (call : Call) (g : Guards) :
    Same (call.run root) (call.runWith root g) :=
  run_related same_congruence same_enters call trivial

end Call

/-! ## Fewer guards -/

namespace Guards

/-- The second guards hold some of the keys of the first, under the same limit. -/
structure Looser (g g' : Guards) : Prop where
  limit : g'.limit = g.limit
  held : g'.held.Sublist g.held

/-- What was entered can be left out. -/
theorem looser_of_enter {g inner : Guards} {key : String} (h : g.enter key = .ok inner) :
    inner.Looser g := by
  obtain ⟨rfl, -, -⟩ := enter_ok h
  exact ⟨rfl, List.sublist_append_left _ _⟩

/-- A key that can be entered can be entered when fewer are held. -/
theorem Looser.enter {g g' inner : Guards} {key : String} (h : g.Looser g')
    (hi : g.enter key = .ok inner) : ∃ inner', g'.enter key = .ok inner' ∧ inner.Looser inner' := by
  obtain ⟨rfl, free, room⟩ := enter_ok hi
  have few := h.held.length_le
  have free' : ¬ g'.held.contains key = true :=
    fun hk => free (h.held.subset (List.contains_iff_mem.1 hk))
  refine ⟨⟨g'.limit, g'.held ++ [key]⟩, ?_, h.limit, h.held.append_right [key]⟩
  rw [Guards.enter, if_neg free', if_neg (by rw [h.limit]; omega)]

theorem looser_enters : Enters Build.Covered Looser := by
  intro α g g' key f f' h hf a ha
  obtain ⟨inner, hi, ha⟩ := Build.lift_bind_ok ha
  obtain ⟨inner', hi', looser⟩ := h.enter hi
  rw [hi, hi']
  exact hf inner inner' hi looser a ha

end Guards

/-- A call that is answered is answered in the same way when fewer guards are held. -/
theorem Call.run_covered {root : Node} (call : Call) {g : Guards} (h : call.guards.Looser g) :
    Build.Covered (call.run root) (call.runWith root g) :=
  run_related Build.Covered.congruence Guards.looser_enters call h

end ServiceModel

/-
Chains along a relation in which nothing has two successors. Of two chains from the same start one
is the beginning of the other, so that a chain to something without a successor holds every other
one; it is free of repetitions, for behind a repetition it would begin anew.
-/
import Mathlib.Data.List.Chain
import Mathlib.Data.List.Nodup

namespace ServiceModel

variable {α : Type} {R : α → α → Prop} (functional : ∀ ⦃a b c⦄, R a b → R a c → b = c)

include functional

theorem linked_comparable {a : α} {s t : List α} (hs : (a :: s).IsChain R) (ht : (a :: t).IsChain R) :
    s <+: t ∨ t <+: s := by
  induction s generalizing a t with
  | nil => exact .inl List.nil_prefix
  | cons b s ih =>
    cases t with
    | nil => exact .inr List.nil_prefix
    | cons c t =>
      obtain ⟨hb, hs⟩ := List.isChain_cons_cons.1 hs
      obtain ⟨hc, ht⟩ := List.isChain_cons_cons.1 ht
      cases functional hb hc
      exact (ih hs ht).imp (List.prefix_cons_inj b).2 (List.prefix_cons_inj b).2

/-- No chain from the same start goes on where one ends in something without a successor. -/
theorem linked_prefix_of_end {a last : α} {s t : List α} (hs : (a :: s).IsChain R)
    (hl : (a :: s).getLast? = some last) (stuck : ∀ b, ¬ R last b) (ht : (a :: t).IsChain R) :
    t <+: s := by
  rcases linked_comparable functional hs ht with ⟨more, rfl⟩ | before
  · cases more with
    | nil => simp
    | cons b more =>
      have next := (List.isChain_append.1 (List.cons_append ▸ ht)).2.2 last hl b rfl
      exact absurd next (stuck b)
  · exact before

theorem linked_nodup {last : α} {s : List α} (hs : s.IsChain R) (hl : s.getLast? = some last)
    (stuck : ∀ b, ¬ R last b) : s.Nodup := by
  induction s with
  | nil => exact List.nodup_nil
  | cons a s ih =>
    cases s with
    | nil => exact List.nodup_singleton a
    | cons b s =>
      have later : (b :: s).getLast? = some last := hl
      refine List.nodup_cons.2 ⟨fun again => ?_, ih hs.tail later⟩
      -- the rest would be a beginning of what stands behind its own member
      obtain ⟨before, after, split⟩ := List.append_of_mem again
      rw [split, List.getLast?_append_cons] at later
      have rest : (a :: after).IsChain R := (split ▸ hs.tail).right_of_append
      have short := (linked_prefix_of_end functional rest later stuck hs).length_le
      rw [split, List.length_append, List.length_cons] at short
      omega

end ServiceModel

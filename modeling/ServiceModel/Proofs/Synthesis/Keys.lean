/-
The keys that are held. A key is entered only while it is not held, and each key that is entered
on the way down is that of an object of the document: a reference by its pointer, an object in
place by its span. So there are never more of them than objects, but for one more under which a
component is entered.

In parallel documents the keys are held in step. A pointer is a key of both documents as it is written,
and a branch in place has one key in each. The two kinds are told apart by the number sign that
local pointers start with; a text that is no local pointer may look like the key of a branch, but
it is never held, since what it stands for is not found.
-/
import ServiceModel.Proofs.OpenApi.Pairing
import ServiceModel.Proofs.Text.Range
import ServiceModel.Synthesis.Describe
import Mathlib.Data.List.Perm.Subperm

namespace ServiceModel

/-! ## The keys of a document -/

/-- The key of a branch that is written in place. -/
def branchKey (o : Object) : String := "allOf@" ++ o.loc

/-- The key of an object, unless it is a reference without a pointer. -/
def Object.guardKey? (o : Object) : Option String :=
  if o.node.isReference then (Reference.pointer ⟨o⟩).toOption else some (branchKey o)

/-- The keys of the objects of a document. -/
def Node.guardKeys (root : Node) : List String := root.objects.filterMap Object.guardKey?

namespace Node

theorem length_guardKeys_le (root : Node) : root.guardKeys.length ≤ root.objects.length :=
  List.length_filterMap_le _ _

theorem pointer_mem_guardKeys {root : Node} {r : Reference} {pointer : String}
    (hr : r.object.node.Within root) (h : r.pointer = .ok pointer) :
    pointer ∈ root.guardKeys := by
  refine List.mem_filterMap.2 ⟨r.object, mem_objects hr, ?_⟩
  rw [Object.guardKey?, if_pos (isReference_of_pointer h), h]
  rfl

theorem branchKey_mem_guardKeys {root : Node} {o : Object} (ho : o.node.Within root)
    (h : o.node.isReference = false) : branchKey o ∈ root.guardKeys := by
  refine List.mem_filterMap.2 ⟨o, mem_objects ho, ?_⟩
  rw [Object.guardKey?, h]
  rfl

end Node

/-! ## Keys that are held -/

/-- The keys that are held are distinct, and each of them is the key of an object of the document
or the one under which everything else is entered. -/
structure Guards.Charged (root : Node) (first : String) (g : Guards) : Prop where
  distinct : g.held.Nodup
  known : g.held ⊆ first :: root.guardKeys

namespace Guards

variable {root : Node} {first key : String} {g inner : Guards}

theorem charged_none (limit : Int) : (none limit).Charged root first where
  distinct := List.nodup_nil
  known := List.nil_subset _

theorem Charged.concat (h : g.Charged root first) (hk : key ∈ first :: root.guardKeys)
    (hn : key ∉ g.held) : (⟨g.limit, g.held ++ [key]⟩ : Guards).Charged root first where
  distinct := by
    refine List.nodup_append.2 ⟨h.distinct, List.pairwise_singleton _ _, fun a ha b hb hab => ?_⟩
    rw [List.mem_singleton] at hb
    exact hn (hb ▸ hab ▸ ha)
  known := by
    refine List.append_subset.2 ⟨h.known, fun a ha => ?_⟩
    rw [List.mem_singleton] at ha
    exact ha ▸ hk

/-- While there is a key that can be entered, fewer are held than there are objects and one. -/
theorem Charged.length_le (h : g.Charged root first) (hk : key ∈ first :: root.guardKeys)
    (hn : key ∉ g.held) : g.held.length ≤ root.objects.length := by
  -- with the key that is free they are still distinct keys of the document
  have more := h.concat hk hn
  have fits := (List.subperm_of_subset more.distinct more.known).length_le
  rw [List.length_append, List.length_singleton, List.length_cons] at fits
  have := root.length_guardKeys_le
  omega

theorem enter_of_free (hn : key ∉ g.held) (hl : (g.held.length : Int) < g.limit) :
    g.enter key = .ok ⟨g.limit, g.held ++ [key]⟩ := by
  unfold enter
  rw [if_neg fun hc => hn (List.contains_iff_mem.1 hc), if_neg (Int.not_le.2 hl)]

/-- A key of the document is entered, unless it is held or the limit is below the number of
objects. -/
theorem Charged.enter_error {e : Failure} (h : g.Charged root first)
    (hk : key ∈ first :: root.guardKeys) (he : g.enter key = .error e) :
    e.OfReading ∨ e = .cycle (.tooDeep g.limit key) ∧ g.limit ≤ root.objects.length := by
  unfold enter at he
  split at he
  · cases he
    exact .inl trivial
  · rename_i hn
    split at he
    · rename_i full
      cases he
      have := h.length_le hk fun hm => hn (List.contains_iff_mem.2 hm)
      exact .inr ⟨rfl, by omega⟩
    · cases he

theorem Charged.enter (h : g.Charged root first) (hk : key ∈ first :: root.guardKeys)
    (he : g.enter key = .ok inner) : inner.Charged root first := by
  obtain ⟨rfl, hn, -⟩ := enter_ok he
  exact h.concat hk hn

end Guards

namespace Parallel

variable {root root' : Node} (p : Parallel root root')

/-! ## Keys in step -/

/-- The keys of two objects that are related, or one pointer that is a key of both. -/
inductive Keys : String → String → Prop
  | pointer {pointer : String} : pointer.toList.head? = some '#' → Keys pointer pointer
  | branch {o o' : Object} : p.Objects o o' → Keys (branchKey o) (branchKey o')

/-- Guards that are held in step. -/
structure Guarded (first : String) (g g' : Guards) : Prop where
  limit : g.limit = p.limit
  limit' : g'.limit = p.limit
  held : List.Forall₂ p.Keys g.held g'.held
  charged : g.Charged root first
  charged' : g'.Charged root' first

variable {p}

theorem branchKey_head (o : Object) : (branchKey o).toList.head? = some 'a' := by
  rw [branchKey, String.toList_append]
  rfl

theorem branchKey_inj {o q : Object} : branchKey o = branchKey q ↔ o.range = q.range := by
  rw [branchKey, branchKey, String.append_right_inj, Object.loc, Object.loc, Text.Range.encode_inj]

/-- Keys coincide in one document exactly if those that are in step with them do in the other. -/
theorem Keys.eq_iff {a a' b b' : String} (ha : p.Keys a a') (hb : p.Keys b b') :
    a = b ↔ a' = b' := by
  -- the one starts with a number sign, the other with a letter
  have apart : ∀ {pointer : String} {o : Object}, pointer.toList.head? = some '#' →
      pointer ≠ branchKey o := by
    rintro pointer o hp rfl
    rw [branchKey_head] at hp
    cases hp
  cases ha with
  | pointer ha =>
    cases hb with
    | pointer _ => exact Iff.rfl
    | branch _ => exact ⟨fun he => absurd he (apart ha), fun he => absurd he (apart ha)⟩
  | branch ha =>
    cases hb with
    | pointer hb => exact ⟨fun he => absurd he.symm (apart hb), fun he => absurd he.symm (apart hb)⟩
    | branch hb => rw [branchKey_inj, branchKey_inj, p.same_place ha hb]

theorem Keys.mem_iff {key key' : String} (hk : p.Keys key key') {held held' : List String}
    (h : List.Forall₂ p.Keys held held') : key ∈ held ↔ key' ∈ held' := by
  induction h with
  | nil => simp only [List.not_mem_nil]
  | cons head _ ih => rw [List.mem_cons, List.mem_cons, hk.eq_iff head, ih]

theorem guarded_none (first : String) : p.Guarded first (.none p.limit) (.none p.limit) where
  limit := rfl
  limit' := rfl
  held := .nil
  charged := Guards.charged_none _
  charged' := Guards.charged_none _

/-- A key of one of the documents that cannot be entered is a failure that is allowed. -/
theorem fails_of_enter {document : Node} {first key : String} {g : Guards} {e : Failure}
    (low : p.limit ≤ document.objects.length →
      p.limit ≤ root.objects.length ∨ p.limit ≤ root'.objects.length)
    (hl : g.limit = p.limit) (hg : g.Charged document first)
    (hk : key ∈ first :: document.guardKeys) (he : g.enter key = .error e) : p.fails e := by
  rcases hg.enter_error hk he with reading | ⟨rfl, full⟩
  · exact p.reading reading
  · rw [hl] at full ⊢
    exact p.tooDeep (low full)

section

variable {first key key' : String} {g g' : Guards} (h : p.Guarded first g g')

include h

theorem enter_fails (hk : key ∈ first :: root.guardKeys) {e : Failure}
    (he : g.enter key = .error e) : p.fails e :=
  fails_of_enter .inl h.limit h.charged hk he

theorem enter_fails' (hk : key' ∈ first :: root'.guardKeys) {e : Failure}
    (he : g'.enter key' = .error e) : p.fails e :=
  fails_of_enter .inr h.limit' h.charged' hk he

/-- Keys in step are entered in step. -/
theorem enter (hs : p.Keys key key') (hk : key ∈ first :: root.guardKeys)
    (hk' : key' ∈ first :: root'.guardKeys) :
    p.Agree (p.Guarded first) (g.enter key) (g'.enter key') := by
  have free : key ∉ g.held ↔ key' ∉ g'.held := not_congr (hs.mem_iff h.held)
  have room : (g.held.length : Int) < g.limit ↔ (g'.held.length : Int) < g'.limit := by
    rw [h.limit, h.limit', h.held.length_eq]
  cases he : g.enter key with
  | error e =>
    -- a key that is free, with room for it, is entered, so the other one fails as well
    cases he' : g'.enter key' with
    | error e' => exact .error (enter_fails h hk he) (enter_fails' h hk' he')
    | ok inner' =>
      obtain ⟨-, hn, hl⟩ := Guards.enter_ok he'
      rw [Guards.enter_of_free (free.2 hn) (room.2 hl)] at he
      cases he
  | ok inner =>
    have charged := h.charged.enter hk he
    obtain ⟨rfl, hn, hl⟩ := Guards.enter_ok he
    have he' := Guards.enter_of_free (free.1 hn) (room.1 hl)
    rw [he']
    have held := List.rel_append h.held (.cons hs .nil)
    exact .ok ⟨h.limit, h.limit', held, charged, h.charged'.enter hk' he'⟩

end

end Parallel

end ServiceModel

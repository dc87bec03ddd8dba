/-
Documents that differ in nothing but their spans. Their nodes correspond place by place, and nodes
at one place have one form and one value. If in both documents no two objects have the same span,
the two are a pairing: objects have one span exactly if they stand at one place, and places are the
same in both.
-/
import ServiceModel.Proofs.Document.Mirror
import Mathlib.Data.List.Nodup
import Mathlib.Data.List.Zip

namespace ServiceModel

open Text (Range)

namespace Node

/-! ## Spans -/

mutual

/-- The document with other spans. -/
def respan (f : Range → Range) : Node → Node
  | .literal l => .literal ⟨l.value, f l.range⟩
  | .array items range => .array (respanItems f items) (f range)
  | .object entries range => .object (respanEntries f entries) (f range)

def respanItems (f : Range → Range) : List Node → List Node
  | [] => []
  | item :: rest => respan f item :: respanItems f rest

def respanEntries (f : Range → Range) : List (Key × Node) → List (Key × Node)
  | [] => []
  | (key, value) :: rest => (⟨key.name, f key.range⟩, respan f value) :: respanEntries f rest

end

/-- The document without its spans. -/
def bare (node : Node) : Node := node.respan fun _ => default

/-- No two objects of the document have the same span. -/
def Apart (root : Node) : Prop := (root.objects.map (·.range)).Nodup

instance (root : Node) : Decidable root.Apart :=
  inferInstanceAs (Decidable (root.objects.map (·.range)).Nodup)

/-! ## Nodes at one place -/

/-- Nodes that stand at one place in two documents. -/
inductive Beside (root root' : Node) : Node → Node → Prop
  | root : Beside root root' root root'
  | item {items items' : List Node} {range range' : Range} {n n' : Node} :
      Beside root root' (.array items range) (.array items' range') → (n, n') ∈ items.zip items' →
      Beside root root' n n'
  | value {entries entries' : List (Key × Node)} {range range' : Range} {e e' : Key × Node} :
      Beside root root' (.object entries range) (.object entries' range') →
      (e, e') ∈ entries.zip entries' → Beside root root' e.2 e'.2

theorem Beside.within {root root' n n' : Node} (h : Beside root root' n n') :
    n.Within root ∧ n'.Within root' := by
  induction h with
  | root => exact ⟨.refl _, .refl _⟩
  | item _ hz ih =>
    have hm := List.of_mem_zip hz
    exact ⟨(Child.item hm.1).within.trans ih.1, (Child.item hm.2).within.trans ih.2⟩
  | value _ hz ih =>
    have hm := List.of_mem_zip hz
    exact ⟨(Child.value hm.1).within.trans ih.1, (Child.value hm.2).within.trans ih.2⟩

/-! ## Parts of documents without spans -/

theorem bareItems {items items' : List Node}
    (h : respanItems (fun _ => default) items = respanItems (fun _ => default) items') :
    List.Forall₂ (fun n n' => n.bare = n'.bare) items items' := by
  induction items generalizing items' with
  | nil =>
    cases items' with
    | nil => exact .nil
    | cons _ _ => cases h
  | cons item rest ih =>
    cases items' with
    | nil => cases h
    | cons item' rest' =>
      rw [respanItems, respanItems, List.cons.injEq] at h
      exact .cons h.1 (ih h.2)

theorem bareEntries {entries entries' : List (Key × Node)}
    (h : respanEntries (fun _ => default) entries = respanEntries (fun _ => default) entries') :
    List.Forall₂ (fun e e' => e.1.name = e'.1.name ∧ e.2.bare = e'.2.bare) entries entries' := by
  induction entries generalizing entries' with
  | nil =>
    cases entries' with
    | nil => exact .nil
    | cons _ _ => cases h
  | cons entry rest ih =>
    cases entries' with
    | nil => cases h
    | cons entry' rest' =>
      obtain ⟨key, value⟩ := entry
      obtain ⟨key', value'⟩ := entry'
      rw [respanEntries, respanEntries, List.cons.injEq, Prod.mk.injEq, Key.mk.injEq] at h
      exact .cons ⟨h.1.1.1, h.1.2⟩ (ih h.2)

/-- Two documents that are the same without their spans have the same form, down to the parts of
their roots. -/
inductive SameForm : Node → Node → Prop
  | literal {value : Primitive} {range range' : Range} :
      SameForm (.literal ⟨value, range⟩) (.literal ⟨value, range'⟩)
  | array {items items' : List Node} {range range' : Range} :
      List.Forall₂ (fun n n' => n.bare = n'.bare) items items' →
      SameForm (.array items range) (.array items' range')
  | object {entries entries' : List (Key × Node)} {range range' : Range} :
      List.Forall₂ (fun e e' => e.1.name = e'.1.name ∧ e.2.bare = e'.2.bare) entries entries' →
      SameForm (.object entries range) (.object entries' range')

theorem sameForm_of_bare {n n' : Node} (h : n.bare = n'.bare) : SameForm n n' := by
  unfold bare at h
  cases n with
  | literal l =>
    cases n' with
    | literal l' =>
      obtain ⟨value, range⟩ := l
      obtain ⟨value', range'⟩ := l'
      rw [respan, respan, Node.literal.injEq, Literal.mk.injEq] at h
      obtain ⟨rfl, -⟩ := h
      exact .literal
    | array _ _ => rw [respan, respan] at h; cases h
    | object _ _ => rw [respan, respan] at h; cases h
  | array items range =>
    cases n' with
    | array items' range' =>
      rw [respan, respan, Node.array.injEq] at h
      exact .array (bareItems h.1)
    | literal _ => rw [respan, respan] at h; cases h
    | object _ _ => rw [respan, respan] at h; cases h
  | object entries range =>
    cases n' with
    | object entries' range' =>
      rw [respan, respan, Node.object.injEq] at h
      exact .object (bareEntries h.1)
    | literal _ => rw [respan, respan] at h; cases h
    | array _ _ => rw [respan, respan] at h; cases h

theorem Beside.bare {root root' n n' : Node} (same : root.bare = root'.bare)
    (h : Beside root root' n n') : n.bare = n'.bare := by
  induction h with
  | root => exact same
  | item _ hz ih =>
    cases sameForm_of_bare ih with
    | array hi => exact List.forall₂_zip hi hz
  | value _ hz ih =>
    cases sameForm_of_bare ih with
    | object he => exact (List.forall₂_zip he hz).2

/-! ## Objects at one place -/

mutual

theorem length_objects_eq : ∀ {n n' : Node}, n.bare = n'.bare →
    n.objects.length = n'.objects.length
  | .literal l, _, h => by
    cases sameForm_of_bare h
    rfl
  | .array items range, _, h => by
    cases sameForm_of_bare h with
    | array hi => rw [objects, objects, length_objectsAmong_eq hi]
  | .object entries range, _, h => by
    cases sameForm_of_bare h with
    | object he =>
      rw [objects, objects, List.length_cons, List.length_cons, length_objectsUnder_eq he]

theorem length_objectsAmong_eq : ∀ {items items' : List Node},
    List.Forall₂ (fun n n' => n.bare = n'.bare) items items' →
    (objectsAmong items).length = (objectsAmong items').length
  | [], _, h => by
    cases h
    rfl
  | item :: rest, _, h => by
    cases h with
    | cons head tail =>
      rw [objectsAmong, objectsAmong, List.length_append, List.length_append,
        length_objects_eq head, length_objectsAmong_eq tail]

theorem length_objectsUnder_eq : ∀ {entries entries' : List (Key × Node)},
    List.Forall₂ (fun e e' => e.1.name = e'.1.name ∧ e.2.bare = e'.2.bare) entries entries' →
    (objectsUnder entries).length = (objectsUnder entries').length
  | [], _, h => by
    cases h
    rfl
  | (_, value) :: rest, (_, value') :: rest', h => by
    cases h with
    | cons head tail =>
      rw [objectsUnder, objectsUnder, List.length_append, List.length_append,
        length_objects_eq head.2, length_objectsUnder_eq tail]

end

theorem zip_objects_among {items items' : List Node}
    (h : List.Forall₂ (fun n n' => n.bare = n'.bare) items items') {n n' : Node}
    (hz : (n, n') ∈ items.zip items') :
    n.objects.zip n'.objects ⊆ (objectsAmong items).zip (objectsAmong items') := by
  induction h with
  | nil => cases hz
  | cons head tail ih =>
    rw [objectsAmong, objectsAmong, List.zip_append (length_objects_eq head)]
    rcases List.mem_cons.1 hz with here | hz
    · cases here
      exact List.subset_append_left _ _
    · exact List.Subset.trans (ih hz) (List.subset_append_right _ _)

theorem zip_objects_under {entries entries' : List (Key × Node)}
    (h : List.Forall₂ (fun e e' => e.1.name = e'.1.name ∧ e.2.bare = e'.2.bare) entries entries')
    {e e' : Key × Node} (hz : (e, e') ∈ entries.zip entries') :
    e.2.objects.zip e'.2.objects ⊆ (objectsUnder entries).zip (objectsUnder entries') := by
  induction h with
  | nil => cases hz
  | @cons a a' _ _ head tail ih =>
    obtain ⟨key, value⟩ := a
    obtain ⟨key', value'⟩ := a'
    rw [objectsUnder, objectsUnder, List.zip_append (length_objects_eq head.2)]
    rcases List.mem_cons.1 hz with here | hz
    · cases here
      exact List.subset_append_left _ _
    · exact List.Subset.trans (ih hz) (List.subset_append_right _ _)

/-- Objects below one place stand side by side among the objects of the two documents. -/
theorem Beside.zip_objects {root root' n n' : Node} (same : root.bare = root'.bare)
    (h : Beside root root' n n') : n.objects.zip n'.objects ⊆ root.objects.zip root'.objects := by
  induction h with
  | root => exact List.Subset.refl _
  | item hb hz ih =>
    cases sameForm_of_bare (hb.bare same) with
    | array hi =>
      refine List.Subset.trans (zip_objects_among hi hz) ?_
      rw [objects, objects] at ih
      exact ih
  | value hb hz ih =>
    cases sameForm_of_bare (hb.bare same) with
    | object he =>
      refine List.Subset.trans (zip_objects_under he hz) ?_
      rw [objects, objects] at ih
      exact List.Subset.trans (List.subset_cons_self _ _) ih

theorem Beside.mem_zip {root root' : Node} (same : root.bare = root'.bare) {o o' : Object}
    (h : Beside root root' o.node o'.node) : (o, o') ∈ root.objects.zip root'.objects := by
  refine h.zip_objects same ?_
  -- an object stands before the objects below it
  have first : (o, o') ∈ (objects (.object o.entries o.range)).zip
      (objects (.object o'.entries o'.range)) := by
    rw [objects, objects]
    exact List.mem_cons_self
  exact first

end Node

/-- What stands beside two elements that agree in a property is the same, if no other elements
agree in it. -/
theorem zip_right_eq {α β γ : Type} {f : α → γ} {xs : List α} {ys : List β}
    (hl : xs.length = ys.length) (h : (xs.map f).Nodup) {a a' : α} {b b' : β}
    (ha : (a, b) ∈ xs.zip ys) (ha' : (a', b') ∈ xs.zip ys) (he : f a = f a') : b = b' := by
  have apart : ((xs.zip ys).map (f ∘ Prod.fst)).Nodup := by
    rw [← List.map_map, List.map_fst_zip (Nat.le_of_eq hl)]
    exact h
  exact congrArg Prod.snd (List.inj_on_of_nodup_map apart ha ha' he)

namespace Node

/-- Objects have the same span in the one document exactly if those at their places do in the
other. -/
theorem Beside.same_place {root root' : Node} (same : root.bare = root'.bare)
    (apart : root.Apart) (apart' : root'.Apart) {o q o' q' : Object}
    (ho : Beside root root' o.node o'.node) (hq : Beside root root' q.node q'.node) :
    o.range = q.range ↔ o'.range = q'.range := by
  have length := length_objects_eq same
  have left := ho.mem_zip same
  have right := hq.mem_zip same
  constructor
  · intro he
    exact congrArg Object.range (zip_right_eq length apart left right he)
  · intro he
    -- the same with the two documents exchanged
    have swapped : ∀ {a a' : Object}, (a, a') ∈ root.objects.zip root'.objects →
        (a', a) ∈ root'.objects.zip root.objects := by
      intro a a' hm
      rw [← List.zip_swap]
      exact List.mem_map_of_mem hm
    exact congrArg Object.range
      (zip_right_eq length.symm apart' (swapped left) (swapped right) he)

theorem Beside.alike {root root' n n' : Node} (same : root.bare = root'.bare)
    (h : Beside root root' n n') :
    NodesAlike (Beside root root') (fun _ _ => True) n n' := by
  cases sameForm_of_bare (h.bare same) with
  | literal => exact .literal
  | array hi => exact .array (List.forall₂_iff_zip.2 ⟨hi.length_eq, fun hz => .item h hz⟩)
  | object he =>
    refine .object (List.forall₂_iff_zip.2 ⟨he.length_eq, fun {e e'} hz => ?_⟩)
    exact {
      name := (List.forall₂_zip he hz).1
      value := .value h hz
      key := trivial
      whole := trivial }

/-- Documents that differ in nothing but their spans mirror each other, place by place. -/
theorem mirrors_beside {root root' : Node} (same : root.bare = root'.bare) :
    Mirrors (Beside root root') (fun _ _ => True) where
  alike h := h.alike same
  span _ := trivial

end Node

/-- Two documents that differ in nothing but their spans, under any limit. -/
def Pairing.respanned {root root' : Node} (same : root.bare = root'.bare) (apart : root.Apart)
    (apart' : root'.Apart) (limit : Int) (fails : Failure → Prop)
    (reading : ∀ {e : Failure}, e.OfReading → fails e)
    (tooDeep : ∀ {key}, fails (.cycle (.tooDeep limit key))) : Pairing root root' where
  nodes := Node.Beside root root'
  spans _ _ := True
  fails := fails
  limit := limit
  roots := .root
  within h := h.within
  alike := (Node.mirrors_beside same).reads
  walked _ _ := (Node.mirrors_beside same).entries
  span := (Node.mirrors_beside same).span
  same_place ho hq := ho.same_place same apart apart' hq
  reading := reading
  tooDeep _ := tooDeep
  plain := (Node.mirrors_beside same).toJson_eq .root

end ServiceModel

/-
The values that documents hold. Two values are equal if they are of one kind and stand for the same
value; what is no number equals nothing. The test by which values are told apart is an equivalence,
and between values of documents that were read, it is this equality: their numbers are in normal
form.
-/
import ServiceModel.Proofs.Document.Numbers
import ServiceModel.Proofs.Document.Within
import ServiceModel.Proofs.Double.Normal

namespace ServiceModel

/-! ## Equality of values -/

namespace Primitive

/-- Of one kind and with one value: a truth value is no number, and an integer is no double
precision number. -/
inductive Equal : Primitive → Primitive → Prop
  | null : Equal .null .null
  | bool (b : Bool) : Equal (.bool b) (.bool b)
  | int (i : Int) : Equal (.int i) (.int i)
  | double {x y : Double} : x.Equal y → Equal (.double x) (.double y)
  | text (s : String) : Equal (.text s) (.text s)

/-- Is it no number, among the numbers? -/
def IsNan : Primitive → Prop
  | .double x => x.IsNan
  | _ => False

/-- A number is in normal form. -/
def IsNormal : Primitive → Prop
  | .double x => x.IsNormal
  | _ => True

/-- What is no number equals nothing. -/
theorem Equal.not_isNan {a b : Primitive} (h : a.Equal b) : ¬ a.IsNan := by
  cases h with
  | double h => exact Double.not_isNan_of_equal h
  | _ => exact id

theorem same_refl (a : Primitive) : a.same a = true := by
  cases a <;> simp [same, Double.same]

theorem same_comm (a b : Primitive) : a.same b = b.same a := by
  cases a <;> cases b <;> simp [same, Double.same, Bool.and_comm, Bool.beq_comm]

/-- All values but numbers of double precision are only the same if they are equal. -/
theorem same_iff_eq {a : Primitive} (kind : ∀ x, a ≠ .double x) (b : Primitive) :
    a.same b = true ↔ a = b := by
  cases a with
  | double x => exact absurd rfl (kind x)
  | _ => simp [same]

theorem same_trans {a b c : Primitive} (h : a.same b = true) (h' : b.same c = true) :
    a.same c = true := by
  by_cases kind : ∀ x, a ≠ .double x
  · rw [(same_iff_eq kind b).1 h]
    exact h'
  · simp only [not_forall, not_not] at kind
    obtain ⟨x, rfl⟩ := kind
    cases b with
    | double y =>
      cases c with
      | double z =>
        simp only [same, Double.same, Bool.or_eq_true, Bool.and_eq_true, beq_iff_eq] at h h' ⊢
        rcases h with ⟨hx, hy⟩ | rfl
        · rcases h' with ⟨-, hz⟩ | rfl
          · exact .inl ⟨hx, hz⟩
          · exact .inl ⟨hx, hy⟩
        · exact h'
      | _ => simp [same] at h'
    | _ => simp [same] at h

theorem equal_self {a : Primitive} (kind : ∀ x, a ≠ .double x) : a.Equal a := by
  cases a with
  | double x => exact absurd rfl (kind x)
  | _ => constructor

theorem same_iff_equal {a b : Primitive} (ha : a.IsNormal) (hb : b.IsNormal) (number : ¬ a.IsNan) :
    a.same b = true ↔ a.Equal b := by
  constructor
  · intro h
    by_cases kind : ∀ x, a ≠ .double x
    · rw [← (same_iff_eq kind b).1 h]
      exact equal_self kind
    · simp only [not_forall, not_not] at kind
      obtain ⟨x, rfl⟩ := kind
      cases b with
      | double y => exact .double ((Double.same_iff_equal ha hb number).1 h)
      | _ => simp [same] at h
  · intro h
    cases h with
    | double h => exact (Double.same_iff_equal ha hb number).2 h
    | _ => exact same_refl _

end Primitive

/-! ## Values that are read -/

namespace Yaml.Scalar

theorem sumPlaces_normal {places : List Double} :
    ∀ {sum x : Double} {unit : Nat}, sum.IsNormal → sumPlaces sum unit places = .ok x →
      x.IsNormal := by
  induction places with
  | nil =>
    intro sum x unit normal h
    cases h
    exact normal
  | cons place places ih =>
    intro sum x unit _ h
    rw [sumPlaces] at h
    split at h
    · exact ih (Double.add_normal _ _) h
    · cases h

theorem size_normal {body : List Char} {x : Double} (h : size body = .ok x) : x.IsNormal := by
  unfold size at h
  split at h
  · cases h
    trivial
  · split at h
    · obtain ⟨places, -, h⟩ := read_bind_ok h
      exact sumPlaces_normal (Double.zero_normal false) h
    · unfold size.placeOf at h
      split at h
      · cases h
        exact Double.read?_normal ‹_›
      · cases h

theorem readDouble_normal {mark : Nat} {text : List Char} {p : Primitive}
    (h : readDouble mark text = .ok p) : p.IsNormal := by
  rcases readDouble_cases text with empty | ⟨negative, body, signed⟩
  · rw [empty] at h
    cases h
  · rw [signed, signedDouble] at h
    split at h
    · cases h
      trivial
    · cases hx : size body with
      | error fault =>
        rw [hx] at h
        cases h
      | ok x =>
        rw [hx] at h
        cases h
        have normal := size_normal hx
        cases negative with
        | false => exact normal.withMark mark
        | true => exact normal.neg.withMark mark

theorem readBool_normal {text : List Char} {p : Primitive} (h : readBool text = .ok p) :
    p.IsNormal := by
  unfold readBool at h
  dsimp only at h
  split_ifs at h
  · cases h
    trivial
  · cases h
    trivial

theorem readInteger_normal {text : List Char} {p : Primitive} (h : readInteger text = .ok p) :
    p.IsNormal := by
  unfold readInteger at h
  split at h
  · cases h
  all_goals
    obtain ⟨i, -, h⟩ := read_bind_ok h
    cases h
    trivial

theorem ofText_normal {mark : Nat} {text : List Char} {p : Primitive}
    (h : ofText mark text = .ok p) : p.IsNormal := by
  unfold ofText at h
  split at h
  · exact readBool_normal h
  · exact readDouble_normal h
  · exact readInteger_normal h
  · cases h
  · cases h
    trivial
  · cases h
    trivial

theorem ofTag_normal {mark : Nat} {tag : String} {text : List Char} {p : Primitive}
    (h : ofTag mark tag text = .ok p) : p.IsNormal := by
  unfold ofTag at h
  split at h
  · cases h
  · dsimp only at h
    split_ifs at h
    · cases h
      trivial
    · cases h
      trivial
    · exact readBool_normal h
    · exact readInteger_normal h
    · exact readDouble_normal h
    · cases h
      trivial

/-- Every scalar has a value in normal form, if it has one. -/
theorem value_normal {mark : Nat} {tag : ScalarTag} {text : String} {p : Primitive}
    (h : value mark tag text = .ok p) : p.IsNormal := by
  unfold value at h
  split at h
  · exact ofText_normal h
  · cases h
    trivial
  · exact ofTag_normal h
  · split at h
    · cases h
    · exact ofTag_normal h

end Yaml.Scalar

namespace Node

/-- The node is a part of the tree of a text. -/
def FromText (node : Node) : Prop := ∃ text tree, read text = .ok tree ∧ node.Within tree

theorem FromText.within {node inner : Node} (h : node.FromText) (below : inner.Within node) :
    inner.FromText := by
  obtain ⟨text, tree, ht, hn⟩ := h
  exact ⟨text, tree, ht, below.trans hn⟩

/-- What stands directly inside a node is one of its children. -/
theorem Child.mem_children {inner node : Node} (h : Child inner node) : inner ∈ node.children := by
  cases h with
  | item h => exact h
  | value h => exact List.mem_map_of_mem h

/-- Every part of a tree is made of a part of the markup. -/
theorem ofYaml_of_within {y : Yaml.Node} {tree node : Node} (h : ofYaml y = .ok tree)
    (within : node.Within tree) : ∃ part, ofYaml part = .ok node := by
  induction within using Relation.ReflTransGen.head_induction_on with
  | refl => exact ⟨y, h⟩
  | head child _ ih =>
    obtain ⟨part, made⟩ := ih
    obtain ⟨i, hi, rfl⟩ := List.getElem_of_mem child.mem_children
    have parts := children_ofYaml made
    exact ⟨_, parts.get (parts.length_eq ▸ hi) hi⟩

/-- The values of documents are in normal form. -/
theorem FromText.literal_normal {l : Literal} (h : (literal l).FromText) : l.value.IsNormal := by
  obtain ⟨text, tree, ht, within⟩ := h
  unfold read at ht
  dsimp only at ht
  split_ifs at ht
  split at ht
  · cases ht
  · cases ht
  · obtain ⟨part, made⟩ := ofYaml_of_within ht within
    cases part with
    | scalar text tag range =>
      rw [ofYaml] at made
      split at made
      · rename_i value
        cases made
        exact Yaml.Scalar.value_normal value
      · cases made
    | sequence items range =>
      rw [ofYaml] at made
      split at made <;> cases made
    | mapping entries range =>
      rw [ofYaml] at made
      split at made <;> cases made
    | cycle start => cases made

end Node

end ServiceModel

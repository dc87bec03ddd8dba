/-
A limit that is as large as the document is never exceeded. Each key that is held on the way down
belongs to an object of its own, but for the one under which a component is entered; and a
document that is converted at all holds its version, which is no object. So no more keys can be
held than the document has nodes, and beyond that the limit makes no difference.
-/
import ServiceModel.Proofs.Conversion.Limit
import ServiceModel.Proofs.Conversion.Pairing
import ServiceModel.Proofs.Document.Diagonal

namespace ServiceModel

open OpenApi

variable {options : Options} {root : Node}

/-! ## Documents that are converted -/

/-- A description holds its version, which is a value. -/
theorem length_objects_lt_of_description {d : Description}
    (h : descriptionOfTree options root = .ok d) : root.objects.length < root.count := by
  have version : ∃ l, d.openapi? = some l := by
    obtain ⟨version, hv, -⟩ := read_bind_ok (descriptionOfTree_read h).2
    unfold Description.languageVersion at hv
    split at hv
    · exact ⟨_, by assumption⟩
    · cases hv
  obtain ⟨l, hl⟩ := version
  have held : d.object.value? "openapi" = some (.literal l) := by
    unfold Description.openapi? Object.literal? at hl
    split at hl
    · cases hl; assumption
    · cases hl
  have same : d.root = root := View.reads_description root d (descriptionOfTree_ok h)
  have child : Node.Child (.literal l) d.root := Object.value?_child held
  rw [same] at child
  exact Node.length_objects_lt child.within

/-! ## Failures -/

/-- The failure is not that a limit is exceeded. -/
def Failure.WithinLimit (e : Failure) : Prop := ∀ limit key, e ≠ .cycle (.tooDeep limit key)

theorem Failure.OfReading.withinLimit {e : Failure} (h : e.OfReading) : e.WithinLimit := by
  rintro limit key rfl
  exact h

/-- The document with itself, under a limit above the number of its objects. -/
def Pairing.roomy (root : Node) (limit : Int) (h : root.objects.length < limit) :
    Pairing root root :=
  .diagonal root limit Failure.WithinLimit Failure.OfReading.withinLimit
    fun low => absurd h (Int.not_lt.2 low)

/-- What is no description fails otherwise than by a limit. -/
theorem descriptionOfTree_error {e : Failure} (h : descriptionOfTree options root = .error e) :
    e.WithinLimit := by
  -- nothing is entered yet, so that any limit with room will do
  let p := Pairing.roomy root (root.objects.length + 1) (by omega)
  have agree : p.Agree (fun d d' => p.Objects d.object d'.object)
      (descriptionOfTree options root) (descriptionOfTree options root) := p.descriptionOfTree options
  rw [h] at agree
  cases agree with
  | error he _ => exact he

theorem convertTree_not_tooDeep (h : (root.count : Int) ≤ options.limit) :
    ¬ (convertTree options root).TooDeep := by
  rintro ⟨limit, key, deep⟩
  cases hd : descriptionOfTree options root with
  | error e =>
    have same : (convertTree options root).outcome = .error e := by
      unfold convertTree
      rw [hd]
      rfl
    cases deep.symm.trans same
    exact descriptionOfTree_error hd limit key rfl
  | ok d =>
    have fewer := length_objects_lt_of_description hd
    let p := Pairing.roomy root options.limit (by omega)
    have agree : p.Builds (Service.Alike p.spans) (convertTree options root)
        (convertTree options root) := p.convertTree rfl
    exact (agree.of_error deep).1 limit key rfl

/-! ## Limits -/

/-- Under every limit that is as large as the document, the conversion is the same. -/
theorem convertTree_eq_of_count_le {limit : Int} (h : (root.count : Int) ≤ limit) :
    convertTree { options with limit } root =
      convertTree { options with limit := root.count } root := by
  have least : ¬ (convertTree { options with limit := root.count } root).TooDeep :=
    convertTree_not_tooDeep (Int.le_refl _)
  have more : Build.Extends (convertTree { options with limit := root.count } root)
      (convertTree { options with limit } root) := convertTree_extends h root
  exact more.resolve_left least

/-- A limit that is as large as the tree of the text is never exceeded, and the conversion is the
same under all such limits: the service or the failure, and everything that is recorded. -/
theorem convert_limit_size {text : String} (ht : treeOf text = .ok root)
    (h : (root.count : Int) ≤ options.limit) :
    ¬ (convert options text).TooDeep ∧
      ∀ limit : Int, root.count ≤ limit →
        convert { options with limit } text = convert options text := by
  have tree (o : Options) : convert o text = convertTree o root := by
    unfold convert
    rw [ht]
    rfl
  rw [tree]
  refine ⟨convertTree_not_tooDeep h, fun limit hl => ?_⟩
  rw [tree]
  calc convertTree { options with limit } root
    _ = convertTree { options with limit := root.count } root := convertTree_eq_of_count_le hl
    _ = convertTree options root := (convertTree_eq_of_count_le h).symm

/-- The tree has seventeen nodes. -/
theorem convert_sample_size :
    treeOf Sample.text = .ok Sample.tree ∧ (Sample.tree.count : Int) ≤ 17 ∧
      ¬ (convert { Sample.options with limit := 17 } Sample.text).TooDeep ∧
      ∀ limit : Int, Sample.tree.count ≤ limit →
        convert { Sample.options with limit } Sample.text =
          convert { Sample.options with limit := 17 } Sample.text := by
  have size : (Sample.tree.count : Int) ≤ 17 := by decide
  exact ⟨Sample.treeOf_text, size, convert_limit_size Sample.treeOf_text size⟩

end ServiceModel

/-
Reading the fields of a record that was written by its own fields. Such a record is taken as it
is, and a field gives back what was put under its name: one that has to be present, one that may
be missing and is null then, and a list.
-/
import ServiceModel.Service.Decode

namespace ServiceModel.Service

open Json

variable {α β : Type}

/-- A reading goes on with what was found. -/
theorem found_bind {x : Option α} {a : α} {f : α → Option β} {b : β} (h : x = some a)
    (hf : f a = some b) : (x >>= f) = some b := by
  rw [h]
  exact hf

/-! ## Records -/

/-- All names are among the fields, in their first spelling. -/
def named (fields : List String) (members : Record) : Bool :=
  members.all fun m => (longNames.lookup m.1).isNone && fields.contains m.1

theorem record?_object {fields : List String} {members : Record}
    (h : named fields members = true) : record? fields (.object members) = some members := by
  simp only [named, List.all_eq_true, Bool.and_eq_true, Option.isNone_iff_eq_none] at h
  have same : (members.map fun m => (fieldName members m.1, m.2)) = members := by
    refine (List.map_congr_left fun m hm => ?_).trans (List.map_id members)
    rw [fieldName, (h m hm).1]
    rfl
  have fields : (members.all fun m => fields.contains m.1) = true :=
    List.all_eq_true.2 fun m hm => (h m hm).2
  simp only [record?, same, fields, if_true]

theorem recordOf?_object {kind : String} {fields : List String} {members : Record}
    (h : named ("kind" :: fields) members = true)
    (hk : members.lookup "kind" = some (.string kind)) :
    recordOf? kind fields (.object members) = some members := by
  refine found_bind (record?_object h) ?_
  simp [Record.isKind, hk]

namespace Record

variable {record : Record} {name : String} {decode : Json → Option α} {encode : α → Json}

theorem required_some {json : Json} {a : α} (h : record.lookup name = some json)
    (ha : decode json = some a) : record.required name decode = some a := by
  rw [required, h]
  exact ha

theorem items?_ofList {as : List α} (h : ∀ a ∈ as, decode (encode a) = some a) :
    items? decode (ofList encode as) = some as := by
  induction as with
  | nil => rfl
  | cons a as ih =>
    have rest := ih fun a' ha' => h a' (List.mem_cons_of_mem _ ha')
    simp only [items?, ofList, List.map_cons, List.mapM_cons] at rest ⊢
    rw [h a List.mem_cons_self, rest]
    rfl

theorem list_some {as : List α} (h : record.lookup name = some (ofList encode as))
    (ha : ∀ a ∈ as, decode (encode a) = some a) : record.list name decode = some as := by
  rw [list, withDefault, h]
  exact items?_ofList ha

/-- What is there must not be written as null, which stands for what is missing. -/
theorem optional_some {a : Option α} (h : record.lookup name = some (ofOption encode a))
    (hn : ∀ x, encode x ≠ .null) (ha : ∀ x ∈ a, decode (encode x) = some x) :
    record.optional name decode = some a := by
  rw [optional, h]
  cases a with
  | none => rfl
  | some x =>
    have hx := ha x rfl
    have there := hn x
    simp only [ofOption]
    cases he : encode x with
    | null => exact absurd he there
    | _ => rw [he] at hx; simp [hx]

end Record

end ServiceModel.Service

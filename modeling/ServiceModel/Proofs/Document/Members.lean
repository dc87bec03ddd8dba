/-
The members of plain values, and plain values that differ in the order of members only: what a
document with a node in the place of another denotes is the same up to that order if this is true
of the two nodes.
-/
import ServiceModel.Proofs.Document.Replace
import ServiceModel.Proofs.Lists.Lookup

namespace ServiceModel

theorem Json.put_of_not_mem {name : String} {value : Json} {members : List (String × Json)}
    (h : name ∉ members.map (·.1)) : Json.put name value members = members ++ [(name, value)] := by
  induction members with
  | nil => rfl
  | cons member rest ih =>
    rw [List.map_cons, List.mem_cons, not_or] at h
    rw [Json.put, if_neg (Ne.symm h.1), ih h.2]
    rfl

/-- Entries of different names become members in their order. -/
theorem Node.entriesToJson_of_nodup {entries : List (Key × Node)} :
    ∀ {members : List (String × Json)},
      (members.map (·.1) ++ entries.map (·.1.name)).Nodup →
        entriesToJson entries members =
          members ++ entries.map fun entry => (entry.1.name, entry.2.toJson) := by
  induction entries with
  | nil => exact fun _ => (List.append_nil _).symm
  | cons entry rest ih =>
    intro members h
    obtain ⟨key, value⟩ := entry
    have fresh : key.name ∉ members.map (·.1) := by
      intro hm
      exact (List.nodup_append.1 h).2.2 _ hm _ List.mem_cons_self rfl
    rw [entriesToJson, Json.put_of_not_mem fresh, ih]
    · rw [List.append_assoc]
      rfl
    · simpa using h

/-! ## Members in another order -/

namespace Json

mutual

/-- The second value is the first one with the members of its objects in another order. -/
inductive Rearranged : Json → Json → Prop
  | refl (json : Json) : Rearranged json json
  | order {members members' : List (String × Json)} :
      (members.map (·.1)).Nodup → members.Perm members' →
        Rearranged (.object members) (.object members')
  | members {members members' : List (String × Json)} :
      RearrangedMembers members members' → Rearranged (.object members) (.object members')

/-- Members of the same names, with values that differ in the order of members only. -/
inductive RearrangedMembers : List (String × Json) → List (String × Json) → Prop
  | nil : RearrangedMembers [] []
  | cons (name : String) {value value' : Json} {rest rest' : List (String × Json)} :
      Rearranged value value' → RearrangedMembers rest rest' →
        RearrangedMembers ((name, value) :: rest) ((name, value') :: rest')

end

theorem RearrangedMembers.refl : ∀ members : List (String × Json), RearrangedMembers members members
  | [] => .nil
  | (name, value) :: rest => .cons name (.refl value) (refl rest)

theorem RearrangedMembers.put (name : String) {value value' : Json} (hv : Rearranged value value') :
    ∀ {members members' : List (String × Json)}, RearrangedMembers members members' →
      RearrangedMembers (Json.put name value members) (Json.put name value' members')
  | _, _, .nil => .cons name hv .nil
  | _, _, .cons n here rest => by
    rw [Json.put, Json.put]
    split
    · exact .cons n hv rest
    · exact .cons n here (put name hv rest)

/-- What is found under a name differs in the order of members only. -/
theorem RearrangedMembers.lookup (name : String) :
    ∀ {members members' : List (String × Json)}, RearrangedMembers members members' →
      Option.Rel Rearranged (members.lookup name) (members'.lookup name)
  | _, _, .nil => .none
  | _, _, .cons n here rest => by
    rw [lookup_cons_if, lookup_cons_if]
    split
    · exact .some here
    · exact lookup name rest

theorem Rearranged.member? {json json' : Json} (h : json.Rearranged json') (name : String) :
    Option.Rel Rearranged (json.member? name) (json'.member? name) := by
  cases h with
  | refl => exact optionRel_self .refl _
  | order nodup perm =>
    rw [Json.member?, Json.member?, lookup_perm perm nodup]
    exact optionRel_self .refl _
  | members h => exact h.lookup name

end Json

namespace Node

theorem rearranged_entriesToJson (entries : List (Key × Node))
    {members members' : List (String × Json)} (h : Json.RearrangedMembers members members') :
    Json.RearrangedMembers (entriesToJson entries members) (entriesToJson entries members') := by
  induction entries generalizing members members' with
  | nil => exact h
  | cons entry rest ih =>
    rw [entriesToJson, entriesToJson]
    exact ih (h.put _ (.refl _))

theorem entriesToJson_append (first rest : List (Key × Node)) (members : List (String × Json)) :
    entriesToJson (first ++ rest) members = entriesToJson rest (entriesToJson first members) := by
  induction first generalizing members with
  | nil => rfl
  | cons entry first ih => rw [List.cons_append, entriesToJson, entriesToJson, ih]

/-- The entries of an object in another order are its members in another order. -/
theorem rearranged_of_perm {entries entries' : List (Key × Node)} {range range' : Text.Range}
    (h : entries.Perm entries') (nodup : (entries.map (·.1.name)).Nodup) :
    (Node.object entries range).toJson.Rearranged (Node.object entries' range').toJson := by
  have nodup' : (entries'.map (·.1.name)).Nodup := (h.map _).nodup_iff.1 nodup
  rw [toJson, toJson, entriesToJson_of_nodup (by simpa using nodup),
    entriesToJson_of_nodup (by simpa using nodup'), List.nil_append, List.nil_append]
  refine .order ?_ (h.map _)
  rw [List.map_map]
  exact nodup

/-- What stands around a node keeps its members in their order. -/
theorem Replaced.rearranged {old new root root' : Node} {names : List String}
    (h : Replaced old new names root root') (inner : old.toJson.Rearranged new.toJson) :
    root.toJson.Rearranged root'.toJson := by
  induction h with
  | here => exact inner
  -- a later entry of the name would replace the member in both, so that nothing is asked of these
  | @under key value value' before after range names apart _ ih =>
    rw [toJson, toJson, entriesToJson_append, entriesToJson_append, entriesToJson, entriesToJson]
    exact .members (rearranged_entriesToJson after ((Json.RearrangedMembers.refl _).put _ ih))

end Node

end ServiceModel

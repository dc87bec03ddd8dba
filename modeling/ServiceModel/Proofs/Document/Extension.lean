/-
An object with one more extension at its end. Under every name without the mark of extensions the
same is found as before, and metadata give the same name to the parameter of a request body, as
long as the new extension is not the one for that.
-/
import ServiceModel.Proofs.Document.Replace
import ServiceModel.Proofs.Lists.Distinct

namespace ServiceModel

open Service

namespace Object

/-- Is a name one that the description language leaves to its users? -/
def isMarked (name : String) : Bool := extensionMark.toList.isPrefixOf name.toList

variable {n : String} {entry : Key × Node} {o o' : Object}

/-- The second object is the first one with one more extension at its end, under a new name that
is not the one that names the parameter of a request body. -/
structure Extended (entry : Key × Node) (o o' : Object) : Prop where
  entries : o'.entries = o.entries ++ [entry]
  range : o.range = o'.range
  marked : isMarked entry.1.name = true
  fresh : entry.1.name ∉ o.keys
  unrelated : Naming.kebab (MetaValue.ofExtension entry).key.value ≠ bodyNameExtension

/-- Objects that differ in their extensions at most, of which none is the one that names the
parameter of a request body. -/
structure Resembles (o o' : Object) : Prop where
  range : o.range = o'.range
  plain : ∀ n, isMarked n = false → SameUnder n o o'
  bodyName : bodyName? o.metadata = bodyName? o'.metadata

theorem Resembles.refl (o : Object) : o.Resembles o := ⟨rfl, fun _ _ => rfl, rfl⟩

namespace Extended

variable (h : Extended entry o o')

include h

theorem others (hn : n ≠ entry.1.name) : SameUnder n o o' := by
  have none : [entry].find? (·.1.name == n) = none := by simpa using hn.symm
  rw [SameUnder, Object.entry?, Object.entry?, h.entries, List.find?_append, none, Option.or_none]

theorem value?_self : o'.value? entry.1.name = some entry.2 := by
  have none : o.entries.find? (·.1.name == entry.1.name) = none :=
    List.find?_eq_none.2 fun e he => by
      simpa using fun same : e.1.name = entry.1.name => h.fresh (same ▸ List.mem_map_of_mem he)
  rw [Object.value?, Object.entry?, h.entries, List.find?_append, none]
  simp

theorem distinctKeys : o'.distinctKeys = o.distinctKeys ++ [entry.1.name] := by
  have keys : o'.keys = o.keys ++ [entry.1.name] := by
    rw [Object.keys, h.entries, List.map_append]
    rfl
  rw [Object.distinctKeys, keys, eraseDups_concat, if_neg h.fresh]
  rfl

theorem bodyName : bodyName? o.metadata = bodyName? o'.metadata := by
  have listed (o : Object) : o.metadata.getD [] = o.extensions.map MetaValue.ofExtension := by
    unfold Object.metadata
    split
    · rename_i none
      rw [none]
      rfl
    · rfl
  have extensions : o'.extensions = o.extensions ++ [entry] := by
    rw [Object.extensions, h.entries, List.filter_append]
    exact congrArg _ (List.filter_eq_self.2 fun e he => (List.mem_singleton.1 he) ▸ h.marked)
  have none : List.find? (Naming.kebab ·.key.value == bodyNameExtension)
      [MetaValue.ofExtension entry] = none := by
    simpa using h.unrelated
  rw [bodyName?, bodyName?, listed, listed, extensions, List.map_append, List.find?_append,
    List.map_singleton, none, Option.or_none]

theorem resembles : o.Resembles o' where
  range := h.range
  plain n hn := h.others fun same => by rw [same, h.marked] at hn; cases hn
  bodyName := h.bodyName

end Extended

end Object

end ServiceModel

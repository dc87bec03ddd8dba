/-
Equality of trees is decided node by node, spans included.
-/
import ServiceModel.Document.Node

namespace ServiceModel.Node

mutual

def decEq : (a b : Node) → Decidable (a = b)
  | .literal l, .literal l' => decidable_of_iff (l = l') (by rw [Node.literal.injEq])
  | .array items range, .array items' range' =>
    match decEqItems items items' with
    | isTrue hi => decidable_of_iff (range = range') (by simp [hi])
    | isFalse hi => isFalse fun h => hi (Node.array.inj h).1
  | .object entries range, .object entries' range' =>
    match decEqEntries entries entries' with
    | isTrue he => decidable_of_iff (range = range') (by simp [he])
    | isFalse he => isFalse fun h => he (Node.object.inj h).1
  | .literal _, .array _ _ => isFalse nofun
  | .literal _, .object _ _ => isFalse nofun
  | .array _ _, .literal _ => isFalse nofun
  | .array _ _, .object _ _ => isFalse nofun
  | .object _ _, .literal _ => isFalse nofun
  | .object _ _, .array _ _ => isFalse nofun

def decEqItems : (a b : List Node) → Decidable (a = b)
  | [], [] => isTrue rfl
  | [], _ :: _ => isFalse nofun
  | _ :: _, [] => isFalse nofun
  | item :: rest, item' :: rest' =>
    match decEq item item' with
    | isFalse h => isFalse fun he => h (List.cons.inj he).1
    | isTrue h =>
      match decEqItems rest rest' with
      | isFalse hr => isFalse fun he => hr (List.cons.inj he).2
      | isTrue hr => isTrue (by rw [h, hr])

def decEqEntries : (a b : List (Key × Node)) → Decidable (a = b)
  | [], [] => isTrue rfl
  | [], _ :: _ => isFalse nofun
  | _ :: _, [] => isFalse nofun
  | (key, value) :: rest, (key', value') :: rest' =>
    match decEq value value' with
    | isFalse h => isFalse fun he => h (Prod.mk.inj (List.cons.inj he).1).2
    | isTrue h =>
      match decEqEntries rest rest' with
      | isFalse hr => isFalse fun he => hr (List.cons.inj he).2
      | isTrue hr => decidable_of_iff (key = key') (by simp [h, hr])

end

instance : DecidableEq Node := decEq

end ServiceModel.Node

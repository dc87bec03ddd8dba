/-
The guards of a recursion through references: the keys of what is being resolved. A key can be
entered only while it is not held and fewer keys are held than the limit allows; this is what ends
every recursion.
-/
import ServiceModel.Failure

namespace ServiceModel

/-- The held keys, the oldest first, and how many may be held. -/
structure Guards where
  limit : Int
  held : List String
  deriving DecidableEq, Repr

namespace Guards

/-- How many keys may be held when nothing else is said. -/
def defaultLimit : Int := 64

/-- No key is held. -/
def none (limit : Int) : Guards := ⟨limit, []⟩

/-- How many more keys may be entered. -/
def room (g : Guards) : Nat := (g.limit - g.held.length).toNat

/-- Holds one more key. That the key is held already is found before that there is no room. -/
def enter (g : Guards) (key : String) : Except Failure Guards :=
  if g.held.contains key then .error (.cycle (.chain (g.held ++ [key])))
  else if g.limit ≤ g.held.length then .error (.cycle (.tooDeep g.limit key))
  else .ok ⟨g.limit, g.held ++ [key]⟩

/-- Gives up the key that was entered last. -/
def exit (g : Guards) : Guards := ⟨g.limit, g.held.dropLast⟩

/-- Entering holds one new key, and no more keys than the limit. -/
theorem enter_ok {g inner : Guards} {key : String} (h : g.enter key = .ok inner) :
    inner = ⟨g.limit, g.held ++ [key]⟩ ∧ key ∉ g.held ∧ (g.held.length : Int) < g.limit := by
  unfold enter at h
  split at h
  · cases h
  · rename_i hk
    split at h
    · cases h
    · cases h
      exact ⟨rfl, fun hm => hk (List.contains_iff_mem.2 hm), by omega⟩

/-- Entering takes room. -/
theorem room_enter {g g' : Guards} {key : String} (h : g.enter key = .ok g') :
    g'.room < g.room := by
  obtain ⟨rfl, -, hl⟩ := enter_ok h
  simp only [room, List.length_append, List.length_cons, List.length_nil]
  omega

end Guards

end ServiceModel

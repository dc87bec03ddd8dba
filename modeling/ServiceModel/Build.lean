/-
Building a service is a computation that keeps a journal and may fail. The journal records the
types, enums and unions that are defined on the way, the unsupported features that are met, and
the stages that are reached. What was recorded before a failure stays recorded.
-/
import ServiceModel.Failure
import ServiceModel.Service.Basic

namespace ServiceModel

open Service

/-- An entry of the journal. -/
inductive Entry where
  /-- A type without a name of its own is defined. -/
  | type (definition : TypeDef)
  | enum (definition : EnumDef)
  | union (definition : UnionDef)
  | violation (violation : Violation)
  /-- All interfaces are built. -/
  | interfaces (count : Nat)
  /-- The type of a schema component is defined. -/
  | component (name : String)
  deriving Repr

namespace Entry

def type? : Entry → Option TypeDef
  | .type t => some t
  | _ => none

def enum? : Entry → Option EnumDef
  | .enum e => some e
  | _ => none

def union? : Entry → Option UnionDef
  | .union u => some u
  | _ => none

def violation? : Entry → Option Violation
  | .violation v => some v
  | _ => none

end Entry

/-- A computation with a journal and an outcome. -/
structure Build (α : Type) where
  journal : List Entry
  outcome : Except Failure α

namespace Build

variable {α β : Type}

/-- The value, with nothing recorded. -/
def done (value : α) : Build α := ⟨[], .ok value⟩

/-- The failure, with nothing recorded. -/
def fail (failure : Failure) : Build α := ⟨[], .error failure⟩

/-- The computation that goes on with the value of another one; its records come after those. -/
def andThen (first : Build α) (next : α → Build β) : Build β :=
  match first.outcome with
  | .error e => ⟨first.journal, .error e⟩
  | .ok value =>
    let rest := next value
    ⟨first.journal ++ rest.journal, rest.outcome⟩

instance : Monad Build where
  pure := done
  bind := andThen

/-- Records one entry. -/
def record (entry : Entry) : Build Unit := ⟨[entry], .ok ()⟩

/-- What is read from the document, together with the fact that it was read there. -/
def read (source : Except Failure α) : Build { value : α // source = .ok value } :=
  match source with
  | .ok value => done ⟨value, rfl⟩
  | .error e => fail e

/-- What is read from the document. -/
def lift (source : Except Failure α) : Build α := ⟨[], source⟩

instance : MonadLift (Except Failure) Build := ⟨lift⟩

/-- The computation with its records as a part of its value. -/
def listen (build : Build α) : Build (α × List Entry) :=
  ⟨build.journal, build.outcome.map fun value => (value, build.journal)⟩

/-! ## Laws -/

@[ext] theorem ext {x y : Build α} (hj : x.journal = y.journal) (ho : x.outcome = y.outcome) :
    x = y := by
  cases x; cases y; cases hj; cases ho; rfl

theorem pure_eq (value : α) : (pure value : Build α) = ⟨[], .ok value⟩ := rfl

theorem bind_eq (first : Build α) (next : α → Build β) :
    (first >>= next) =
      match first.outcome with
      | .error e => ⟨first.journal, .error e⟩
      | .ok value => ⟨first.journal ++ (next value).journal, (next value).outcome⟩ := rfl

instance : LawfulMonad Build := LawfulMonad.mk' Build
  (by
    rintro α ⟨j, o⟩
    cases o <;> simp [Functor.map, andThen, done])
  (by
    intro α β a f
    simp [bind, pure, andThen, done])
  (by
    rintro α β γ ⟨j, o⟩ f g
    cases o with
    | error e => simp [bind, andThen]
    | ok a =>
      simp only [bind, andThen]
      cases h : (f a).outcome <;> simp)

/-- What is read is the same whether or not the fact that it was read is kept. -/
theorem read_bind {source : Except Failure α} {kept : { value : α // source = .ok value } → Build β}
    {next : α → Build β} (h : ∀ value hv, kept ⟨value, hv⟩ = next value) :
    (read source >>= kept) = (lift source >>= next) := by
  cases source with
  | error e => rfl
  | ok value =>
    have same : kept ⟨value, rfl⟩ = next value := h value rfl
    simp [read, lift, done, bind_eq, same]

/-- Going through a list is the same whether or not membership is kept. -/
theorem mapM_attach {xs : List α} {kept : { x // x ∈ xs } → Build β} {next : α → Build β}
    (h : ∀ x hx, kept ⟨x, hx⟩ = next x) : xs.attach.mapM kept = xs.mapM next := by
  have same : kept = next ∘ Subtype.val := funext fun ⟨x, hx⟩ => h x hx
  rw [same, ← List.mapM_map, List.attach_map_subtype_val]

end Build

end ServiceModel

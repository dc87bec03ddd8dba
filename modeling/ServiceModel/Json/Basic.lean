/-
JSON values. The members of an object stand in order; integers and double precision numbers are
told apart.
-/
import ServiceModel.Double.Basic

namespace ServiceModel

/-- A JSON value. -/
inductive Json where
  | null
  | bool (value : Bool)
  | int (value : Int)
  | double (value : Double)
  | string (value : String)
  | array (items : List Json)
  | object (members : List (String × Json))
  deriving Repr, Inhabited

namespace Json

mutual

/-- Equality of values, decided member by member. -/
def beq : Json → Json → Bool
  | .null, .null => true
  | .bool a, .bool b => a == b
  | .int a, .int b => a == b
  | .double a, .double b => a == b
  | .string a, .string b => a == b
  | .array as, .array bs => beqItems as bs
  | .object as, .object bs => beqMembers as bs
  | _, _ => false

def beqItems : List Json → List Json → Bool
  | [], [] => true
  | a :: as, b :: bs => beq a b && beqItems as bs
  | _, _ => false

def beqMembers : List (String × Json) → List (String × Json) → Bool
  | [], [] => true
  | (m, a) :: as, (n, b) :: bs => m == n && beq a b && beqMembers as bs
  | _, _ => false

end

instance : BEq Json := ⟨beq⟩

/-- The member of an object with the given name. -/
def member? (json : Json) (name : String) : Option Json :=
  match json with
  | .object members => members.lookup name
  | _ => none

/-- The members with one value put under a name: a name that is present keeps its place and gets
the new value, a new one comes last. -/
def put (name : String) (value : Json) : List (String × Json) → List (String × Json)
  | [] => [(name, value)]
  | (n, v) :: rest => if n = name then (n, value) :: rest else (n, v) :: put name value rest

mutual

/-- The value with null in place of every number that is infinite or no number. -/
def finiteOnly : Json → Json
  | .double x => if x.isFinite then .double x else .null
  | .array items => .array (finiteItems items)
  | .object members => .object (finiteMembers members)
  | json => json

def finiteItems : List Json → List Json
  | [] => []
  | item :: rest => item.finiteOnly :: finiteItems rest

def finiteMembers : List (String × Json) → List (String × Json)
  | [] => []
  | (name, value) :: rest => (name, value.finiteOnly) :: finiteMembers rest

end

end Json

end ServiceModel

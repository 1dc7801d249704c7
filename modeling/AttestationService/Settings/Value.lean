import AttestationService.Number.Decimal

/-!
Settings as they are given, before they are read: values in lists and tables, each with the place
it comes from. Laying a value over another keeps what the new one says nothing about.
-/

namespace AttestationService.Settings

inductive Scalar where
  | null
  | bool (b : Bool)
  | integer (n : Int)
  | real (x : Decimal.Real)
  | text (s : String)
  deriving DecidableEq, Repr

inductive Value where
  | scalar (origin : Option String) (s : Scalar)
  | list (origin : Option String) (items : List Value)
  | table (origin : Option String) (members : List (String × Value))
  deriving Repr, Inhabited

namespace Value

def nothing : Value := .scalar none .null

def empty : Value := .table none []

def origin : Value → Option String
  | .scalar origin _ => origin
  | .list origin _ => origin
  | .table origin _ => origin

def putMember (key : String) (value : Value) : List (String × Value) → List (String × Value)
  | [] => [(key, value)]
  | (k, v) :: rest => if k = key then (k, value) :: rest else (k, v) :: putMember key value rest

def member (key : String) (members : List (String × Value)) : Value :=
  (members.lookup key).getD nothing

mutual

/-- A table is laid over what is there member by member; any other value takes its place. -/
def onto : Value → Value → Value
  | .table _ members, .table origin old => .table origin (ontoMembers members old)
  | .table _ members, _ => .table none (ontoMembers members [])
  | .scalar origin s, _ => .scalar origin s
  | .list origin items, _ => .list origin items

def ontoMembers : List (String × Value) → List (String × Value) → List (String × Value)
  | [], old => old
  | (key, value) :: rest, old => ontoMembers rest (putMember key (onto value (member key old)) old)

end

end Value

end AttestationService.Settings

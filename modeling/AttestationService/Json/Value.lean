import AttestationService.Number.Binary64

/-!
JSON values. A value as it was read keeps every member of an object in the order of the document,
repetitions included; `merged` keeps one member a key, with the last value, where the key first
stood.
-/

namespace AttestationService.Json

inductive Number where
  | integer (n : Int)
  | real (x : Binary64)
  deriving DecidableEq, Repr

inductive Value where
  | null
  | bool (b : Bool)
  | number (n : Number)
  | string (s : String)
  | array (items : List Value)
  | object (members : List (String × Value))
  deriving Repr, BEq, Inhabited

/-- Gives `key` the value: in place if the key is there, at the end if it is not. -/
def insert (key : String) (value : Value) : List (String × Value) → List (String × Value)
  | [] => [(key, value)]
  | (k, v) :: rest => if k = key then (k, value) :: rest else (k, v) :: insert key value rest

/-- One member a key: the last value, at the place of the first. -/
def mergeMembers (members : List (String × Value)) : List (String × Value) :=
  members.foldl (fun merged m => insert m.1 m.2 merged) []

mutual

def Value.merged : Value → Value
  | .array items => .array (mergedItems items)
  | .object members => .object (mergeMembers (mergedMembers members))
  | v => v

def mergedItems : List Value → List Value
  | [] => []
  | v :: rest => v.merged :: mergedItems rest

def mergedMembers : List (String × Value) → List (String × Value)
  | [] => []
  | (k, v) :: rest => (k, v.merged) :: mergedMembers rest

end

mutual

/-- How many arrays and objects stand inside one another at the deepest place. -/
def Value.depth : Value → Nat
  | .array items => itemsDepth items + 1
  | .object members => membersDepth members + 1
  | _ => 0

def itemsDepth : List Value → Nat
  | [] => 0
  | v :: rest => max v.depth (itemsDepth rest)

def membersDepth : List (String × Value) → Nat
  | [] => 0
  | (_, v) :: rest => max v.depth (membersDepth rest)

end

end AttestationService.Json

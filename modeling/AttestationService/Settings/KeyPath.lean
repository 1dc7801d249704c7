import AttestationService.Settings.Value
import AttestationService.Text.Search

/-!
Keys that lead into tables and lists: `a.b` is a member of a table, and `a[0]` an item of a list,
counted from its end if the number is negative. A key that is no such path names a member as it is.
-/

namespace AttestationService.Settings

inductive Step where
  | member (key : String)
  | item (index : Int)
  deriving DecidableEq, Repr

structure KeyPath where
  root : String
  steps : List Step
  deriving DecidableEq, Repr

namespace KeyPath

def isKeyChar (c : Char) : Bool := c.isAlphanum || c == '_' || c == '-'

def isGap (c : Char) : Bool := c == ' ' || c == '\t'

def index? (text : List Char) : Option Int :=
  let text := ((text.dropWhile isGap).reverse.dropWhile isGap).reverse
  match text with
  | '-' :: digits => ((decimal? digits).filter (· ≤ 0x8000000000000000)).map fun n => -(n : Int)
  | digits => ((decimal? digits).filter (· < 0x8000000000000000)).map fun n => (n : Int)
where
  decimal? (digits : List Char) : Option Nat :=
    if digits.all Char.isDigit then Decimal.natOf? 10 digits else none

def steps? (fuel : Nat) (text : List Char) : Option (List Step) :=
  match fuel, text with
  | _, [] => some []
  | 0, _ => none
  | fuel + 1, '.' :: rest =>
    let key := rest.takeWhile isKeyChar
    if key.isEmpty then none
    else (steps? fuel (rest.drop key.length)).map (.member (String.ofList key) :: ·)
  | fuel + 1, '[' :: rest =>
    let inner := rest.takeWhile (· != ']')
    match index? inner, rest.drop inner.length with
    | some index, ']' :: rest => (steps? fuel rest).map (.item index :: ·)
    | _, _ => none
  | _, _ => none

def ofText? (text : String) : Option KeyPath :=
  let key := text.toList.takeWhile isKeyChar
  if key.isEmpty then none
  else
    let rest := text.toList.drop key.length
    (steps? rest.length rest).map (⟨String.ofList key, ·⟩)

/-- Every key is a path: one without steps if it reads as no other. -/
def ofText (text : String) : KeyPath := (ofText? text).getD ⟨text, []⟩

end KeyPath

namespace Value

def membersOf : Value → Option String × List (String × Value)
  | .table origin members => (origin, members)
  | _ => (none, [])

def itemsOf : Value → Option String × List Value
  | .list origin items => (origin, items)
  | _ => (none, [])

/-- A list long enough for an index, and where the index stands in it. An index before the first
item makes room in front. -/
def makeRoom (index : Int) (items : List Value) : List Value × Nat :=
  let size : Int := items.length
  if 0 ≤ index then
    (items ++ List.replicate (index + 1 - size).toNat nothing, index.toNat)
  else if 0 ≤ size + index then (items, (size + index).toNat)
  else (List.replicate (-index - size).toNat nothing ++ items, 0)

def layAt (value : Value) : List Step → Value → Value
  | [], target => value.onto target
  | .member key :: steps, target =>
    let (origin, members) := target.membersOf
    .table origin (putMember key (layAt value steps (member key members)) members)
  | .item index :: steps, target =>
    let (origin, items) := target.itemsOf
    let (items, i) := makeRoom index items
    .list origin (items.modify i (layAt value steps))

def put (path : KeyPath) (value : Value) (target : Value) : Value :=
  layAt value (.member path.root :: path.steps) target

def lay (layer : List (String × Value)) (target : Value) : Value :=
  layer.foldl (fun v (key, value) => put (.ofText key) value v) target

end Value

end AttestationService.Settings

import AttestationService.Number.Decimal
import AttestationService.Text.Quoted

/-!
What a YAML document says. Plain scalars are read as null, booleans, integers of 64 bits or reals
if they look like one, and as text if not; a real keeps its spelling.
-/

namespace AttestationService.Yaml

inductive Node where
  | null
  | bool (b : Bool)
  | integer (n : Int)
  | real (spelling : String)
  | string (s : String)
  | sequence (items : List Node)
  | mapping (members : List (Node × Node))
  /-- What a tag asked for and the scalar is not, or the value of an anchor not yet complete. -/
  | unusable
  deriving Repr, Inhabited

mutual

def Node.same : Node → Node → Bool
  | .null, .null => true
  | .bool b, .bool c => b == c
  | .integer n, .integer m => n == m
  | .real s, .real t => s == t
  | .string s, .string t => s == t
  | .sequence items, .sequence others => sameItems items others
  | .mapping members, .mapping others => sameMembers members others
  | .unusable, .unusable => true
  | _, _ => false

def sameItems : List Node → List Node → Bool
  | [], [] => true
  | n :: rest, m :: others => n.same m && sameItems rest others
  | _, _ => false

def sameMembers : List (Node × Node) → List (Node × Node) → Bool
  | [], [] => true
  | (k, v) :: rest, (l, w) :: others => k.same l && v.same w && sameMembers rest others
  | _, _ => false

end

instance : BEq Node := ⟨Node.same⟩

def signed64? (base : Nat) (text : List Char) : Option Int :=
  let (negative, digits) : Bool × List Char :=
    match text with
    | '-' :: rest => (true, rest)
    | '+' :: rest => (false, rest)
    | _ => (false, text)
  match Decimal.natOf? base digits with
  | none => none
  | some n =>
    if negative then if n ≤ 0x8000000000000000 then some (-(n : Int)) else none
    else if n < 0x8000000000000000 then some n else none

def isReal (text : List Char) : Bool :=
  let word := String.ofList text
  [".inf", ".Inf", ".INF", "+.inf", "+.Inf", "+.INF", "-.inf", "-.Inf", "-.INF", ".nan", ".NaN",
    ".NAN"].contains word || (text.any Char.isDigit && (Decimal.ofText? text).isSome)

namespace Node

def ofPlain (text : List Char) : Node :=
  let based : Option Int :=
    match text with
    | '0' :: 'x' :: rest => signed64? 16 rest
    | '0' :: 'o' :: rest => signed64? 8 rest
    | '+' :: rest => signed64? 10 rest
    | _ => none
  match based with
  | some n => .integer n
  | none =>
    let word := String.ofList text
    if ["", "~", "null"].contains word then .null
    else if ["true", "True", "TRUE"].contains word then .bool true
    else if ["false", "False", "FALSE"].contains word then .bool false
    else
      match signed64? 10 text with
      | some n => .integer n
      | none => if isReal text then .real word else .string word

def ofTagged (handle suffix text : String) : Node :=
  if handle ≠ "tag:yaml.org,2002:" then .string text
  else
    match suffix with
    | "bool" =>
      if text = "true" then .bool true else if text = "false" then .bool false else .unusable
    | "int" =>
      match signed64? 10 text.toList with
      | some n => .integer n
      | none => .unusable
    | "float" => if isReal text.toList then .real text else .unusable
    | "null" => if text = "~" ∨ text = "null" then .null else .unusable
    | _ => .string text

/-- The members of a mapping, from its keys and values in turn. A key that is unusable gives way to
the next node; a key may come once only. -/
def pairUp (members : List (Node × Node)) (pending : Option Node) :
    List Node → Option (List (Node × Node))
  | [] => some members.reverse
  | node :: rest =>
    match pending with
    | none => pairUp members (if node == .unusable then none else some node) rest
    | some key =>
      if members.any (·.1 == key) then none else pairUp ((key, node) :: members) none rest

mutual

def shown : Node → List Char
  | .null => "Null".toList
  | .bool b => "Boolean(".toList ++ (if b then "true" else "false").toList ++ [')']
  | .integer n => "Integer(".toList ++ (toString n).toList ++ [')']
  | .real s => "Real(".toList ++ Text.quoted s.toList ++ [')']
  | .string s => "String(".toList ++ Text.quoted s.toList ++ [')']
  | .sequence items => "Array([".toList ++ shownItems items ++ [']', ')']
  | .mapping members => "Hash(\x7b".toList ++ shownMembers members ++ ['\x7d', ')']
  | .unusable => "BadValue".toList

def shownItems : List Node → List Char
  | [] => []
  | [n] => n.shown
  | n :: rest => n.shown ++ [',', ' '] ++ shownItems rest

def shownMembers : List (Node × Node) → List Char
  | [] => []
  | [(k, v)] => k.shown ++ [':', ' '] ++ v.shown
  | (k, v) :: rest => k.shown ++ [':', ' '] ++ v.shown ++ [',', ' '] ++ shownMembers rest

end

end Node

end AttestationService.Yaml

import AttestationService.Json.Value
import AttestationService.Number.Shortest

/-!
Writing JSON, on one line or indented by two spaces. Strings escape the quote, the backslash and
the controls below U+0020; reals have the fewest digits that read back.
-/

namespace AttestationService.Json

def hexDigit (n : Nat) : Char :=
  if n < 10 then Char.ofNat (48 + n) else Char.ofNat (87 + n)

def escapeChar (c : Char) : List Char :=
  if c = '"' then ['\\', '"']
  else if c = '\\' then ['\\', '\\']
  else if c = '\n' then ['\\', 'n']
  else if c = '\r' then ['\\', 'r']
  else if c = '\t' then ['\\', 't']
  else if c = '\x08' then ['\\', 'b']
  else if c = '\x0c' then ['\\', 'f']
  else if c.toNat < 0x20 then ['\\', 'u', '0', '0', hexDigit (c.toNat / 16), hexDigit (c.toNat % 16)]
  else [c]

def stringText (s : String) : List Char :=
  '"' :: s.toList.flatMap escapeChar ++ ['"']

/-- A real: positional, with a fraction, when its first digit's exponent is from -5 to 15, and
else one digit before the point and the exponent with its sign. -/
def realText (x : Binary64) : List Char :=
  let sign := if x.negative then ['-'] else []
  if x.isZero then sign ++ ['0', '.', '0']
  else
    let (digits, exponent) := x.shortest.scientific
    if -5 ≤ exponent ∧ exponent ≤ 15 then
      let (whole, fraction) := Binary64.positional digits exponent
      sign ++ whole ++ '.' :: (if fraction.isEmpty then ['0'] else fraction)
    else
      let power := (if exponent < 0 then ['e', '-'] else ['e', '+'])
        ++ (toString exponent.natAbs).toList
      match digits with
      | [] => sign
      | [d] => sign ++ d :: power
      | d :: rest => sign ++ d :: '.' :: rest ++ power

def numberText : Number → List Char
  | .integer n => (toString n).toList
  | .real x => realText x

mutual

def compact : Value → List Char
  | .null => ['n', 'u', 'l', 'l']
  | .bool true => ['t', 'r', 'u', 'e']
  | .bool false => ['f', 'a', 'l', 's', 'e']
  | .number n => numberText n
  | .string s => stringText s
  | .array items => '[' :: compactItems items ++ [']']
  | .object members => '\x7b' :: compactMembers members ++ ['\x7d']

def compactItems : List Value → List Char
  | [] => []
  | [v] => compact v
  | v :: rest => compact v ++ ',' :: compactItems rest

def compactMembers : List (String × Value) → List Char
  | [] => []
  | [(k, v)] => stringText k ++ ':' :: compact v
  | (k, v) :: rest => stringText k ++ ':' :: compact v ++ ',' :: compactMembers rest

end

def lineBreak (level : Nat) : List Char :=
  '\n' :: List.replicate (2 * level) ' '

mutual

/-- Each item and member on a line of its own; what is empty stays on its line. -/
def indented (level : Nat) : Value → List Char
  | .null => ['n', 'u', 'l', 'l']
  | .bool true => ['t', 'r', 'u', 'e']
  | .bool false => ['f', 'a', 'l', 's', 'e']
  | .number n => numberText n
  | .string s => stringText s
  | .array [] => ['[', ']']
  | .array items => '[' :: indentedItems (level + 1) items ++ lineBreak level ++ [']']
  | .object [] => ['\x7b', '\x7d']
  | .object members => '\x7b' :: indentedMembers (level + 1) members ++ lineBreak level ++ ['\x7d']

def indentedItems (level : Nat) : List Value → List Char
  | [] => []
  | [v] => lineBreak level ++ indented level v
  | v :: rest => lineBreak level ++ indented level v ++ ',' :: indentedItems level rest

def indentedMembers (level : Nat) : List (String × Value) → List Char
  | [] => []
  | [(k, v)] => lineBreak level ++ stringText k ++ ':' :: ' ' :: indented level v
  | (k, v) :: rest =>
    lineBreak level ++ stringText k ++ ':' :: ' ' :: indented level v
      ++ ',' :: indentedMembers level rest

end

def Value.compact (v : Value) : String := String.ofList (Json.compact v)

def Value.pretty (v : Value) : String := String.ofList (Json.indented 0 v)

end AttestationService.Json

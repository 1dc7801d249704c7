import AttestationService.Json.Error
import AttestationService.Json.Value

/-!
Reading JSON. The input is a list of pieces, so that a text and octets that may spell no text are
read by the same functions. A reader takes its construct off the front and returns what follows;
`fuel` only has to exceed the number of pieces. `depth` is how many more arrays and objects may be
entered: a document has 127.
-/

namespace AttestationService.Json

open Utf8 (Piece)

abbrev Input := List Piece

def Input.ofText (text : List Char) : Input := text.map Piece.char

def octetCount (input : Input) : Nat :=
  input.foldl (fun n p => n + p.octets.length) 0

def failHere {α : Type} (cause : Cause) (rest : Input) : Except Failure α :=
  .error ⟨cause, octetCount rest⟩

def failNext {α : Type} (cause : Cause) (rest : Input) : Except Failure α :=
  .error ⟨cause, octetCount rest - 1⟩

def isSpace (c : Char) : Bool :=
  c == ' ' || c == '\n' || c == '\t' || c == '\r'

def skipSpace : Input → Input
  | .char c :: rest => if isSpace c then skipSpace rest else .char c :: rest
  | input => input

def word (letters : List Char) (input : Input) : Except Failure Input :=
  match letters, input with
  | [], rest => .ok rest
  | _ :: _, [] => failHere .endInValue []
  | l :: letters, .char c :: rest =>
    if c = l then word letters rest
    else .error ⟨.wordExpected, octetCount (.char c :: rest) - 1⟩
  | _ :: _, .stray o :: rest => .error ⟨.wordExpected, octetCount (.stray o :: rest) - 1⟩

def digitOf? (c : Char) : Option Nat :=
  if '0' ≤ c ∧ c ≤ '9' then some (c.toNat - '0'.toNat) else none

def digit? : Input → Option (Nat × Input)
  | .char c :: rest => (digitOf? c).map (·, rest)
  | _ => none

def maxNatural : Nat := 0xFFFFFFFFFFFFFFFF

/-- The digits of a whole number as far as they fit into 64 bits, and how many came after. -/
def wholeDigits (natural dropped : Nat) : Input → Nat × Nat × Input
  | .char c :: rest =>
    match digitOf? c with
    | some d =>
      if dropped = 0 ∧ natural * 10 + d ≤ maxNatural then wholeDigits (natural * 10 + d) 0 rest
      else wholeDigits natural (dropped + 1) rest
    | none => (natural, dropped, .char c :: rest)
  | input => (natural, dropped, input)

def skipDigits : Input → Input
  | .char c :: rest => if (digitOf? c).isSome then skipDigits rest else .char c :: rest
  | input => input

/-- The digits of a fraction, as far as they fit behind `natural`, and how many were taken up; the
others do not count. -/
def fractionDigits (natural taken : Nat) : Input → Nat × Nat × Input
  | .char c :: rest =>
    match digitOf? c with
    | some d =>
      if natural * 10 + d ≤ maxNatural then fractionDigits (natural * 10 + d) (taken + 1) rest
      else (natural, taken, skipDigits rest)
    | none => (natural, taken, .char c :: rest)
  | input => (natural, taken, input)

/-- The digits of an exponent, or nothing for its value if it passes 31 bits; the reading stops
there. -/
def exponentDigits (exponent : Nat) : Input → Option Nat × Input
  | .char c :: rest =>
    match digitOf? c with
    | some d =>
      if exponent * 10 + d ≤ 0x7FFFFFFF then exponentDigits (exponent * 10 + d) rest
      else (none, rest)
    | none => (some exponent, .char c :: rest)
  | input => (some exponent, input)

def powerOfTen (n : Nat) : Option Binary64 := Binary64.ofRatio? false (Nat.pow 10 n) 1

def scaleDown (large : Option Binary64) : Nat → Binary64 → Int → Binary64 × Int
  | 0, x, exponent => (x, exponent)
  | fuel + 1, x, exponent =>
    if x.isZero ∨ -308 ≤ exponent then (x, exponent)
    else
      match large.bind x.div? with
      | some y => scaleDown large fuel y (exponent + 308)
      | none => (x, exponent)

/-- `natural * 10 ^ exponent` in two roundings: one of the natural number and one of its product
or quotient with a power of ten. It need not be the nearest double. -/
def realOf? (negative : Bool) (natural : Nat) (exponent : Int) : Option Binary64 := do
  let x ← Binary64.ofNat? natural
  let (x, exponent) := scaleDown (powerOfTen 308) (-exponent).toNat x exponent
  let x ←
    if x.isZero then pure x
    else if 308 < exponent then none
    else if 0 ≤ exponent then (powerOfTen exponent.toNat).bind x.mul?
    else (powerOfTen (-exponent).toNat).bind x.div?
  pure (if negative then x.neg else x)

def real (negative : Bool) (natural : Nat) (exponent : Int) (rest : Input) :
    Except Failure (Number × Input) :=
  match realOf? negative natural exponent with
  | some x => .ok (.real x, rest)
  | none => failHere .numberTooLarge rest

def exponentPart (negative : Bool) (natural : Nat) (scale : Int) (input : Input) :
    Except Failure (Number × Input) :=
  let (down, rest) : Bool × Input :=
    match input with
    | .char c :: rest => if c = '+' then (false, rest) else if c = '-' then (true, rest) else (false, input)
    | _ => (false, input)
  match rest with
  | [] => failHere .endInValue []
  | piece :: after =>
    match digit? rest with
    | none => .error ⟨.badNumber, octetCount (piece :: after) - 1⟩
    | some (d, after) =>
      match exponentDigits d after with
      | (some exponent, rest) =>
        real negative natural (if down then scale - exponent else scale + exponent) rest
      | (none, rest) =>
        if natural ≠ 0 ∧ ¬down then failHere .numberTooLarge rest
        else .ok (.real (Binary64.zero negative), skipDigits rest)

def exponentMark? : Input → Option Input
  | .char c :: rest => if c = 'e' ∨ c = 'E' then some rest else none
  | _ => none

def fractionPart (negative : Bool) (natural dropped : Nat) (input : Input) :
    Except Failure (Number × Input) :=
  match digit? input with
  | none =>
    if input.isEmpty then failNext .endInValue input else failNext .badNumber input
  | some _ =>
    let (natural, taken, rest) := fractionDigits natural 0 input
    let scale : Int := (dropped : Int) - taken
    match exponentMark? rest with
    | some rest => exponentPart negative natural scale rest
    | none => real negative natural scale rest

/-- A whole number that ends here. Negative zero and negative numbers below the 64-bit range are
reals. -/
def whole (negative : Bool) (natural : Nat) (rest : Input) : Except Failure (Number × Input) :=
  if ¬negative then .ok (.integer natural, rest)
  else if natural = 0 ∨ 0x8000000000000000 < natural then
    match Binary64.ofRatio? true natural 1 with
    | some x => .ok (.real x, rest)
    | none => failHere .numberTooLarge rest
  else .ok (.integer (-(natural : Int)), rest)

def number (negative : Bool) (input : Input) : Except Failure (Number × Input) :=
  match input with
  | [] => failHere .endInValue []
  | piece :: after =>
    match digit? input with
    | none => .error ⟨.badNumber, octetCount (piece :: after) - 1⟩
    | some (0, rest) =>
      if (digit? rest).isSome then failNext .badNumber rest else tail 0 0 rest
    | some (d, rest) =>
      let (natural, dropped, rest) := wholeDigits d 0 rest
      tail natural dropped rest
where
  tail (natural dropped : Nat) (rest : Input) : Except Failure (Number × Input) :=
    match rest with
    | .char c :: after =>
      if c = '.' then fractionPart negative natural dropped after
      else if c = 'e' ∨ c = 'E' then exponentPart negative natural dropped after
      else close natural dropped rest
    | _ => close natural dropped rest
  close (natural dropped : Nat) (rest : Input) : Except Failure (Number × Input) :=
    if dropped = 0 then whole negative natural rest else real negative natural dropped rest

def hexQuad? (input : Input) : Option (Nat × Input) :=
  match input with
  | .char a :: .char b :: .char c :: .char d :: rest => do
    let a ← hexDigit? a
    let b ← hexDigit? b
    let c ← hexDigit? c
    let d ← hexDigit? d
    pure (((a * 16 + b) * 16 + c) * 16 + d, rest)
  | _ => none
where
  hexDigit? (c : Char) : Option Nat :=
    if '0' ≤ c ∧ c ≤ '9' then some (c.toNat - 48)
    else if 'A' ≤ c ∧ c ≤ 'F' then some (c.toNat - 55)
    else if 'a' ≤ c ∧ c ≤ 'f' then some (c.toNat - 87)
    else none

def hexQuadFailure (input : Input) : Failure :=
  let left := octetCount input
  if 4 ≤ left then ⟨.badEscape, left - 4⟩ else ⟨.endInString, 0⟩

def shortEscape? (c : Char) : Option Char :=
  match c with
  | '"' => some '"'
  | '\\' => some '\\'
  | '/' => some '/'
  | 'b' => some '\x08'
  | 'f' => some '\x0c'
  | 'n' => some '\n'
  | 'r' => some '\r'
  | 't' => some '\t'
  | _ => none

def trailingSurrogate (high : Nat) (input : Input) : Except Failure (Char × Input) :=
  match input with
  | [] => failHere .endInString []
  | .char '\\' :: [] => failHere .endInString []
  | .char '\\' :: .char 'u' :: rest =>
    match hexQuad? rest with
    | none => .error (hexQuadFailure rest)
    | some (low, rest) =>
      if 0xDC00 ≤ low ∧ low ≤ 0xDFFF then
        .ok (Char.ofNat ((high - 0xD800) * 1024 + (low - 0xDC00) + 0x10000), rest)
      else failHere .loneSurrogate rest
  | .char '\\' :: rest => failNext .escapeCutShort rest
  | rest => failNext .escapeCutShort rest

def escape (input : Input) : Except Failure (Char × Input) :=
  match input with
  | [] => failHere .endInString []
  | .char 'u' :: rest =>
    match hexQuad? rest with
    | none => .error (hexQuadFailure rest)
    | some (n, rest) =>
      if 0xDC00 ≤ n ∧ n ≤ 0xDFFF then failHere .loneSurrogate rest
      else if 0xD800 ≤ n ∧ n ≤ 0xDBFF then trailingSurrogate n rest
      else .ok (Char.ofNat n, rest)
  | .char c :: rest =>
    match shortEscape? c with
    | some c => .ok (c, rest)
    | none => failNext .badEscape (.char c :: rest)
  | rest => failNext .badEscape rest

/-- The rest of a string whose opening quote has been taken. `content` holds its characters, last
first, and `sound` says that all of it so far was text. -/
def stringRest (fuel : Nat) (content : List Char) (sound : Bool) (input : Input) :
    Except Failure (String × Input) :=
  match fuel, input with
  | _, [] => failHere .endInString []
  | 0, rest => failHere .endInString rest
  | fuel + 1, .stray _ :: rest => stringRest fuel content false rest
  | fuel + 1, .char c :: rest =>
    if c = '"' then
      if sound then .ok (String.ofList content.reverse, rest) else failHere .notUnicode rest
    else if c = '\\' then
      match escape rest with
      | .ok (c, rest) => stringRest fuel (c :: content) sound rest
      | .error f => .error f
    else if c < ' ' then failHere .controlInString rest
    else stringRest fuel (c :: content) sound rest

def colon (input : Input) : Except Failure Input :=
  match skipSpace input with
  | .char ':' :: rest => .ok rest
  | [] => failNext .endInObject []
  | rest => failNext .colonExpected rest

/-- Whether an item follows in an array, and what it begins with: `first` before the first item. -/
def nextItem (first : Bool) (input : Input) : Except Failure (Option Input) :=
  match skipSpace input with
  | [] => failNext .endInArray []
  | .char ']' :: _ => .ok none
  | piece :: rest =>
    if first then .ok (some (piece :: rest))
    else if piece = .char ',' then
      match skipSpace rest with
      | [] => failNext .endInValue []
      | .char ']' :: rest => failNext .trailingComma (.char ']' :: rest)
      | rest => .ok (some rest)
    else failNext .itemEndExpected (piece :: rest)

def nextMember (first : Bool) (input : Input) : Except Failure (Option Input) :=
  match skipSpace input with
  | [] => failNext .endInObject []
  | .char '\x7d' :: _ => .ok none
  | piece :: rest =>
    if first then
      if piece = .char '"' then .ok (some rest) else failNext .keyExpected (piece :: rest)
    else if piece = .char ',' then
      match skipSpace rest with
      | [] => failNext .endInValue []
      | .char '"' :: rest => .ok (some rest)
      | .char '\x7d' :: rest => failNext .trailingComma (.char '\x7d' :: rest)
      | rest => failNext .keyExpected rest
    else failNext .memberEndExpected (piece :: rest)

def afterBracket (input : Input) : Input := (skipSpace input).drop 1

mutual

def value (fuel depth : Nat) (input : Input) : Except Failure (Value × Input) :=
  match fuel, skipSpace input with
  | _, [] => failNext .endInValue []
  | 0, rest => failNext .endInValue rest
  | _, .stray o :: rest => failNext .valueExpected (.stray o :: rest)
  | fuel + 1, .char c :: rest =>
    match c with
    | 'n' => (word ['u', 'l', 'l'] rest).map (Value.null, ·)
    | 't' => (word ['r', 'u', 'e'] rest).map (Value.bool true, ·)
    | 'f' => (word ['a', 'l', 's', 'e'] rest).map (Value.bool false, ·)
    | '-' => (number true rest).map fun (n, rest) => (.number n, rest)
    | '"' => (stringRest fuel [] true rest).map fun (s, rest) => (.string s, rest)
    | '[' =>
      match depth with
      | 0 => failNext .tooDeep (.char c :: rest)
      | depth + 1 => items fuel depth true [] rest
    | '\x7b' =>
      match depth with
      | 0 => failNext .tooDeep (.char c :: rest)
      | depth + 1 => members fuel depth true [] rest
    | c =>
      if (digitOf? c).isSome then (number false (.char c :: rest)).map fun (n, rest) => (.number n, rest)
      else failNext .valueExpected (.char c :: rest)

def items (fuel depth : Nat) (first : Bool) (done : List Value) (input : Input) :
    Except Failure (Value × Input) :=
  match fuel with
  | 0 => failNext .endInArray input
  | fuel + 1 =>
    match nextItem first input with
    | .error f => .error f
    | .ok none => .ok (.array done.reverse, afterBracket input)
    | .ok (some rest) =>
      match value fuel depth rest with
      | .error f => .error f
      | .ok (v, rest) => items fuel depth false (v :: done) rest

def members (fuel depth : Nat) (first : Bool) (done : List (String × Value)) (input : Input) :
    Except Failure (Value × Input) :=
  match fuel with
  | 0 => failNext .endInObject input
  | fuel + 1 =>
    match nextMember first input with
    | .error f => .error f
    | .ok none => .ok (.object done.reverse, afterBracket input)
    | .ok (some rest) =>
      match stringRest fuel [] true rest with
      | .error f => .error f
      | .ok (key, rest) =>
        match colon rest with
        | .error f => .error f
        | .ok rest =>
          match value fuel depth rest with
          | .error f => .error f
          | .ok (v, rest) => members fuel depth false ((key, v) :: done) rest

end

def maxDepth : Nat := 127

def finish {α : Type} : α × Input → Except Failure α
  | (result, input) =>
    match skipSpace input with
    | [] => .ok result
    | rest => failNext .trailingText rest

def document (input : Input) : Except Error Value :=
  match (value (2 * input.length + 2) maxDepth input).bind finish with
  | .ok v => .ok v
  | .error f => .error (f.locate input)

def read (input : Input) : Except Error Value :=
  (document input).map Value.merged

def readText (text : List Char) : Except Error Value := read (Input.ofText text)

def readOctets (octets : List UInt8) : Except Error Value := read (Utf8.pieces octets)

end AttestationService.Json

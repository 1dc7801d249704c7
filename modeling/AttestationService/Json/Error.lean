import AttestationService.Text.Utf8

/-!
Why a text is no JSON document, and where that shows. A position is a line and a column, both
counted in octets from one line feed to the next.
-/

namespace AttestationService.Json

inductive Cause where
  | endInArray
  | endInObject
  | endInString
  | endInValue
  | colonExpected
  | itemEndExpected
  | memberEndExpected
  | wordExpected
  | valueExpected
  | badEscape
  | badNumber
  | numberTooLarge
  | notUnicode
  | controlInString
  | keyExpected
  | loneSurrogate
  | trailingComma
  | trailingText
  | escapeCutShort
  | tooDeep
  deriving DecidableEq, Repr

def Cause.isEnd : Cause → Bool
  | .endInArray | .endInObject | .endInString | .endInValue => true
  | _ => false

def Cause.message : Cause → String
  | .endInArray => "EOF while parsing a list"
  | .endInObject => "EOF while parsing an object"
  | .endInString => "EOF while parsing a string"
  | .endInValue => "EOF while parsing a value"
  | .colonExpected => "expected `:`"
  | .itemEndExpected => "expected `,` or `]`"
  | .memberEndExpected => "expected `,` or `\x7d`"
  | .wordExpected => "expected ident"
  | .valueExpected => "expected value"
  | .badEscape => "invalid escape"
  | .badNumber => "invalid number"
  | .numberTooLarge => "number out of range"
  | .notUnicode => "invalid unicode code point"
  | .controlInString => "control character (\\u0000-\\u001F) found while parsing a string"
  | .keyExpected => "key must be a string"
  | .loneSurrogate => "lone leading surrogate in hex escape"
  | .trailingComma => "trailing comma"
  | .trailingText => "trailing characters"
  | .escapeCutShort => "unexpected end of hex escape"
  | .tooDeep => "recursion limit exceeded"

/-- A cause and how many octets of the text were left when it showed. -/
structure Failure where
  cause : Cause
  left : Nat
  deriving DecidableEq, Repr

structure Error where
  cause : Cause
  line : Nat
  column : Nat
  deriving DecidableEq, Repr

def Error.message (e : Error) : String :=
  s!"{e.cause.message} at line {e.line} column {e.column}"

def positionAfter (octets : List UInt8) : Nat × Nat :=
  octets.foldl (fun at_ o => if o = 10 then (at_.1 + 1, 0) else (at_.1, at_.2 + 1)) (1, 0)

def Failure.locate (text : List Utf8.Piece) (f : Failure) : Error :=
  let octets := text.flatMap Utf8.Piece.octets
  let (line, column) := positionAfter (octets.take (octets.length - f.left))
  ⟨f.cause, line, column⟩

end AttestationService.Json

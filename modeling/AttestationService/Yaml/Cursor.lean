/-!
A place in a YAML text, and the moves over blanks, comments and line breaks. Lines end at a line
feed, a carriage return, or the two together; the text ends at its first NUL.
-/

namespace AttestationService.Yaml

def isBreak (c : Char) : Bool := c == '\n' || c == '\r'

def isBlank (c : Char) : Bool := c == ' ' || c == '\t'

def isSpace (c : Char) : Bool := isBlank c || isBreak c

def isFlow (c : Char) : Bool := c == ',' || c == '[' || c == ']' || c == '\x7b' || c == '\x7d'

def isWordChar (c : Char) : Bool := c.isAlphanum || c == '_' || c == '-'

def atLineEnd : List Char → Bool
  | [] => true
  | c :: _ => isBreak c

def atSpace : List Char → Bool
  | [] => true
  | c :: _ => isSpace c

structure Cursor where
  rest : List Char
  index : Nat
  line : Nat
  column : Nat
  leading : Bool

namespace Cursor

def start (text : List Char) : Cursor := ⟨text.takeWhile (· != '\x00'), 0, 0, 0, true⟩

def peek (c : Cursor) : Option Char := c.rest.head?

def passBlanks (n : Nat) (c : Cursor) : Cursor :=
  { c with rest := c.rest.drop n, index := c.index + n, column := c.column + n }

def pass (n : Nat) (c : Cursor) : Cursor :=
  if n = 0 then c else { c.passBlanks n with leading := false }

def passBreak (c : Cursor) : Cursor :=
  match c.rest with
  | '\r' :: '\n' :: rest => ⟨rest, c.index + 2, c.line + 1, 0, true⟩
  | b :: rest => if isBreak b then ⟨rest, c.index + 1, c.line + 1, 0, true⟩ else c
  | [] => c

def passLine (c : Cursor) : Cursor := c.pass (c.rest.takeWhile (!isBreak ·)).length

structure Gap where
  after : Cursor
  tabs : Bool
  spaces : Bool

/-- Passes blanks, and a comment after them, up to the end of the line. A comment needs a blank
before it. -/
def passGap (tabs : Bool) (c : Cursor) : Option Gap :=
  let run := c.rest.takeWhile fun b => b == ' ' || (tabs && b == '\t')
  let after := c.passBlanks run.length
  if after.peek = some '#' then
    if run.isEmpty then none else some ⟨after.passLine, run.contains '\t', run.contains ' '⟩
  else some ⟨after, run.contains '\t', run.contains ' '⟩

def startsWithMarks (mark : Char) (c : Cursor) : Bool :=
  match c.rest with
  | a :: b :: d :: rest => a == mark && b == mark && d == mark && atSpace rest
  | _ => false

def atDocumentMark (c : Cursor) : Bool := c.startsWithMarks '-' || c.startsWithMarks '.'

/-- Passes everything up to the next token, in `fuel` characters at most, and says whether a line
break was among it. In a block, a tab may not stand where indentation is due. -/
def passToToken (fuel : Nat) (inBlock : Bool) (indent : Int) (broke : Bool) (c : Cursor) :
    Option (Cursor × Bool) :=
  match fuel, c.rest with
  | 0, _ => none
  | _, [] => some (c, broke)
  | fuel + 1, d :: _ =>
    if d = '\t' ∧ inBlock ∧ c.leading ∧ (c.column : Int) < indent then
      match c.passGap true with
      | none => none
      | some gap =>
        if atLineEnd gap.after.rest then passToToken fuel inBlock indent broke gap.after else none
    else if isBlank d then passToToken fuel inBlock indent broke (c.passBlanks 1)
    else if isBreak d then passToToken fuel inBlock indent true c.passBreak
    else if d = '#' then passToToken fuel inBlock indent broke c.passLine
    else some (c, broke)

end Cursor

end AttestationService.Yaml

import AttestationService.Shell.Arithmetic

/-!
The two commands that print. One prints its words with a blank between them, the other after a
pattern; both read backslash escapes, the first one in all its words.
-/

namespace AttestationService.Shell

def isOctal (c : Char) : Bool := '0' ≤ c && c ≤ '7'

def octalChar (digits : Text) : Char := Char.ofNat ((digitsValue 8 digits).toNat % 256)

/-- What a backslash and the text after it stand for, and how many characters of the text that
takes. A backslash before any other character stands for itself. -/
def escape (text : Text) : Char × Nat :=
  match text with
  | '\\' :: _ => ('\\', 1)
  | 'a' :: _ => ('\x07', 1)
  | 'b' :: _ => ('\x08', 1)
  | 'e' :: _ => ('\x1b', 1)
  | 'f' :: _ => ('\x0c', 1)
  | 'n' :: _ => ('\n', 1)
  | 'r' :: _ => ('\r', 1)
  | 't' :: _ => ('\t', 1)
  | 'v' :: _ => ('\x0b', 1)
  | _ =>
    let digits := (text.take 3).takeWhile isOctal
    if digits.isEmpty then ('\\', 0) else (octalChar digits, digits.length)

/-- A word with its escapes read, and whether one of them ends all printing. Octal escapes have a
zero before their digits. -/
def unescape : Nat → Text → Text × Bool
  | 0, text => (text, false)
  | _, [] => ([], false)
  | _, '\\' :: 'c' :: _ => ([], true)
  | fuel + 1, '\\' :: '0' :: rest =>
    let digits := (rest.take 3).takeWhile isOctal
    let (more, ended) := unescape fuel (rest.drop digits.length)
    (octalChar digits :: more, ended)
  | fuel + 1, '\\' :: rest =>
    let (c, n) := escape rest
    let (more, ended) := unescape fuel (rest.drop n)
    (c :: more, ended)
  | fuel + 1, c :: rest =>
    let (more, ended) := unescape fuel rest
    (c :: more, ended)

def unescaped (text : Text) : Text × Bool := unescape text.length text

def echoWords (newline : Bool) : List Text → Text
  | [] => if newline then ['\n'] else []
  | [word] =>
    let (text, ended) := unescaped word
    if ended then text else if newline then text ++ ['\n'] else text
  | word :: rest =>
    let (text, ended) := unescaped word
    if ended then text else text ++ ' ' :: echoWords newline rest

def echo (words : List Text) : Text :=
  match words with
  | ['-', 'n'] :: rest => echoWords false rest
  | _ => echoWords true words

structure Setting where
  left : Bool
  zeros : Bool
  plus : Bool
  blank : Bool
  alternate : Bool
  width : Nat
  precision : Option Nat
  deriving DecidableEq, Repr

namespace Setting

def fill (s : Setting) (text : Text) : Text :=
  let gap := s.width - text.length
  if s.left then text ++ List.replicate gap ' ' else List.replicate gap ' ' ++ text

def setText (s : Setting) (text : Text) : Text :=
  s.fill (match s.precision with
    | some n => text.take n
    | none => text)

def setNumber (s : Setting) (sign digits : Text) : Text :=
  match s.precision with
  | some n => s.fill (sign ++ List.replicate (n - digits.length) '0' ++ digits)
  | none =>
    if s.zeros ∧ !s.left then
      sign ++ List.replicate (s.width - sign.length - digits.length) '0' ++ digits
    else s.fill (sign ++ digits)

end Setting

structure Printed where
  text : Text
  arguments : List Text
  took : Bool
  status : Nat
  ended : Bool
  reports : List String

namespace Printed

def put (p : Printed) (text : Text) : Printed := { p with text := p.text ++ text }

def takeText (p : Printed) : Text × Printed :=
  match p.arguments with
  | [] => ([], p)
  | a :: rest => (a, { p with arguments := rest, took := true })

def takeNumber (p : Printed) : Int × Printed :=
  let (text, p) := p.takeText
  match text with
  | '"' :: c :: _ | '\x27' :: c :: _ => (c.toNat, p)
  | _ =>
    match numberOf? text with
    | some n => (n, p)
    | none =>
      let sign := text.takeWhile fun c => c == '-' || c == '+'
      let digits := (text.drop sign.length).takeWhile Char.isDigit
      let value := digitsValue 10 digits
      let reason := if digits.isEmpty then "expected numeric value" else "not completely converted"
      (if sign = ['-'] then -value else value,
        { p with status := 1, reports := p.reports ++ [s!"{String.ofList text}: {reason}"] })

end Printed

def signOf (s : Setting) (n : Int) : Text :=
  if n < 0 then ['-'] else if s.plus then ['+'] else if s.blank then [' '] else []

/-- Prints one value; `none` for a letter that stands for no kind of value. -/
def printValue (p : Printed) (s : Setting) (kind : Char) : Option Printed :=
  match kind with
  | 's' =>
    let (text, p) := p.takeText
    some (p.put (s.setText text))
  | 'c' =>
    let (text, p) := p.takeText
    some (p.put (s.fill [text.headD '\x00']))
  | 'b' =>
    let (text, p) := p.takeText
    let (text, ended) := unescaped text
    some { p.put (s.setText text) with ended := ended }
  | 'd' | 'i' =>
    let (n, p) := p.takeNumber
    some (p.put (s.setNumber (signOf s n) (Nat.toDigits 10 n.natAbs)))
  | 'u' =>
    let (n, p) := p.takeNumber
    some (p.put (s.setNumber [] (Nat.toDigits 10 (bitsOf n))))
  | 'o' =>
    let (n, p) := p.takeNumber
    some (p.put (s.setNumber (if s.alternate then ['0'] else []) (Nat.toDigits 8 (bitsOf n))))
  | 'x' =>
    let (n, p) := p.takeNumber
    let mark := if s.alternate ∧ n ≠ 0 then ['0', 'x'] else []
    some (p.put (s.setNumber mark (Nat.toDigits 16 (bitsOf n))))
  | 'X' =>
    let (n, p) := p.takeNumber
    let mark := if s.alternate ∧ n ≠ 0 then ['0', 'X'] else []
    some (p.put (s.setNumber mark ((Nat.toDigits 16 (bitsOf n)).map Char.toUpper)))
  | _ => none

def takeCount (p : Printed) (pattern : Text) : Int × Text × Printed :=
  match pattern with
  | '*' :: rest =>
    let (n, p) := p.takeNumber
    (n, rest, p)
  | _ =>
    let digits := pattern.takeWhile Char.isDigit
    (digitsValue 10 digits, pattern.drop digits.length, p)

def printOnce : Nat → Text → Printed → Printed
  | 0, _, p => p
  | _, [], p => p
  | fuel + 1, '\\' :: rest, p =>
    let (c, n) := escape rest
    printOnce fuel (rest.drop n) (p.put [c])
  | fuel + 1, '%' :: '%' :: rest, p => printOnce fuel rest (p.put ['%'])
  | fuel + 1, '%' :: rest, p =>
    let flags := rest.takeWhile fun c => "#-+ 0".toList.contains c
    let (width, rest, p) := takeCount p (rest.drop flags.length)
    let (precision, rest, p) : Option Int × Text × Printed :=
      match rest with
      | '.' :: rest =>
        let (n, rest, p) := takeCount p rest
        (some n, rest, p)
      | _ => (none, rest, p)
    let s : Setting :=
      ⟨flags.contains '-' || width < 0, flags.contains '0', flags.contains '+', flags.contains ' ',
        flags.contains '#', width.natAbs, (precision.filter (0 ≤ ·)).map Int.toNat⟩
    match rest with
    | [] => { p with status := 2, ended := true, reports := p.reports ++ ["missing format character"] }
    | kind :: rest =>
      match printValue p s kind with
      | some p => if p.ended then p else printOnce fuel rest p
      | none =>
        { p with
          status := 2
          ended := true
          reports := p.reports ++ [s!"%{kind}: invalid directive"] }
  | fuel + 1, c :: rest, p => printOnce fuel rest (p.put [c])

def printAll : Nat → Text → Printed → Printed
  | 0, _, p => p
  | fuel + 1, pattern, p =>
    let p := printOnce (pattern.length + 1) pattern { p with took := false }
    if p.ended ∨ !p.took ∨ p.arguments.isEmpty then p else printAll fuel pattern p

def printPattern (pattern : Text) (arguments : List Text) : Printed :=
  printAll (arguments.length + 1) pattern ⟨[], arguments, false, 0, false, []⟩

end AttestationService.Shell

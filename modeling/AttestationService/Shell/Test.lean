import AttestationService.Shell.Arithmetic
import AttestationService.Shell.Machine

/-!
Conditions on texts, numbers and files. An expression of one to four words is read by its number of
words first, so that an operator can also be a plain text.
-/

namespace AttestationService.Shell

inductive TestError where
  | noNumber (text : Text)
  | noOperand (text : Text)
  | noOperator (text : Text)
  | noBracket
  deriving DecidableEq, Repr

def TestError.message : TestError → String
  | .noNumber text => s!"Illegal number: {String.ofList text}"
  | .noOperand text => s!"{String.ofList text}: argument expected"
  | .noOperator text => s!"{String.ofList text}: unexpected operator"
  | .noBracket => "missing ]"

def isUnary (operator : Text) : Bool :=
  match operator with
  | ['-', c] => "bcdefghknprstuwxzGLOS".toList.contains c
  | _ => false

def isBinary (operator : Text) : Bool :=
  ["=", "==", "!=", "<", ">", "-eq", "-ne", "-lt", "-le", "-gt", "-ge", "-nt", "-ot", "-ef"].contains
    (String.ofList operator)

def testOne (files : Files.Tree) (operator : Char) (text : Text) : Bool :=
  let entry := (files.targetOf (octetsOf text)).toOption.map (·.2)
  match operator with
  | 'n' => !text.isEmpty
  | 'z' => text.isEmpty
  | 't' => false
  | 'e' | 'r' | 'w' => entry.isSome
  | 'f' => entry.any Files.Entry.isFile
  | 'd' => entry.any Files.Entry.isDirectory
  | 'x' => entry.any fun e => e.isDirectory || e.mode &&& 0o111 != 0
  | 's' => entry.any fun
    | .file _ content => !content.isEmpty
    | _ => true
  | 'L' | 'h' =>
    match files.entryAt (octetsOf text) with
    | .ok (_, .link _) => true
    | _ => false
  | 'S' => entry.any fun
    | .socket _ => true
    | _ => false
  | _ => false

def testNumber (text : Text) : Except TestError Int :=
  let digits := match text with
    | '-' :: rest | '+' :: rest => rest
    | _ => text
  if text.isEmpty ∨ digits.isEmpty ∨ !digits.all Char.isDigit then .error (.noNumber text)
  else .ok ((if text.head? = some '-' then -1 else 1) * digitsValue 10 digits)

def testTwo (first operator second : Text) : Except TestError Bool :=
  let compareNumbers (holds : Int → Int → Bool) : Except TestError Bool := do
    let a ← testNumber first
    let b ← testNumber second
    return holds a b
  match String.ofList operator with
  | "=" | "==" => .ok (first == second)
  | "!=" => .ok (first != second)
  | "<" => .ok (first < second)
  | ">" => .ok (second < first)
  | "-eq" => compareNumbers (· == ·)
  | "-ne" => compareNumbers (· != ·)
  | "-lt" => compareNumbers fun a b => a < b
  | "-le" => compareNumbers fun a b => a ≤ b
  | "-gt" => compareNumbers fun a b => b < a
  | "-ge" => compareNumbers fun a b => b ≤ a
  | _ => .ok false

mutual

def testAny (files : Files.Tree) : Nat → List Text → Except TestError (Bool × List Text)
  | 0, _ => .error .noBracket
  | fuel + 1, words => do
    let (a, rest) ← testEach files fuel words
    match rest with
    | ['-', 'o'] :: rest => do
      let (b, rest) ← testAny files fuel rest
      return (a || b, rest)
    | _ => return (a, rest)

def testEach (files : Files.Tree) : Nat → List Text → Except TestError (Bool × List Text)
  | 0, _ => .error .noBracket
  | fuel + 1, words => do
    let (a, rest) ← testTerm files fuel words
    match rest with
    | ['-', 'a'] :: rest => do
      let (b, rest) ← testEach files fuel rest
      return (a && b, rest)
    | _ => return (a, rest)

def testTerm (files : Files.Tree) : Nat → List Text → Except TestError (Bool × List Text)
  | 0, _ => .error .noBracket
  | fuel + 1, words =>
    match words with
    | [] => .ok (false, [])
    | [word] => .ok (!word.isEmpty, [])
    | ['!'] :: rest => do
      let (a, rest) ← testTerm files fuel rest
      return (!a, rest)
    | first :: operator :: rest =>
      let joins := operator = ['-', 'a'] ∨ operator = ['-', 'o']
      if joins ∧ !(isUnary first && rest.isEmpty) then .ok (!first.isEmpty, operator :: rest)
      else
        match rest with
        | second :: after =>
          if isBinary operator then do
            let a ← testTwo first operator second
            return (a, after)
          else if first = ['('] then do
            let (a, after) ← testAny files fuel (operator :: rest)
            return (a, after.drop 1)
          else if isUnary first then .ok (testOne files ((first.drop 1).headD 'n') operator, rest)
          else .error (.noOperator first)
        | [] =>
          if isUnary first then .ok (testOne files ((first.drop 1).headD 'n') operator, [])
          else if isBinary operator then .error (.noOperand operator)
          else .error (.noOperator first)

end

def testWords (files : Files.Tree) (words : List Text) : Except TestError Bool := do
  let (a, rest) ← testAny files (2 * words.length + 4) words
  match rest with
  | [] => return a
  | word :: _ => throw (.noOperator word)

def testBracketed (files : Files.Tree) (words : List Text) : Except TestError Bool :=
  if words.getLast? = some [']'] then testWords files words.dropLast else .error .noBracket

end AttestationService.Shell

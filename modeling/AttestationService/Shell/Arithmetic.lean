import AttestationService.Shell.Grammar

/-!
Arithmetic on whole numbers of 64 bits that wrap around. The operators have the ranks they have in
C; an assignment is worked out together with the value it gives.
-/

namespace AttestationService.Shell

def wrap (n : Int) : Int := n.bmod 0x10000000000000000

inductive ArithmeticError where
  | divisionByZero
  | noOperand
  | noEnd
  | noNumber (text : Text)
  deriving DecidableEq, Repr

def ArithmeticError.message (expression : Text) : ArithmeticError → String
  | .divisionByZero => s!"arithmetic expression: division by zero: \"{String.ofList expression}\""
  | .noOperand => s!"arithmetic expression: expecting primary: \"{String.ofList expression}\""
  | .noEnd => s!"arithmetic expression: expecting EOF: \"{String.ofList expression}\""
  | .noNumber text => s!"Illegal number: {String.ofList text}"

structure Calculation where
  rest : Text
  bindings : List (Text × Text)

abbrev Calculating := StateT Calculation (Except ArithmeticError)

namespace Calculating

def isGap (c : Char) : Bool := c == ' ' || c == '\t' || c == '\n'

def next : Calculating Text := do
  modify fun s => { s with rest := s.rest.dropWhile isGap }
  return (← get).rest

def pass (n : Nat) : Calculating Unit := modify fun s => { s with rest := s.rest.drop n }

end Calculating

def digitValue (c : Char) : Nat :=
  if c.isDigit then c.toNat - 48 else if c.isLower then c.toNat - 87 else c.toNat - 55

def digitsValue (base : Nat) (digits : Text) : Int :=
  (digits.foldl (fun n c => n * base + digitValue c) 0 : Nat)

/-- A number at the start of a text: to the base 16 after `0x`, to the base 8 after `0`. -/
def numeral? (text : Text) : Option (Int × Nat) :=
  let isHex (c : Char) : Bool := c.isDigit || ('a' ≤ c && c ≤ 'f') || ('A' ≤ c && c ≤ 'F')
  match text with
  | '0' :: x :: rest =>
    if (x = 'x' ∨ x = 'X') ∧ (rest.head?.map isHex).getD false then
      let digits := rest.takeWhile isHex
      some (digitsValue 16 digits, digits.length + 2)
    else
      let digits := text.takeWhile fun c => '0' ≤ c && c ≤ '7'
      some (digitsValue 8 digits, digits.length)
  | c :: _ =>
    if c.isDigit then
      let digits := text.takeWhile Char.isDigit
      some (digitsValue 10 digits, digits.length)
    else none
  | [] => none

def numberOf? (text : Text) : Option Int :=
  let text := (text.dropWhile Calculating.isGap).reverse.dropWhile Calculating.isGap |>.reverse
  let (negative, digits) : Bool × Text :=
    match text with
    | '-' :: r => (true, r)
    | '+' :: r => (false, r)
    | r => (false, r)
  if text.isEmpty then some 0
  else
    match numeral? digits with
    | some (n, length) =>
      if length = digits.length then some (wrap (if negative then -n else n)) else none
    | none => none

/-- Operators between two operands, those that bind least first; longer ones before the ones that
they begin with. -/
def ranks : List (List String) :=
  [["||"], ["&&"], ["|"], ["^"], ["&"], ["==", "!="], ["<=", ">=", "<", ">"], ["<<", ">>"],
    ["+", "-"], ["*", "/", "%"]]

def ofBool (b : Bool) : Int := if b then 1 else 0

def bitsOf (n : Int) : Nat := (n % 0x10000000000000000).toNat

def applyOperator (operator : String) (a b : Int) : Except ArithmeticError Int :=
  match operator with
  | "||" => .ok (ofBool (a != 0 || b != 0))
  | "&&" => .ok (ofBool (a != 0 && b != 0))
  | "|" => .ok (wrap (bitsOf a ||| bitsOf b : Nat))
  | "^" => .ok (wrap (bitsOf a ^^^ bitsOf b : Nat))
  | "&" => .ok (wrap (bitsOf a &&& bitsOf b : Nat))
  | "==" => .ok (ofBool (a == b))
  | "!=" => .ok (ofBool (a != b))
  | "<=" => .ok (ofBool (a ≤ b))
  | ">=" => .ok (ofBool (b ≤ a))
  | "<" => .ok (ofBool (a < b))
  | ">" => .ok (ofBool (b < a))
  | "<<" => .ok (wrap (a * (Nat.pow 2 (bitsOf b % 64) : Nat)))
  | ">>" => .ok (a.fdiv (Nat.pow 2 (bitsOf b % 64) : Nat))
  | "+" => .ok (wrap (a + b))
  | "-" => .ok (wrap (a - b))
  | "*" => .ok (wrap (a * b))
  | "/" => if b = 0 then .error .divisionByZero else .ok (wrap (a.tdiv b))
  | _ => if b = 0 then .error .divisionByZero else .ok (wrap (a.tmod b))

def startsWith (operator : String) (text : Text) : Bool :=
  operator.toList.isPrefixOf text &&
    match text.drop operator.length with
    | c :: _ =>
      !(c == '=' && !(["==", "!=", "<=", ">=", "||", "&&"].contains operator)) &&
        !(operator.length == 1 && operator.toList == [c] && "|&<>".toList.contains c)
    | [] => true

open Calculating

mutual

def assignment : Nat → Calculating Int
  | 0 => throw .noOperand
  | fuel + 1 => do
    let text ← next
    let name := text.takeWhile fun c => c.isAlphanum || c == '_'
    let after := (text.drop name.length).dropWhile isGap
    let operator? := ["=", "+=", "-=", "*=", "/=", "%=", "<<=", ">>=", "&=", "|=", "^="].find?
      fun o => o.toList.isPrefixOf after && !(o == "=" && (after.drop 1).head? == some '=')
    match (name.head?.map fun c => !c.isDigit).getD false, operator? with
    | true, some operator => do
      pass (text.length - after.length + operator.length)
      let value ← assignment fuel
      let old := (numberOf? (((← get).bindings.lookup name).getD [])).getD 0
      let value ←
        if operator = "=" then pure value
        else liftM (applyOperator (String.ofList operator.toList.dropLast) old value)
      modify fun s => { s with bindings := putText name (toString value).toList s.bindings }
      return value
    | _, _ => do
      let condition ← binary ranks fuel
      match ← next with
      | '?' :: _ => do
        pass 1
        let first ← assignment fuel
        match ← next with
        | ':' :: _ => do
          pass 1
          let second ← assignment fuel
          return if condition ≠ 0 then first else second
        | _ => throw .noOperand
      | _ => return condition

def binary (operators : List (List String)) : Nat → Calculating Int
  | 0 => throw .noOperand
  | fuel + 1 =>
    match operators with
    | [] => unary fuel
    | rank :: tighter => do
      let first ← binary tighter fuel
      chained rank tighter fuel first

def chained (rank : List String) (tighter : List (List String)) : Nat → Int → Calculating Int
  | 0, _ => throw .noOperand
  | fuel + 1, value => do
    let text ← next
    match rank.find? fun o => startsWith o text with
    | none => return value
    | some operator => do
      pass operator.length
      let operand ← binary tighter fuel
      let value ← liftM (applyOperator operator value operand)
      chained rank tighter fuel value

def unary : Nat → Calculating Int
  | 0 => throw .noOperand
  | fuel + 1 => do
    match ← next with
    | '-' :: _ => do pass 1; return wrap (-(← unary fuel))
    | '+' :: _ => do pass 1; unary fuel
    | '!' :: _ => do pass 1; return ofBool ((← unary fuel) == 0)
    | '~' :: _ => do pass 1; return wrap (-(← unary fuel) - 1)
    | '(' :: _ => do
      pass 1
      let value ← assignment fuel
      match ← next with
      | ')' :: _ => pass 1; return value
      | _ => throw .noOperand
    | text =>
      match numeral? text with
      | some (n, length) => pass length; return wrap n
      | none =>
        let name := text.takeWhile fun c => c.isAlphanum || c == '_'
        if name.isEmpty then throw .noOperand
        else
          pass name.length
          let value := ((← get).bindings.lookup name).getD []
          match numberOf? value with
          | some n => return n
          | none => throw (.noNumber value)

end

def evaluate (text : Text) (bindings : List (Text × Text)) :
    Except ArithmeticError (Int × List (Text × Text)) :=
  if text.all isGap then .ok (0, bindings)
  else
    match (assignment (32 * text.length + 64)).run ⟨text, bindings⟩ with
    | .error e => .error e
    | .ok (value, left) =>
      if left.rest.all isGap then .ok (value, left.bindings) else .error .noEnd

end AttestationService.Shell

import AttestationService.Number.Binary64

/-!
Decimal numerals. A numeral has a sign, digits with a point among them or at their ends, and an
exponent; only the digits are required, at least one.
-/

namespace AttestationService.Decimal

def digitOf? (base : Nat) (c : Char) : Option Nat :=
  let n := c.toNat
  let digit : Option Nat :=
    if 48 ≤ n ∧ n ≤ 57 then some (n - 48)
    else if 65 ≤ n ∧ n ≤ 90 then some (n - 55)
    else if 97 ≤ n ∧ n ≤ 122 then some (n - 87)
    else none
  digit.filter (· < base)

/-- The number that digits spell, most significant first; at least one digit, and nothing else. -/
def natOf? (base : Nat) (digits : List Char) : Option Nat :=
  if digits.isEmpty then none
  else digits.foldlM (fun n c => (digitOf? base c).map (n * base + ·)) 0

inductive Real where
  | finite (x : Binary64)
  | infinite (negative : Bool)
  deriving DecidableEq, Repr

structure Numeral where
  negative : Bool
  digits : Nat
  exponent : Int
  deriving DecidableEq, Repr

def exponentOf? (text : List Char) : Option Int :=
  match text with
  | '-' :: rest => (natOf? 10 rest).map fun n => -(n : Int)
  | '+' :: rest => (natOf? 10 rest).map fun n => (n : Int)
  | _ => (natOf? 10 text).map fun n => (n : Int)

def ofText? (text : List Char) : Option Numeral :=
  let (negative, rest) : Bool × List Char :=
    match text with
    | '-' :: rest => (true, rest)
    | '+' :: rest => (false, rest)
    | _ => (false, text)
  let whole := rest.takeWhile Char.isDigit
  let rest := rest.dropWhile Char.isDigit
  let (fraction, rest) : List Char × List Char :=
    match rest with
    | '.' :: after => (after.takeWhile Char.isDigit, after.dropWhile Char.isDigit)
    | _ => ([], rest)
  match natOf? 10 (whole ++ fraction) with
  | none => none
  | some digits =>
    let scale : Int := -(fraction.length : Int)
    match rest with
    | [] => some ⟨negative, digits, scale⟩
    | c :: power =>
      if c = 'e' ∨ c = 'E' then
        (exponentOf? power).map fun n => ⟨negative, digits, scale + n⟩
      else none

def digitCount (n : Nat) : Nat := (Nat.toDigits 10 n).length

/-- The double nearest to a numeral. Numerals far past the range are not worked out. -/
def Numeral.toReal (n : Numeral) : Real :=
  let magnitude : Int := n.exponent + digitCount n.digits
  if n.digits = 0 ∨ magnitude < -400 then .finite (Binary64.zero n.negative)
  else if 400 < magnitude then .infinite n.negative
  else
    match Binary64.ofDecimal? n.negative n.digits n.exponent with
    | some x => .finite x
    | none => .infinite n.negative

end AttestationService.Decimal

import AttestationService.Number.Binary64

/-!
The shortest decimal that reads back as a given double. Of the decimals with the fewest digits
inside the interval of numbers that round to the double, `shortest` takes the nearest to it.
-/

namespace AttestationService.Binary64

structure Decimal where
  digits : Nat
  exponent : Int
  deriving DecidableEq, Repr

def compareDecimal (a b : Nat) (d : Decimal) : Ordering :=
  if 0 ≤ d.exponent then compare a (d.digits * Nat.pow 10 d.exponent.toNat * b)
  else compare (a * Nat.pow 10 (-d.exponent).toNat) (d.digits * b)

/-- The numbers that round to a double: its bounds over a common denominator, and whether the
bounds themselves belong to it. -/
structure Interval where
  low : Nat
  high : Nat
  den : Nat
  closed : Bool

/-- Halfway to each neighbour. Below a power of two the neighbours lie closer. -/
def interval (x : Binary64) : Interval :=
  let (a, b) := x.ratio
  let (unit, den) :=
    if 0 ≤ x.exponent then (Nat.pow 2 x.exponent.toNat, 4) else (1, 4 * b)
  let low :=
    if x.mantissa = 0x10000000000000 ∧ x.exponent ≠ -1074 then 4 * a - unit else 4 * a - 2 * unit
  ⟨low, 4 * a + 2 * unit, den, x.mantissa % 2 == 0⟩

def Interval.contains (i : Interval) (d : Decimal) : Bool :=
  match compareDecimal i.low i.den d, compareDecimal i.high i.den d with
  | .lt, .gt => true
  | .eq, _ => i.closed
  | _, .eq => i.closed
  | _, _ => false

/-- The exponent `p` with `10 ^ p ≤ a / b < 10 ^ (p + 1)`, from an estimate that is off by one at
the most. -/
def decimalExponent (a b : Nat) : Int :=
  let bits : Int := (a.log2 : Int) - b.log2
  let guess := (bits * 1233).fdiv 4096
  if compareDecimal a b ⟨1, guess⟩ == .lt then guess - 1
  else if compareDecimal a b ⟨1, guess + 1⟩ == .lt then guess
  else guess + 1

def floorAt (a b : Nat) (exponent : Int) : Nat :=
  if 0 ≤ exponent then a / (b * Nat.pow 10 exponent.toNat) else a * Nat.pow 10 (-exponent).toNat / b

/-- Which neighbour on a grid is nearer to `a / b`: true for the lower one. A tie goes to the even
one. -/
def lowerIsNearer (a b : Nat) (low : Nat) (exponent : Int) : Bool :=
  match compareDecimal (2 * a) b ⟨2 * low + 1, exponent⟩ with
  | .lt => true
  | .gt => false
  | .eq => low % 2 == 0

def withDigits? (x : Binary64) (point : Int) (count : Nat) : Option Decimal :=
  let (a, b) := x.ratio
  let exponent := point + 1 - count
  let low := floorAt a b exponent
  let i := x.interval
  match i.contains ⟨low, exponent⟩, i.contains ⟨low + 1, exponent⟩ with
  | true, true => some ⟨if lowerIsNearer a b low exponent then low else low + 1, exponent⟩
  | true, false => some ⟨low, exponent⟩
  | false, true => some ⟨low + 1, exponent⟩
  | false, false => none

def Decimal.stripped (d : Decimal) : Nat → Decimal
  | 0 => d
  | fuel + 1 =>
    if d.digits ≠ 0 ∧ d.digits % 10 = 0 then Decimal.stripped ⟨d.digits / 10, d.exponent + 1⟩ fuel
    else d

/-- Seventeen digits always read back, so the search ends. -/
def shortest (x : Binary64) : Decimal :=
  let (a, b) := x.ratio
  let point := decimalExponent a b
  match (List.range 17).findSome? (fun n => x.withDigits? point (n + 1)) with
  | some d => d.stripped 20
  | none => ⟨0, 0⟩

def Decimal.scientific (d : Decimal) : List Char × Int :=
  let digits := Nat.toDigits 10 d.digits
  (digits, d.exponent + digits.length - 1)

def positional (digits : List Char) (exponent : Int) : List Char × List Char :=
  if exponent < 0 then
    (['0'], List.replicate (-exponent - 1).toNat '0' ++ digits)
  else
    let width := exponent.toNat + 1
    (digits.take width ++ List.replicate (width - digits.length) '0', digits.drop width)

def plainText (x : Binary64) : List Char :=
  let sign := if x.negative then ['-'] else []
  if x.isZero then sign ++ ['0']
  else
    let (digits, exponent) := x.shortest.scientific
    let (whole, fraction) := positional digits exponent
    sign ++ whole ++ (if fraction.isEmpty then [] else '.' :: fraction)

/-- To the nearest integer, a half away from zero. -/
def roundHalfAway (x : Binary64) : Int :=
  let (a, b) := x.ratio
  let n : Int := ((2 * a + b) / (2 * b) : Nat)
  if x.negative then -n else n

end AttestationService.Binary64

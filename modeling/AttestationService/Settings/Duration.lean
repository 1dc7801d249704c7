import AttestationService.Number.Decimal
import AttestationService.Text.Blank

/-!
Spans of time, written as numbers with units, such as `1h 30m` or `1.5s`. Every product and sum has
to fit into 64 bits, and a fraction has to come out whole: in nanoseconds for the units below the
hour, in seconds from the hour upwards.
-/

namespace AttestationService

structure Duration where
  seconds : Nat
  nanoseconds : Nat
  deriving DecidableEq, Repr

namespace Duration

def zero : Duration := ⟨0, 0⟩

def ofSeconds (n : Nat) : Duration := ⟨n, 0⟩

def milliseconds (d : Duration) : Nat := d.seconds * 1000 + d.nanoseconds / 1000000

structure Unit where
  /-- Its length, in nanoseconds for a fine unit and in seconds for a coarse one. -/
  length : Nat
  fine : Bool
  fractionLength : Nat
  /-- Whether fractions of it are counted in nanoseconds. -/
  fineFraction : Bool
  deriving DecidableEq, Repr

def Unit.ofNanoseconds (n : Nat) : Unit := ⟨n, true, n, true⟩

def Unit.short (seconds : Nat) : Unit := ⟨seconds, false, seconds * 1000000000, true⟩

def Unit.long (seconds : Nat) : Unit := ⟨seconds, false, seconds, false⟩

def Unit.ofName? : String → Option Unit
  | "nanos" | "nsec" | "ns" => some (.ofNanoseconds 1)
  | "usec" | "us" | "µs" => some (.ofNanoseconds 1000)
  | "millis" | "msec" | "ms" => some (.ofNanoseconds 1000000)
  | "seconds" | "second" | "secs" | "sec" | "s" => some (.short 1)
  | "minutes" | "minute" | "min" | "mins" | "m" => some (.short 60)
  | "hours" | "hour" | "hr" | "hrs" | "h" => some (.long 3600)
  | "days" | "day" | "d" => some (.long 86400)
  | "weeks" | "week" | "wk" | "wks" | "w" => some (.long 604800)
  | "months" | "month" | "M" => some (.long 2630016)
  | "years" | "year" | "yr" | "yrs" | "y" => some (.long 31557600)
  | _ => none

def word? (n : Nat) : Option Nat := if n < 0x10000000000000000 then some n else none

def add? (d : Duration) (seconds nanoseconds : Nat) : Option Duration := do
  let fine ← word? (d.nanoseconds + nanoseconds)
  let carried ← word? (seconds + fine / 1000000000)
  let total ← word? (d.seconds + carried)
  pure ⟨total, fine % 1000000000⟩

def isUnitChar (c : Char) : Bool := c.isAlpha || c == 'µ'

def digitsOf (text : List Char) : List Char × List Char :=
  let inNumber (c : Char) : Bool := c.isDigit || Text.isBlank c
  ((text.takeWhile inNumber).filter Char.isDigit, text.dropWhile inNumber)

def fraction? (digits : List Char) : Option (Nat × Nat) :=
  if digits.isEmpty then none
  else do
    let numerator ← (Decimal.natOf? 10 digits).bind word?
    let denominator ← word? (Nat.pow 10 digits.length)
    pure (numerator, denominator)

def addUnits? (d : Duration) (unit : Unit) (whole : Nat) (fraction : Option (Nat × Nat)) :
    Option Duration := do
  let amount ← word? (whole * unit.length)
  let d ← if unit.fine then d.add? 0 amount else d.add? amount 0
  match fraction with
  | none => pure d
  | some (numerator, denominator) =>
    let scaled ← word? (numerator * unit.fractionLength)
    if scaled % denominator ≠ 0 then none
    else if unit.fineFraction then d.add? 0 (scaled / denominator)
    else d.add? (scaled / denominator) 0

/-- Adds up pairs of a number and a unit. A number begins with a digit. -/
def sum? (d : Duration) : Nat → List Char → Option Duration
  | 0, _ => none
  | fuel + 1, text =>
    match text.dropWhile Text.isBlank with
    | [] => some d
    | c :: text =>
      if !c.isDigit then none
      else do
        let (digits, rest) := digitsOf (c :: text)
        let whole ← (Decimal.natOf? 10 digits).bind word?
        let (fraction, rest) ←
          match rest with
          | '.' :: after =>
            let (digits, rest) := digitsOf after
            (fraction? digits).map fun f => (some f, rest)
          | _ => some (none, rest)
        let unit ← Unit.ofName? (String.ofList (rest.takeWhile isUnitChar))
        let rest := rest.dropWhile isUnitChar
        let d ← d.addUnits? unit whole fraction
        match rest with
        | [] => some d
        | c :: _ => if c.isDigit ∨ Text.isBlank c then sum? d fuel rest else none

def ofText? (text : String) : Option Duration :=
  if text = "0" then some zero
  else
    let chars := text.toList
    if chars.all Text.isBlank then none else sum? zero (chars.length + 1) chars

end Duration

end AttestationService

import AttestationService.CommandLine.Fault
import AttestationService.CommandLine.Similarity
import AttestationService.Settings.Load

/-!
Reading a command line. A flag's value is the next word, or stands after an equals sign, or directly
after a single letter. A flag that waits for its value or has just got one is settled only when the
next flag comes or the line ends.
-/

namespace AttestationService.CommandLine

structure Arguments where
  file : Option String
  overrides : Settings.Overrides
  deriving DecidableEq, Repr

def Arguments.none : Arguments := ⟨.none, .none⟩

inductive Stop where
  | help
  | fault (f : Fault)
  deriving DecidableEq, Repr

def addDigit (limit : Nat) (tooLong : PortFault) (n : Nat) (c : Char) : Except PortFault Nat :=
  if !c.isDigit then .error .notDigit
  else if limit < 10 * n + (c.toNat - 48) then .error tooLong
  else .ok (10 * n + (c.toNat - 48))

def integer (text : List Char) : Except PortFault Int :=
  match text with
  | [] => .error .empty
  | ['+'] | ['-'] => .error .notDigit
  | '-' :: digits => (digits.foldlM (addDigit 0x8000000000000000 .tooSmall) 0).map fun n => -(n : Int)
  | '+' :: digits => (digits.foldlM (addDigit 0x7FFFFFFFFFFFFFFF .tooLarge) 0).map fun n => (n : Int)
  | digits => (digits.foldlM (addDigit 0x7FFFFFFFFFFFFFFF .tooLarge) 0).map fun n => (n : Int)

def portNumber (text : List Char) : Except PortFault UInt16 := do
  let n ← integer text
  if 0 ≤ n ∧ n < 65536 then .ok (UInt16.ofNat n.toNat) else .error (.outOfRange n)

namespace Arguments

def put (a : Arguments) (flag : Flag) (octets : List UInt8) : Except Fault Arguments :=
  match Utf8.decode? octets with
  | .none => .error .notText
  | some chars =>
    let text := some (String.ofList chars)
    match flag with
    | .configPath => .ok { a with file := text }
    | .logPath => .ok { a with overrides := { a.overrides with logPath := text } }
    | .socket => .ok { a with overrides := { a.overrides with socketPath := text } }
    | .verifierRoot => .ok { a with overrides := { a.overrides with verifierRoot := text } }
    | .successMarker => .ok { a with overrides := { a.overrides with successMarker := text } }
    | .port =>
      match portNumber chars with
      | .ok port => .ok { a with overrides := { a.overrides with port := some port } }
      | .error cause => .error (.valueInvalid flag (String.ofList chars) cause)
    | .help => .ok a

end Arguments

structure Reading where
  arguments : Arguments
  used : List Flag
  pending : Option (Flag × Option (List UInt8))
  ended : Bool

namespace Reading

def start : Reading := ⟨.none, [], .none, false⟩

/-- Settles a flag. A flag that comes again is taken back, and one with a bad value counts as
used. -/
def take (r : Reading) (flag : Flag) (value : List UInt8) : Reading × Option Fault :=
  if r.used.contains flag then ({ r with used := r.used.erase flag }, some (.repeated flag))
  else
    let r := { r with used := r.used ++ [flag] }
    match r.arguments.put flag value with
    | .ok arguments => ({ r with arguments }, none)
    | .error fault => (r, some fault)

def settle (r : Reading) : Reading × Option Fault :=
  match r.pending with
  | none => (r, none)
  | some (flag, none) => ({ r with pending := none }, some (.valueMissing flag))
  | some (flag, some value) => { r with pending := none }.take flag value

def lawful (result : Reading × Option Fault) : Except Stop Reading :=
  match result.2 with
  | none => .ok result.1
  | some fault => .error (.fault fault)

def known (r : Reading) (flag : Flag) (value : Option (List UInt8)) : Except Stop Reading :=
  if flag.takesValue then do
    let r ← lawful r.settle
    match value with
    | some value => lawful (r.take flag value)
    | none => .ok { r with pending := some (flag, none) }
  else
    match value with
    | some value => .error (.fault (.valueUnwanted flag (Utf8.lossyString value) r.used))
    | none => do
      let _ ← lawful r.settle
      .error .help

/-- A word that means nothing. A fault of the flag before it is not spoken of. -/
def stray (word : List UInt8) : Stop := .fault (.unexpected (Utf8.lossyString word) none [])

def equalsSign : UInt8 := 0x3D

def dash : UInt8 := 0x2D

def longWord (r : Reading) (word : List UInt8) : Except Stop Reading :=
  let name := word.takeWhile (· != equalsSign)
  let value := match word.drop name.length with
    | [] => none
    | _ :: value => some value
  match (Utf8.decode? name).bind fun chars => Flag.ofLong? (String.ofList chars) with
  | some flag => r.known flag value
  | none =>
    let shown := Utf8.lossyString name
    let similar := Similarity.best? (·.long.toList) shown.toList Flag.all
    let used := r.settle.1.used
    let used := match similar with
      | some flag => if used.contains flag then used else used ++ [flag]
      | none => used
    .error (.fault (.unexpected ("--" ++ shown) similar used))

def shortWord (r : Reading) (word : List UInt8) : Except Stop Reading :=
  match Utf8.pieces word with
  | .char letter :: _ =>
    match Flag.ofShort? letter with
    | none => .error (stray (dash :: Utf8.encode [letter]))
    | some flag =>
      let rest := word.drop (Utf8.encode [letter]).length
      let value := match rest with
        | [] => none
        | octet :: after => some (if octet = equalsSign then after else rest)
      if flag.takesValue then r.known flag value else r.known flag none
  | _ => .error (stray (dash :: word))

def word (r : Reading) (word : List UInt8) : Except Stop Reading :=
  if r.ended then .error (stray word)
  else
    match word with
    | [0x2D, 0x2D] => .ok { r with ended := true }
    | 0x2D :: 0x2D :: rest => r.longWord rest
    | 0x2D :: c :: rest => r.shortWord (c :: rest)
    | _ =>
      match r.pending with
      | some (flag, none) => .ok { r with pending := some (flag, some word) }
      | _ => .error (stray word)

end Reading

def read (words : List (List UInt8)) : Except Stop Arguments := do
  let r ← words.foldlM Reading.word Reading.start
  let r ← Reading.lawful r.settle
  pure r.arguments

end AttestationService.CommandLine

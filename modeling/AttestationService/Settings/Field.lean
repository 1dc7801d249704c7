import AttestationService.Settings.Duration
import AttestationService.Settings.Found
import AttestationService.Text.LowerCase

/-!
Reading single settings. Each kind of setting takes more than one kind of value: a flag may be a
number or a word, a port a flag, and a text anything but null, a list or a table.
-/

namespace AttestationService.Settings

inductive Mismatch where
  | wrongKind (found : Found) (expected : String) (origin : Option String)
  | noSection (found : Found) (expected : String)
  | noDuration (text : String)
  deriving DecidableEq, Repr

structure FieldError where
  mismatch : Mismatch
  key : String
  deriving DecidableEq, Repr

def FieldError.message (e : FieldError) : String :=
  match e.mismatch with
  | .wrongKind found expected origin =>
    let place := (origin.map fun o => s!" in {o}").getD ""
    s!"invalid type: {found.name}, expected {expected} for key \x60{e.key}\x60{place}"
  | .noSection found expected =>
    s!"invalid type: {found.sectionName}, expected {expected} for key \x60{e.key}\x60"
  | .noDuration text =>
    s!"invalid value: string {Text.quotedString text}, expected a duration for key \x60{e.key}\x60"

def lowerWord (text : String) : String := String.ofList (Text.lower text.toList)

def wordFlag? (text : String) : Option Bool :=
  if ["true", "on", "yes"].contains (lowerWord text) then some true
  else if ["false", "off", "no"].contains (lowerWord text) then some false
  else none

/-- Digits after at most one plus sign, for a number of 64 bits. -/
def digits? (text : String) : Option Nat :=
  let digits := match text.toList with
    | '+' :: rest => rest
    | digits => digits
  (Decimal.natOf? 10 digits).bind Duration.word?

/-- To the nearest integer, a half away from zero, within the range of 64 bits. -/
def realNatural : Decimal.Real → Nat
  | .finite x => min x.roundHalfAway.toNat 0xFFFFFFFFFFFFFFFF
  | .infinite negative => if negative then 0 else 0xFFFFFFFFFFFFFFFF

namespace Value

def wrongKind (v : Value) (expected : String) : Mismatch :=
  .wrongKind (Found.ofValue v) expected v.origin

def toNatural (v : Value) : Except Mismatch Nat :=
  match v with
  | .scalar _ (.bool b) => .ok b.toNat
  | .scalar _ (.integer n) =>
    if 0 ≤ n then .ok n.toNat else .error (v.wrongKind "an unsigned 64 bit or less integer")
  | .scalar _ (.real x) => .ok (realNatural x)
  | .scalar _ (.text s) =>
    match wordFlag? s with
    | some b => .ok b.toNat
    | none =>
      match digits? s with
      | some n => .ok n
      | none => .error (v.wrongKind "an integer")
  | _ => .error (v.wrongKind "an integer")

def toPort (v : Value) : Except Mismatch UInt16 :=
  match v.toNatural with
  | .error e => .error e
  | .ok n =>
    if n < 0x10000 then .ok n.toUInt16
    else .error (.wrongKind (.natural n) "an unsigned 16 bit integer" none)

def toFlag (v : Value) : Except Mismatch Bool :=
  match v with
  | .scalar _ (.bool b) => .ok b
  | .scalar _ (.integer n) => .ok (n != 0)
  | .scalar _ (.real (.finite x)) => .ok !x.isZero
  | .scalar _ (.real (.infinite _)) => .ok true
  | .scalar origin (.text s) =>
    if lowerWord s = "1" then .ok true
    else if lowerWord s = "0" then .ok false
    else
      match wordFlag? s with
      | some b => .ok b
      | none => .error (.wrongKind (.text (lowerWord s)) "a boolean" origin)
  | _ => .error (v.wrongKind "a boolean")

def toText (v : Value) : Except Mismatch String :=
  match v with
  | .scalar _ (.bool b) => .ok (boolText b)
  | .scalar _ (.integer n) => .ok (toString n)
  | .scalar _ (.real x) => .ok (realText x)
  | .scalar _ (.text s) => .ok s
  | _ => .error (v.wrongKind "a string")

def toDuration (v : Value) : Except Mismatch Duration :=
  match v.toText with
  | .error e => .error e
  | .ok text =>
    match Duration.ofText? text with
    | some d => .ok d
    | none => .error (.noDuration text)

end Value

structure Given where
  field : String
  key : String
  value : Value
  deriving Repr

structure Section where
  name : String
  title : String
  fields : List String
  deriving DecidableEq, Repr

namespace Section

/-- The fields that are given: members of a table by their names, items of a list by their order. -/
def given (s : Section) (v : Value) : Except FieldError (List Given) :=
  match v with
  | .table _ members =>
    .ok (s.fields.filterMap fun field =>
      (members.lookup field).map fun value => ⟨field, s!"{s.name}.{field}", value⟩)
  | .list _ items =>
    .ok ((s.fields.zip items).zipIdx.map fun ((field, value), i) =>
      ⟨field, s!"{s.name}[{i}]", value⟩)
  | _ => .error ⟨.noSection (Found.ofValue v) s!"struct {s.title}", s.name⟩

end Section

def field {α : Type} (given : List Given) (name : String) (convert : Value → Except Mismatch α)
    (default : α) : Except FieldError α :=
  match given.find? (·.field == name) with
  | none => .ok default
  | some g => (convert g.value).mapError (⟨·, g.key⟩)

end AttestationService.Settings

import AttestationService.Json.Reader
import AttestationService.Json.Writer
import AttestationService.Text.Quoted

/-!
Reading a document as a record with known fields. A record is an object, whose members may come in
any order, or an array of the fields in their order. Members with other names are skipped over:
their contents only have to follow the grammar, at any depth and with numbers of any size. A field
that comes twice in an object is an error.
-/

namespace AttestationService.Json

inductive FieldKind where
  | text
  | optionalText
  | optionalValue
  deriving DecidableEq, Repr

structure Field where
  name : String
  kind : FieldKind
  deriving DecidableEq, Repr

inductive Slot where
  | absent
  | text (s : String)
  | value (v : Value)
  deriving Repr, BEq

inductive Found where
  | null
  | bool (b : Bool)
  | number (n : Number)
  | string (s : String)
  | array
  | object
  deriving DecidableEq, Repr

def Found.message : Found → String
  | .null => "null"
  | .bool b => s!"boolean `{b}`"
  | .number (.integer n) => s!"integer `{n}`"
  | .number (.real x) =>
    let digits := String.ofList (realText x)
    s!"floating point `{digits}`"
  | .string s => s!"string {Text.quotedString s}"
  | .array => "sequence"
  | .object => "map"

inductive Mismatch where
  | wrongType (found : Found) (wanted : String)
  | missing (field : String)
  | repeated (field : String)
  | tooShort (count : Nat) (wanted : String)
  deriving DecidableEq, Repr

def Mismatch.message : Mismatch → String
  | .wrongType found wanted => s!"invalid type: {found.message}, expected {wanted}"
  | .missing field => s!"missing field `{field}`"
  | .repeated field => s!"duplicate field `{field}`"
  | .tooShort count wanted => s!"invalid length {count}, expected {wanted}"

inductive RecordFailure where
  | malformed (f : Failure)
  | mismatch (m : Mismatch)
  deriving DecidableEq, Repr

def grammar {α : Type} : Except Failure α → Except RecordFailure α
  | .ok a => .ok a
  | .error f => .error (.malformed f)

/-- The rest of a string that is skipped over: its escapes need not be characters. -/
def skipString (fuel : Nat) (input : Input) : Except Failure Input :=
  match fuel, input with
  | _, [] => failHere .endInString []
  | 0, rest => failHere .endInString rest
  | fuel + 1, .stray _ :: rest => skipString fuel rest
  | fuel + 1, .char c :: rest =>
    if c = '"' then .ok rest
    else if c = '\\' then
      match rest with
      | [] => failHere .endInString []
      | .char 'u' :: rest =>
        match hexQuad? rest with
        | some (_, rest) => skipString fuel rest
        | none => .error (hexQuadFailure rest)
      | .char e :: rest =>
        if (shortEscape? e).isSome then skipString fuel rest
        else failNext .badEscape (.char e :: rest)
      | rest => failNext .badEscape rest
    else if c < ' ' then failHere .controlInString (.char c :: rest)
    else skipString fuel rest

def skipExponent (input : Input) : Except Failure Input :=
  let rest : Input :=
    match input with
    | .char c :: rest => if c = '+' ∨ c = '-' then rest else input
    | _ => input
  match digit? rest with
  | some (_, rest) => .ok (skipDigits rest)
  | none => .error ⟨.badNumber, octetCount rest - 1⟩

def skipNumber (input : Input) : Except Failure Input :=
  match digit? input with
  | none => .error ⟨.badNumber, octetCount input - 1⟩
  | some (0, rest) => if (digit? rest).isSome then failNext .badNumber rest else tail rest
  | some (_, rest) => tail (skipDigits rest)
where
  tail (rest : Input) : Except Failure Input :=
    match rest with
    | .char c :: after =>
      if c = '.' then
        if (digit? after).isSome then
          let rest := skipDigits after
          match exponentMark? rest with
          | some rest => skipExponent rest
          | none => .ok rest
        else failNext .badNumber after
      else if c = 'e' ∨ c = 'E' then skipExponent after
      else .ok rest
    | _ => .ok rest

inductive Bracket where
  | array
  | object
  deriving DecidableEq, Repr

def skipKey (fuel : Nat) (input : Input) : Except Failure Input :=
  match skipSpace input with
  | .char '"' :: rest =>
    match skipString fuel rest with
    | .ok rest => colon rest
    | .error f => .error f
  | [] => failNext .endInObject []
  | rest => failNext .keyExpected rest

/-- Skips one value and, if brackets are open, what is left of them. `ended` says that a value has
just ended inside the innermost bracket; without it a value comes next. -/
def skip (fuel : Nat) (ended : Bool) (open_ : List Bracket) (input : Input) : Except Failure Input :=
  match fuel with
  | 0 => failNext .endInValue input
  | fuel + 1 =>
    if ended then
      match open_ with
      | [] => .ok input
      | .array :: outer =>
        match skipSpace input with
        | .char ',' :: rest => skip fuel false (.array :: outer) rest
        | .char ']' :: rest => skip fuel true outer rest
        | [] => failNext .endInArray []
        | rest => failNext .itemEndExpected rest
      | .object :: outer =>
        match skipSpace input with
        | .char ',' :: rest =>
          match skipKey fuel rest with
          | .ok rest => skip fuel false (.object :: outer) rest
          | .error f => .error f
        | .char '\x7d' :: rest => skip fuel true outer rest
        | [] => failNext .endInObject []
        | rest => failNext .memberEndExpected rest
    else
      match skipSpace input with
      | [] => failNext .endInValue []
      | .stray o :: rest => failNext .valueExpected (.stray o :: rest)
      | .char c :: rest =>
        match c with
        | '[' =>
          match skipSpace rest with
          | .char ']' :: rest => skip fuel true open_ rest
          | [] => failNext .endInArray []
          | rest => skip fuel false (.array :: open_) rest
        | '\x7b' =>
          match skipSpace rest with
          | .char '\x7d' :: rest => skip fuel true open_ rest
          | rest =>
            match skipKey fuel rest with
            | .ok rest => skip fuel false (.object :: open_) rest
            | .error f => .error f
        | c =>
          match scalar fuel c rest with
          | .ok rest => skip fuel true open_ rest
          | .error f => .error f
where
  scalar (fuel : Nat) (c : Char) (rest : Input) : Except Failure Input :=
    match c with
    | 'n' => word ['u', 'l', 'l'] rest
    | 't' => word ['r', 'u', 'e'] rest
    | 'f' => word ['a', 'l', 's', 'e'] rest
    | '-' => skipNumber rest
    | '"' => skipString fuel rest
    | c =>
      if (digitOf? c).isSome then skipNumber (.char c :: rest)
      else failNext .valueExpected (.char c :: rest)

@[simp] theorem skip_outside (fuel : Nat) (input : Input) : skip (fuel + 1) true [] input = .ok input := by
  unfold skip
  rfl

def found (fuel : Nat) (wanted : String) (input : Input) : RecordFailure :=
  let result : Except Failure Found :=
    match input with
    | .char c :: rest =>
      match c with
      | 'n' => (word ['u', 'l', 'l'] rest).map fun _ => .null
      | 't' => (word ['r', 'u', 'e'] rest).map fun _ => .bool true
      | 'f' => (word ['a', 'l', 's', 'e'] rest).map fun _ => .bool false
      | '-' => (number true rest).map fun r => .number r.1
      | '"' => (stringRest fuel [] true rest).map fun r => .string r.1
      | '[' => .ok .array
      | '\x7b' => .ok .object
      | c =>
        if (digitOf? c).isSome then (number false input).map fun r => .number r.1
        else failNext .valueExpected input
    | _ => failNext .valueExpected input
  match result with
  | .ok f => .mismatch (.wrongType f wanted)
  | .error f => .malformed f

def textSlot (fuel : Nat) (input : Input) : Except RecordFailure (Slot × Input) :=
  match skipSpace input with
  | [] => grammar (failNext .endInValue [])
  | .char '"' :: rest =>
    grammar ((stringRest fuel [] true rest).map fun (s, rest) => (.text s, rest))
  | rest => .error (found fuel "a string" rest)

def slot (fuel depth : Nat) (kind : FieldKind) (input : Input) :
    Except RecordFailure (Slot × Input) :=
  match kind, skipSpace input with
  | .text, input => textSlot fuel input
  | .optionalText, .char 'n' :: rest | .optionalValue, .char 'n' :: rest =>
    grammar ((word ['u', 'l', 'l'] rest).map (Slot.absent, ·))
  | .optionalText, input => textSlot fuel input
  | .optionalValue, input =>
    grammar ((value fuel depth input).map fun (v, rest) => (.value v.merged, rest))

abbrev Slots := List (String × Slot)

def complete (slots : Slots) : List Field → Except RecordFailure (List Slot)
  | [] => .ok []
  | field :: fields => do
    let s ←
      match slots.lookup field.name, field.kind with
      | some s, _ => pure s
      | none, .text => .error (.mismatch (.missing field.name))
      | none, _ => pure .absent
    let rest ← complete slots fields
    pure (s :: rest)

def recordMembers (fuel depth : Nat) (fields : List Field) (first : Bool) (slots : Slots)
    (input : Input) : Except RecordFailure (List Slot × Input) :=
  match fuel with
  | 0 => grammar (failNext .endInObject input)
  | fuel + 1 =>
    match nextMember first input with
    | .error f => .error (.malformed f)
    | .ok none => (complete slots fields).map (·, afterBracket input)
    | .ok (some rest) =>
      match stringRest fuel [] true rest with
      | .error f => .error (.malformed f)
      | .ok (key, rest) =>
        match fields.find? (·.name == key) with
        | none =>
          match (colon rest).bind (skip fuel false []) with
          | .error f => .error (.malformed f)
          | .ok rest => recordMembers fuel depth fields false slots rest
        | some field =>
          if (slots.lookup key).isSome then .error (.mismatch (.repeated key))
          else
            match colon rest with
            | .error f => .error (.malformed f)
            | .ok rest =>
              match slot fuel depth field.kind rest with
              | .error f => .error f
              | .ok (s, rest) => recordMembers fuel depth fields false ((key, s) :: slots) rest

def arrayEnd (input : Input) : Except Failure Input :=
  match skipSpace input with
  | .char ']' :: rest => .ok rest
  | .char ',' :: rest =>
    match skipSpace rest with
    | .char ']' :: rest => failNext .trailingComma (.char ']' :: rest)
    | rest => failNext .trailingText rest
  | [] => failNext .endInArray []
  | rest => failNext .trailingText rest

/-- The rest of a record given as an array: `count` fields are filled. Only a text that may be left
out of an object may be left out here. -/
def recordItems (fuel depth : Nat) (title : String) (count : Nat) :
    List Field → Input → Except RecordFailure (List Slot × Input)
  | [], input => grammar ((arrayEnd input).map ([], ·))
  | field :: fields, input =>
    match nextItem (count == 0) input with
    | .error f => .error (.malformed f)
    | .ok none =>
      if field.kind = .optionalText then
        match recordItems fuel depth title (count + 1) fields input with
        | .ok (slots, rest) => .ok (.absent :: slots, rest)
        | .error f => .error f
      else .error (.mismatch (.tooShort count title))
    | .ok (some rest) =>
      match slot fuel depth field.kind rest with
      | .error f => .error f
      | .ok (s, rest) =>
        match recordItems fuel depth title (count + 1) fields rest with
        | .ok (slots, rest) => .ok (s :: slots, rest)
        | .error f => .error f

structure Shape where
  title : String
  fields : List Field
  deriving Repr

def Shape.counted (shape : Shape) : String :=
  let n := shape.fields.length
  let noun := if n = 1 then "element" else "elements"
  s!"{shape.title} with {n} {noun}"

def record (shape : Shape) (fuel : Nat) (input : Input) : Except RecordFailure (List Slot × Input) :=
  match skipSpace input with
  | [] => grammar (failNext .endInValue [])
  | .char '[' :: rest => recordItems fuel (maxDepth - 1) shape.counted 0 shape.fields rest
  | .char '\x7b' :: rest => recordMembers fuel (maxDepth - 1) shape.fields true [] rest
  | rest => .error (found fuel shape.title rest)

inductive RecordError where
  | malformed (e : Error)
  | mismatch (m : Mismatch)
  deriving DecidableEq, Repr

def readRecord (shape : Shape) (input : Input) : Except RecordError (List Slot) :=
  match (record shape (2 * input.length + 2) input).bind (fun r => grammar (finish r)) with
  | .ok slots => .ok slots
  | .error (.malformed f) => .error (.malformed (f.locate input))
  | .error (.mismatch m) => .error (.mismatch m)

end AttestationService.Json

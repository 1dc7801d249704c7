/-!
Shell scripts as trees. Text is a list of characters of which each stands for one octet.
-/

namespace AttestationService.Shell

abbrev Text := List Char

def textOf (octets : List UInt8) : Text := octets.map fun o => Char.ofNat o.toNat

def octetsOf (text : Text) : List UInt8 := text.map fun c => c.toNat.toUInt8

inductive Fallback where
  | standIn
  | assign
  | complain
  | replace
  deriving DecidableEq, Repr

inductive Opening where
  | read
  | write
  | extend
  deriving DecidableEq, Repr

mutual

/-- A stretch of a word. What an expansion in quotes gives is not cut into fields. -/
inductive Part where
  | plain (text : Text)
  | quoted (text : Text)
  | parameter (quoted : Bool) (name : Text) (form : Form)
  | arithmetic (quoted : Bool) (expression : List Part)
  | output (quoted : Bool) (body : List Command)

inductive Form where
  | value
  | length
  | fallback (kind : Fallback) (orEmpty : Bool) (word : List Part)
  | cut (atEnd : Bool) (longest : Bool) (pattern : List Part)

inductive Redirect where
  | file (descriptor : Nat) (opening : Opening) (target : List Part)
  | copy (descriptor : Nat) (target : List Part)
  | document (descriptor : Nat) (text : List Part)

inductive Command where
  | simple (line : Nat) (assignments : List (Text × List Part)) (words : List (List Part))
      (redirects : List Redirect)
  | andThen (first second : Command)
  | orElse (first second : Command)
  | negated (body : Command)
  | pipeline (stages : List Command)
  | group (body : List Command)
  | subshell (body : List Command)
  | choice (condition consequent alternative : List Command)
  | loop (until_ : Bool) (condition body : List Command)
  | each (name : Text) (words : Option (List (List Part))) (body : List Command)
  | cases (subject : List Part) (arms : List (List (List Part) × List Command))
  | function (name : Text) (body : Command)
  | redirected (body : Command) (redirects : List Redirect)

end

abbrev Word := List Part

def putText (name text : Text) : List (Text × Text) → List (Text × Text)
  | [] => [(name, text)]
  | (n, t) :: rest => if n = name then (n, text) :: rest else (n, t) :: putText name text rest

end AttestationService.Shell

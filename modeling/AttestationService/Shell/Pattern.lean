import AttestationService.Shell.Grammar

/-!
Patterns: an asterisk stands for any text, a question mark for one character, and brackets for one
character out of a set. What is quoted stands for itself.
-/

namespace AttestationService.Shell

abbrev Mark := Char × Bool

abbrev Pattern := List Mark

def isPatternMark (m : Mark) : Bool := !m.2 && (m.1 == '*' || m.1 == '?' || m.1 == '[')

/-- The members of a set in brackets, after its first bracket and a sign that negates it: pairs of
bounds, and what follows the closing bracket. -/
def bracketSet? : Nat → List (Char × Char) → Pattern → Option (List (Char × Char) × Pattern)
  | 0, _, _ => none
  | _, _, [] => none
  | fuel + 1, bounds, (c, quoted) :: rest =>
    if c = ']' ∧ !quoted ∧ !bounds.isEmpty then some (bounds, rest)
    else
      match rest with
      | ('-', false) :: (d, q) :: after =>
        if d = ']' ∧ !q then bracketSet? fuel ((c, c) :: bounds) rest
        else bracketSet? fuel ((c, d) :: bounds) after
      | _ => bracketSet? fuel ((c, c) :: bounds) rest

def bracket? (pattern : Pattern) : Option ((Char → Bool) × Pattern) :=
  let (negated, body) : Bool × Pattern :=
    match pattern with
    | ('!', false) :: rest => (true, rest)
    | ('^', false) :: rest => (true, rest)
    | _ => (false, pattern)
  (bracketSet? (body.length + 1) [] body).map fun (bounds, rest) =>
    (fun c => (bounds.any fun b => b.1 ≤ c && c ≤ b.2) != negated, rest)

def fits : Nat → Pattern → Text → Bool
  | 0, _, _ => false
  | _, [], text => text.isEmpty
  | fuel + 1, (c, quoted) :: rest, text =>
    if quoted then
      match text with
      | d :: more => c == d && fits fuel rest more
      | [] => false
    else if c = '*' then
      fits fuel rest text ||
        match text with
        | _ :: more => fits fuel ((c, quoted) :: rest) more
        | [] => false
    else
      match text with
      | [] => false
      | d :: more =>
        if c = '?' then fits fuel rest more
        else if c = '[' then
          match bracket? rest with
          | some (belongs, after) => belongs d && fits fuel after more
          | none => c == d && fits fuel rest more
        else c == d && fits fuel rest more

def Pattern.fits (pattern : Pattern) (text : Text) : Bool :=
  Shell.fits (pattern.length + text.length + 1) pattern text

def Pattern.cut (pattern : Pattern) (atEnd longest : Bool) (text : Text) : Text :=
  let sizes := List.range (text.length + 1)
  let sizes := if longest then sizes.reverse else sizes
  let size? := sizes.find? fun n =>
    pattern.fits (if atEnd then text.drop (text.length - n) else text.take n)
  match size? with
  | none => text
  | some n => if atEnd then text.take (text.length - n) else text.drop n

end AttestationService.Shell

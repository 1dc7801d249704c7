import AttestationService.Hex
import AttestationService.Yaml.Cursor

/-!
The three spellings of a scalar: plain, between quotes, and as an indented block. Inside the first
two a line break is folded: one break becomes a space, and of several the first is dropped.
-/

namespace AttestationService.Yaml

structure Fold where
  blanks : List Char
  folded : Bool
  breaks : Nat

namespace Fold

def none : Fold := ⟨[], false, 0⟩

/-- Adds what a fold stands for to a text, last character first. -/
def join (f : Fold) (leading : Bool) (text : List Char) : List Char :=
  if leading then
    if f.folded ∧ f.breaks = 0 then ' ' :: text else List.replicate f.breaks '\n' ++ text
  else f.blanks ++ text

end Fold

/-- Whether plain text goes on here: a colon before a space ends it, and so does an indicator of a
flow collection inside one. -/
def plainGoesOn (inFlow : Bool) : List Char → Bool
  | [] => false
  | c :: rest =>
    if isSpace c then false
    else if c = ':' then
      !(atSpace rest || (inFlow && (rest.head?.map isFlow).getD false))
    else !(inFlow && isFlow c)

def plainLength (inFlow : Bool) : List Char → Nat
  | [] => 0
  | c :: rest => if plainGoesOn inFlow (c :: rest) then plainLength inFlow rest + 1 else 0

/-- Blanks and breaks inside a plain scalar. Indentation holds no tab unless the line is empty. -/
def plainSpace (indent : Int) : Nat → Fold → Cursor → Option (Fold × Cursor)
  | 0, f, c => some (f, c)
  | fuel + 1, f, c =>
    match c.rest with
    | [] => some (f, c)
    | d :: _ =>
      if isBlank d then
        if !c.leading then plainSpace indent fuel { f with blanks := d :: f.blanks } (c.passBlanks 1)
        else if (c.column : Int) < indent ∧ d = '\t' then
          match c.passGap true with
          | none => none
          | some gap =>
            if atLineEnd gap.after.rest then plainSpace indent fuel f gap.after else none
        else plainSpace indent fuel f (c.passBlanks 1)
      else if isBreak d then
        let f : Fold := if c.leading then { f with breaks := f.breaks + 1 } else ⟨[], true, f.breaks⟩
        plainSpace indent fuel f c.passBreak
      else some (f, c)

/-- A plain scalar from here on; `text` is what was read of it, last character first. -/
def plainFrom (inFlow : Bool) (indent : Int) : Nat → List Char → Fold → Cursor →
    Option (List Char × Cursor)
  | 0, text, _, c => some (text, c)
  | fuel + 1, text, f, c =>
    if (c.leading && c.atDocumentMark) || c.peek == some '#' then some (text, c)
    else if inFlow && c.peek == some '-' && ((c.rest.drop 1).head?.map isFlow).getD false then none
    else
      let length := plainLength inFlow c.rest
      let (text, f, c) :=
        if length = 0 then (text, f, c)
        else ((c.rest.take length).reverse ++ f.join c.leading text, Fold.none, c.pass length)
      match c.rest with
      | [] => some (text, c)
      | d :: _ =>
        if !isSpace d then some (text, c)
        else
          match plainSpace indent c.rest.length f c with
          | none => none
          | some (f, c) =>
            if !inFlow ∧ (c.column : Int) < indent then some (text, c)
            else plainFrom inFlow indent fuel text f c

def plainScalar (inFlow : Bool) (indent : Int) (c : Cursor) : Option (String × Cursor) :=
  if inFlow ∧ (c.column : Int) < indent then none
  else
    match plainFrom inFlow indent (c.rest.length + 1) [] Fold.none c with
    | some (text, after) => if text.isEmpty then none else some (String.ofList text.reverse, after)
    | none => none

def shortEscape? (c : Char) : Option Char :=
  match c with
  | '0' => some '\x00'
  | 'a' => some '\x07'
  | 'b' => some '\x08'
  | 't' | '\t' => some '\t'
  | 'n' => some '\n'
  | 'v' => some '\x0b'
  | 'f' => some '\x0c'
  | 'r' => some '\r'
  | 'e' => some '\x1b'
  | ' ' => some ' '
  | '"' => some '"'
  | '/' => some '/'
  | '\\' => some '\\'
  | 'N' => some '\u0085'
  | '_' => some '\u00a0'
  | 'L' => some '\u2028'
  | 'P' => some '\u2029'
  | _ => none

def longEscape? (c : Char) : Option Nat :=
  match c with
  | 'x' => some 2
  | 'u' => some 4
  | 'U' => some 8
  | _ => none

def charOfCode? (n : Nat) : Option Char :=
  if n.isValidChar then some (Char.ofNat n) else none

def escape? (rest : List Char) : Option (Char × Nat) :=
  match rest with
  | [] => none
  | c :: rest =>
    match shortEscape? c, longEscape? c with
    | some e, _ => some (e, 1)
    | none, none => none
    | none, some count =>
      let digits := (rest.take count).filterMap Hex.digitOf?
      if digits.length = count then
        (charOfCode? (digits.foldl (fun n d => n * 16 + d) 0)).map (·, count + 1)
      else none

def quotedText (single : Bool) : Nat → List Char → Cursor → Option (List Char × Cursor × Bool)
  | 0, text, c => some (text, c, false)
  | fuel + 1, text, c =>
    match c.rest with
    | [] => some (text, c, false)
    | d :: rest =>
      if isSpace d then some (text, c, false)
      else if single then
        if d = '\x27' then
          if rest.head? = some '\x27' then quotedText single fuel ('\x27' :: text) (c.pass 2)
          else some (text, c, false)
        else quotedText single fuel (d :: text) (c.pass 1)
      else if d = '"' then some (text, c, false)
      else if d = '\\' then
        if (rest.head?.map isBreak).getD false then some (text, (c.pass 1).passBreak, true)
        else
          match escape? rest with
          | none => none
          | some (e, length) => quotedText single fuel (e :: text) (c.pass (length + 1))
      else quotedText single fuel (d :: text) (c.pass 1)

def quotedSpace (indent : Int) : Nat → Bool → Fold → Cursor → Option (Bool × Fold × Cursor)
  | 0, leading, f, c => some (leading, f, c)
  | fuel + 1, leading, f, c =>
    match c.rest with
    | [] => some (leading, f, c)
    | d :: _ =>
      if isBlank d then
        if leading then
          if d = '\t' ∧ (c.column : Int) < indent then none
          else quotedSpace indent fuel leading f (c.passBlanks 1)
        else quotedSpace indent fuel leading { f with blanks := d :: f.blanks } (c.passBlanks 1)
      else if isBreak d then
        let f : Fold := if leading then { f with breaks := f.breaks + 1 } else ⟨[], true, f.breaks⟩
        quotedSpace indent fuel true f c.passBreak
      else some (leading, f, c)

def quotedFrom (single : Bool) (indent : Int) : Nat → List Char → Cursor → Option (List Char × Cursor)
  | 0, _, _ => none
  | fuel + 1, text, c =>
    if c.column = 0 ∧ c.atDocumentMark then none
    else if c.rest.isEmpty ∨ (c.column : Int) < indent then none
    else
      match quotedText single (c.rest.length + 1) text c with
      | none => none
      | some (text, c, leading) =>
        if c.peek = some (if single then '\x27' else '"') then some (text, c.pass 1)
        else
          match quotedSpace indent c.rest.length leading Fold.none c with
          | none => none
          | some (leading, f, c) => quotedFrom single indent fuel (f.join leading text) c

/-- What may follow a closing quote: the end of the line, a colon if the scalar can be a key, and
inside a flow collection what goes on with that. -/
def quoteMayEnd (inFlow : Bool) (startLine : Nat) (c : Cursor) : Bool :=
  match c.rest with
  | [] => true
  | d :: _ =>
    isBreak d || (inFlow && (d == ',' || d == '\x7d' || d == ']'))
      || (d == ':' && (inFlow || startLine == c.line))

def quotedScalar (single inFlow : Bool) (indent : Int) (c : Cursor) : Option (String × Cursor) :=
  match quotedFrom single indent (c.rest.length + 1) [] (c.pass 1) with
  | none => none
  | some (text, after) =>
    match after.passGap true with
    | none => none
    | some gap =>
      if quoteMayEnd inFlow c.line gap.after then some (String.ofList text.reverse, gap.after)
      else none

inductive Chomping where
  | strip
  | clip
  | keep
  deriving DecidableEq, Repr

def blockSigns (c : Cursor) : Option (Chomping × Nat × Cursor) :=
  let chomp? (d : Char) : Option Chomping :=
    if d = '+' then some .keep else if d = '-' then some .strip else none
  let digit? (c : Cursor) : Option (Option Nat × Cursor) :=
    match c.rest with
    | d :: _ =>
      if d = '0' then none
      else if d.isDigit then some (some (d.toNat - 48), c.pass 1)
      else some (none, c)
    | [] => some (none, c)
  match c.rest.head?.bind chomp? with
  | some chomping => (digit? (c.pass 1)).map fun (n, c) => (chomping, n.getD 0, c)
  | none =>
    match digit? c with
    | none => none
    | some (none, c) => some (.clip, 0, c)
    | some (some n, c) =>
      match c.rest.head?.bind chomp? with
      | some chomping => some (chomping, n, c.pass 1)
      | none => some (.clip, n, c)

def blockIndent (indent : Nat) : Nat → Nat → Cursor → Nat × Cursor
  | 0, breaks, c => (breaks, c)
  | fuel + 1, breaks, c =>
    let spaces := (c.rest.takeWhile (· == ' ')).length
    let c := c.passBlanks (min spaces (indent - c.column))
    match c.rest with
    | d :: _ => if isBreak d then blockIndent indent fuel (breaks + 1) c.passBreak else (breaks, c)
    | [] => (breaks, c)

def blockFirstIndent : Nat → Nat → Nat → Cursor → Nat × Nat × Cursor
  | 0, widest, breaks, c => (widest, breaks, c)
  | fuel + 1, widest, breaks, c =>
    let c := c.passBlanks (c.rest.takeWhile (· == ' ')).length
    let widest := max widest c.column
    match c.rest with
    | d :: _ =>
      if isBreak d then blockFirstIndent fuel widest (breaks + 1) c.passBreak else (widest, breaks, c)
    | [] => (widest, breaks, c)

/-- A block as it is read: its text, last character first, the break after its last line, the empty
lines after that, and whether the last line began with a blank. -/
structure Block where
  text : List Char
  lastBreak : Bool
  breaks : Nat
  blankBefore : Bool

/-- The lines of a block. Only a folded block joins its lines, and not those that begin with a
blank. -/
def blockLines (literal : Bool) (indent : Nat) : Nat → Block → Cursor → Block × Cursor
  | 0, b, c => (b, c)
  | fuel + 1, b, c =>
    if c.column ≠ indent ∨ c.rest.isEmpty ∨ (indent = 0 ∧ c.startsWithMarks '.') then (b, c)
    else
      let blank := (c.peek.map isBlank).getD false
      let between : List Char :=
        if !literal ∧ b.lastBreak ∧ !b.blankBefore ∧ !blank then
          if b.breaks = 0 then [' '] else List.replicate b.breaks '\n'
        else List.replicate (b.breaks + if b.lastBreak then 1 else 0) '\n'
      let line := c.rest.takeWhile (!isBreak ·)
      let text := line.reverse ++ between ++ b.text
      let c := c.passBlanks line.length
      if c.rest.isEmpty then (⟨text, false, 0, blank⟩, c)
      else
        let (breaks, c) := blockIndent indent (c.rest.length + 1) 0 c.passBreak
        blockLines literal indent fuel ⟨text, true, breaks, blank⟩ c

def blockScalar (literal : Bool) (outer : Int) (c : Cursor) : Option (String × Cursor) :=
  match blockSigns (c.pass 1) with
  | none => none
  | some (chomping, given, signs) =>
    match signs.passGap true with
    | none => none
    | some gap =>
      if !atLineEnd gap.after.rest then none
      else
        let broke := !gap.after.rest.isEmpty
        let first := gap.after.passBreak
        if first.peek = some '\t' then none
        else
          let (indent, breaks, body) :=
            -- without a digit the first line that is not blank sets the indentation
            if given = 0 then
              let (widest, breaks, body) := blockFirstIndent (first.rest.length + 1) 0 0 first
              let least := max widest (outer + 1).toNat
              (if 0 < outer then max least 1 else least, breaks, body)
            else
              let indent := if 0 ≤ outer then (outer + given).toNat else given
              let (breaks, body) := blockIndent indent (first.rest.length + 1) 0 first
              (indent, breaks, body)
          -- there are only blank lines
          if body.rest.isEmpty then
            let text :=
              if chomping = .strip ∨ body.line = c.line then ""
              else if chomping = .clip ∨ breaks = 0 then (if broke then "\n" else "")
              else String.ofList (List.replicate breaks '\n')
            some (text, body)
          else if body.column < indent ∧ outer < body.column then none
          else
            let (b, after) :=
              blockLines literal indent (body.rest.length + 1) ⟨[], false, breaks, false⟩ body
            let tail : Nat :=
              if chomping = .strip then 0
              else
                (if b.lastBreak then 1 else 0)
                  + (if after.rest.isEmpty ∧ max indent 1 ≤ after.column then 1 else 0)
            let kept := if chomping = .keep then b.breaks else 0
            some (String.ofList (b.text.reverse ++ List.replicate (tail + kept) '\n'), after)

end AttestationService.Yaml

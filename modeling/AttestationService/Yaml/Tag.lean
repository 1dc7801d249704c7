import AttestationService.Hex
import AttestationService.Yaml.Cursor

/-!
Tags, as they are written on nodes and in the rules that declare their handles.
-/

namespace AttestationService.Yaml

def isUriChar (c : Char) : Bool :=
  c.isAlphanum || c == '-' || "#;/?:@&=+$,_.!~*\x27()[]%".toList.contains c

def isTagChar (c : Char) : Bool := isUriChar c && !isFlow c && c != '!'

def octetCount? (first : Nat) : Option Nat :=
  if first < 0x80 then some 1
  else if 0xC0 ≤ first ∧ first < 0xE0 then some 2
  else if 0xE0 ≤ first ∧ first < 0xF0 then some 3
  else if 0xF0 ≤ first ∧ first < 0xF8 then some 4
  else none

def percentOctet? : List Char → Option (Nat × List Char)
  | '%' :: a :: b :: rest =>
    match Hex.digitOf? a, Hex.digitOf? b with
    | some high, some low => some (high * 16 + low, rest)
    | _, _ => none
  | _ => none

/-- Octets that go on a character. Their bits are taken eight at a time. -/
def percentTail : Nat → Nat → List Char → Option Nat
  | 0, code, _ => some code
  | n + 1, code, rest =>
    match percentOctet? rest with
    | some (octet, rest) =>
      if 0x80 ≤ octet ∧ octet < 0xC0 then percentTail n (code * 256 + octet) rest else none
    | none => none

def percentChar? (rest : List Char) : Option (Char × Nat) := do
  let (first, after) ← percentOctet? rest
  let count ← octetCount? first
  let code ← percentTail (count - 1) first after
  if code.isValidChar then some (Char.ofNat code, 3 * count) else none

def tagText (class_ : Char → Bool) : Nat → List Char → Cursor → Option (List Char × Cursor)
  | 0, text, c => some (text.reverse, c)
  | fuel + 1, text, c =>
    match c.rest with
    | [] => some (text.reverse, c)
    | d :: _ =>
      if !class_ d then some (text.reverse, c)
      else if d = '%' then
        match percentChar? c.rest with
        | some (e, length) => tagText class_ fuel (e :: text) (c.pass length)
        | none => none
      else tagText class_ fuel (d :: text) (c.pass 1)

def tagHandle (c : Cursor) : Option (List Char × Cursor) :=
  match c.rest with
  | '!' :: rest =>
    let word := rest.takeWhile isWordChar
    let after := c.pass (word.length + 1)
    if after.peek = some '!' then some ('!' :: word ++ ['!'], after.pass 1)
    else some ('!' :: word, after)
  | _ => none

def nodeTag (inFlow : Bool) (c : Cursor) : Option (String × String × Cursor) := do
  let fuel := c.rest.length + 1
  let (handle, suffix, after) ←
    if (c.rest.drop 1).head? = some '<' then
      match ← tagText isUriChar fuel [] (c.pass 2) with
      | (name, after) => if after.peek = some '>' then some ([], name, after.pass 1) else none
    else
      let (handle, after) ← tagHandle c
      if 2 ≤ handle.length ∧ handle.getLast? = some '!' then
        let (suffix, end_) ← tagText isTagChar fuel [] after
        if suffix.isEmpty ∧ after.index = end_.index then none else some (handle, suffix, end_)
      else
        let (suffix, end_) ← tagText isTagChar fuel [] after
        let suffix := handle.drop 1 ++ suffix
        if suffix.isEmpty then some ([], ['!'], end_) else some (['!'], suffix, end_)
  let ends := match after.rest with
    | [] => true
    | d :: _ => isSpace d || (inFlow && isFlow d)
  if ends then some (String.ofList handle, String.ofList suffix, after) else none

def tagRule (c : Cursor) : Option (String × String × Cursor) := do
  let passAll (c : Cursor) := c.passBlanks (c.rest.takeWhile isBlank).length
  let (handle, after) ← tagHandle (passAll c)
  if handle.length ≠ 1 ∧ handle.getLast? ≠ some '!' then none
  else
    let c := passAll after
    let fuel := c.rest.length + 1
    let (name, after) ←
      if c.peek = some '!' then
        match ← tagText isUriChar fuel [] (c.pass 1) with
        | (name, after) => some ('!' :: name, after)
      else if (c.peek.map isTagChar).getD false then tagText isUriChar fuel [] c
      else none
    if atSpace after.rest then some (String.ofList handle, String.ofList name, after) else none

end AttestationService.Yaml

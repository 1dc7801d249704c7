import AttestationService.Yaml.Scalar
import AttestationService.Yaml.Tag
import AttestationService.Yaml.Token

/-!
From a YAML text to its tokens. Indentation opens and closes blocks. A node that may turn out to be
a key is remembered with its place among the tokens, and a key token goes there once its colon is
found; outside flow collections that colon has to stand on the same line.
-/

namespace AttestationService.Yaml

structure PossibleKey where
  required : Bool
  place : Nat
  index : Nat
  line : Nat
  column : Nat

structure Margin where
  indent : Int
  block : Bool

structure Tokens where
  cursor : Cursor
  done : Array Token
  marginal : Bool
  /-- Where a colon may follow its key without a space. -/
  adjacent : Nat
  keyAllowed : Bool
  key : Option PossibleKey
  outerKeys : List (Option PossibleKey)
  indent : Int
  margins : List Margin
  flow : Nat
  inMapping : Bool
  /-- For each open flow sequence, whether a pair inside it is open. -/
  pairs : List Bool

namespace Tokens

def start (text : List Char) : Tokens :=
  ⟨.start text, #[], false, 0, true, none, [], -1, [], 0, false, []⟩

def push (t : Token) (s : Tokens) : Tokens := { s with done := s.done.push t, marginal := false }

def moveTo (c : Cursor) (s : Tokens) : Tokens := { s with cursor := c }

def allowKey (allowed : Bool) (s : Tokens) : Tokens := { s with keyAllowed := allowed }

def insertAt (place : Nat) (t : Token) (s : Tokens) : Tokens :=
  { s with done := s.done.extract 0 place ++ #[t] ++ s.done.extract place s.done.size }

def unindent (column : Int) : List Margin → Tokens → Tokens
  | [], s => { s with margins := [] }
  | m :: rest, s =>
    if column < s.indent then
      let s := { s with indent := m.indent, margins := rest }
      unindent column rest (if m.block then s.push .blockEnd else s)
    else s

def unindentTo (column : Int) (s : Tokens) : Tokens :=
  if s.flow = 0 then unindent column s.margins s else s

def dropLoose : List Margin → Tokens → Tokens
  | [], s => s
  | m :: rest, s =>
    if m.block then s else dropLoose rest { s with indent := m.indent, margins := rest }

def openBlock (column : Nat) (place : Option Nat) (t : Token) (s : Tokens) : Tokens :=
  if s.flow ≠ 0 then s
  else
    let s :=
      match s.margins with
      | m :: rest =>
        if s.indent ≤ (column : Int) ∧ !m.block then { s with indent := m.indent, margins := rest } else s
      | [] => s
    if s.indent < (column : Int) then
      let s := { s with indent := (column : Int), margins := ⟨s.indent, true⟩ :: s.margins }
      match place with
      | some place => s.insertAt place t
      | none => s.push t
    else s

/-- What stands inside a block's entry stands one column deeper at least. -/
def indentLoosely (s : Tokens) : Tokens :=
  match s.margins with
  | m :: _ =>
    if s.flow = 0 ∧ m.block then
      { s with indent := s.indent + 1, margins := ⟨s.indent, false⟩ :: s.margins }
    else s
  | [] => s

def saveKey (s : Tokens) : Tokens :=
  if s.keyAllowed then
    let required := s.flow == 0 && s.indent == s.cursor.column && (s.margins.head?.map (·.block)).getD false
    { s with key := some ⟨required, s.done.size, s.cursor.index, s.cursor.line, s.cursor.column⟩ }
  else s

/-- Forgets the possible key; a required one may not be forgotten. -/
def forgetKey (s : Tokens) : Option Tokens :=
  match s.key with
  | some k => if k.required then none else some { s with key := none }
  | none => some s

def forgetStaleKey (s : Tokens) : Option Tokens :=
  match s.key with
  | some k =>
    if s.flow = 0 ∧ (k.line < s.cursor.line ∨ k.index + 1024 < s.cursor.index) then s.forgetKey
    else some s
  | none => some s

def gap (s : Tokens) : Option Tokens := (s.cursor.passGap true).map fun g => s.moveTo g.after

def endPair (s : Tokens) : Tokens :=
  match s.pairs with
  | true :: rest => { s.push .flowMappingEnd with inMapping := false, pairs := false :: rest }
  | _ => s

def streamEnd (s : Tokens) : Option Tokens := do
  if (s.key.map (·.required)).getD false ∨ s.outerKeys.any (fun k => (k.map (·.required)).getD false) then
    none
  else some ((unindentTo (-1) { s with key := none }).push .streamEnd)

def documentMark (t : Token) (s : Tokens) : Option Tokens := do
  let s ← (s.unindentTo (-1)).forgetKey
  some ((s.moveTo (s.cursor.pass 3)).push t |>.allowKey false)

def versionDigits (c : Cursor) : Option Cursor :=
  let n := (c.rest.takeWhile Char.isDigit).length
  if n = 0 ∨ 9 < n then none else some (c.pass n)

/-- A line that begins with a percent sign. Rules of unknown name are passed over. -/
def rule (s : Tokens) : Option Tokens := do
  let s ← (s.unindentTo (-1)).forgetKey
  let s := s.allowKey false
  let c := s.cursor.pass 1
  let name := c.rest.takeWhile isWordChar
  let c := c.pass name.length
  if name.isEmpty ∨ !atSpace c.rest then none
  else
    let (t, c) ←
      if name = "YAML".toList then do
        let c ← versionDigits (c.passBlanks (c.rest.takeWhile isBlank).length)
        if c.peek = some '.' then (versionDigits (c.pass 1)).map (Token.versionRule, ·) else none
      else if name = "TAG".toList then
        (tagRule c).map fun (handle, name, c) => (Token.tagRule handle name, c)
      else some (Token.tagRule "" "", c.passLine)
    let g ← c.passGap true
    if atLineEnd g.after.rest then some ((s.moveTo g.after.passBreak).push t) else none

def flowStart (mapping : Bool) (s : Tokens) : Option Tokens :=
  let s := s.saveKey.indentLoosely
  if s.flow = 255 then none
  else
    let s := { s with flow := s.flow + 1, outerKeys := s.key :: s.outerKeys, key := none, keyAllowed := true }
    let s := s.moveTo (s.cursor.pass 1)
    let s := if mapping then { s with inMapping := true } else { s with pairs := false :: s.pairs }
    s.gap.map (·.push (if mapping then .flowMappingStart else .flowSequenceStart))

def flowEnd (mapping : Bool) (s : Tokens) : Option Tokens := do
  let s ← if s.flow = 0 then none else s.forgetKey
  let s :=
    { s with flow := s.flow - 1, key := s.outerKeys.head?.join, outerKeys := s.outerKeys.tail }
  let s := s.allowKey false
  let s := if mapping then s else { s.endPair with pairs := s.endPair.pairs.tail }
  let s ← (s.moveTo (s.cursor.pass 1)).gap
  let s := if s.flow = 0 then s else { s with adjacent := s.cursor.index }
  some (s.push (if mapping then .flowMappingEnd else .flowSequenceEnd))

def comma (s : Tokens) : Option Tokens := do
  let s ← s.forgetKey
  let s := (s.allowKey true).endPair
  let s ← (s.moveTo (s.cursor.pass 1)).gap
  some (s.push .comma)

def dash (s : Tokens) : Option Tokens := do
  if s.flow ≠ 0 ∨ !s.keyAllowed ∨ (s.cursor.column = 0 ∧ s.marginal ∧ -1 < s.indent) then none
  else
    let column := s.cursor.column
    let s := (s.moveTo (s.cursor.pass 1)).openBlock column none .blockSequenceStart
    let g ← s.cursor.passGap true
    let again : Bool := match g.after.rest with
      | '-' :: rest => atSpace rest
      | _ => false
    if g.tabs && again then none
    else
      let s := s.moveTo g.after
      let s := match s.cursor.rest with
        | d :: _ => if isBreak d || isFlow d then s.indentLoosely else s
        | [] => s
      let s ← s.forgetKey
      some ((s.allowKey true).push .dash)

/-- Blanks that are no tabs, comments and line breaks: at least one blank or break. -/
def passSpaces : Nat → Bool → Bool → Cursor → Option (Cursor × Bool)
  | 0, _, _, _ => none
  | fuel + 1, any, broke, c =>
    match c.rest with
    | d :: _ =>
      if d = ' ' then passSpaces fuel true broke (c.passBlanks 1)
      else if isBreak d then passSpaces fuel true true c.passBreak
      else if d = '#' then passSpaces fuel any broke c.passLine
      else if any then some (c, broke) else none
    | [] => if any then some (c, broke) else none

def markedKey (s : Tokens) : Option Tokens := do
  let s ←
    if s.flow = 0 then
      if s.keyAllowed then some (s.openBlock s.cursor.column none .blockMappingStart) else none
    else some { s with inMapping := true }
  let s ← s.forgetKey
  let s := s.allowKey (s.flow == 0)
  let (c, broke) ← passSpaces (s.cursor.rest.length + 1) false false (s.cursor.pass 1)
  if c.peek = some '\t' then none
  else
    let s := if broke ∧ s.flow = 0 then s.allowKey true else s
    some ((s.moveTo c).push .key)

def colon (s : Tokens) : Option Tokens := do
  let line := s.cursor.line
  let column := s.cursor.column
  let pair := !s.pairs.isEmpty && !s.inMapping
  let s := if pair then { s with pairs := true :: s.pairs.tail } else s
  let s := s.moveTo (s.cursor.pass 1)
  let s ←
    if s.cursor.peek = some '\t' then do
      let g ← s.cursor.passGap true
      let word := (g.after.peek.map fun d => d == '-' || isWordChar d).getD false
      if !g.spaces ∧ word then none else some (s.moveTo g.after)
    else some s
  let s ←
    match s.key with
    | some k =>
      if pair ∧ k.line < line then none
      else
        let s := s.insertAt k.place .key
        let s := if pair then s.insertAt k.place .flowMappingStart else s
        let s := (s.openBlock k.column (some k.place) .blockMappingStart).indentLoosely
        some ({ s with key := none }.allowKey false)
    | none =>
      let s := if pair then s.push .flowMappingStart else s
      if s.flow = 0 ∧ !s.keyAllowed then none
      else
        let s := if s.flow = 0 then s.openBlock column none .blockMappingStart else s
        some (s.indentLoosely.allowKey (s.flow == 0))
  some (s.push .value)

def anchor (reference : Bool) (s : Tokens) : Option Tokens :=
  let marginal := s.cursor.column = 0 ∧ !reference
  let s := (s.saveKey).allowKey false
  let c := s.cursor.pass 1
  let name := c.rest.takeWhile fun d => !isSpace d && !isFlow d && d != '\uFEFF'
  if name.isEmpty then none
  else
    let text := String.ofList name
    let s := (s.moveTo (c.pass name.length)).push (if reference then .alias text else .anchor text)
    some { s with marginal := marginal }

def tag (s : Tokens) : Option Tokens := do
  let marginal := s.cursor.column = 0
  let s := (s.saveKey).allowKey false
  let (handle, suffix, c) ← nodeTag (s.flow != 0) s.cursor
  some { (s.moveTo c).push (.tag handle suffix) with marginal := marginal }

def block (literal : Bool) (s : Tokens) : Option Tokens := do
  let s := (s.saveKey).allowKey true
  let s := dropLoose s.margins s
  let (text, c) ← blockScalar literal s.indent s.cursor
  some ((s.moveTo c).push (.scalar false text))

def toNext (s : Tokens) : Option Tokens :=
  (s.cursor.passToToken (s.cursor.rest.length + 1) (!s.margins.isEmpty) s.indent false).map
    fun (c, broke) =>
      let s := s.moveTo c
      if broke ∧ s.flow = 0 then s.allowKey true else s

def quoted (single : Bool) (s : Tokens) : Option Tokens := do
  let s := (s.saveKey).allowKey false
  let (text, c) ← quotedScalar single (s.flow != 0) s.indent s.cursor
  let s ← (s.moveTo c).toNext
  some ({ s with adjacent := s.cursor.index }.push (.scalar false text))

def plain (s : Tokens) : Option Tokens := do
  let s := (s.saveKey).allowKey false
  let s := dropLoose s.margins s
  let (text, c) ← plainScalar (s.flow != 0) (s.indent + 1) s.cursor
  let s := (s.moveTo c).push (.scalar true text)
  some (if c.leading then s.allowKey true else s)

def read (d : Char) (rest : List Char) (s : Tokens) : Option Tokens :=
  let spaced := atSpace rest
  let inFlow := s.flow != 0
  if d = '[' then s.flowStart false
  else if d = '\x7b' then s.flowStart true
  else if d = ']' then s.flowEnd false
  else if d = '\x7d' then s.flowEnd true
  else if d = ',' then s.comma
  else if d = '-' ∧ spaced then s.dash
  else if d = '?' ∧ spaced then s.markedKey
  else if d = ':' ∧ (spaced || (inFlow && ((rest.head?.map isFlow).getD false
      || s.cursor.index == s.adjacent))) then s.colon
  else if d = '*' then s.anchor true
  else if d = '&' then s.anchor false
  else if d = '!' then s.tag
  else if d = '|' ∧ !inFlow then s.block true
  else if d = '>' ∧ !inFlow then s.block false
  else if d = '\x27' then s.quoted true
  else if d = '"' then s.quoted false
  else if d = '%' ∨ d = '@' ∨ d = '\x60' then none
  else s.plain

def step (s : Tokens) : Option Tokens := do
  let s ← s.toNext
  let s ← s.forgetStaleKey
  let s := s.unindentTo s.cursor.column
  match s.cursor.rest with
  | [] => s.streamEnd
  | d :: rest =>
    if s.cursor.column = 0 ∧ d = '%' then s.rule
    else if s.cursor.column = 0 ∧ s.cursor.startsWithMarks '-' then s.documentMark .documentStart
    else if s.cursor.column = 0 ∧ s.cursor.startsWithMarks '.' then do
      let s ← s.documentMark .documentEnd
      let g ← s.cursor.passGap true
      if atLineEnd g.after.rest then some (s.moveTo g.after) else none
    else if (s.cursor.column : Int) < s.indent then none
    else s.read d rest

def run : Nat → Tokens → Option Tokens
  | 0, _ => none
  | fuel + 1, s =>
    match s.step with
    | none => none
    | some s => if s.done.back? = some .streamEnd then some s else run fuel s

end Tokens

/-- The tokens of a text; the last is the end of the stream. Nothing if the text is not YAML. -/
def tokens? (text : List Char) : Option (List Token) :=
  ((Tokens.start text).run (text.length + 2)).map fun s => s.done.toList

end AttestationService.Yaml

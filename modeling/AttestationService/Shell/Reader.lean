import AttestationService.Shell.Grammar
import AttestationService.Text.Utf8

/-!
From the text of a script to its commands. A script is read line by line, as it is carried out, so
an error in it matters only once it is reached. Here-documents are not read.
-/

namespace AttestationService.Shell

structure Input where
  rest : Text
  line : Nat
  /-- How many lines were taken out after the end of this one. -/
  removed : Nat
  deriving DecidableEq, Repr

structure Problem where
  line : Nat
  reason : String
  deriving DecidableEq, Repr

def Problem.message (p : Problem) : String := s!"Syntax error: {p.reason}"

abbrev Reading := StateT Input (Except Problem)

namespace Input

def drop (i : Input) (n : Nat) : Input :=
  let ends := (i.rest.take n).count '\n'
  if ends = 0 then ⟨i.rest.drop n, i.line, i.removed⟩
  else ⟨i.rest.drop n, i.line + ends + i.removed, 0⟩

def linesTo (stripped : Bool) (last : Text) : Nat → Text → Text × Nat
  | 0, _ => ([], 0)
  | fuel + 1, text =>
    if text.isEmpty then ([], 0)
    else
      let line := text.takeWhile (· ≠ '\n')
      let shown := if stripped then line.dropWhile (· = '\t') else line
      let size := min (line.length + 1) text.length
      if shown = last then ([], size)
      else
        let (more, n) := linesTo stripped last fuel (text.drop size)
        (shown ++ (if line.length < text.length then ['\n'] else []) ++ more, size + n)

def takeDocument (stripped : Bool) (last : Text) (i : Input) : Text × Input :=
  let line := i.rest.takeWhile (· ≠ '\n')
  let below := i.rest.drop (line.length + 1)
  let (document, n) := linesTo stripped last (below.length + 1) below
  (document, ⟨line ++ '\n' :: below.drop n, i.line, i.removed + (below.take n).count '\n'⟩)

end Input

namespace Reading

def fail {α : Type} (reason : String) : Reading α := do
  let i ← get
  throw ⟨i.line, reason⟩

def rest : Reading Text := return (← get).rest

def pass (n : Nat) : Reading Unit := modify (·.drop n)

end Reading

def isNameStart (c : Char) : Bool := c.isAlpha || c == '_'

def isNameChar (c : Char) : Bool := c.isAlphanum || c == '_'

def isBoundary (c : Char) : Bool := " \t\n;&|<>()".toList.contains c

def reserved : List String :=
  ["if", "then", "elif", "else", "fi", "while", "until", "for", "in", "do", "done", "case", "esac",
    "\x7b", "\x7d", "!"]

def bareWord (text : Text) : Text := text.takeWhile (!isBoundary ·)

def keyword? (text : Text) : Option String :=
  let word := String.ofList (bareWord text)
  if reserved.contains word then some word else none

def blanksLength : Text → Nat
  | ' ' :: r => blanksLength r + 1
  | '\t' :: r => blanksLength r + 1
  | '\\' :: '\n' :: r => blanksLength r + 2
  | '#' :: r => (r.takeWhile (· ≠ '\n')).length + 1
  | _ => 0

def gapLength : Nat → Text → Nat
  | 0, _ => 0
  | fuel + 1, text =>
    let n := blanksLength text
    match text.drop n with
    | '\n' :: r => n + 1 + gapLength fuel r
    | _ => n

namespace Reading

def blanks : Reading Unit := do pass (blanksLength (← rest))

def gap : Reading Unit := do
  let text ← rest
  pass (gapLength text.length text)

def tokenName : Reading String := do
  let text ← rest
  match text with
  | [] => return "end of file"
  | '\n' :: _ => return "newline"
  | _ =>
    match keyword? text with
    | some word => return s!"\"{word}\""
    | none =>
      let operator := ["&&", "||", ";;", ";", "&", "|", "(", ")", "<", ">"].find? fun o =>
        o.toList.isPrefixOf text
      match operator with
      | some o => return s!"\"{o}\""
      | none => return "word"

def unexpected {α : Type} (expected : Option String) : Reading α := do
  blanks
  let name ← tokenName
  fail (match expected with
    | some e => s!"{name} unexpected (expecting \"{e}\")"
    | none => s!"{name} unexpected")

def expect (token : String) : Reading Unit := do
  blanks
  let text ← rest
  let found := if reserved.contains token then keyword? text == some token else token.toList.isPrefixOf text
  if found then pass token.length else unexpected (some token)

end Reading

def singleQuoted? (text : Text) : Option Text :=
  let inner := text.takeWhile (· ≠ '\x27')
  if inner.length < text.length then some inner else none

/-- The text between backquotes, with the backslashes that only protect it removed, and its length
with the closing quote. -/
def backquoted? (quoted : Bool) : Text → Option (Text × Nat)
  | [] => none
  | '\x60' :: _ => some ([], 1)
  | '\\' :: c :: r =>
    let shields := c == '\x60' || c == '$' || c == '\\' || (quoted && c == '"')
    (backquoted? quoted r).map fun (inner, n) =>
      (if shields then c :: inner else '\\' :: c :: inner, n + 2)
  | c :: r => (backquoted? quoted r).map fun (inner, n) => (c :: inner, n + 1)

open Reading

mutual

/-- The parts of a word up to its end, or up to a closing brace if `inBraces`. -/
def parts (inBraces : Bool) : Nat → List Part → Reading Word
  | 0, done => return done.reverse
  | fuel + 1, done => do
    match ← rest with
    | [] => if inBraces then fail "Missing '\x7d'" else return done.reverse
    | '\\' :: '\n' :: _ => pass 2; parts inBraces fuel done
    | '\\' :: c :: _ => pass 2; parts inBraces fuel (.quoted [c] :: done)
    | '\x27' :: text =>
      match singleQuoted? text with
      | none => fail "Unterminated quoted string"
      | some inner => pass (inner.length + 2); parts inBraces fuel (.quoted inner :: done)
    | '"' :: _ =>
      pass 1
      let inner ← quotedParts '"' fuel []
      pass 1
      parts inBraces fuel (if inner.isEmpty then .quoted [] :: done else inner.reverse ++ done)
    | '$' :: _ => do
      pass 1
      let part ← expansion false fuel
      parts inBraces fuel (part :: done)
    | '\x60' :: text =>
      match backquoted? false text with
      | none => fail "EOF in backquote substitution"
      | some (inner, n) => do
        pass (n + 1)
        let part ← substitution false inner fuel
        parts inBraces fuel (part :: done)
    | c :: _ =>
      if (if inBraces then c == '\x7d' else isBoundary c) then return done.reverse
      else pass 1; parts inBraces fuel (.plain [c] :: done)

def quotedParts (close : Char) : Nat → List Part → Reading Word
  | 0, done => return done.reverse
  | fuel + 1, done => do
    match ← rest with
    | [] => if close = '"' then fail "Unterminated quoted string" else fail "Missing '\x7d'"
    | '\\' :: '\n' :: _ => pass 2; quotedParts close fuel done
    | '\\' :: c :: _ =>
      pass 2
      let shields := c == '$' || c == '\x60' || c == '\\' || c == close || (c == '"' && close != '\x00')
      quotedParts close fuel (.quoted (if shields then [c] else ['\\', c]) :: done)
    | '$' :: _ => do
      pass 1
      let part ← expansion true fuel
      quotedParts close fuel (part :: done)
    | '\x60' :: text =>
      match backquoted? true text with
      | none => fail "EOF in backquote substitution"
      | some (inner, n) => do
        pass (n + 1)
        let part ← substitution true inner fuel
        quotedParts close fuel (part :: done)
    | c :: _ =>
      if c = close then return done.reverse
      else pass 1; quotedParts close fuel (.quoted [c] :: done)

def expressionParts : Nat → Nat → List Part → Reading Word
  | 0, _, done => return done.reverse
  | fuel + 1, depth, done => do
    match ← rest with
    | [] => fail "Missing '))'"
    | '$' :: _ => do
      pass 1
      let part ← expansion true fuel
      expressionParts fuel depth (part :: done)
    | ')' :: ')' :: _ =>
      if depth = 0 then pass 2; return done.reverse
      else pass 1; expressionParts fuel (depth - 1) (.quoted [')'] :: done)
    | c :: _ =>
      pass 1
      let depth := if c = '(' then depth + 1 else if c = ')' then depth - 1 else depth
      expressionParts fuel depth (.quoted [c] :: done)

def substitution (quoted : Bool) (text : Text) : Nat → Reading Part
  | 0 => return .plain []
  | fuel + 1 => do
    let outer ← get
    set { outer with rest := text }
    let body ← commands [] fuel
    set outer
    return .output quoted body

def expansion (quoted : Bool) : Nat → Reading Part
  | 0 => return .plain []
  | fuel + 1 => do
    match ← rest with
    | '(' :: '(' :: _ => do
      pass 2
      let expression ← expressionParts fuel 0 []
      return .arithmetic quoted expression
    | '(' :: _ => do
      pass 1
      let body ← commands [")"] fuel
      expect ")"
      return .output quoted body
    | '\x7b' :: _ => do
      pass 1
      let part ← braces quoted fuel
      pass 1
      return part
    | c :: text =>
      if isNameStart c then
        let name := c :: text.takeWhile isNameChar
        pass name.length
        return .parameter quoted name .value
      else if c.isDigit ∨ "@*#?-$!".toList.contains c then
        pass 1
        return .parameter quoted [c] .value
      else return (if quoted then .quoted ['$'] else .plain ['$'])
    | [] => return (if quoted then .quoted ['$'] else .plain ['$'])

def braces (quoted : Bool) : Nat → Reading Part
  | 0 => return .plain []
  | fuel + 1 => do
    let text ← rest
    let nameOf (text : Text) : Text :=
      match text with
      | c :: r =>
        if isNameStart c then c :: r.takeWhile isNameChar
        else if c.isDigit then c :: r.takeWhile Char.isDigit
        else if "@*#?-$!".toList.contains c then [c]
        else []
      | [] => []
    let measured := nameOf (text.drop 1)
    -- a hash measures the parameter behind it only if the brace follows; else it is a parameter itself
    if text.head? = some '#' ∧ !measured.isEmpty ∧ (text.drop (measured.length + 1)).head? = some '\x7d'
    then
      pass (measured.length + 1)
      return .parameter quoted measured .length
    else
      let name := nameOf text
      if name.isEmpty then fail "Bad substitution"
      else
        pass name.length
        let word : Reading Word := if quoted then quotedParts '\x7d' fuel [] else parts true fuel []
        let text ← rest
        let (orEmpty, text) : Bool × Text :=
          match text with
          | ':' :: r => (true, r)
          | r => (false, r)
        let fallback (kind : Fallback) : Reading Part := do
          pass (if orEmpty then 2 else 1)
          let w ← word
          return .parameter quoted name (.fallback kind orEmpty w)
        let cut (length : Nat) (atEnd longest : Bool) : Reading Part := do
          pass length
          let w ← parts true fuel []
          return .parameter quoted name (.cut atEnd longest w)
        match text with
        | '\x7d' :: _ => if orEmpty then fail "Bad substitution" else return .parameter quoted name .value
        | '-' :: _ => fallback .standIn
        | '=' :: _ => fallback .assign
        | '?' :: _ => fallback .complain
        | '+' :: _ => fallback .replace
        | '%' :: '%' :: _ => cut 2 true true
        | '%' :: _ => cut 1 true false
        | '#' :: '#' :: _ => cut 2 false true
        | '#' :: _ => cut 1 false false
        | [] | '\n' :: _ => fail "Missing '\x7d'"
        | _ => fail "Bad substitution"

def commands (ends : List String) : Nat → Reading (List Command)
  | 0 => return []
  | fuel + 1 => do
    gap
    let text ← rest
    let ended := ends.any fun e =>
      if reserved.contains e then keyword? text == some e else e.toList.isPrefixOf text
    if ended then return []
    else if text.isEmpty then
      match ends with
      | [] => return []
      | e :: _ => unexpected (some e)
    else
      let first ← chain fuel
      blanks
      match ← rest with
      | ';' :: ';' :: _ => return [first]
      | ';' :: _ | '&' :: _ | '\n' :: _ => do
        pass 1
        let others ← commands ends fuel
        return first :: others
      | [] =>
        match ends with
        | [] => return [first]
        | e :: _ => unexpected (some e)
      | ')' :: _ => if ends.contains ")" then return [first] else unexpected none
      | _ => unexpected none

def chain : Nat → Reading Command
  | 0 => return .group []
  | fuel + 1 => do
    let first ← pipeline fuel
    links fuel first

def links : Nat → Command → Reading Command
  | 0, c => return c
  | fuel + 1, c => do
    blanks
    match ← rest with
    | '&' :: '&' :: _ => do
      pass 2
      gap
      let next ← pipeline fuel
      links fuel (.andThen c next)
    | '|' :: '|' :: _ => do
      pass 2
      gap
      let next ← pipeline fuel
      links fuel (.orElse c next)
    | _ => return c

def pipeline : Nat → Reading Command
  | 0 => return .group []
  | fuel + 1 => do
    blanks
    if keyword? (← rest) = some "!" then
      pass 1
      let body ← pipeline fuel
      return .negated body
    else
      let first ← command fuel
      let others ← stages fuel
      return if others.isEmpty then first else .pipeline (first :: others)

def stages : Nat → Reading (List Command)
  | 0 => return []
  | fuel + 1 => do
    blanks
    match ← rest with
    | '|' :: c :: _ =>
      if c = '|' then return []
      else
        pass 1
        gap
        let next ← command fuel
        let others ← stages fuel
        return next :: others
    | _ => return []

def command : Nat → Reading Command
  | 0 => return .group []
  | fuel + 1 => do
    blanks
    let text ← rest
    match keyword? text, text with
    | none, '(' :: _ => do
      pass 1
      let body ← commands [")"] fuel
      expect ")"
      withRedirects fuel (.subshell body)
    | some "\x7b", _ => do
      pass 1
      let body ← commands ["\x7d"] fuel
      expect "\x7d"
      withRedirects fuel (.group body)
    | some "if", _ => do
      pass 2
      let c ← branches fuel
      withRedirects fuel c
    | some "while", _ => do
      pass 5
      let condition ← commands ["do"] fuel
      expect "do"
      let body ← commands ["done"] fuel
      expect "done"
      withRedirects fuel (.loop false condition body)
    | some "until", _ => do
      pass 5
      let condition ← commands ["do"] fuel
      expect "do"
      let body ← commands ["done"] fuel
      expect "done"
      withRedirects fuel (.loop true condition body)
    | some "for", _ => do
      pass 3
      blanks
      let name := bareWord (← rest)
      if name.isEmpty ∨ !name.all isNameChar then fail "Bad for loop variable"
      else
        pass name.length
        gap
        let words : Option (List Word) ←
          if keyword? (← rest) = some "in" then do
            pass 2
            let ws ← wordList fuel
            pure (some ws)
          else pure none
        blanks
        if (← rest).head? = some ';' then pass 1
        gap
        expect "do"
        let body ← commands ["done"] fuel
        expect "done"
        withRedirects fuel (.each name words body)
    | some "case", _ => do
      pass 4
      blanks
      let subject ← parts false fuel []
      gap
      expect "in"
      let arms ← caseArms fuel
      withRedirects fuel (.cases subject arms)
    | some _, _ => unexpected none
    | none, _ => do
      let name := text.takeWhile isNameChar
      let after := text.drop name.length
      let n := blanksLength after
      let afterOpen := (after.drop n).drop 1
      let m := blanksLength afterOpen
      -- a name and an empty pair of brackets open a function
      if (name.head?.map isNameStart).getD false ∧ (after.drop n).head? = some '('
          ∧ (afterOpen.drop m).head? = some ')' then
        pass (name.length + n + 1 + m + 1)
        gap
        let body ← command fuel
        return .function name body
      else
        let line := (← get).line
        simple line fuel [] [] []

def branches : Nat → Reading Command
  | 0 => return .group []
  | fuel + 1 => do
    let condition ← commands ["then"] fuel
    expect "then"
    let consequent ← commands ["fi", "elif", "else"] fuel
    blanks
    match keyword? (← rest) with
    | some "elif" => do
      pass 4
      let alternative ← branches fuel
      return .choice condition consequent [alternative]
    | some "else" => do
      pass 4
      let alternative ← commands ["fi"] fuel
      expect "fi"
      return .choice condition consequent alternative
    | _ => do
      expect "fi"
      return .choice condition consequent []

def caseArms : Nat → Reading (List (List Word × List Command))
  | 0 => return []
  | fuel + 1 => do
    gap
    if keyword? (← rest) = some "esac" then
      pass 4
      return []
    else
      if (← rest).head? = some '(' then pass 1
      let patterns ← casePatterns fuel
      let body ← commands [";;", "esac"] fuel
      blanks
      if (← rest).take 2 = [';', ';'] then pass 2
      let others ← caseArms fuel
      return (patterns, body) :: others

def casePatterns : Nat → Reading (List Word)
  | 0 => return []
  | fuel + 1 => do
    blanks
    let text ← rest
    if (text.head?.map isBoundary).getD true then unexpected none
    else
      let pattern ← parts false fuel []
      blanks
      match ← rest with
      | '|' :: _ => do
        pass 1
        let others ← casePatterns fuel
        return pattern :: others
      | ')' :: _ => pass 1; return [pattern]
      | _ => unexpected (some ")")

def wordList : Nat → Reading (List Word)
  | 0 => return []
  | fuel + 1 => do
    blanks
    let text ← rest
    if (text.head?.map isBoundary).getD true then return []
    else
      let word ← parts false fuel []
      let others ← wordList fuel
      return word :: others

def redirect? : Nat → Reading (Option Redirect)
  | 0 => return none
  | fuel + 1 => do
    let text ← rest
    let digits := text.takeWhile Char.isDigit
    let number (default : Nat) : Nat :=
      if digits.isEmpty then default else digits.foldl (fun n c => n * 10 + (c.toNat - 48)) 0
    let target (length : Nat) : Reading Word := do
      pass (digits.length + length)
      blanks
      if ((← rest).head?.map isBoundary).getD true then unexpected none
      else parts false fuel []
    match text.drop digits.length with
    | '>' :: '&' :: _ => return some (.copy (number 1) (← target 2))
    | '<' :: '&' :: _ => return some (.copy (number 0) (← target 2))
    | '>' :: '>' :: _ => return some (.file (number 1) .extend (← target 2))
    | '>' :: '|' :: _ => return some (.file (number 1) .write (← target 2))
    | '<' :: '<' :: more =>
      let stripped := more.head? == some '-'
      let descriptor := number 0
      let word ← target (if stripped then 3 else 2)
      let asIs := word.any fun
        | .quoted _ => true
        | _ => false
      let last := word.flatMap fun
        | .plain text | .quoted text => text
        | _ => []
      let i ← get
      let (document, after) := i.takeDocument stripped last
      if asIs then
        set after
        return some (.document descriptor [.quoted document])
      else
        set { after with rest := document ++ ['\x00'] }
        let text ← quotedParts '\x00' fuel []
        set after
        return some (.document descriptor text)
    | '>' :: _ => return some (.file (number 1) .write (← target 1))
    | '<' :: _ => return some (.file (number 0) .read (← target 1))
    | _ => return none

def redirects : Nat → Reading (List Redirect)
  | 0 => return []
  | fuel + 1 => do
    blanks
    match ← redirect? fuel with
    | none => return []
    | some r => do
      let others ← redirects fuel
      return r :: others

def withRedirects : Nat → Command → Reading Command
  | 0, c => return c
  | fuel + 1, c => do
    let rs ← redirects fuel
    return if rs.isEmpty then c else .redirected c rs

def simple (line : Nat) : Nat → List (Text × Word) → List Word → List Redirect → Reading Command
  | 0, _, _, _ => return .group []
  | fuel + 1, assignments, words, rs => do
    blanks
    match ← redirect? fuel with
    | some r => simple line fuel assignments words (r :: rs)
    | none =>
      let text ← rest
      if (text.head?.map isBoundary).getD true then
        if assignments.isEmpty ∧ words.isEmpty ∧ rs.isEmpty then unexpected none
        else return .simple line assignments.reverse words.reverse rs.reverse
      else
        let name := text.takeWhile isNameChar
        if words.isEmpty ∧ (name.head?.map isNameStart).getD false
            ∧ (text.drop name.length).head? = some '=' then
          pass (name.length + 1)
          let value ← parts false fuel []
          simple line fuel ((name, value) :: assignments) words rs
        else
          let word ← parts false fuel []
          simple line fuel assignments (word :: words) rs

end

def lineCommands : Nat → Reading (List Command)
  | 0 => return []
  | fuel + 1 => do
    blanks
    match ← rest with
    | [] => return []
    | '\n' :: _ => pass 1; return []
    | _ => do
      let size := (← rest).length
      let first ← chain (16 * size + 64)
      blanks
      match ← rest with
      | [] => return [first]
      | '\n' :: _ => pass 1; return [first]
      | ';' :: c :: _ =>
        if c = ';' then unexpected none
        else
          pass 1
          let others ← lineCommands fuel
          return first :: others
      | ';' :: _ | '&' :: _ => do
        pass 1
        let others ← lineCommands fuel
        return first :: others
      | _ => unexpected none

/-- The next line with commands on it, and what comes after it; nothing at the end. -/
def nextLine? (input : Input) : Except Problem (Option (List Command × Input)) :=
  let input := input.drop (gapLength input.rest.length input.rest)
  if input.rest.isEmpty then .ok none
  else (lineCommands input.rest.length input).map some

end AttestationService.Shell

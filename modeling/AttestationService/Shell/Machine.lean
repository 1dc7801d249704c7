import AttestationService.Files.Tree
import AttestationService.Shell.Pattern
import AttestationService.Number.Decimal
import AttestationService.Shell.Reader

/-!
The state in which a script is carried out, and how its words turn into fields. What a script writes
goes into sinks; the first one is its output and the second one its errors.
-/

namespace AttestationService.Shell

inductive Stream where
  | empty
  | sink (index : Nat)
  | source (index : Nat)
  | file (path : Files.Path)
  deriving DecidableEq, Repr

structure Machine where
  files : Files.Tree
  name : Text
  arguments : List Text
  bindings : List (Text × Text)
  exported : List Text
  constants : List Text
  functions : List (Text × Command)
  frames : List (List (Text × Option Text))
  loops : Nat
  status : Nat
  streams : List (Nat × Stream)
  sinks : Array (List Text)
  sources : Array Text
  traps : List (Nat × Text)
  due : List Nat
  line : Nat
  stopsOnFailure : Bool
  refusesUnset : Bool
  traces : Bool
  keepsPatterns : Bool
  /-- Whether a failure is being tested for, and so stops nothing. -/
  tested : Bool
  /-- How long the utilities took, in milliseconds. -/
  elapsed : Nat

inductive Departure where
  | exited (status : Nat)
  | killed (signal : Nat)
  | broken (loops : Nat)
  | continued (loops : Nat)
  | returned (status : Nat)
  | exhausted
  deriving DecidableEq, Repr

abbrev Work := ExceptT Departure (StateM Machine)

/-- The number of the process, which nothing but the script itself can tell. -/
def processText : Text := "4711".toList

namespace Machine

def fresh (files : Files.Tree) (name : Text) (arguments : List Text)
    (bindings : List (Text × Text)) : Machine where
  files := files
  name := name
  arguments := arguments
  bindings := bindings
  exported := bindings.map (·.1)
  constants := []
  functions := []
  frames := []
  loops := 0
  status := 0
  streams := [(0, .empty), (1, .sink 0), (2, .sink 1)]
  sinks := #[[], []]
  sources := #[]
  traps := []
  due := []
  line := 1
  stopsOnFailure := false
  refusesUnset := false
  traces := false
  keepsPatterns := false
  tested := false
  elapsed := 0

def gathered (m : Machine) (sink : Nat) : Text := ((m.sinks[sink]?).getD []).reverse.flatten

def setVariable (m : Machine) (name text : Text) : Machine :=
  { m with bindings := putText name text m.bindings }

def restoreVariable (m : Machine) (name : Text) : Option Text → Machine
  | some text => m.setVariable name text
  | none => { m with bindings := m.bindings.filter (·.1 != name) }

def setStream (m : Machine) (descriptor : Nat) (stream : Option Stream) : Machine :=
  let others := m.streams.filter (·.1 != descriptor)
  { m with streams := (stream.map fun s => (descriptor, s)).toList ++ others }

def parameter? (m : Machine) (name : Text) : Option Text :=
  match name with
  | ['0'] => some m.name
  | ['#'] => some (toString m.arguments.length).toList
  | ['?'] => some (toString m.status).toList
  | ['$'] => some processText
  | ['-'] => some ((if m.stopsOnFailure then ['e'] else []) ++ (if m.refusesUnset then ['u'] else []))
  | c :: _ =>
    if c.isDigit then
      m.arguments[(Decimal.natOf? 10 name).getD 0 - 1]?
    else m.bindings.lookup name
  | [] => none

def separators (m : Machine) : Text := (m.bindings.lookup "IFS".toList).getD [' ', '\t', '\n']

end Machine

namespace Work

def write (descriptor : Nat) (text : Text) : Work Bool := do
  let m ← get
  match m.streams.lookup descriptor with
  | some (.sink i) =>
    set { m with sinks := m.sinks.modify i (text :: ·) }
    return true
  | some (.file path) =>
    match m.files.append path (octetsOf text) with
    | .ok files => set { m with files := files }; return true
    | .error _ => return false
  | some _ => return true
  | none => return false

/-- Reports an error in the line at hand. Its text too stands for octets. -/
def complain (text : String) : Work Unit := do
  let m ← get
  let report := m.name ++ s!": {m.line}: ".toList ++ text.toList ++ ['\n']
  let _ ← write 2 report

def abandon {α : Type} (text : String) : Work α := do
  complain text
  throw (.exited 2)

def assign (name text : Text) : Work Unit := do
  let m ← get
  if m.constants.contains name then abandon s!"{String.ofList name}: is read only"
  else set (m.setVariable name text)

def readLine (descriptor : Nat) : Work (Option (Text × Bool)) := do
  let m ← get
  match m.streams.lookup descriptor with
  | some (.source i) =>
    let text := (m.sources[i]?).getD []
    let line := text.takeWhile (· ≠ '\n')
    set { m with sources := m.sources.set! i (text.drop (line.length + 1)) }
    return if text.isEmpty then none else some (line, line.length < text.length)
  | _ => return none

end Work

inductive Piece where
  | fixed (text : Text)
  /-- Characters in it may make it a pattern. -/
  | live (text : Text)
  /-- The same, and separators cut it into fields. -/
  | loose (text : Text)
  | cut
  deriving DecidableEq, Repr

/-- Fields as they are cut: those done, last first, and the one in progress, last mark first. -/
structure Cutting where
  done : List Pattern
  current : Option Pattern
  blank : Bool

namespace Cutting

def finish (c : Cutting) : Cutting :=
  match c.current with
  | some marks => ⟨marks.reverse :: c.done, none, c.blank⟩
  | none => c

def addMarks (c : Cutting) (quoted : Bool) (text : Text) : Cutting :=
  ⟨c.done, some ((text.map fun d => (d, quoted)).reverse ++ c.current.getD []), false⟩

def addLoose (separators : Text) (c : Cutting) (d : Char) : Cutting :=
  if !separators.contains d then c.addMarks false [d]
  else if d = ' ' ∨ d = '\t' ∨ d = '\n' then
    if c.current.isSome then { c.finish with blank := true } else c
  else if c.current.isSome then { c.finish with blank := false }
  else if c.blank then { c with blank := false }
  else ⟨[] :: c.done, none, false⟩

def add (separators : Text) (c : Cutting) : Piece → Cutting
  | .fixed text => c.addMarks true text
  | .live text => c.addMarks false text
  | .loose text => text.foldl (addLoose separators) c
  | .cut => { c.finish with blank := false }

end Cutting

def fieldsOf (separators : Text) (pieces : List Piece) : List Pattern :=
  (pieces.foldl (Cutting.add separators) ⟨[], none, false⟩).finish.done.reverse

def joined (pieces : List Piece) : Text :=
  pieces.flatMap fun
    | .fixed text | .live text | .loose text => text
    | .cut => [' ']

def patternOf (pieces : List Piece) : Pattern :=
  pieces.flatMap fun
    | .fixed text => text.map (·, true)
    | .live text | .loose text => text.map (·, false)
    | .cut => [(' ', true)]

def plainText (pattern : Pattern) : Text := pattern.map (·.1)

def comesFirst (a b : Text) : Bool := !List.lex b a fun x y => x.toNat < y.toNat

def namesIn (files : Files.Tree) (directory : Files.Path) : List Text :=
  match files.targetOf (if directory.isEmpty then Files.here else directory) with
  | .error _ => []
  | .ok (place, _) =>
    let names := files.entries.filterMap fun (p, _) =>
      match p with
      | name :: rest => if rest = place then some (textOf name) else none
      | [] => none
    names.mergeSort comesFirst

/-- The paths that a pattern stands for, given in stretches between slashes, below one of which the
start is already known. -/
def pathsFor (files : Files.Tree) (start : Text) : List Pattern → List Text
  | [] => [start]
  | stretch :: rest =>
    let more := if rest.isEmpty then [] else ['/']
    if stretch.any isPatternMark then
      let shown (name : Text) : Bool :=
        (name.head? != some '.' || (stretch.head?.map (·.1)) == some '.') && stretch.fits name
      ((namesIn files (octetsOf start)).filter shown).flatMap fun name =>
        let path := start ++ name
        if rest.isEmpty ∨ files.isDirectory (octetsOf path) then
          pathsFor files (path ++ more) rest
        else []
    else
      let path := start ++ plainText stretch ++ more
      if rest.isEmpty then if (files.entryAt (octetsOf path)).isOk then [path] else []
      else pathsFor files path rest

def stretches (current : Pattern) : Pattern → List Pattern
  | [] => [current.reverse]
  | m :: rest => if m.1 = '/' then current.reverse :: stretches [] rest else stretches (m :: current) rest

def namesFor (m : Machine) (field : Pattern) : List Text :=
  if field.any isPatternMark ∧ !m.keepsPatterns then
    match pathsFor m.files [] (stretches [] field) with
    | [] => [plainText field]
    | paths => paths
  else [plainText field]

end AttestationService.Shell

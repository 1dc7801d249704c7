import AttestationService.Shell.Printing
import AttestationService.Shell.Program
import AttestationService.Shell.Signal
import AttestationService.Shell.Test

/-!
Carrying out scripts. Commands change the machine and leave a status; what makes a script go on
somewhere else than with its next command is thrown as a departure. Fuel bounds how deep and how
long a script may go on.
-/

namespace AttestationService.Shell

def number? (text : Text) : Option Nat :=
  if text.isEmpty ∨ !text.all Char.isDigit then none else some (digitsValue 10 text).toNat

/-- A number of seconds as a utility takes it, in milliseconds. -/
def sleepTime (text : Text) : Nat :=
  match Decimal.ofText? (text.filter (· ≠ 's')) with
  | some n =>
    let scaled : Int := n.exponent + 3
    if 0 ≤ scaled then n.digits * Nat.pow 10 scaled.toNat else n.digits / Nat.pow 10 (-scaled).toNat
  | none => 0

namespace Work

def setStatus (n : Nat) : Work Unit := modify fun m => { m with status := n }

def operand (name text : Text) : Work Nat :=
  match number? text with
  | some n => return n
  | none => abandon s!"{String.ofList name}: Illegal number: {String.ofList text}"

def printBuiltin (name : Text) (text : Text) : Work Nat := do
  if ← write 1 text then return 0
  else
    complain s!"{String.ofList name}: {String.ofList name}: I/O error"
    return 1

def condition (name : Text) (r : Except TestError Bool) : Work Nat := do
  match r with
  | .ok b => return if b then 0 else 1
  | .error e =>
    complain s!"{String.ofList name}: {e.message}"
    return 2

/-- Takes a signal in: its trap becomes due, or it is passed over, or it ends the script. -/
def receive (signal : Nat) : Work Unit := do
  let m ← get
  if Signal.isSure signal then throw (.killed signal)
  else
    match m.traps.lookup signal with
    | some [] => return
    | some _ => set { m with due := m.due ++ [signal] }
    | none => if Signal.isFatal signal then throw (.killed signal)

def killUsage : String :=
  "kill: Usage: kill [-s sigspec | -signum | -sigspec] [pid | job]... or\nkill -l [exitstatus]"

def kill (words : List Text) : Work Nat := do
  let refuse (reason : String) : Work Nat := do
    complain reason
    return 2
  let (signal, targets) : Except String Nat × List Text :=
    match words with
    | ['-', 's'] :: name :: rest =>
      ((match Signal.ofText? name with
        | some n => .ok n
        | none => .error s!"kill: invalid signal number or name: {String.ofList name}"), rest)
    | ('-' :: name) :: rest =>
      ((match Signal.ofText? name with
        | some n => .ok n
        | none => .error s!"kill: Illegal option -{String.ofList (name.take 1)}"), rest)
    | rest => (.ok 15, rest)
  match signal, targets with
  | .error reason, _ => refuse reason
  | .ok _, [] => refuse killUsage
  | .ok signal, target :: _ =>
    if target = processText ∨ target = ['0'] then
      receive signal
      return 0
    else if (number? (target.dropWhile (· = '-'))).isNone then
      refuse s!"kill: Illegal number: {String.ofList target}"
    else
      complain "kill: No such process\n"
      return 1

def assignFields (separators : Text) : List Text → Text → Work Unit
  | [], _ => return
  | name :: rest, line => do
    let isBlankMark (c : Char) : Bool := separators.contains c && (c == ' ' || c == '\t' || c == '\n')
    let line := line.dropWhile isBlankMark
    if rest.isEmpty then
      assign name (line.reverse.dropWhile isBlankMark).reverse
    else
      let field := line.takeWhile (!separators.contains ·)
      assign name field
      let after := (line.drop field.length).dropWhile isBlankMark
      let after := match after with
        | c :: more =>
          if separators.contains c ∧ field.length + 1 ≤ line.length ∧ !isBlankMark c then more
          else after
        | [] => []
      assignFields separators rest after

def unslashed : Text → Text
  | '\\' :: c :: rest => c :: unslashed rest
  | c :: rest => c :: unslashed rest
  | [] => []

def read (words : List Text) : Work Nat := do
  let (raw, names) : Bool × List Text :=
    match words with
    | ['-', 'r'] :: rest => (true, rest)
    | rest => (false, rest)
  let m ← get
  match ← readLine 0 with
  | none =>
    assignFields m.separators names []
    return 1
  | some (line, ended) =>
    assignFields m.separators names (if raw then line else unslashed line)
    return if ended then 0 else 1

def changeDirectory (words : List Text) : Work Nat := do
  let m ← get
  let back := words.head? = some ['-']
  let last := (m.bindings.lookup "OLDPWD".toList).getD (textOf m.files.currentPath)
  let home := (m.bindings.lookup "HOME".toList).getD (textOf Files.here)
  let target := if back then last else words.headD home
  match m.files.targetOf (octetsOf target) with
  | .ok (place, .directory _) =>
    let files := { m.files with current := place }
    set { m with files := files, exported := "OLDPWD".toList :: "PWD".toList :: m.exported }
    assign "OLDPWD".toList (textOf m.files.currentPath)
    assign "PWD".toList (textOf files.currentPath)
    if back then printBuiltin "cd".toList (textOf files.currentPath ++ ['\n']) else return 0
  | _ =>
    complain s!"cd: can't cd to {String.ofList target}"
    return 2

def shift (words : List Text) : Work Nat := do
  let n ← match words with
    | [] => pure 1
    | w :: _ => operand "shift".toList w
  let m ← get
  if m.arguments.length < n then abandon "shift: can't shift that many"
  else
    set { m with arguments := m.arguments.drop n }
    return 0

def setOptions : List Text → Work Nat
  | [] => return 0
  | ['-', '-'] :: rest => do
    modify fun m => { m with arguments := rest }
    return 0
  | (sign :: letters) :: rest => do
    if (sign = '-' ∨ sign = '+') ∧ !letters.isEmpty then
      let on := sign == '-'
      modify fun m => { m with
        stopsOnFailure := if letters.contains 'e' then on else m.stopsOnFailure
        refusesUnset := if letters.contains 'u' then on else m.refusesUnset
        traces := if letters.contains 'x' then on else m.traces
        keepsPatterns := if letters.contains 'f' then on else m.keepsPatterns }
      setOptions (rest.drop (if letters.contains 'o' then 1 else 0))
    else
      modify fun m => { m with arguments := (sign :: letters) :: rest }
      return 0
  | [] :: rest => do
    modify fun m => { m with arguments := [] :: rest }
    return 0
termination_by words => words.length
decreasing_by simp only [List.length_drop, List.length_cons]; omega

def cutEquals (word : Text) : Text × Option Text :=
  let name := word.takeWhile (· ≠ '=')
  (name, if name.length < word.length then some (word.drop (name.length + 1)) else none)

def declare (mark : Text → Machine → Machine) : List Text → Work Nat
  | [] => return 0
  | word :: rest => do
    let (name, text?) := cutEquals word
    match text? with
    | some text => assign name text
    | none => pure ()
    modify (mark name)
    declare mark rest

def declareLocal : List Text → Work Nat
  | [] => return 0
  | word :: rest => do
    let (name, text?) := cutEquals word
    let m ← get
    match m.frames with
    | [] => abandon "local: not in a function"
    | frame :: frames =>
      let frame := if frame.any (·.1 == name) then frame else (name, m.bindings.lookup name) :: frame
      set { m with frames := frame :: frames }
      match text? with
      | some text => assign name text
      | none => pure ()
      declareLocal rest

def singleQuoted (text : Text) : Text :=
  '\x27' :: text.flatMap (fun c => if c = '\x27' then "'\"'\"'".toList else [c]) ++ ['\x27']

def listExported : Work Nat := do
  let m ← get
  let names := (m.exported.eraseDups).mergeSort comesFirst
  let lines := names.flatMap fun name =>
    "export ".toList ++ name ++
      (((m.bindings.lookup name).map fun text => '=' :: singleQuoted text).getD []) ++ ['\n']
  printBuiltin "export".toList lines

def unset (words : List Text) : Work Nat := do
  let names := words.filter (·.head? ≠ some '-')
  let m ← get
  match names.find? m.constants.contains with
  | some name => abandon s!"unset: {String.ofList name}: is read only"
  | none =>
    let functions :=
      if words.contains ['-', 'f'] then m.functions.filter fun f => !names.contains f.1
      else m.functions
    set { m with bindings := m.bindings.filter fun v => !names.contains v.1, functions := functions }
    return 0

def setTraps (action : Option Text) : List Text → Work Nat
  | [] => return 0
  | name :: rest => do
    match Signal.ofText? name with
    | none =>
      let _ ← write 2 ("trap: ".toList ++ name ++ ": bad trap\n".toList)
      return 1
    | some n =>
      modify fun m => { m with
        traps := (action.map fun a => (n, a)).toList ++ m.traps.filter (·.1 != n) }
      setTraps action rest

def trap (words : List Text) : Work Nat := do
  match words with
  | [] =>
    let traps := (← get).traps.mergeSort fun a b => a.1 ≤ b.1
    printBuiltin "trap".toList (traps.flatMap fun (n, action) =>
      "trap -- ".toList ++ singleQuoted action ++ s!" {Signal.nameOf n}\n".toList)
  | action :: names =>
    if names.isEmpty ∨ (Signal.ofNumber? action).isSome then setTraps none words
    else setTraps (if action = ['-'] then none else some action) names

def leaveLoops (departure : Nat → Departure) (name : Text) (words : List Text) : Work Nat := do
  let n ← match words with
    | [] => pure 1
    | w :: _ => operand name w
  let m ← get
  if m.loops = 0 then return 0 else throw (departure (min n m.loops))

def simpleBuiltin? (name : Text) (words : List Text) : Option (Work Nat) :=
  match String.ofList name with
  | ":" | "true" | "wait" | "umask" | "ulimit" | "hash" | "alias" | "jobs" | "times" =>
    if name = "umask".toList ∧ words.isEmpty then some (printBuiltin name "0022\n".toList)
    else some (pure 0)
  | "false" => some (pure 1)
  | "echo" => some (printBuiltin name (echo words))
  | "printf" => some do
    match words with
    | [] => complain "printf: usage: printf format [arg ...]"; return 2
    | pattern :: arguments =>
      let printed := printPattern pattern arguments
      let status ← printBuiltin name printed.text
      for report in printed.reports do complain s!"printf: {report}"
      return if printed.status ≠ 0 then printed.status else status
  | "test" => some do condition name (testWords (← get).files words)
  | "[" => some do condition name (testBracketed (← get).files words)
  | "exit" => some do
    match words with
    | [] => throw (.exited (← get).status)
    | w :: _ => throw (.exited (← operand name w))
  | "return" => some do
    match words with
    | [] => throw (.returned (← get).status)
    | w :: _ => throw (.returned (← operand name w))
  | "break" => some (leaveLoops .broken name words)
  | "continue" => some (leaveLoops .continued name words)
  | "kill" => some (kill words)
  | "read" => some (read words)
  | "pwd" => some do printBuiltin name (textOf (← get).files.currentPath ++ ['\n'])
  | "cd" => some (changeDirectory words)
  | "shift" => some (shift words)
  | "set" => some (setOptions words)
  | "unset" => some (unset words)
  | "export" =>
    let names := words.filter (· ≠ ['-', 'p'])
    some (if names.isEmpty then listExported
      else declare (fun name m => { m with exported := name :: m.exported }) names)
  | "readonly" => some (declare (fun name m => { m with constants := name :: m.constants }) words)
  | "local" => some (declareLocal words)
  | "trap" => some (trap words)
  | _ => none

def kindOf? (m : Machine) (name : Text) : Option String :=
  if reserved.contains (String.ofList name) then some "a shell keyword"
  else if (m.functions.lookup name).isSome then some "a shell function"
  else if ["eval", "exec", "."].contains (String.ofList name) then some "a special shell builtin"
  else if ["command", "type"].contains (String.ofList name) then some "a shell builtin"
  else if (simpleBuiltin? name []).isSome then
    some (if [":", "break", "continue", "exit", "export", "readonly", "return", "set", "shift", "times",
        "trap", "unset"].contains (String.ofList name) then "a special shell builtin" else "a shell builtin")
  else none

def programPath? (m : Machine) (name : Text) : Option Text :=
  (Program.search? m.files ((m.bindings.lookup "PATH".toList).getD []) name).filter fun path =>
    match Program.ofPath m.files (octetsOf path) with
    | .ok _ | .error ⟨8⟩ => true
    | _ => false

def typeOf : List Text → Work Nat
  | [] => return 0
  | name :: rest => do
    let m ← get
    let kind? := (kindOf? m name).orElse fun _ => (programPath? m name).map fun p => String.ofList p
    match kind? with
    | some kind =>
      let _ ← write 1 (name ++ s!" is {kind}\n".toList)
      typeOf rest
    | none =>
      let _ ← write 1 (name ++ ": not found\n".toList)
      let _ ← typeOf rest
      return 127

def printCommand (name : Text) : Work Nat := do
  let m ← get
  if (kindOf? m name).isSome then printBuiltin name (name ++ ['\n'])
  else
    match programPath? m name with
    | some path => printBuiltin name (path ++ ['\n'])
    | none => return 127

def isSpecial (name : Text) : Bool :=
  [":", "break", "continue", ".", "eval", "exec", "exit", "export", "readonly", "return", "set", "shift",
    "times", "trap", "unset"].contains (String.ofList name)

/-- Carries out work apart: of what it changes only what it wrote and made stays, and the time. -/
def apart (work : Work Unit) : Work Nat := fun outer =>
  let (result, inner) := work.run outer
  let kept : Machine :=
    { outer with
      files := { inner.files with current := outer.files.current }
      sinks := inner.sinks
      sources := inner.sources
      elapsed := inner.elapsed }
  match result with
  | .ok () => (.ok inner.status, kept)
  | .error (.exited n) | .error (.returned n) => (.ok (n % 256), kept)
  | .error (.broken _) | .error (.continued _) => (.ok inner.status, kept)
  | .error e => (.error e, kept)

def gather (descriptor : Nat) : Work Nat := do
  let m ← get
  set { m.setStream descriptor (some (.sink m.sinks.size)) with sinks := m.sinks.push [] }
  return m.sinks.size

def supply (descriptor : Nat) (text : Text) : Work Unit := do
  let m ← get
  set { m.setStream descriptor (some (.source m.sources.size)) with sources := m.sources.push text }

end Work

open Work

def enterLoop : Work Unit := modify fun m => { m with loops := m.loops + 1 }

def leaveLoop : Work Unit := modify fun m => { m with loops := m.loops - 1 }

def trace (assignments : List (Text × Text)) (words : List Text) : Work Unit := do
  if (← get).traces then
    let shown := assignments.map (fun (name, text) => name ++ '=' :: text) ++ words
    let _ ← write 2 ("+ ".toList ++ List.intercalate [' '] shown ++ ['\n'])

def withoutEndings (text : Text) : Text := (text.reverse.dropWhile (· = '\n')).reverse

mutual

def expandPart : Nat → Part → Work (List Piece)
  | 0, _ => throw .exhausted
  | fuel + 1, part => do
    match part with
    | .plain text => return [.live text]
    | .quoted text => return [.fixed text]
    | .arithmetic quoted expression =>
      let text := joined (← expandParts fuel expression)
      let m ← get
      match evaluate text m.bindings with
      | .ok (n, bindings) =>
        set { m with bindings := bindings }
        return [if quoted then .fixed (toString n).toList else .loose (toString n).toList]
      | .error e => abandon (e.message text)
    | .output quoted body =>
      let outer ← get
      let sink ← gather 1
      let status ← apart (runToEnd fuel body)
      let m ← get
      let text := withoutEndings (m.gathered sink)
      set { m with streams := outer.streams, status := status }
      return [if quoted then .fixed text else .loose text]
    | .parameter quoted name form => expandParameter fuel quoted name form

def expandParameter : Nat → Bool → Text → Form → Work (List Piece)
  | 0, _, _, _ => throw .exhausted
  | fuel + 1, quoted, name, form => do
    let m ← get
    let piece (text : Text) : Piece := if quoted then .fixed text else .loose text
    let all := name = ['@'] ∨ name = ['*']
    let value? : Option Text :=
      if all then
        if m.arguments.isEmpty then none
        else some ((m.separators.head?.map fun c => List.intercalate [c] m.arguments).getD
          m.arguments.flatten)
      else m.parameter? name
    match form with
    | .value =>
      if all then
        if quoted ∧ name = ['*'] then return [.fixed (value?.getD [])]
        else return (m.arguments.map piece).intersperse .cut
      else
        match value? with
        | some text => return [piece text]
        | none =>
          if m.refusesUnset then abandon s!"{String.ofList name}: parameter not set"
          else return (if quoted then [.fixed []] else [])
    | .length =>
      let size := if all then m.arguments.length else (value?.getD []).length
      return [piece (toString size).toList]
    | .fallback kind orEmpty word =>
      let given := value?.filter fun text => !(orEmpty && text.isEmpty)
      match kind, given with
      | .replace, some _ => expandParts fuel word
      | .replace, none => return (if quoted then [.fixed []] else [])
      | _, some text => return [piece text]
      | .standIn, none => expandParts fuel word
      | .assign, none =>
        let text := joined (← expandParts fuel word)
        assign name text
        return [piece text]
      | .complain, none =>
        let text := joined (← expandParts fuel word)
        let reason :=
          if !text.isEmpty then String.ofList text
          else if orEmpty then "parameter not set or null" else "parameter not set"
        abandon s!"{String.ofList name}: {reason}"
    | .cut atEnd longest pattern =>
      let pattern := patternOf (← expandParts fuel pattern)
      return [piece (pattern.cut atEnd longest (value?.getD []))]

def expandParts : Nat → Word → Work (List Piece)
  | 0, _ => throw .exhausted
  | _, [] => return []
  | fuel + 1, part :: rest => do
    let first ← expandPart fuel part
    let others ← expandParts fuel rest
    return first ++ others

def expandWords : Nat → List Word → Work (List Text)
  | 0, _ => throw .exhausted
  | _, [] => return []
  | fuel + 1, word :: rest => do
    let pieces ← expandParts fuel word
    let m ← get
    let fields := (fieldsOf m.separators pieces).flatMap (namesFor m)
    let others ← expandWords fuel rest
    return fields ++ others

def assignAll : Nat → List (Text × Word) → Work Unit
  | 0, _ => throw .exhausted
  | _, [] => return
  | fuel + 1, (name, word) :: rest => do
    let text := joined (← expandParts fuel word)
    assign name text
    assignAll fuel rest

/-- Sets descriptors up; false if a file cannot be opened. -/
def redirectAll : Nat → List Redirect → Work Bool
  | 0, _ => throw .exhausted
  | _, [] => return true
  | fuel + 1, r :: rest => do
    match r with
    | .copy descriptor word =>
      let target := joined (← expandParts fuel word)
      let m ← get
      if target = ['-'] then
        set (m.setStream descriptor none)
        redirectAll fuel rest
      else
        match number? target with
        | some n =>
          match m.streams.lookup n with
          | some stream =>
            set (m.setStream descriptor (some stream))
            redirectAll fuel rest
          | none =>
            complain s!"{n}: Bad file descriptor"
            return false
        | none => abandon "Syntax error: Bad fd number"
    | .document descriptor word =>
      let text := joined (← expandParts fuel word)
      supply descriptor text
      redirectAll fuel rest
    | .file descriptor opening word =>
      let path := joined (← expandParts fuel word)
      let m ← get
      let octets := octetsOf path
      if path = "/dev/null".toList then
        set (m.setStream descriptor (some .empty))
        redirectAll fuel rest
      else
        match opening with
        | .read =>
          match m.files.targetOf octets with
          | .ok (_, .file _ content) =>
            supply descriptor (textOf content)
            redirectAll fuel rest
          | _ =>
            complain s!"cannot open {String.ofList path}: No such file"
            return false
        | .write | .extend =>
          let emptied : Except OsError Files.Tree :=
            match opening, m.files.targetOf octets with
            | .write, .ok (place, .file mode _) => .ok (m.files.put place (.file mode []))
            | _, _ => m.files.append octets []
          match emptied with
          | .ok files =>
            set { m.setStream descriptor (some (.file octets)) with files := files }
            redirectAll fuel rest
          | .error e =>
            let reason :=
              if e = .notFound ∨ e = .notDirectory then "Directory nonexistent"
              else OsError.text e.number
            complain s!"cannot create {String.ofList path}: {reason}"
            return false

def runAll : Nat → List Command → Work Unit
  | 0, _ => throw .exhausted
  | _, [] => return
  | fuel + 1, c :: rest => do
    run fuel c
    runAll fuel rest

def runTested : Nat → List Command → Work Unit
  | 0, _ => throw .exhausted
  | fuel + 1, cs => do
    let before := (← get).tested
    modify fun m => { m with tested := true }
    runAll fuel cs
    modify fun m => { m with tested := before }

def runTraps : Nat → Work Unit
  | 0 => throw .exhausted
  | fuel + 1 => do
    let m ← get
    match m.due with
    | [] => return
    | signal :: rest =>
      set { m with due := rest }
      let status := m.status
      runText fuel ((m.traps.lookup signal).getD [])
      setStatus status
      runTraps fuel

def run : Nat → Command → Work Unit
  | 0, _ => throw .exhausted
  | fuel + 1, c => do
    match c with
    | .simple line assignments words redirects =>
      modify fun m => { m with line := line }
      runSimple fuel assignments words redirects
      let m ← get
      if !m.due.isEmpty then runTraps fuel
      if m.stopsOnFailure ∧ !m.tested ∧ m.status ≠ 0 then throw (.exited m.status)
    | .andThen first second =>
      runTested fuel [first]
      if (← get).status = 0 then run fuel second
    | .orElse first second =>
      runTested fuel [first]
      if (← get).status ≠ 0 then run fuel second
    | .negated body =>
      runTested fuel [body]
      modify fun m => { m with status := if m.status = 0 then 1 else 0 }
    | .pipeline stages => runStages fuel none stages
    | .group body => runAll fuel body
    | .subshell body =>
      let status ← apart (runToEnd fuel body)
      setStatus status
      let m ← get
      if m.stopsOnFailure ∧ !m.tested ∧ status ≠ 0 then throw (.exited status)
    | .choice condition consequent alternative =>
      runTested fuel condition
      if (← get).status = 0 then
        setStatus 0
        runAll fuel consequent
      else
        setStatus 0
        runAll fuel alternative
    | .loop until_ condition body =>
      enterLoop
      runLoop fuel until_ condition body 0
      leaveLoop
    | .each name words body =>
      let values ← match words with
        | some ws => expandWords fuel ws
        | none => pure (← get).arguments
      setStatus 0
      enterLoop
      runEach fuel name values body
      leaveLoop
    | .cases subject arms =>
      let text := joined (← expandParts fuel subject)
      setStatus 0
      runCases fuel text arms
    | .function name body =>
      modify fun m => { m with
        functions := (name, body) :: m.functions.filter (·.1 != name)
        status := 0 }
    | .redirected body redirects =>
      let outer := (← get).streams
      if ← redirectAll fuel redirects then
        run fuel body
        modify fun m => { m with streams := outer }
      else
        modify fun m => { m with streams := outer, status := 2 }

def runStages : Nat → Option Text → List Command → Work Unit
  | 0, _, _ => throw .exhausted
  | _, _, [] => return
  | fuel + 1, input, stage :: rest => do
    let outer ← get
    match input with
    | some text => supply 0 text
    | none => pure ()
    let sink? ← if rest.isEmpty then pure none else (some <$> gather 1)
    let status ← apart (run fuel stage)
    let m ← get
    set { m with streams := outer.streams, status := status }
    match sink? with
    | some sink => runStages fuel (some (m.gathered sink)) rest
    | none => return

def runRound : Nat → List Command → Work Bool
  | 0, _ => throw .exhausted
  | fuel + 1, body => fun m =>
    match (runAll fuel body).run m with
    | (.ok (), m) => (.ok true, m)
    | (.error (.broken n), m) =>
      let m := { m with status := 0 }
      if n ≤ 1 then (.ok false, m) else (.error (.broken (n - 1)), { m with loops := m.loops - 1 })
    | (.error (.continued n), m) =>
      let m := { m with status := 0 }
      if n ≤ 1 then (.ok true, m) else (.error (.continued (n - 1)), { m with loops := m.loops - 1 })
    | (.error e, m) => (.error e, m)

/-- A loop, its status that of the last round. -/
def runLoop : Nat → Bool → List Command → List Command → Nat → Work Unit
  | 0, _, _, _, _ => throw .exhausted
  | fuel + 1, until_, condition, body, last => do
    runTested fuel condition
    if ((← get).status = 0) = (until_ = true) then setStatus last
    else
      let goesOn ← runRound fuel body
      if goesOn then runLoop fuel until_ condition body (← get).status
      else setStatus 0

def runEach : Nat → Text → List Text → List Command → Work Unit
  | 0, _, _, _ => throw .exhausted
  | _, _, [], _ => return
  | fuel + 1, name, value :: rest, body => do
    assign name value
    let goesOn ← runRound fuel body
    if goesOn then runEach fuel name rest body else setStatus 0

def runCases : Nat → Text → List (List Word × List Command) → Work Unit
  | 0, _, _ => throw .exhausted
  | _, _, [] => return
  | fuel + 1, text, (patterns, body) :: rest => do
    if ← fitsAny fuel text patterns then runAll fuel body else runCases fuel text rest

def fitsAny : Nat → Text → List Word → Work Bool
  | 0, _, _ => throw .exhausted
  | _, _, [] => return false
  | fuel + 1, text, word :: rest => do
    let pattern := patternOf (← expandParts fuel word)
    if pattern.fits text then return true else fitsAny fuel text rest

def runSimple : Nat → List (Text × Word) → List Word → List Redirect → Work Unit
  | 0, _, _, _ => throw .exhausted
  | fuel + 1, assignments, words, redirects => do
    let before ← get
    let fields ← expandWords fuel words
    match fields with
    | [] =>
      let opened ← redirectAll fuel redirects
      modify fun m => { m with streams := before.streams }
      setStatus 0
      assignAll fuel assignments
      let m ← get
      trace (assignments.map fun a => (a.1, (m.bindings.lookup a.1).getD [])) []
      -- without a command the status is that of the last output taken in, if there was one
      let hasOutput := assignments.any fun a => a.2.any fun
        | .output .. => true
        | _ => false
      if !opened then setStatus 2
      else if !hasOutput then setStatus 0
    | name :: arguments =>
      if !(← redirectAll fuel redirects) then
        modify fun m => { m with streams := before.streams, status := 2 }
        if isSpecial name then throw (.exited 2)
      else
        let bindings := (← get).bindings
        assignAll fuel assignments
        let m ← get
        trace (assignments.map fun a => (a.1, (m.bindings.lookup a.1).getD [])) fields
        call fuel name arguments
        -- what is assigned in front of a special command stays
        if !(isSpecial name) ∧ !assignments.isEmpty then
          modify fun m => { m with
            bindings := assignments.foldl (fun vs a =>
              match bindings.lookup a.1 with
              | some text => putText a.1 text vs
              | none => vs.filter (·.1 != a.1)) m.bindings }
        -- what exec redirects stays so
        if name ≠ "exec".toList then modify fun m => { m with streams := before.streams }

def call : Nat → Text → List Text → Work Unit
  | 0, _, _ => throw .exhausted
  | fuel + 1, name, arguments => do
    let m ← get
    match m.functions.lookup name with
    | some body =>
      -- locals and arguments are put back whichever way the body is left
      set { m with arguments := arguments, frames := [] :: m.frames, loops := 0 }
      fun inner =>
        let finish (r : Except Departure Unit) (after : Machine) : Except Departure Unit × Machine :=
          let restored := (after.frames.headD []).foldl (fun m v => m.restoreVariable v.1 v.2) after
          (r, { restored with arguments := m.arguments, frames := m.frames, loops := m.loops })
        match (run fuel body).run inner with
        | (.error (.returned n), after) => finish (.ok ()) { after with status := n }
        | (r, after) => finish r after
    | none =>
      match String.ofList name with
      | "eval" =>
        setStatus 0
        runText fuel (List.intercalate [' '] arguments)
      | "command" =>
        match arguments.filter (· ≠ ['-', '-']) with
        | [] => setStatus 0
        | ['-', 'v'] :: inner :: _ => setStatus (← printCommand inner)
        | inner :: rest => call fuel inner rest
      | "." =>
        match arguments with
        | [] => setStatus 0
        | path :: _ =>
          match m.files.targetOf (octetsOf path) with
          | .ok (_, .file _ content) => runText fuel (textOf content)
          | _ => abandon s!".: cannot open {String.ofList path}: No such file"
      | "type" => setStatus (← typeOf arguments)
      | "exec" =>
        match arguments with
        | [] => setStatus 0
        | path :: rest => replace fuel path rest
      | _ =>
        match simpleBuiltin? name arguments with
        | some work => do
          let status ← work
          setStatus status
        | none => launch fuel name arguments

def launch : Nat → Text → List Text → Work Unit
  | 0, _, _ => throw .exhausted
  | fuel + 1, name, arguments => do
    let m ← get
    match Program.search? m.files ((m.bindings.lookup "PATH".toList).getD []) name with
    | none =>
      complain s!"{String.ofList name}: not found"
      setStatus 127
    | some path =>
      match Program.ofPath m.files (octetsOf path) with
      | .ok image => launchImage fuel image arguments
      | .error e =>
        -- a program in no known form is taken for a script
        if e = .notExecutable then launchImage fuel ⟨.shell, [path]⟩ arguments
        else if e = .notFound ∨ e = .notDirectory then
          complain s!"{String.ofList name}: not found"
          setStatus 127
        else
          complain s!"{String.ofList name}: {OsError.text e.number}"
          setStatus 126

def launchImage : Nat → Image → List Text → Work Unit
  | 0, _, _ => throw .exhausted
  | fuel + 1, image, arguments => fun m =>
    match (apart (execute fuel image arguments)).run m with
    | (.ok status, m) => (.ok (), { m with status := status })
    | (.error (.killed signal), m) => (.ok (), { m with status := 128 + signal })
    | (.error e, m) => (.error e, m)

def replace : Nat → Text → List Text → Work Unit
  | 0, _, _ => throw .exhausted
  | fuel + 1, name, arguments => do
    let m ← get
    let image : Except OsError Image :=
      match Program.search? m.files ((m.bindings.lookup "PATH".toList).getD []) name with
      | none => .error .notFound
      | some path =>
        match Program.ofPath m.files (octetsOf path) with
        | .error e => if e = .notExecutable then .ok ⟨.shell, [path]⟩ else .error e
        | .ok image => .ok image
    match image with
    | .ok image =>
      execute fuel image arguments
      throw (.exited (← get).status)
    | .error e =>
      let missing := e = .notFound ∨ e = .notDirectory
      let reason := if missing then "not found" else OsError.text e.number
      complain s!"exec: {String.ofList name}: {reason}"
      let gone := missing ∨ e = .tooManyLinks ∨ e = .badName
      throw (.exited (if gone then 127 else 126))

def execute : Nat → Image → List Text → Work Unit
  | 0, _, _ => throw .exhausted
  | fuel + 1, image, arguments => do
    let words := image.words ++ arguments
    match image.program with
    | .utility .succeed => setStatus 0
    | .utility .fail => setStatus 1
    | .utility .sleep =>
      let time := (words.map sleepTime).foldl (· + ·) 0
      modify fun m => { m with elapsed := m.elapsed + time, status := 0 }
    | .shell =>
      let m ← get
      let kept := putText "PWD".toList (textOf m.files.currentPath)
        (m.bindings.filter fun v => m.exported.contains v.1)
      let flags : Text := match words with
        | ('-' :: letters) :: _ => letters
        | _ => []
      let begun : Machine :=
        { Machine.fresh m.files "sh".toList [] kept with
          streams := m.streams
          sinks := m.sinks
          sources := m.sources
          elapsed := m.elapsed
          stopsOnFailure := flags.contains 'e'
          refusesUnset := flags.contains 'u'
          traces := flags.contains 'x' }
      let words := match words with
        | ('-' :: letters) :: rest => if letters.contains 'c' then ['-', 'c'] :: rest else rest
        | ws => ws
      match words with
      | ['-', 'c'] :: text :: rest =>
        set { begun with name := rest.headD "sh".toList, arguments := rest.drop 1 }
        runWhole fuel text
      | path :: rest =>
        match m.files.targetOf (octetsOf path) with
        | .ok (_, .file _ content) =>
          set { begun with name := path, arguments := rest }
          runWhole fuel (textOf content)
        | _ =>
          set { begun with line := 0 }
          complain s!"cannot open {String.ofList path}: No such file"
          throw (.exited 2)
      | [] => set begun

def finish : Nat → Except Departure Unit → Work Unit
  | 0, _ => throw .exhausted
  | fuel + 1, result => do
    let m ← get
    let status ← match result with
      | .ok () | .error (.broken _) | .error (.continued _) => pure m.status
      | .error (.exited n) | .error (.returned n) => pure n
      | .error e => throw e
    match m.traps.lookup 0 with
    | none => throw (.exited status)
    | some action =>
      set { m with traps := m.traps.filter (·.1 != 0), status := status }
      runText fuel action
      throw (.exited status)

def runToEnd : Nat → List Command → Work Unit
  | 0, _ => throw .exhausted
  | fuel + 1, body => fun m =>
    let begun := { m with traps := m.traps.filter (·.2.isEmpty) }
    let (result, after) := (runAll fuel body).run begun
    (finish fuel result).run after

def runWhole : Nat → Text → Work Unit
  | 0, _ => throw .exhausted
  | fuel + 1, text => fun m =>
    let (result, after) := (runLines fuel ⟨text, 1, 0⟩).run m
    (finish fuel result).run after

def runLines : Nat → Input → Work Unit
  | 0, _ => throw .exhausted
  | fuel + 1, input => do
    match nextLine? input with
    | .ok none => return
    | .ok (some (commands, rest)) =>
      runAll fuel commands
      runLines fuel rest
    | .error problem =>
      modify fun m => { m with line := problem.line }
      abandon problem.message

def runText : Nat → Text → Work Unit
  | 0, _ => throw .exhausted
  | fuel + 1, text => do
    let line := (← get).line
    runLines fuel ⟨text, line, 0⟩

end

inductive Exit where
  | code (n : Nat)
  | signal (n : Nat)
  deriving DecidableEq, Repr

structure Result where
  output : List UInt8
  errors : List UInt8
  exit : Exit
  elapsed : Nat
  files : Files.Tree

/-- How deep and how long a process may go on. -/
def fuel : Nat := 1000000

def carryOut (files : Files.Tree) (bindings : List (Text × Text)) (image : Image)
    (arguments : List Text) : Result :=
  let (result, m) := (execute fuel image arguments).run (.fresh files [] [] bindings)
  let exit : Exit := match result with
    | .ok () => .code (m.status % 256)
    | .error (.exited n) | .error (.returned n) => .code (n % 256)
    | .error (.killed n) => .signal n
    | .error _ => .code (m.status % 256)
  ⟨octetsOf (m.gathered 0), octetsOf (m.gathered 1), exit, m.elapsed, m.files⟩

end AttestationService.Shell

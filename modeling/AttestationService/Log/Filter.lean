import AttestationService.Log.Notice
import AttestationService.Text.Blank
import AttestationService.Text.Search

/-!
Which notices are logged. A filter is a list of directives with commas between them; each grants a
level to the parts of the service whose names begin in some way, or to what is reported on behalf of
a request. The longest beginning decides, and nothing is logged that no directive speaks of.
-/

namespace AttestationService.Log

def requestSpan : String := "request"

def requestSource : String := "gpu_attest_gateway::request_id"

structure Directive where
  target : List Char
  span : Option (List Char)
  hasFields : Bool
  verbosity : Nat
  deriving DecidableEq, Repr

inductive DirectiveFault where
  | malformed
  | levelUnknown
  deriving DecidableEq, Repr

def DirectiveFault.message : DirectiveFault → String
  | .malformed => "invalid filter directive"
  | .levelUnknown =>
    "error parsing level filter: expected one of \"off\", \"error\", \"warn\", \"info\", \"debug\", " ++
      "\"trace\", or a number 0-5"

namespace Directive

def highest : Nat := Level.trace.verbosity

def levelNames : List (String × Nat) :=
  ("OFF", 0) :: [Level.error, .warn, .info, .debug, .trace].map fun level => (level.name, level.verbosity)

def verbosity? (text : List Char) : Option Nat :=
  let digits := match text with
    | '+' :: rest => rest
    | _ => text
  if !digits.isEmpty && digits.all Char.isDigit then
    let n := digits.foldl (fun n c => 10 * n + (c.toNat - 48)) 0
    if n ≤ highest then some n else none
  else levelNames.lookup (String.ofList (text.map Char.toUpper))

def granted (text : List Char) : Except DirectiveFault Nat :=
  if text.isEmpty then .ok highest
  else
    match verbosity? text with
    | some n => .ok n
    | none => .error .levelUnknown

def mayBegin (c : Char) : Bool :=
  c.isAlphanum || c == '-' || c == ':' || c == '_' || 0x80 ≤ c.toNat

def close (text shown target : List Char) (span : Option (List Char)) (hasFields : Bool)
    (position : Nat) : Except DirectiveFault Directive :=
  match shown.drop position with
  | [] => .ok ⟨target, span, hasFields, highest⟩
  | '=' :: _ => (granted (text.drop (position + 1))).map fun n => ⟨target, span, hasFields, n⟩
  | _ => .error .malformed

def bracketed (text shown target : List Char) (position : Nat) : Except DirectiveFault Directive :=
  let length := ((shown.drop position).takeWhile fun c => c != ']' && c != '\x7b').length
  let name := (text.drop position).take length
  match shown.drop (position + length) with
  | ']' :: _ => close text shown target (some name) false (position + length + 1)
  | _ :: rest =>
    let fields := rest.takeWhile (· != '\x7d')
    if fields.isEmpty then .error .malformed
    else
      match rest.drop fields.length with
      | _ :: ']' :: _ =>
        let span := if name.isEmpty then none else some name
        close text shown target span true (position + length + 1 + fields.length + 2)
      | _ => .error .malformed
  | [] => .error .malformed

/-- Positions are counted in the text without blanks at its ends, but name places in the text with
them. -/
def ofText (text : List Char) : Except DirectiveFault Directive :=
  let shown := Text.trim text
  match shown with
  | [] => .error .malformed
  | '[' :: _ => bracketed text shown [] 1
  | c :: _ =>
    if !mayBegin c then .error .malformed
    else
      let length := (shown.takeWhile fun c => c != '=' && c != '[').length
      let target := text.take length
      match shown.drop length with
      | [] =>
        match verbosity? text with
        | some n => .ok ⟨[], none, false, n⟩
        | none => .ok ⟨text, none, false, highest⟩
      | '=' :: _ => (granted (text.drop (length + 1))).map fun n => ⟨target, none, false, n⟩
      | _ => bracketed text shown target (length + 1)

def concerns (d : Directive) (source : String) : Bool :=
  d.span.isNone && !d.hasFields && d.target.isPrefixOf source.toList

def concernsRequests (d : Directive) : Bool :=
  d.span == some requestSpan.toList && !d.hasFields && d.target.isPrefixOf requestSource.toList

end Directive

structure Filter where
  directives : List Directive
  deriving DecidableEq, Repr

namespace Filter

def default : Filter := ⟨[⟨[], none, false, Level.info.verbosity⟩]⟩

/-- The directive with the longest target; of equal ones the last. -/
def decisive? (directives : List Directive) : Option Directive :=
  directives.foldl (fun best d =>
    match best with
    | none => some d
    | some b => if b.target.length ≤ d.target.length then some d else best) none

def verbosity (f : Filter) (source : String) : Nat :=
  ((decisive? (f.directives.filter (·.concerns source))).map (·.verbosity)).getD 0

def requestVerbosity? (f : Filter) : Option Nat :=
  ((f.directives.filter (·.concernsRequests)).map (·.verbosity)).max?

def showsRequests (f : Filter) : Bool :=
  f.requestVerbosity?.isSome || Level.info.verbosity ≤ f.verbosity requestSource

def allows (f : Filter) (forRequest : Bool) (notice : Notice) : Bool :=
  let needed := notice.level.verbosity
  needed ≤ f.verbosity notice.source || (forRequest && f.requestVerbosity?.any (needed ≤ ·))

def ofText (text : List Char) : Filter × List (String × DirectiveFault) :=
  let pieces := (Text.fields ',' text).filter (!·.isEmpty)
  let read := pieces.map fun piece => (piece, Directive.ofText piece)
  let directives := read.filterMap fun (_, result) => result.toOption
  let faults := read.filterMap fun (piece, result) =>
    match result with
    | .ok _ => none
    | .error fault => some (String.ofList piece, fault)
  (if directives.isEmpty then default else ⟨directives⟩, faults)

def complaint (fault : String × DirectiveFault) : String :=
  s!"ignoring \x60{fault.1}\x60: {fault.2.message}"

end Filter

end AttestationService.Log

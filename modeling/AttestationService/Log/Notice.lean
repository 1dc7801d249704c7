import AttestationService.Http.Body
import AttestationService.Http.Method
import AttestationService.Http.Target
import AttestationService.Json.Writer
import AttestationService.RawNonce
import AttestationService.Nonce
import AttestationService.Text.Quoted
import AttestationService.Verifier.Failure

/-!
What the service reports about its work. A notice has a level, the part of the service it comes
from, a message and named fields.
-/

namespace AttestationService.Log

inductive Level where
  | error
  | warn
  | info
  | debug
  | trace
  deriving DecidableEq, Repr

namespace Level

def name : Level → String
  | .error => "ERROR"
  | .warn => "WARN"
  | .info => "INFO"
  | .debug => "DEBUG"
  | .trace => "TRACE"

def verbosity : Level → Nat
  | .error => 1
  | .warn => 2
  | .info => 3
  | .debug => 4
  | .trace => 5

end Level

structure Greeting where
  port : Nat
  socketPath : String
  verifierRoot : String
  successMarker : String
  logPath : Option String
  deriving DecidableEq, Repr

inductive StopSignal where
  | interrupt
  | terminate
  deriving DecidableEq, Repr

inductive Notice where
  | idAssigned
  | attestRequested (method : Http.Method) (target : Http.Target)
  | methodRefused (method : Http.Method)
  | queryRead (pairs : List (String × String))
  | bodyRead (octets : List UInt8)
  | bodyUnread (error : Http.BodyError)
  | bodyMalformed (error : Json.Error)
  | bodyNotObject
  | nonceNotText (value : Json.Value)
  | nonceAbsent
  | nonceFound (nonce : Nonce)
  | nonceInvalid (text : String)
  | gateEntered
  | gateLeft
  | commandStarted (words : List String)
  | commandPrinted (output : String)
  | runLost (reason : String)
  | runFailed (failure : Verifier.Failure)
  | attestCompleted (status : Nat) (milliseconds : Nat)
  | starting (greeting : Greeting)
  | listening (endpoint : String)
  | listeningSocket (path : String)
  | socketNotShared (error : SystemError)
  | socketNotRemoved (path : String) (error : SystemError)
  | stopRequested (signal : StopSignal)
  | startFailed (reason : String)
  | stopping

namespace Notice

def level : Notice → Level
  | .bodyUnread _ | .nonceInvalid _ | .runLost _ | .runFailed _ => .error
  | .socketNotShared _ | .socketNotRemoved .. | .startFailed _ => .error
  | .methodRefused _ => .warn
  | .attestRequested .. | .bodyMalformed _ | .bodyNotObject | .nonceNotText _ => .debug
  | .gateEntered | .gateLeft | .commandStarted _ => .debug
  | .attestCompleted status _ => if 500 ≤ status ∧ status < 600 then .error else .info
  | _ => .info

def source : Notice → String
  | .idAssigned => "gpu_attest_gateway::request_id"
  | .gateEntered | .gateLeft | .commandStarted _ | .commandPrinted _ | .runLost _ =>
    "gpu_attest_gateway::verifier"
  | .listening _ | .listeningSocket _ | .socketNotShared _ | .socketNotRemoved .. =>
    "gpu_attest_gateway::server"
  | .starting _ | .stopRequested _ | .startFailed _ | .stopping => "gpu_attest_gateway"
  | _ => "gpu_attest_gateway::routes::attest"

def quotedWords (words : List String) : String :=
  " ".intercalate (words.map Text.quotedString)

def message : Notice → String
  | .idAssigned => "Assigned new request ID"
  | .attestRequested method target =>
    s!"Incoming GPU attestation request: {method.name} {target.text}"
  | .methodRefused method => s!"Method not allowed: {method.name}"
  | .queryRead _ => "GET request query"
  | .bodyRead _ => "POST request body"
  | .bodyUnread error => s!"Failed to read request body: {error.message}"
  | .bodyMalformed error => s!"Request body is not valid JSON, ignoring it: {error.message}"
  | .bodyNotObject => "Request body is not a JSON object, ignoring it"
  | .nonceNotText value => s!"Ignoring request body with a non string nonce: {value.compact}"
  | .nonceAbsent => "No nonce provided in request"
  | .nonceFound _ => "Nonce found in request"
  | .nonceInvalid _ => s!"Invalid nonce provided; must be a hex string representing {Nonce.size} bytes"
  | .gateEntered => "Acquired admission gate"
  | .gateLeft => "Released admission gate"
  | .commandStarted words => s!"Running verifier: {quotedWords words}"
  | .commandPrinted _ => "GPU attestation command output"
  | .runLost reason => s!"Verifier task failed: {reason}"
  | .runFailed failure => s!"Error executing cc_admin: {failure.message}"
  | .attestCompleted .. => "Completed /gpu_attest"
  | .starting _ => "Starting GPU attestation gateway"
  | .listening endpoint => s!"Starting HTTP server on {endpoint}"
  | .listeningSocket path => s!"Starting unix socket server on {path}"
  | .socketNotShared error => s!"Failed to set socket permissions 0666: {error.message}"
  | .socketNotRemoved path error => s!"Failed to remove socket file {path}: {error.message}"
  | .stopRequested .interrupt => "Received ctrl-c"
  | .stopRequested .terminate => "Received SIGTERM"
  | .startFailed reason => reason
  | .stopping => "Shutting down"

/-- Milliseconds in the largest unit that keeps them a whole number or gives seconds. -/
def durationText (milliseconds : Nat) : String :=
  if milliseconds = 0 then "0ns"
  else if milliseconds < 1000 then s!"{milliseconds}ms"
  else
    let digits := ((toString (1000 + milliseconds % 1000)).toList.drop 1).reverse.dropWhile (· == '0')
    let point := if digits.isEmpty then [] else '.' :: digits.reverse
    s!"{milliseconds / 1000}{String.ofList point}s"

def pairText (pair : String × String) : String :=
  "(" ++ Text.quotedString pair.1 ++ ", " ++ Text.quotedString pair.2 ++ ")"

def optionText : Option String → String
  | none => "None"
  | some text => "Some(" ++ Text.quotedString text ++ ")"

def fields : Notice → List (String × String)
  | .queryRead pairs => [("params", "[" ++ ", ".intercalate (pairs.map pairText) ++ "]")]
  | .bodyRead octets => [("body", Utf8.lossyString octets)]
  | .nonceFound nonce => [("nonce", nonce.text)]
  | .nonceInvalid text => [("nonce", Text.quotedString text)]
  | .commandPrinted output => [("output", Text.quotedString output)]
  | .attestCompleted status milliseconds =>
    [("duration", durationText milliseconds), ("status_code", toString status)]
  | .starting g =>
    [("port", toString g.port), ("socket_path", g.socketPath), ("verifier_root", g.verifierRoot),
      ("success_marker", g.successMarker), ("log_path", optionText g.logPath)]
  | _ => []

end Notice

end AttestationService.Log

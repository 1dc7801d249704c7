import AttestationService.Http.Response
import AttestationService.Message
import AttestationService.Verifier.Failure
import AttestationService.Verifier.Report

/-!
What a run of the verifier means for the client. A failed run is a server error whatever it
printed; a clean one succeeds if its output holds the success marker.
-/

namespace AttestationService

structure Outcome where
  output : String
  failure : Option Verifier.Failure
  success : Bool
  token : Option Json.Value
  deriving Repr, BEq

namespace Outcome

def ofRun (run : Verifier.Run) (successMarker : String) : Outcome :=
  let report := Verifier.Report.ofOutput run.output successMarker
  ⟨run.output, run.failure, report.success, report.token⟩

def status (o : Outcome) : Nat :=
  if o.failure.isSome then 500 else if o.success then 200 else 400

/-- A failed run passes no token on. -/
def envelope (o : Outcome) : Envelope :=
  ⟨o.output, if o.failure.isSome then none else o.token⟩

/-- The body: the envelope, indented, and a line feed. -/
def body (o : Outcome) : List Char :=
  Json.indented 0 o.envelope.toJson ++ ['\n']

def response (o : Outcome) : Http.Response :=
  .json o.status (Utf8.encode o.body)

end Outcome

end AttestationService

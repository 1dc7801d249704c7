import AttestationService.OsError

/-!
How a run of the verifier can fail, whatever it printed.
-/

namespace AttestationService.Verifier

inductive Failure where
  | notLaunched (cause : SystemError)
  /-- It ended with a code other than zero, or without one because a signal killed it. -/
  | exited (code : Option Int)
  | aborted (reason : String)
  deriving DecidableEq, Repr

def Failure.message : Failure → String
  | .notLaunched cause => s!"failed to launch verifier: {cause.message}"
  | .exited (some code) => s!"verifier exited with exit code {code}"
  | .exited none => "verifier exited with a signal"
  | .aborted reason => s!"verifier run aborted: {reason}"

structure Run where
  output : String
  failure : Option Failure
  deriving DecidableEq, Repr

end AttestationService.Verifier

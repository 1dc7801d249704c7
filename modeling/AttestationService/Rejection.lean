import AttestationService.Http.Response
import AttestationService.Nonce

/-!
Why a request to attest is turned away before any run.
-/

namespace AttestationService

inductive Rejection where
  | bodyUnread
  | methodNotAllowed
  | invalidNonce
  deriving DecidableEq, Repr

namespace Rejection

def status : Rejection → Nat
  | .bodyUnread | .invalidNonce => 400
  | .methodNotAllowed => 405

def message : Rejection → String
  | .bodyUnread => "Failed to read request body"
  | .methodNotAllowed => "Method Not Allowed"
  | .invalidNonce => s!"Invalid args: {Nonce.Error.notHex.message}"

def response (r : Rejection) : Http.Response := .text r.status r.message

end Rejection

end AttestationService

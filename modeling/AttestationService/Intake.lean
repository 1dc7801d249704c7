import AttestationService.Http.Request
import AttestationService.Log.Notice
import AttestationService.Rejection

/-!
A request to attest before any run: its nonce is taken from the query or the body and checked. The
outcome is a rejection or the admission of a run, at the moment when the body has been read.
-/

namespace AttestationService

def maxBodySize : Nat := 1024 * 1024

structure Intake where
  notices : List (Nat × Log.Notice)
  ready : Nat
  verdict : Except Rejection (Option Nonce)

namespace Intake

def check (raw : String) : Log.Notice × Except Rejection (Option Nonce) :=
  match Nonce.optional raw with
  | .ok none => (.nonceAbsent, .ok none)
  | .ok (some nonce) => (.nonceFound nonce, .ok (some nonce))
  | .error _ => (.nonceInvalid raw, .error .invalidNonce)

def ofBodyNonce (nonce : BodyNonce) : List Log.Notice :=
  match nonce with
  | .malformed error => [.bodyMalformed error]
  | .notObject => [.bodyNotObject]
  | .notText value => [.nonceNotText value]
  | .named _ => []

/-- Takes the request in from the time it was sent on. A body is read for the post method only. -/
def ofRequest (readDeadline sent : Nat) (request : Http.Request) : Intake :=
  let arrival : Log.Notice := .attestRequested request.method request.target
  match request.method with
  | .get =>
    let query := (request.target.query.map Utf8.encodeString).getD []
    let pairs := Http.Form.pairs query
    let (notice, verdict) := check (queryNonce pairs)
    ⟨[arrival, .queryRead pairs, notice].map (sent, ·), sent, verdict⟩
  | .post =>
    match Http.Body.collect readDeadline sent maxBodySize [] request.body with
    | (ready, .error error) => ⟨[(sent, arrival), (ready, .bodyUnread error)], ready, .error .bodyUnread⟩
    | (ready, .ok octets) =>
      let nonce := BodyNonce.ofOctets octets
      let (notice, verdict) := check nonce.raw
      ⟨(sent, arrival) :: (.bodyRead octets :: ofBodyNonce nonce ++ [notice]).map (ready, ·), ready, verdict⟩
  | method => ⟨[arrival, .methodRefused method].map (sent, ·), sent, .error .methodNotAllowed⟩

end Intake

end AttestationService

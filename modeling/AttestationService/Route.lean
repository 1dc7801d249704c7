import AttestationService.Http.Request
import AttestationService.Http.Response
import AttestationService.Message

/-!
What is served where. The health and build pages answer at once; only attestation takes time.
-/

namespace AttestationService

inductive Route where
  | health
  | about
  | attest
  | unknown
  deriving DecidableEq, Repr

def BuildInfo.current : BuildInfo := ⟨"0.1.0", "unknown", "0000000000"⟩

namespace Route

def ofPath (path : String) : Route :=
  if path = "/health" then .health
  else if path = "/about" then .about
  else if path = "/gpu_attest" then .attest
  else .unknown

def page (method : Http.Method) (content : Http.Response) : Http.Response :=
  match method with
  | .get | .head => content
  | _ => ⟨405, [⟨"allow", Http.ascii "GET,HEAD"⟩, Http.lengthHeader []], []⟩

def immediate? (request : Http.Request) : Option Http.Response :=
  match ofPath request.target.path with
  | .health => some (page request.method (.text 200 "OK"))
  | .about => some (page request.method (.json 200 (Utf8.encode (Json.compact BuildInfo.current.toJson))))
  | .attest => none
  | .unknown => if request.target.path.startsWith "/" then some ⟨404, [], []⟩ else some (.empty 404)

end Route

end AttestationService

import AttestationService.Http.Framing
import AttestationService.Http.Response

/-!
Responses as they go over a connection: with the version that the client speaks, a length, and what
becomes of the connection.
-/

namespace AttestationService.Http

def reason : Nat → String
  | 100 => "Continue"
  | 200 => "OK"
  | 400 => "Bad Request"
  | 404 => "Not Found"
  | 405 => "Method Not Allowed"
  | 408 => "Request Timeout"
  | 414 => "URI Too Long"
  | 431 => "Request Header Fields Too Large"
  | 500 => "Internal Server Error"
  | _ => ""

structure Answer where
  version : Version
  response : Response
  deriving DecidableEq, Repr

namespace Answer

def sendBody : Answer := ⟨.oneOne, ⟨100, [], []⟩⟩

/-- What the response says about the connection: only what differs from the version's custom. -/
def persistence (version : Version) (keepAlive : Bool) : Headers :=
  match version, keepAlive with
  | .oneOne, false => [⟨"connection", ascii "close"⟩]
  | .oneZero, true => [⟨"connection", ascii "keep-alive"⟩]
  | _, _ => []

def measured (method : Option Method) (response : Response) : Response :=
  if (response.headers.first? "content-length").isSome || method == some .head then response
  else { response with headers := response.headers ++ [lengthHeader response.body] }

def ofResponse (version : Version) (keepAlive : Bool) (method : Option Method)
    (response : Response) : Answer :=
  let response := measured method response
  ⟨version, { response with headers := response.headers ++ persistence version keepAlive }⟩

def line (a : Answer) : String :=
  s!"{a.version.text} {a.response.status} {reason a.response.status}"

def lineFeed : List UInt8 := [0x0D, 0x0A]

def octets (a : Answer) : List UInt8 :=
  let fields := a.response.headers.flatMap fun h => ascii h.name ++ [0x3A, 0x20] ++ h.value ++ lineFeed
  ascii a.line ++ lineFeed ++ fields ++ lineFeed ++ a.response.body

end Answer

end AttestationService.Http

import AttestationService.Http.Header

/-!
Request methods. Names are case-sensitive, and any token is a method.
-/

namespace AttestationService.Http

inductive Method where
  | get
  | head
  | post
  | other (name : String)
  deriving DecidableEq, Repr

namespace Method

def ofToken (name : String) : Method :=
  if name = "GET" then .get
  else if name = "HEAD" then .head
  else if name = "POST" then .post
  else .other name

def ofText? (text : List Char) : Option Method :=
  if !text.isEmpty && text.all isTokenChar then some (ofToken (String.ofList text)) else none

def name : Method → String
  | .get => "GET"
  | .head => "HEAD"
  | .post => "POST"
  | .other name => name

end Method

end AttestationService.Http

import AttestationService.Http.Form
import AttestationService.Json.Reader

/-!
The nonce that a request names, before it is checked. In a query it is the value of the first pair
with the key `nonce`. In a body it is the last string among the members of a JSON object whose key
is `nonce` in any letter case; any other body names the empty text.
-/

namespace AttestationService

def queryNonce (pairs : List (String × String)) : String :=
  ((pairs.find? (·.1 == "nonce")).map (·.2)).getD ""

inductive BodyNonce where
  | malformed (error : Json.Error)
  | notObject
  | notText (value : Json.Value)
  | named (text : String)

namespace BodyNonce

def isNonceKey (key : String) : Bool :=
  key.toList.map Char.toLower == ['n', 'o', 'n', 'c', 'e']

/-- The members in their order: a string replaces the text so far, null leaves it. -/
def ofMembers (text : String) : List (String × Json.Value) → BodyNonce
  | [] => .named text
  | (key, value) :: rest =>
    if isNonceKey key then
      match value with
      | .string s => ofMembers s rest
      | .null => ofMembers text rest
      | other => .notText other
    else ofMembers text rest

def ofOctets (octets : List UInt8) : BodyNonce :=
  match Json.readOctets octets with
  | .error e => .malformed e
  | .ok (.object members) => ofMembers "" members
  | .ok _ => .notObject

def raw : BodyNonce → String
  | .named text => text
  | _ => ""

end BodyNonce

end AttestationService

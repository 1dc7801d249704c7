import AttestationService.Http.Method
import AttestationService.Http.Scan
import AttestationService.Http.Target
import AttestationService.Text.Utf8

/-!
The head of a request: the request line and the fields. `Head.read` takes a head from the front of
what came over a connection.
-/

namespace AttestationService.Http

inductive Version where
  | oneZero
  | oneOne
  deriving DecidableEq, Repr

def Version.text : Version → String
  | .oneZero => "HTTP/1.0"
  | .oneOne => "HTTP/1.1"

structure Head where
  method : Method
  target : Target
  version : Version
  headers : Headers
  deriving DecidableEq, Repr

namespace Head

def maxFields : Nat := 100

/-- A head may stay incomplete up to this many octets. -/
def maxSize : Nat := 417792

def nameBound : Nat := 65536

def isTargetOctet (o : UInt8) : Bool := 0x21 ≤ o && o != 0x7F

def methodScanner : Scanner Method := do
  let name ← Scanner.before Scanner.isTokenOctet
  Scanner.expect 0x20
  match Method.ofText? (Scanner.characters name) with
  | some method => pure method
  | none => Scanner.fail .malformed

def targetScanner : Scanner (List Char) := do
  let octets ← Scanner.before isTargetOctet
  Scanner.expect 0x20
  match Utf8.decode? octets with
  | some text => if text.isEmpty then Scanner.fail .malformed else pure text
  | none => Scanner.fail .malformed

def versionStem : List UInt8 := Utf8.encodeString "HTTP/1."

def versionScanner : Scanner Version := fun octets =>
  if octets.length < versionStem.length + 1 then
    if octets.isPrefixOf versionStem then .starved else .failed .malformed
  else if versionStem.isPrefixOf octets then
    match octets.drop versionStem.length with
    | 0x30 :: rest => .done .oneZero rest
    | 0x31 :: rest => .done .oneOne rest
    | _ => .failed .malformed
  else .failed .malformed

def assemble (method : Method) (target : List Char) (version : Version) (headers : Headers) :
    Scanner Head :=
  if Target.maxLength < (String.ofList target).utf8ByteSize then Scanner.fail .targetTooLong
  else if headers.any (nameBound ≤ ·.name.length) then Scanner.fail .tooLarge
  else
    match Target.ofText? target with
    | some target => pure ⟨method, target, version, headers⟩
    | none => Scanner.fail .malformed

def scanner : Scanner Head := do
  Scanner.emptyLines
  let method ← methodScanner
  let target ← targetScanner
  let version ← versionScanner
  Scanner.lineEnd
  let headers ← Scanner.fields maxFields
  assemble method target version headers

def read (octets : List UInt8) : Scan Head :=
  match scanner octets with
  | .starved => if maxSize ≤ octets.length then .failed .tooLarge else .starved
  | scan => scan

end Head

end AttestationService.Http

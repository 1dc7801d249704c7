import AttestationService.Http.Header
import AttestationService.Text.Utf8

/-!
Responses. A response with a body carries its type and length.
-/

namespace AttestationService.Http

structure Response where
  status : Nat
  headers : Headers
  body : List UInt8
  deriving DecidableEq, Repr

def ascii (text : String) : List UInt8 := Utf8.encodeString text

def lengthHeader (body : List UInt8) : Header :=
  ⟨"content-length", ascii (toString body.length)⟩

namespace Response

def withType (type : String) (status : Nat) (body : List UInt8) : Response :=
  ⟨status, [⟨"content-type", ascii type⟩, lengthHeader body], body⟩

def text (status : Nat) (body : String) : Response :=
  withType "text/plain; charset=utf-8" status (ascii body)

def json (status : Nat) (body : List UInt8) : Response :=
  withType "application/json" status body

def empty (status : Nat) : Response :=
  ⟨status, [lengthHeader []], []⟩

def withoutBody (r : Response) : Response := { r with body := [] }

end Response

end AttestationService.Http

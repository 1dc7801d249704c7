import AttestationService.Hex
import AttestationService.Text.Search
import AttestationService.Text.Utf8

/-!
Form-encoded pairs, as in a query. Ampersands stand between the pairs and an equals sign between a
key and its value; a plus sign is a space, and a percent sign with two digits is an octet. Every
text is some list of pairs.
-/

namespace AttestationService.Http.Form

def plusToSpace (octet : UInt8) : UInt8 := if octet = 0x2B then 0x20 else octet

/-- A percent sign without two hexadecimal digits stands for itself. -/
def percentDecode : List UInt8 → List UInt8
  | [] => []
  | [a] => [a]
  | [a, b] => [a, b]
  | a :: b :: c :: rest =>
    if a = 0x25 then
      match Hex.digit? b, Hex.digit? c with
      | some high, some low => UInt8.ofNat (high * 16 + low) :: percentDecode rest
      | _, _ => a :: percentDecode (b :: c :: rest)
    else a :: percentDecode (b :: c :: rest)

def decode (octets : List UInt8) : String :=
  Utf8.lossyString (percentDecode (octets.map plusToSpace))

/-- A segment between ampersands; without an equals sign its value is empty. -/
def pair (segment : List UInt8) : String × String :=
  match Text.cutAt? 0x3D segment with
  | some (key, value) => (decode key, decode value)
  | none => (decode segment, "")

/-- The pairs in their order. Empty segments are none. -/
def pairs (query : List UInt8) : List (String × String) :=
  ((Text.fields 0x26 query).filter (!·.isEmpty)).map pair

end AttestationService.Http.Form

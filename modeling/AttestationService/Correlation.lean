import AttestationService.Http.Header
import AttestationService.Text.Utf8

/-!
The id that ties a request to its log lines and its response. A client may give one in any of four
headers; if it gives none, the service assigns one.
-/

namespace AttestationService

def Correlation.requestHeaders : List String :=
  ["x-request-id", "x-ms-request-id", "request-id", "requestid"]

def Correlation.responseHeader : String := "x-ms-request-id"

abbrev Correlation.Seed := { octets : List UInt8 // octets.length = 16 }

inductive Correlation where
  | provided (value : List UInt8)
  | assigned (seed : Correlation.Seed)
  deriving DecidableEq, Repr

namespace Correlation

def provided? (headers : Http.Headers) : Option (List UInt8) :=
  (requestHeaders.filterMap headers.first?).find? (!·.isEmpty)

def resolve (headers : Http.Headers) (fresh : Seed) : Correlation :=
  match provided? headers with
  | some value => .provided value
  | none => .assigned fresh

/-- The octets of an id of version 4: the version and the variant take the places of six bits. -/
def stamped (octets : List UInt8) : List Nat :=
  octets.zipIdx.map fun (o, i) =>
    if i = 6 then 0x40 + o.toNat % 16 else if i = 8 then 0x80 + o.toNat % 64 else o.toNat

def uuidText (seed : Seed) : List Char :=
  let digits := (stamped seed.val).flatMap fun n => [digit (n / 16), digit (n % 16)]
  let group (start count : Nat) := (digits.drop start).take count
  group 0 8 ++ '-' :: group 8 4 ++ '-' :: group 12 4 ++ '-' :: group 16 4 ++ '-' :: group 20 12
where
  digit (n : Nat) : Char := if n < 10 then Char.ofNat (48 + n) else Char.ofNat (87 + n)

def isUuid (text : List Char) : Bool :=
  text.length == 36 && text.zipIdx.all fun (c, i) =>
    if i = 8 ∨ i = 13 ∨ i = 18 ∨ i = 23 then c == '-'
    else if i = 14 then c == '4'
    else if i = 19 then ['8', '9', 'a', 'b'].contains c
    else c.isDigit || ('a' ≤ c && c ≤ 'f')

/-- A number's octets in place of random ones, the least significant last. -/
def Seed.ofNumber (n : Nat) : Seed :=
  ⟨(List.range 16).map fun i => UInt8.ofNat (n / Nat.pow 256 (15 - i)),
    (List.length_map _).trans List.length_range⟩

def headerValue : Correlation → List UInt8
  | .provided value => value
  | .assigned seed => Utf8.encode (uuidText seed)

def text (id : Correlation) : String := Utf8.lossyString id.headerValue

end Correlation

end AttestationService

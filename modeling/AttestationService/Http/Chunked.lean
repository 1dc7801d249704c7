import AttestationService.Hex
import AttestationService.Http.Scan

/-!
Bodies sent in chunks. A chunk is a size in hexadecimal digits, perhaps an extension, and that many
octets; a chunk of size zero is the last one, and fields may follow it before an empty line. The
reader takes one octet at a time.
-/

namespace AttestationService.Http

inductive BodyEnd where
  | complete
  | trailed
  | broken
  | missing
  deriving DecidableEq, Repr

structure Delivery where
  pieces : List (List UInt8)
  ending : BodyEnd
  rest : List UInt8
  deriving DecidableEq, Repr

namespace Chunked

/-- Extensions and trailing fields have less room than this, each kind on its own. -/
def room : Nat := 16384

def maxTrailerLines : Nat := 100

inductive Stage where
  | opening
  | size (value : Nat)
  | afterSize (value : Nat)
  | extension (value : Nat)
  | sizeEnd (value : Nat)
  /-- The octets of a chunk so far, last first, and how many more follow the next one. -/
  | data (left : Nat) (taken : List UInt8)
  | dataReturn
  | dataEnd
  | trailer
  | trailerLine
  | trailerEnd
  | lastEnd
  deriving DecidableEq, Repr

structure Reader where
  stage : Stage
  pieces : List (List UInt8)
  extensions : Nat
  trailers : List UInt8
  trailerLines : Nat
  deriving DecidableEq, Repr

def start : Reader := ⟨.opening, [], 0, [], 0⟩

namespace Reader

def into (r : Reader) (stage : Stage) : Reader ⊕ BodyEnd := .inl { r with stage }

def trail (r : Reader) (octet : UInt8) (stage : Stage) : Reader ⊕ BodyEnd :=
  if room ≤ r.trailers.length then .inr .broken
  else .inl { r with stage, trailers := octet :: r.trailers }

def digit (r : Reader) (value : Nat) (octet : UInt8) : Option (Reader ⊕ BodyEnd) :=
  (Hex.digit? octet).map fun d =>
    if 16 * value + d < 0x10000000000000000 then r.into (.size (16 * value + d)) else .inr .broken

def sized (r : Reader) : Nat → Reader ⊕ BodyEnd
  | 0 => r.into .trailer
  | left + 1 => r.into (.data left [])

def finish (r : Reader) : BodyEnd :=
  if r.trailers.isEmpty then .complete
  else if maxTrailerLines ≤ r.trailerLines then .broken
  else
    match Scanner.fields r.trailerLines r.trailers.reverse with
    | .done .. => .trailed
    | _ => .broken

def pastSize (r : Reader) (value : Nat) (octet : UInt8) : Reader ⊕ BodyEnd :=
  if octet = 0x20 ∨ octet = 0x09 then r.into (.afterSize value)
  else if octet = 0x3B then r.into (.extension value)
  else if octet = 0x0D then r.into (.sizeEnd value)
  else .inr .broken

def step (r : Reader) (octet : UInt8) : Reader ⊕ BodyEnd :=
  match r.stage with
  | .opening => (r.digit 0 octet).getD (.inr .broken)
  | .size value => (r.digit value octet).getD (r.pastSize value octet)
  | .afterSize value => r.pastSize value octet
  | .extension value =>
    if octet = 0x0D then r.into (.sizeEnd value)
    else if octet = 0x0A ∨ room ≤ r.extensions + 1 then .inr .broken
    else .inl { r with extensions := r.extensions + 1 }
  | .sizeEnd value => if octet = 0x0A then r.sized value else .inr .broken
  | .data left taken =>
    match left with
    | 0 => .inl { r with stage := .dataReturn, pieces := (octet :: taken).reverse :: r.pieces }
    | left + 1 => r.into (.data left (octet :: taken))
  | .dataReturn => if octet = 0x0D then r.into .dataEnd else .inr .broken
  | .dataEnd => if octet = 0x0A then r.into .opening else .inr .broken
  | .trailer =>
    if octet = 0x0D then
      if r.trailers.isEmpty then r.into .lastEnd else r.trail octet .lastEnd
    else r.trail octet .trailerLine
  | .trailerLine => r.trail octet (if octet = 0x0D then .trailerEnd else .trailerLine)
  | .trailerEnd =>
    if octet = 0x0A ∧ r.trailerLines < maxTrailerLines then
      { r with trailerLines := r.trailerLines + 1 }.trail octet .trailer
    else .inr .broken
  | .lastEnd =>
    if octet = 0x0A then
      .inr (if r.trailers.isEmpty then .complete else { r with trailers := octet :: r.trailers }.finish)
    else .inr .broken

def allPieces (r : Reader) : List (List UInt8) :=
  match r.stage with
  | .data _ (octet :: taken) => ((octet :: taken).reverse :: r.pieces).reverse
  | _ => r.pieces.reverse

end Reader

def readFrom (r : Reader) : List UInt8 → Delivery
  | [] => ⟨r.allPieces, .missing, []⟩
  | octet :: rest =>
    match r.step octet with
    | .inl next => readFrom next rest
    | .inr ending => ⟨r.pieces.reverse, ending, rest⟩

def read (octets : List UInt8) : Delivery := readFrom start octets

end Chunked

end AttestationService.Http

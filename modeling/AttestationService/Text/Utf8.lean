/-!
Characters as octets and back. `encode` writes the shortest form of each character. `pieces` reads
any octets: what is no character is cut into the longest runs that could still have begun one, and
`lossy` shows each such run as one replacement character, while `decode?` refuses it.
-/

namespace AttestationService.Utf8

def encode (text : List Char) : List UInt8 :=
  text.flatMap String.utf8EncodeChar

/-- A stretch of octets: one character, or octets that belong to no character. -/
inductive Piece where
  | char (c : Char)
  | stray (octets : List UInt8)
  deriving DecidableEq, Repr

structure Pending where
  /-- The octets so far, last first. -/
  seen : List UInt8
  owed : Nat
  low : UInt8
  high : UInt8
  bits : Nat
  deriving DecidableEq, Repr

/-- What an octet between two characters begins. The second octet's bounds shut out overlong
forms, surrogates and code points past the last. -/
def begin (octet : UInt8) : Piece ⊕ Pending :=
  let owing (owed : Nat) (low high : UInt8) (bits : Nat) : Piece ⊕ Pending :=
    .inr ⟨[octet], owed, low, high, bits⟩
  if octet < 0x80 then .inl (.char (Char.ofNat octet.toNat))
  else if octet < 0xC2 then .inl (.stray [octet])
  else if octet < 0xE0 then owing 1 0x80 0xBF (octet.toNat - 0xC0)
  else if octet = 0xE0 then owing 2 0xA0 0xBF 0
  else if octet = 0xED then owing 2 0x80 0x9F 13
  else if octet < 0xF0 then owing 2 0x80 0xBF (octet.toNat - 0xE0)
  else if octet = 0xF0 then owing 3 0x90 0xBF 0
  else if octet < 0xF4 then owing 3 0x80 0xBF (octet.toNat - 0xF0)
  else if octet = 0xF4 then owing 3 0x80 0x8F 4
  else .inl (.stray [octet])

structure Reader where
  done : List Piece
  pending : Option Pending
  deriving DecidableEq, Repr

def Reader.fresh (done : List Piece) (octet : UInt8) : Reader :=
  match begin octet with
  | .inl piece => ⟨piece :: done, none⟩
  | .inr pending => ⟨done, some pending⟩

/-- An octet that the character in progress cannot take ends that character as a stray. -/
def Reader.step (reader : Reader) (octet : UInt8) : Reader :=
  match reader.pending with
  | none => .fresh reader.done octet
  | some p =>
    if p.low ≤ octet ∧ octet ≤ p.high then
      let bits := p.bits * 64 + (octet.toNat - 0x80)
      if p.owed ≤ 1 then ⟨.char (Char.ofNat bits) :: reader.done, none⟩
      else ⟨reader.done, some ⟨octet :: p.seen, p.owed - 1, 0x80, 0xBF, bits⟩⟩
    else .fresh (.stray p.seen.reverse :: reader.done) octet

def Reader.finish (reader : Reader) : List Piece :=
  match reader.pending with
  | none => reader.done.reverse
  | some p => (.stray p.seen.reverse :: reader.done).reverse

def pieces (octets : List UInt8) : List Piece :=
  (octets.foldl Reader.step ⟨[], none⟩).finish

def Piece.octets : Piece → List UInt8
  | .char c => String.utf8EncodeChar c
  | .stray octets => octets

def Piece.shown : Piece → Char
  | .char c => c
  | .stray _ => '\uFFFD'

def Piece.char? : Piece → Option Char
  | .char c => some c
  | .stray _ => none

/-- The text that octets spell, each stray run shown as one replacement character. -/
def lossy (octets : List UInt8) : List Char :=
  (pieces octets).map Piece.shown

def decode? (octets : List UInt8) : Option (List Char) :=
  (pieces octets).mapM Piece.char?

def lossyString (octets : List UInt8) : String :=
  String.ofList (lossy octets)

def encodeString (text : String) : List UInt8 :=
  encode text.toList

end AttestationService.Utf8

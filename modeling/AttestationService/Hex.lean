/-!
Hexadecimal octets. `decode` reads two digits an octet, in either letter case, and fails on an odd
number of digits or on anything that is no digit.
-/

namespace AttestationService.Hex

def digit? (octet : UInt8) : Option Nat :=
  let n := octet.toNat
  if 0x30 ≤ n ∧ n ≤ 0x39 then some (n - 0x30)
  else if 0x41 ≤ n ∧ n ≤ 0x46 then some (n - 0x37)
  else if 0x61 ≤ n ∧ n ≤ 0x66 then some (n - 0x57)
  else none

def digitOf? (c : Char) : Option Nat :=
  if c.toNat < 0x80 then digit? (UInt8.ofNat c.toNat) else none

def decode : List UInt8 → Option (List UInt8)
  | [] => some []
  | [_] => none
  | a :: b :: rest =>
    match digit? a, digit? b, decode rest with
    | some high, some low, some octets => some (UInt8.ofNat (high * 16 + low) :: octets)
    | _, _, _ => none

def digitChar (n : Nat) : Char :=
  if n < 10 then Char.ofNat (0x30 + n) else Char.ofNat (0x57 + n)

def encodeOctet (octet : UInt8) : List Char :=
  [digitChar (octet.toNat / 16), digitChar (octet.toNat % 16)]

def encode (octets : List UInt8) : List Char :=
  octets.flatMap encodeOctet

/-- Whether `text` is the hexadecimal form of exactly `count` octets. The wanted length is taken
modulo the machine's word; the octets read are counted again, so a wrapped length lets nothing in. -/
def isEncodingOf (text : List UInt8) (count : UInt64) : Bool :=
  if text.length = (count * 2).toNat then
    match decode text with
    | some octets => octets.length == count.toNat
    | none => false
  else false

end AttestationService.Hex

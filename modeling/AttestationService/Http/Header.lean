/-!
Header fields: a name, in lower case, and a value of octets.
-/

namespace AttestationService.Http

def isTokenChar (c : Char) : Bool :=
  c.isAlphanum || "!#$%&'*+-.^_\x60|~".toList.contains c

def isValueOctet (o : UInt8) : Bool :=
  o == 9 || (0x20 ≤ o && o != 0x7F)

structure Header where
  name : String
  value : List UInt8
  deriving DecidableEq, Repr

abbrev Headers := List Header

def Header.make? (name : List Char) (value : List UInt8) : Option Header :=
  if !name.isEmpty && name.all isTokenChar && value.all isValueOctet then
    some ⟨String.ofList (name.map Char.toLower), value⟩
  else none

def Headers.first? (headers : Headers) (name : String) : Option (List UInt8) :=
  (headers.find? (·.name == name)).map (·.value)

def Headers.set (headers : Headers) (name : String) (value : List UInt8) : Headers :=
  headers.filter (·.name != name) ++ [⟨name, value⟩]

end AttestationService.Http

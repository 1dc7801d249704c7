import AttestationService.Http.Header

/-!
Reading octets of which more may follow. A scanner takes what it wants from the front; or it finds
that the octets end too early, which more of them would mend; or that they can never be right.
-/

namespace AttestationService.Http

inductive HeadFault where
  | malformed
  | targetTooLong
  | tooLarge
  deriving DecidableEq, Repr

def HeadFault.status : HeadFault → Nat
  | .malformed => 400
  | .targetTooLong => 414
  | .tooLarge => 431

inductive Scan (α : Type) where
  | done (value : α) (rest : List UInt8)
  | starved
  | failed (fault : HeadFault)
  deriving DecidableEq, Repr

def Scanner (α : Type) : Type := List UInt8 → Scan α

namespace Scanner

variable {α β : Type}

def yield (value : α) : Scanner α := fun octets => .done value octets

def fail (fault : HeadFault) : Scanner α := fun _ => .failed fault

def andThen (first : Scanner α) (next : α → Scanner β) : Scanner β := fun octets =>
  match first octets with
  | .done value rest => next value rest
  | .starved => .starved
  | .failed fault => .failed fault

instance : Monad Scanner where
  pure := yield
  bind := andThen

def before (test : UInt8 → Bool) : Scanner (List UInt8) := fun octets =>
  match octets.dropWhile test with
  | [] => .starved
  | rest => .done (octets.takeWhile test) rest

def expect (octet : UInt8) : Scanner Unit
  | [] => .starved
  | o :: rest => if o = octet then .done () rest else .failed .malformed

def lineEnd : Scanner Unit
  | 0x0D :: rest => expect 0x0A rest
  | octets => expect 0x0A octets

def emptyLines : Scanner Unit
  | [] => .starved
  | [0x0D] => .starved
  | 0x0A :: rest => emptyLines rest
  | 0x0D :: 0x0A :: rest => emptyLines rest
  | 0x0D :: _ :: _ => .failed .malformed
  | octets => .done () octets

def characters (octets : List UInt8) : List Char := octets.map fun o => Char.ofNat o.toNat

def isTokenOctet (o : UInt8) : Bool := isTokenChar (Char.ofNat o.toNat)

def isPadding (o : UInt8) : Bool := o == 0x20 || o == 0x09

def stripped (octets : List UInt8) : List UInt8 :=
  ((octets.dropWhile isPadding).reverse.dropWhile isPadding).reverse

def field : Scanner Header := do
  let name ← before isTokenOctet
  expect 0x3A
  let value ← before isValueOctet
  lineEnd
  match Header.make? (characters name) (stripped value) with
  | some header => yield header
  | none => fail .malformed

def fields (room : Nat) : Scanner Headers := fun octets =>
  match octets with
  | 0x0D :: _ | 0x0A :: _ => (lineEnd.andThen fun _ => yield []) octets
  | _ =>
    (field.andThen fun header =>
      match room with
      | 0 => fail .tooLarge
      | room + 1 => (fields room).andThen fun others => yield (header :: others)) octets

end Scanner

end AttestationService.Http

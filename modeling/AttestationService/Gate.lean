/-!
The gate that runs pass one at a time. Whoever enters waits in line; the first in line takes a
permit when one is free and gives it back when it leaves.
-/

namespace AttestationService

/-- `α` waits and `β` holds a permit. -/
structure Gate (α β : Type) where
  free : Nat
  waiting : List α
  holders : List β

namespace Gate

variable {α β : Type}

def single : Gate α β := ⟨1, [], []⟩

def isOpen (g : Gate α β) : Bool := g.free == 1

def enter (g : Gate α β) (a : α) : Gate α β := { g with waiting := g.waiting ++ [a] }

def pass? (begins : α → β) (g : Gate α β) : Option (β × Gate α β) :=
  match g.free, g.waiting with
  | free + 1, a :: rest => some (begins a, ⟨free, rest, g.holders ++ [begins a]⟩)
  | _, _ => none

def leave? (g : Gate α β) : Option (β × Gate α β) :=
  match g.holders with
  | [] => none
  | b :: rest => some (b, ⟨g.free + 1, g.waiting, rest⟩)

end Gate

end AttestationService

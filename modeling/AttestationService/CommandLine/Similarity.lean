/-!
How alike two words are, from 0 to 1: the share of letters that both have at about the same place,
less a part for those that stand in another order.
-/

namespace AttestationService.CommandLine.Similarity

def reach (a b : Nat) : Nat := max a b / 2 - 1

/-- The place of the first free letter in reach that is the same. Letters come with their places,
counted from `place`. -/
def partner? (letter : Char) (low high : Nat) (place : Nat) : List (Char × Bool) → Option Nat
  | [] => none
  | (c, taken) :: rest =>
    if high ≤ place then none
    else if low ≤ place ∧ c = letter ∧ !taken then some place
    else partner? letter low high (place + 1) rest

def take (place : Nat) (marks : List (Char × Bool)) : List (Char × Bool) :=
  marks.modify place fun mark => (mark.1, true)

def pairUp (reach : Nat) (place : Nat) (marks : List (Char × Bool)) :
    List Char → List Char × List (Char × Bool)
  | [] => ([], marks)
  | letter :: rest =>
    match partner? letter (place - reach) (place + reach + 1) 0 marks with
    | none => pairUp reach (place + 1) marks rest
    | some found =>
      let (paired, marks) := pairUp reach (place + 1) (take found marks) rest
      (letter :: paired, marks)

def degree (a b : List Char) : Float :=
  if a.isEmpty && b.isEmpty then 1
  else
    let (left, marks) := pairUp (reach a.length b.length) 0 (b.map (·, false)) a
    let right := (marks.filter (·.2)).map (·.1)
    let moved := ((left.zip right).filter fun p => p.1 != p.2).length / 2
    let paired := left.length
    if paired = 0 then 0
    else
      (paired.toFloat / a.length.toFloat + paired.toFloat / b.length.toFloat
        + (paired - moved).toFloat / paired.toFloat) / 3

def threshold : Float := 0.7

/-- The word most like the given one, if any is like it; of equally good ones the last. -/
def best? {α : Type} (spell : α → List Char) (word : List Char) (candidates : List α) : Option α :=
  (candidates.foldl (fun (best : Option (Float × α)) candidate =>
    let found := degree word (spell candidate)
    if threshold < found then
      match best with
      | some (known, _) => if found < known then best else some (found, candidate)
      | none => some (found, candidate)
    else best) none).map (·.2)

end AttestationService.CommandLine.Similarity

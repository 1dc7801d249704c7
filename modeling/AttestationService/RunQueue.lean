import AttestationService.Correlation
import AttestationService.Gate
import AttestationService.Verifier.Tool

/-!
Runs of the verifier in time, in milliseconds. An admitted run waits at the gate; it starts as soon
as the gate is its own, and holds the gate until it ends, however it ends.
-/

namespace AttestationService

structure Ticket where
  caller : Nat
  id : Correlation
  nonce : Option Nonce
  admitted : Nat
  deriving DecidableEq

structure Tenure where
  ticket : Ticket
  number : Nat
  started : Nat
  performance : Verifier.Performance

def Tenure.ends (t : Tenure) : Nat := t.started + t.performance.duration

inductive Occurrence where
  | started (tenure : Tenure)
  | ended (tenure : Tenure)

namespace Occurrence

def time : Occurrence → Nat
  | .started t => t.started
  | .ended t => t.ends

/-- What the run reports. A run that panicked does not say that it left the gate. -/
def notices : Occurrence → List Log.Notice
  | .started t => .gateEntered :: t.performance.opening
  | .ended t =>
    t.performance.closing ++ (if t.performance.ending.isPanic then [] else [.gateLeft])

def tenure : Occurrence → Tenure
  | .started t | .ended t => t

end Occurrence

structure RunQueue where
  gate : Gate Ticket Tenure
  now : Nat
  count : Nat

namespace RunQueue

def empty : RunQueue := ⟨.single, 0, 0⟩

def begins (tool : Verifier.Tool) (q : RunQueue) (ticket : Ticket) : Tenure :=
  ⟨ticket, q.count, q.now, tool q.count ticket.nonce⟩

/-- The next thing to happen before the given time: the first in line starts at once if the gate is
free; else the run at the verifier ends when its time has come. -/
def next? (tool : Verifier.Tool) (before : Option Nat) (q : RunQueue) :
    Option (Occurrence × RunQueue) :=
  let due (time : Nat) : Bool := before.all (time < ·)
  match q.gate.pass? (q.begins tool) with
  | some (tenure, gate) =>
    if due q.now then some (.started tenure, ⟨gate, q.now, q.count + 1⟩) else none
  | none =>
    match q.gate.leave? with
    | some (tenure, gate) =>
      if due tenure.ends then some (.ended tenure, ⟨gate, tenure.ends, q.count⟩) else none
    | none => none

/-- All that happens before the given time, in `fuel` steps at most. -/
def advanceWith (tool : Verifier.Tool) (before : Option Nat) :
    Nat → RunQueue → List Occurrence × RunQueue
  | 0, q => ([], q)
  | fuel + 1, q =>
    match q.next? tool before with
    | none => ([], q)
    | some (occurrence, q) =>
      let (rest, q) := advanceWith tool before fuel q
      (occurrence :: rest, q)

def pending (q : RunQueue) : Nat := 2 * q.gate.waiting.length + q.gate.holders.length

def advance (tool : Verifier.Tool) (before : Option Nat) (q : RunQueue) :
    List Occurrence × RunQueue :=
  advanceWith tool before q.pending q

def accept (tool : Verifier.Tool) (ticket : Ticket) (q : RunQueue) : List Occurrence × RunQueue :=
  let (occurrences, q) := q.advance tool (some ticket.admitted)
  (occurrences, ⟨q.gate.enter ticket, max q.now ticket.admitted, q.count⟩)

def acceptAll (tool : Verifier.Tool) : List Ticket → RunQueue → List Occurrence × RunQueue
  | [], q => ([], q)
  | ticket :: rest, q =>
    let (before, q) := q.accept tool ticket
    let (after, q) := acceptAll tool rest q
    (before ++ after, q)

end RunQueue

end AttestationService

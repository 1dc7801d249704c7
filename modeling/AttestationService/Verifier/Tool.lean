import AttestationService.Log.Notice
import AttestationService.Text.Search

/-!
A verifier as the service sees it: each run takes a while and then ends, with an output and perhaps
a failure, or by a panic of whoever watches over it.
-/

namespace AttestationService.Verifier

inductive Ending where
  | completed (run : Run)
  | panicked (text : String)
  deriving DecidableEq, Repr

namespace Ending

def panicReason (text : String) : String :=
  s!"task N panicked with message {Text.quotedString text}"

/-- What the caller gets to see. Nothing of the output is left of a run that panicked. -/
def run : Ending → Run
  | .completed run => run
  | .panicked text => ⟨"", some (.aborted (panicReason text))⟩

def isPanic : Ending → Bool
  | .completed _ => false
  | .panicked _ => true

end Ending

/-- A run as it happens, with what it reports as it begins and as it ends. It ends after so many
milliseconds, however many: a run that hangs for good is left out. -/
structure Performance where
  duration : Nat
  ending : Ending
  opening : List Log.Notice
  closing : List Log.Notice

/-- The run with a given number, counted from zero, for a given nonce. -/
abbrev Tool := Nat → Option Nonce → Performance

/-- A run written down in advance. In its output, the nonce in braces stands for the nonce given. -/
structure Scripted where
  output : String
  failure : Option Failure
  duration : Nat
  panic : Option String
  deriving DecidableEq, Repr

def nonceMark : List Char := "\x7bnonce\x7d".toList

def Scripted.perform (s : Scripted) (nonce : Option Nonce) : Performance :=
  let value := (nonce.map fun n => n.text.toList).getD []
  let output := String.ofList (Text.replace nonceMark value s.output.toList)
  let ending := match s.panic with
    | some text => .panicked text
    | none => .completed ⟨output, s.failure⟩
  ⟨s.duration, ending, [], []⟩

def Tool.ofScript (script : Array Scripted) : Tool := fun number nonce =>
  ((script[number % script.size]?).getD ⟨"", none, 0, none⟩).perform nonce

end AttestationService.Verifier

import AttestationService.Shell.Arithmetic

/-!
Signals by their names and numbers.
-/

namespace AttestationService.Shell.Signal

def names : List (String × Nat) :=
  [("HUP", 1), ("INT", 2), ("QUIT", 3), ("ILL", 4), ("TRAP", 5), ("ABRT", 6), ("BUS", 7), ("FPE", 8),
    ("KILL", 9), ("USR1", 10), ("SEGV", 11), ("USR2", 12), ("PIPE", 13), ("ALRM", 14), ("TERM", 15),
    ("STKFLT", 16), ("CHLD", 17), ("CONT", 18), ("STOP", 19), ("TSTP", 20), ("TTIN", 21), ("TTOU", 22),
    ("URG", 23), ("XCPU", 24), ("XFSZ", 25), ("VTALRM", 26), ("PROF", 27), ("WINCH", 28), ("IO", 29),
    ("PWR", 30), ("SYS", 31)]

def ofNumber? (text : Text) : Option Nat :=
  if !text.isEmpty && text.all Char.isDigit then
    let n := (digitsValue 10 text).toNat
    if n ≤ 64 then some n else none
  else none

def nameOf (n : Nat) : String :=
  if n = 0 then "EXIT" else ((names.find? (·.2 == n)).map (·.1)).getD (toString n)

/-- The number of a signal given by its number or its name; the end of the script counts as zero. -/
def ofText? (text : Text) : Option Nat :=
  if !text.isEmpty && text.all Char.isDigit then ofNumber? text
  else
    let name := String.ofList (text.map Char.toUpper)
    if name = "EXIT" then some 0 else names.lookup name

def isFatal (n : Nat) : Bool := n != 0 && !([17, 18, 23, 28].contains n)

def isSure (n : Nat) : Bool := n == 9 || n == 19

end AttestationService.Shell.Signal

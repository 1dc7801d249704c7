import AttestationService.Shell.Run
import AttestationService.Verifier.Tool

/-!
A verifier as it is installed: a directory with a program in it, which is called with the nonce if
there is one, and by way of another program if it needs more rights. It has nothing to read. Its
output is what it printed, followed by what it printed as errors.
-/

namespace AttestationService.Verifier

structure Installation where
  root : Files.Path
  elevate : Bool
  deriving DecidableEq, Repr

structure Site where
  files : Files.Tree
  searchPath : Files.Path

namespace Installation

def octets (text : String) : List UInt8 := Utf8.encodeString text

def interpreter (i : Installation) : Files.Path :=
  ((i.root.join (octets "prodtest")).join (octets "bin")).join (octets "python3")

def words (i : Installation) (nonce : Option Nonce) : List (List UInt8) :=
  (if i.elevate then [octets "sudo"] else []) ++ [i.interpreter, octets "-m", octets "verifier.cc_admin"]
    ++ match nonce with
      | none => []
      | some n => [octets "--nonce", octets n.text]

def zeroInWord : SystemError := .other "nul byte found in provided data"

def program (site : Site) (word : List UInt8) : Except SystemError Shell.Image :=
  let name := Shell.textOf word
  match Shell.Program.search? site.files (Shell.textOf site.searchPath) name with
  | none => .error (.os .notFound)
  | some path => (Shell.Program.ofPath site.files (Shell.octetsOf path)).mapError .os

def failureOf : Shell.Exit → Option Failure
  | .code 0 => none
  | .code n => some (.exited (some n))
  | .signal _ => some (.exited none)

def process (i : Installation) (site : Site) (nonce : Option Nonce) :
    Except SystemError Shell.Result :=
  let words := i.words nonce
  let image : Except SystemError Shell.Image :=
    if words.any (·.contains 0) then .error zeroInWord
    else program site (words.headD [])
  image.map fun image =>
    let bindings := [("PATH".toList, Shell.textOf site.searchPath)]
    Shell.carryOut site.files bindings image (words.tail.map Shell.textOf)

/-- What a process that has ended leaves. The two streams are read as texts each by itself. -/
def runOf (result : Shell.Result) : Run :=
  ⟨Utf8.lossyString result.output ++ Utf8.lossyString result.errors, failureOf result.exit⟩

def perform (i : Installation) (site : Site) (nonce : Option Nonce) : Performance × Files.Tree :=
  let started : Log.Notice := .commandStarted ((i.words nonce).map Utf8.lossyString)
  match i.process site nonce with
  | .error e => (⟨0, .completed ⟨"", some (.notLaunched e)⟩, [started], []⟩, site.files)
  | .ok result =>
    let run := runOf result
    (⟨result.elapsed, .completed run, [started], [.commandPrinted run.output]⟩, result.files)

/-- Every run finds the same files. -/
def tool (i : Installation) (site : Site) : Tool := fun _ nonce => (i.perform site nonce).1

end Installation

end AttestationService.Verifier

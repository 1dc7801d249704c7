import AttestationService.Startup

/-!
The program itself. It takes its command line and environment from the system, sees the settings
file and the verifier's program as they are on disk, and serves a single connection, the one on its
standard input and output. Its log goes to the error stream when it stops.
-/

namespace AttestationService.Main

def octets (text : String) : List UInt8 := Utf8.encodeString text

def install (files : Files.Tree) (path : Files.Path) (content : List UInt8) : Files.Tree :=
  let held := (files.makeWithHolders ((path.parent?).getD []) 0o755).2
  match held.append path content with
  | .error _ => held
  | .ok filled => (filled.chmod path 0o755).toOption.getD filled

def settingsFiles (arguments : List (List UInt8)) : List String :=
  match CommandLine.read arguments with
  | .ok ⟨some name, _⟩ => [name, name ++ ".yaml", name ++ ".yml"]
  | _ => []

def verifierFiles (arguments : List (List UInt8)) (environment : Settings.Environment)
    (files : Files.Tree) : List String :=
  match CommandLine.read arguments with
  | .error _ => []
  | .ok a =>
    match Settings.load files environment a.file a.overrides with
    | .error _ => []
    | .ok settings =>
      [Utf8.lossyString (Verifier.Installation.interpreter ⟨octets settings.verifier.root, false⟩)]

/-- The variables of an environment block: name and value with an equals sign between them, a zero
after each. -/
def environmentOf (block : List UInt8) : Settings.Environment :=
  (Text.fields 0 block).filterMap (Text.cutAt? 0x3D)

def readFile (path : String) : IO (Option (List UInt8)) := do
  try
    let content ← IO.FS.readBinFile path
    pure (some content.toList)
  catch _ => pure none

def readInto (files : Files.Tree) (path : String) : IO Files.Tree := do
  match ← readFile path with
  | none => pure files
  | some content => pure (install files (octets path) content)

partial def readAll (input : IO.FS.Stream) (taken : ByteArray) : IO ByteArray := do
  let more ← input.read 65536
  if more.isEmpty then pure taken else readAll input (taken ++ more)

def finish (ending : Ending) : IO UInt32 := do
  (← IO.getStdout).putStr ending.output
  (← IO.getStderr).putStr ending.errors
  pure ending.code.toUInt32

end AttestationService.Main

open AttestationService Main in
def main (words : List String) : IO UInt32 := do
  let arguments := words.map octets
  let environment := environmentOf ((← readFile "/proc/self/environ").getD [])
  let here : Files.Path := octets (← IO.currentDir).toString
  let empty : Files.Tree := ⟨[], []⟩
  let files : Files.Tree := { (empty.makeWithHolders here 0o755).2 with current := here.names.reverse }
  let files ← (settingsFiles arguments).foldlM readInto files
  let files ← (verifierFiles arguments environment files).foldlM readInto files
  let noise ← IO.getRandomBytes 16
  let first := noise.toList.foldl (fun n o => 256 * n + o.toNat) 0
  let launch : Launch := ⟨arguments, environment, ⟨files, []⟩, fun port => .ok s!"0.0.0.0:{port}", .ok (),
    fun number => .ofNumber (first + number)⟩
  match launch.begin with
  | .error ending => finish ending
  | .ok running =>
    let request ← readAll (← IO.getStdin) .empty
    let (conversation, running) := running.serve request.toList
    let output ← IO.getStdout
    for answer in conversation.answers do
      output.write ⟨answer.octets.toArray⟩
    finish (running.stop .terminate)

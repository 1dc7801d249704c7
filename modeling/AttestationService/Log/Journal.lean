import AttestationService.Files.Tree
import AttestationService.Log.Line

/-!
Where the log is kept: every line goes to the error stream, and to a file if one is open.
-/

namespace AttestationService.Log

inductive FileFault where
  | nameless (path : String)
  | noDirectory (directory : String) (cause : SystemError)
  | notOpened (path : String) (cause : SystemError)
  deriving DecidableEq, Repr

def FileFault.message : FileFault → String
  | .nameless path => s!"log path {path} has no file name"
  | .noDirectory directory cause => s!"Failed to create log directory {directory}: {cause.message}"
  | .notOpened path cause =>
    s!"Failed to open log file {path}: failed to create initial log file: {cause.message}: {cause.message}"

def directoryMode : Nat := 0o755

def directoryOf (path : Files.Path) : Files.Path :=
  match path.parent? with
  | some directory => if directory.isEmpty then Files.here else directory
  | none => Files.here

/-- Opens a log file to add to it, and makes the directories that hold it. The files are left as far
as that went. -/
def openFile (files : Files.Tree) (path : String) : Except FileFault Files.Path × Files.Tree :=
  let octets : Files.Path := Utf8.encodeString path
  match octets.fileName? with
  | none => (.error (.nameless path), files)
  | some name =>
    let directory := directoryOf octets
    let shown := Utf8.lossyString directory
    if directory.contains 0 then (.error (.noDirectory shown .zeroInPath), files)
    else
      match files.makeWithHolders directory directoryMode with
      | (.error e, files) => (.error (.noDirectory shown (.os e)), files)
      | (.ok (), files) =>
        if name.contains 0 then (.error (.notOpened path .zeroInPath), files)
        else
          let file := directory.join name
          match files.append file [] with
          | .error e => (.error (.notOpened path (.os e)), files)
          | .ok files => (.ok file, files)

structure Journal where
  filter : Filter
  file : Option Files.Path
  lines : List String

namespace Journal

def add (journal : Journal) (files : Files.Tree) (line : String) : Journal × Files.Tree :=
  let files := match journal.file with
    | none => files
    | some file => (files.append file (Utf8.encodeString (line ++ "\n"))).toOption.getD files
  ({ journal with lines := line :: journal.lines }, files)

def write (journal : Journal) (files : Files.Tree) (id : Option String) (notice : Notice) :
    Journal × Files.Tree :=
  match line? journal.filter id notice with
  | none => (journal, files)
  | some line => journal.add files line

end Journal

end AttestationService.Log

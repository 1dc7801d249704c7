import AttestationService.Files.Tree
import AttestationService.OsError
import AttestationService.Shell.Grammar
import AttestationService.Text.Utf8

/-!
What the system carries out when it is given a path. A file with leave to be carried out names the
program that reads it in its first line; of programs that are no such files, the shell and a few
utilities are known.
-/

namespace AttestationService.Shell

inductive Utility where
  | succeed
  | fail
  | sleep
  deriving DecidableEq, Repr

inductive Program where
  | shell
  | utility (u : Utility)
  deriving DecidableEq, Repr

structure Image where
  program : Program
  words : List Text
  deriving DecidableEq, Repr

namespace Program

def known : List (String × Program) :=
  [("/bin/sh", .shell), ("/bin/dash", .shell), ("/usr/bin/sh", .shell), ("/usr/bin/dash", .shell),
    ("/bin/sleep", .utility .sleep), ("/usr/bin/sleep", .utility .sleep),
    ("/bin/true", .utility .succeed), ("/usr/bin/true", .utility .succeed),
    ("/bin/false", .utility .fail), ("/usr/bin/false", .utility .fail)]

def isBlank (c : Char) : Bool := c == ' ' || c == '\t'

def interpreter? (content : Text) : Option (Text × List Text) :=
  match content with
  | '#' :: '!' :: rest =>
    let line := ((rest.take 253).takeWhile (· ≠ '\n')).dropWhile isBlank
    let line := (line.reverse.dropWhile isBlank).reverse
    let path := line.takeWhile (!isBlank ·)
    let word := (line.drop path.length).dropWhile isBlank
    if path.isEmpty then none else some (path, if word.isEmpty then [] else [word])
  | _ => none

/-- What a path stands for as a program. A program named in a first line may be a script itself, a
few times over. -/
def find (files : Files.Tree) : Nat → Files.Path → Except OsError Image
  | 0, _ => .error .tooManyLinks
  | fuel + 1, path =>
    match known.find? fun k => Utf8.encodeString k.1 == path with
    | some (_, program) => .ok ⟨program, []⟩
    | none =>
      match files.targetOf path with
      | .error e => .error e
      | .ok (_, .file mode content) =>
        if mode &&& 0o111 = 0 then .error .denied
        else
          match interpreter? (textOf content) with
          | none => .error .notExecutable
          | some (named, words) =>
            match find files fuel (octetsOf named) with
            | .error e => .error e
            | .ok image => .ok ⟨image.program, image.words ++ words ++ [textOf path]⟩
      | .ok _ => .error .denied

def depth : Nat := 6

def ofPath (files : Files.Tree) (path : Files.Path) : Except OsError Image := find files depth path

/-- The path that a name stands for: itself if it has a slash, or the first in the directories of a
search path, separated by colons, that is a file with leave to be carried out. -/
def search? (files : Files.Tree) (searchPath : Text) (name : Text) : Option Text :=
  if name.contains '/' then some name
  else
    (directories [] searchPath).map (fun d => if d.isEmpty then name else d ++ '/' :: name) |>.find?
      fun path =>
        match files.targetOf (octetsOf path) with
        | .ok (_, .file mode _) => mode &&& 0o111 != 0
        | _ => (known.lookup (String.ofList path)).isSome
where
  directories (current : Text) : Text → List Text
    | [] => [current.reverse]
    | ':' :: rest => current.reverse :: directories [] rest
    | c :: rest => directories (c :: current) rest

end Program

end AttestationService.Shell

/-!
Paths as octets. A slash cuts names; a name of one dot stands for nothing, but for the one that a
relative path may begin with.
-/

namespace AttestationService.Files

abbrev Name := List UInt8

abbrev Path := List UInt8

def slash : UInt8 := 0x2F
def dot : UInt8 := 0x2E
def here : Name := [dot]
def above : Name := [dot, dot]

def namesFrom (name : Name) : Path → List Name
  | [] => if name.isEmpty then [] else [name.reverse]
  | octet :: rest =>
    if octet = slash then
      if name.isEmpty then namesFrom [] rest else name.reverse :: namesFrom [] rest
    else namesFrom (octet :: name) rest

namespace Path

def names (path : Path) : List Name := namesFrom [] path

def isAbsolute (path : Path) : Bool := path.head? == some slash

/-- A slash after the last name asks for a directory. -/
def asksDirectory (path : Path) : Bool := path.getLast? == some slash && !path.names.isEmpty

def trimReversed : Path → Path
  | [] => []
  | [c] => [c]
  | c :: d :: rest =>
    if c = slash then trimReversed (d :: rest)
    else if c = dot ∧ d = slash then trimReversed (d :: rest)
    else c :: d :: rest

def cutLast? (path : Path) : Option (Path × Name) :=
  let reversed := trimReversed path.reverse
  let name := reversed.takeWhile (· ≠ slash)
  if name.isEmpty then none
  else some ((trimReversed (reversed.dropWhile (· ≠ slash))).reverse, name.reverse)

def parent? (path : Path) : Option Path := (path.cutLast?).map (·.1)

def fileName? (path : Path) : Option Name :=
  ((path.cutLast?).map (·.2)).filter (· ≠ above) |>.filter (· ≠ here)

def join (directory : Path) (relative : Path) : Path :=
  if relative.isAbsolute then relative
  else if directory.isEmpty ∨ directory.getLast? = some slash then directory ++ relative
  else directory ++ slash :: relative

def holders : Nat → Path → List Path
  | 0, _ => []
  | fuel + 1, path =>
    match path.parent? with
    | none => []
    | some up => if up.isEmpty ∨ up.parent?.isNone then [] else up :: holders fuel up

end Path

end AttestationService.Files

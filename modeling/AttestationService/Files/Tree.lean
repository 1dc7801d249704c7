import AttestationService.OsError
import AttestationService.Files.Path

/-!
A tree of files. It is kept flat: each place holds at most one entry, and a path leads to a place
through directories and symbolic links. Every operation either changes the tree or says which error
stopped it.
-/

namespace AttestationService.Files

/-- Names from a place up to the root, which is the empty list. -/
abbrev Place := List Name

inductive Entry where
  | file (mode : Nat) (content : List UInt8)
  | directory (mode : Nat)
  | link (target : Path)
  | socket (mode : Nat)
  deriving DecidableEq, Repr

namespace Entry

def isDirectory : Entry → Bool
  | .directory _ => true
  | _ => false

def isFile : Entry → Bool
  | .file _ _ => true
  | _ => false

/-- A link has every permission, whatever its target allows. -/
def mode : Entry → Nat
  | .file mode _ => mode
  | .directory mode => mode
  | .link _ => 0o777
  | .socket mode => mode

def withMode (mode : Nat) : Entry → Entry
  | .file _ content => .file mode content
  | .directory _ => .directory mode
  | .link target => .link target
  | .socket _ => .socket mode

end Entry

structure Tree where
  entries : List (Place × Entry)
  current : Place
  deriving Repr

inductive Spot where
  | taken (place : Place) (entry : Entry)
  | free (place : Place)
  deriving DecidableEq, Repr

inductive Last where
  | name (n : Name)
  | special
  deriving DecidableEq, Repr

def nameLimit : Nat := 255

def pathLimit : Nat := 4096

def linkLimit : Nat := 40

namespace Tree

def find? (tree : Tree) (place : Place) : Option Entry :=
  if place.isEmpty then some (.directory 0o755)
  else (tree.entries.find? (·.1 == place)).map (·.2)

def erase (tree : Tree) (place : Place) : Tree :=
  { tree with entries := tree.entries.filter (·.1 != place) }

def put (tree : Tree) (place : Place) (entry : Entry) : Tree :=
  { tree with entries := (place, entry) :: (tree.erase place).entries }

/-- Follows names from a place. The last one is followed through a link only if asked for; at most
`links` links are. -/
def walk (tree : Tree) (follow : Bool) (links : Nat) (place : Place) (names : List Name) :
    Except OsError Spot :=
  match names with
  | [] =>
    match tree.find? place with
    | some entry => .ok (.taken place entry)
    | none => .error .notFound
  | name :: rest =>
    if (tree.find? place).any Entry.isDirectory then
      if name = Files.here then walk tree follow links place rest
      else if name = Files.above then walk tree follow links place.tail rest
      else if nameLimit < name.length then .error .badName
      else
        match tree.find? (name :: place) with
        | none => if rest.isEmpty then .ok (.free (name :: place)) else .error .notFound
        | some (.link target) =>
          if rest.isEmpty ∧ !follow then .ok (.taken (name :: place) (.link target))
          else
            match links with
            | 0 => .error .tooManyLinks
            | left + 1 =>
              let further := target.names ++ (if target.asksDirectory then Files.here :: rest else rest)
              walk tree follow left (if target.isAbsolute then [] else place) further
        | some _ => walk tree follow links (name :: place) rest
    else .error .notDirectory
termination_by (links, names.length)

def currentPath (tree : Tree) : Path :=
  if tree.current.isEmpty then [slash] else tree.current.reverse.flatMap (slash :: ·)

def start (tree : Tree) (path : Path) : Place :=
  if path.isAbsolute then [] else tree.current

/-- Where a path leads. A slash at its end has the last name followed and wants a directory. -/
def resolve (tree : Tree) (follow : Bool) (path : Path) : Except OsError Spot :=
  if path.isEmpty then .error .notFound
  else if pathLimit ≤ path.length then .error .badName
  else
    walk tree follow linkLimit (tree.start path)
      (path.names ++ if path.asksDirectory then [Files.here] else [])

def entryOf (spot : Except OsError Spot) : Except OsError (Place × Entry) :=
  match spot with
  | .ok (.taken place entry) => .ok (place, entry)
  | .ok (.free _) => .error .notFound
  | .error e => .error e

def entryAt (tree : Tree) (path : Path) : Except OsError (Place × Entry) :=
  entryOf (tree.resolve false path)

def targetOf (tree : Tree) (path : Path) : Except OsError (Place × Entry) :=
  entryOf (tree.resolve true path)

def isFile (tree : Tree) (path : Path) : Bool :=
  match tree.targetOf path with
  | .ok (_, entry) => entry.isFile
  | .error _ => false

def isDirectory (tree : Tree) (path : Path) : Bool :=
  match tree.targetOf path with
  | .ok (_, entry) => entry.isDirectory
  | .error _ => false

def lastOf (tree : Tree) (path : Path) : Except OsError (Place × Last) :=
  if path.isEmpty then .error .notFound
  else if pathLimit ≤ path.length then .error .badName
  else
    let names := path.names
    match entryOf (walk tree true linkLimit (tree.start path) names.dropLast) with
    | .error e => .error e
    | .ok (place, entry) =>
      match names.getLast? with
      | none => .ok (place, .special)
      | some name =>
        if !entry.isDirectory then .error .notDirectory
        else if name = Files.here ∨ name = Files.above then .ok (place, .special)
        else if nameLimit < name.length then .error .badName
        else .ok (place, .name name)

def vacancy (tree : Tree) (path : Path) : Except OsError Place :=
  match tree.lastOf path with
  | .error e => .error e
  | .ok (_, .special) => .error .exists_
  | .ok (place, .name name) =>
    match tree.find? (name :: place) with
    | some _ => .error .exists_
    | none => .ok (name :: place)

def makeDirectory (tree : Tree) (path : Path) (mode : Nat) : Except OsError Tree :=
  match tree.vacancy path with
  | .error e => .error e
  | .ok place => .ok (tree.put place (.directory mode))

def ensureDirectory (tree : Tree) (path : Path) (mode : Nat) : Except OsError Tree :=
  match tree.makeDirectory path mode with
  | .ok made => .ok made
  | .error e => if tree.isDirectory path then .ok tree else .error e

/-- A directory and the ones that hold it. Those that are missing are made first, the outermost
before the others; the tree is left as far as that went. -/
def makeDirectories (mode : Nat) : List Path → Tree → Except OsError Unit × Tree
  | [], tree => (.ok (), tree)
  | path :: outer, tree =>
    match tree.ensureDirectory path mode with
    | .ok made => (.ok (), made)
    | .error e =>
      if e = .notFound then
        match makeDirectories mode outer tree with
        | (.error e, tree) => (.error e, tree)
        | (.ok (), tree) =>
          match tree.ensureDirectory path mode with
          | .ok made => (.ok (), made)
          | .error e => (.error e, tree)
      else (.error e, tree)

def makeWithHolders (tree : Tree) (path : Path) (mode : Nat) : Except OsError Unit × Tree :=
  if path.isEmpty ∨ path.parent?.isNone then (.ok (), tree)
  else makeDirectories mode (path :: path.holders path.length) tree

def unlink (tree : Tree) (path : Path) : Except OsError Tree :=
  match tree.lastOf path with
  | .error e => .error e
  | .ok (_, .special) => .error .isDirectory
  | .ok (place, .name name) =>
    match tree.find? (name :: place) with
    | none => .error .notFound
    | some entry =>
      if entry.isDirectory then .error .isDirectory
      else if path.asksDirectory then .error .notDirectory
      else .ok (tree.erase (name :: place))

def chmod (tree : Tree) (path : Path) (mode : Nat) : Except OsError Tree :=
  match tree.targetOf path with
  | .error e => .error e
  | .ok (place, entry) => .ok (tree.put place (entry.withMode mode))

def makeSocket (tree : Tree) (path : Path) (mode : Nat) : Except OsError Tree :=
  match tree.vacancy path with
  | .error e => .error (if e = .exists_ then .addressInUse else e)
  | .ok place =>
    if path.asksDirectory then .error .notFound else .ok (tree.put place (.socket mode))

def append (tree : Tree) (path : Path) (more : List UInt8) : Except OsError Tree :=
  match tree.resolve true path with
  | .error e => .error e
  | .ok (.free place) => .ok (tree.put place (.file 0o644 more))
  | .ok (.taken place entry) =>
    match entry with
    | .file mode content => .ok (tree.put place (.file mode (content ++ more)))
    | .directory _ => .error .isDirectory
    | .link _ | .socket _ => .error .noDevice

end Tree

end AttestationService.Files

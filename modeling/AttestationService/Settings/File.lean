import AttestationService.Files.Tree
import AttestationService.Settings.Found
import AttestationService.Text.Utf8
import AttestationService.Yaml.Document

/-!
Settings from a file: one YAML document that is a table, or none. The file may be named with its
extension or without it.
-/

namespace AttestationService.Settings

inductive FileError where
  | formatUnknown (path : String)
  | missing (name : String)
  | malformed (file : String)
  | severalDocuments (count : Nat) (file : String)
  | realUnreadable (spelling : String) (file : String)
  | keyUnusable (shown : String) (file : String)
  | notTable (found : Found) (file : String)
  deriving DecidableEq, Repr

def FileError.message? : FileError → Option String
  | .formatUnknown path => some s!"configuration file \"{path}\" is not of a supported file format"
  | .missing name => some s!"configuration file \"{name}\" not found"
  | .malformed _ => none
  | .severalDocuments count file => some s!"Got {count} YAML documents, expected 1 in {file}"
  | .realUnreadable spelling file =>
    some s!"Parsing {spelling} as floating point number failed in {file}"
  | .keyUnusable shown file =>
    some s!"Cannot parse {shown} because it is an unsupported hash key type in {file}"
  | .notTable found file =>
    some s!"invalid type: {found.name}, expected a map in {file} in {file}"

def keyOf? : Yaml.Node → Option String
  | .string s => some s
  | .integer n => some (toString n)
  | .bool b => some (boolText b)
  | .real spelling => some spelling
  | _ => none

mutual

/-- What a node says as a setting. A real has to be a number that is written in digits. -/
def ofNode (file : String) : Yaml.Node → Except FileError Value
  | .null | .unusable => .ok (.scalar (some file) .null)
  | .bool b => .ok (.scalar (some file) (.bool b))
  | .integer n => .ok (.scalar (some file) (.integer n))
  | .string s => .ok (.scalar (some file) (.text s))
  | .real spelling =>
    match Decimal.ofText? spelling.toList with
    | some numeral => .ok (.scalar (some file) (.real numeral.toReal))
    | none => .error (.realUnreadable spelling file)
  | .sequence items => (ofItems file items).map (.list (some file))
  | .mapping members => (ofMembers file [] members).map (.table (some file))

def ofItems (file : String) : List Yaml.Node → Except FileError (List Value)
  | [] => .ok []
  | node :: rest => do
    let value ← ofNode file node
    let values ← ofItems file rest
    pure (value :: values)

def ofMembers (file : String) (done : List (String × Value)) :
    List (Yaml.Node × Yaml.Node) → Except FileError (List (String × Value))
  | [] => .ok done
  | (key, node) :: rest =>
    match keyOf? key with
    | none => .error (.keyUnusable (String.ofList key.shown) file)
    | some key => do
      let value ← ofNode file node
      ofMembers file (Value.putMember key value done) rest

end

def withoutMark : List UInt8 → List UInt8
  | 0xEF :: 0xBB :: 0xBF :: rest => rest
  | octets => octets

def ofContent (file : String) (content : List UInt8) : Except FileError (List (String × Value)) :=
  match Yaml.documents? (Utf8.lossy (withoutMark content)) with
  | none => .error (.malformed file)
  | some [] => .ok []
  | some [node] => do
    match ← ofNode file node with
    | .table _ members => .ok members
    | value => .error (.notTable (Found.ofValue value) file)
  | some nodes => .error (.severalDocuments nodes.length file)

def extensions : List (List UInt8) := ["yaml", "yml"].map Utf8.encodeString

def extensionOf? (name : Files.Name) : Option (List UInt8) :=
  let reversed := name.reverse
  let after := reversed.takeWhile (· ≠ Files.dot)
  match reversed.drop after.length with
  | [] | [_] => none
  | _ => some after.reverse

/-- The file that a name stands for: the one of that name, or the first whose name has an extension
added. -/
def locate (tree : Files.Tree) (name : String) : Except FileError Files.Path :=
  let path := tree.currentPath.join (Utf8.encodeString name)
  if tree.isFile path then
    if ((path.fileName?.bind extensionOf?).map extensions.contains).getD false then .ok path
    else .error (.formatUnknown (Utf8.lossyString path))
  else
    let candidates : List Files.Path :=
      match path.fileName? with
      | none => []
      | some _ =>
        extensions.map fun e => (Files.Path.trimReversed path.reverse).reverse ++ Files.dot :: e
    match candidates.find? tree.isFile with
    | some path => .ok path
    | none => .error (.missing name)

def relativeName (tree : Files.Tree) (path : Files.Path) : String :=
  let names := path.names.filter (· ≠ Files.here)
  let base := tree.current.reverse
  let shared := ((names.zip base).takeWhile fun p => p.1 == p.2).length
  let steps := List.replicate (base.length - shared) Files.above ++ names.drop shared
  Utf8.lossyString (List.intercalate [Files.slash] steps)

def contentOf (tree : Files.Tree) (path : Files.Path) : List UInt8 :=
  match tree.targetOf path with
  | .ok (_, .file _ content) => content
  | _ => []

def fileLayer (tree : Files.Tree) (name : String) : Except FileError (List (String × Value)) := do
  let path ← locate tree name
  ofContent (relativeName tree path) (contentOf tree path)

end AttestationService.Settings

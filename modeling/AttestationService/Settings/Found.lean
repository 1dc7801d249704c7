import AttestationService.Number.Shortest
import AttestationService.Settings.Value
import AttestationService.Text.Quoted
import AttestationService.Yaml.Node

/-!
Values as error texts name them. Where a single value was wanted a number is named with its width;
where a section was wanted it is not.
-/

namespace AttestationService.Settings

inductive Found where
  | null
  | bool (b : Bool)
  | integer (n : Int)
  | natural (n : Nat)
  | real (x : Decimal.Real)
  | text (s : String)
  | list
  | table
  deriving DecidableEq, Repr

def boolText (b : Bool) : String := if b then "true" else "false"

def realText : Decimal.Real → String
  | .finite x => String.ofList x.plainText
  | .infinite negative => if negative then "-inf" else "inf"

def pointedText (x : Decimal.Real) : String :=
  match x with
  | .finite _ => if (realText x).toList.contains '.' then realText x else realText x ++ ".0"
  | .infinite _ => realText x

namespace Found

def ofValue : Value → Found
  | .scalar _ .null => .null
  | .scalar _ (.bool b) => .bool b
  | .scalar _ (.integer n) => .integer n
  | .scalar _ (.real x) => .real x
  | .scalar _ (.text s) => .text s
  | .list .. => .list
  | .table .. => .table

def name : Found → String
  | .null => "unit value"
  | .bool b => s!"boolean \x60{boolText b}\x60"
  | .integer n => s!"64-bit integer \x60{n}\x60"
  | .natural n => s!"64-bit unsigned integer \x60{n}\x60"
  | .real x => s!"floating point \x60{realText x}\x60"
  | .text s => s!"string {Text.quotedString s}"
  | .list => "sequence"
  | .table => "map"

def sectionName : Found → String
  | .integer n => s!"integer \x60{n}\x60"
  | .real x => s!"floating point \x60{pointedText x}\x60"
  | found => found.name

end Found

end AttestationService.Settings

import AttestationService.Settings.Value
import AttestationService.Text.LowerCase
import AttestationService.Text.Search
import AttestationService.Text.Utf8

/-!
Settings from the environment. A variable whose name begins with `APP__`, in any letter case, gives
the text of the setting that the rest of its name leads to, with `__` between the keys.
-/

namespace AttestationService.Settings

abbrev Environment := List (List UInt8 × List UInt8)

namespace Environment

def marker : List Char := "app__".toList

def separator : List Char := "__".toList

def originName : String := "the environment"

def keyOf? (name : List UInt8) : Option (List Char) :=
  match Utf8.decode? name with
  | none => none
  | some text =>
    let small := Text.lower text
    if marker.isPrefixOf small then some (Text.replace separator ['.'] (small.drop marker.length))
    else none

/-- What a variable gives the setting of its key. What is no text in its value is replaced. -/
def entryOf? : List UInt8 × List UInt8 → Option (String × Value)
  | (name, octets) => (keyOf? name).map fun key =>
    (String.ofList key, .scalar (some originName) (.text (Utf8.lossyString octets)))

def layer (environment : Environment) : List (String × Value) := environment.filterMap entryOf?

end Environment

end AttestationService.Settings

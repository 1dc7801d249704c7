import AttestationService.CommandLine.Flag

/-!
What can be wrong with a command line.
-/

namespace AttestationService.CommandLine

inductive PortFault where
  | empty
  | notDigit
  | tooLarge
  | tooSmall
  | outOfRange (value : Int)
  deriving DecidableEq, Repr

def PortFault.message : PortFault → String
  | .empty => "cannot parse integer from empty string"
  | .notDigit => "invalid digit found in string"
  | .tooLarge => "number too large to fit in target type"
  | .tooSmall => "number too small to fit in target type"
  | .outOfRange value => s!"{value} is not in 0..=65535"

inductive Fault where
  | valueMissing (flag : Flag)
  | valueInvalid (flag : Flag) (text : String) (cause : PortFault)
  | notText
  | repeated (flag : Flag)
  | unexpected (word : String) (similar : Option Flag) (used : List Flag)
  | valueUnwanted (flag : Flag) (text : String) (used : List Flag)
  deriving DecidableEq, Repr

namespace Fault

def message : Fault → String
  | .valueMissing flag => s!"a value is required for '{flag.shown}' but none was supplied"
  | .valueInvalid flag text cause => s!"invalid value '{text}' for '{flag.shown}': {cause.message}"
  | .notText => "invalid UTF-8 was detected in one or more arguments"
  | .repeated flag => s!"the argument '{flag.shown}' cannot be used multiple times"
  | .unexpected word .. => s!"unexpected argument '{word}' found"
  | .valueUnwanted flag text _ =>
    s!"unexpected value '{text}' for '{flag.shown}' found; no more were expected"

def usage? : Fault → Option String
  | .valueMissing _ | .valueInvalid .. => none
  | .notText | .repeated _ => some (usage [])
  | .unexpected _ _ used | .valueUnwanted _ _ used => some (usage used)

def tip? : Fault → Option String
  | .unexpected _ (some flag) _ => some s!"  tip: a similar argument exists: '--{flag.long}'"
  | _ => none

def text (f : Fault) : String :=
  let paragraphs := ["error: " ++ f.message] ++ f.tip?.toList ++ f.usage?.toList
    ++ ["For more information, try '--help'."]
  "\n\n".intercalate paragraphs ++ "\n"

end Fault

end AttestationService.CommandLine

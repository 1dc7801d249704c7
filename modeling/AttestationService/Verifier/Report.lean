import AttestationService.Json.Reader
import AttestationService.Text.Blank
import AttestationService.Text.Search

/-!
What the verifier's output says: whether it holds the success marker, and the token, which is the
JSON document after the first line that holds the token marker.
-/

namespace AttestationService.Verifier

def tokenMarker : List Char := "Entity Attestation Token:".toList

def afterTokenMarker (text : List Char) : Option (List Char) :=
  match _h : Text.cutAt? '\n' text with
  | none => if Text.occurs tokenMarker text then some [] else none
  | some (line, rest) =>
    if Text.occurs tokenMarker line then some rest else afterTokenMarker rest
termination_by text.length
decreasing_by exact Text.cutAt_length _ _ ‹_›

/-- All that follows the marker's line is the document, blanks at its ends apart. -/
def extractToken (output : List Char) : Option Json.Value :=
  (afterTokenMarker output).bind fun text => (Json.readText (Text.trim text)).toOption

structure Report where
  success : Bool
  token : Option Json.Value
  deriving Repr, BEq

def Report.ofOutput (output successMarker : String) : Report :=
  ⟨Text.occurs successMarker.toList output.toList, extractToken output.toList⟩

end AttestationService.Verifier

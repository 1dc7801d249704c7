import AttestationService.Proofs.Text.Search
import AttestationService.Verifier.Report

/-!
Where the token stands in what the verifier printed: after the first line that holds the marker.
-/

namespace AttestationService.Verifier

/-- The document is all that follows the first line with the token marker. -/
inductive Announces (document : List Char) : List Char → Prop where
  | here {line : List Char} (ended : '\n' ∉ line) (marked : tokenMarker <:+: line) :
      Announces document (line ++ '\n' :: document)
  | later {line rest : List Char} (ended : '\n' ∉ line) (unmarked : ¬ tokenMarker <:+: line)
      (announced : Announces document rest) : Announces document (line ++ '\n' :: rest)

theorem afterTokenMarker_line {line : List Char} (ended : '\n' ∉ line) (rest : List Char) :
    afterTokenMarker (line ++ '\n' :: rest) =
      if Text.occurs tokenMarker line then some rest else afterTokenMarker rest := by
  have cut := Text.cutAt_found ended rest
  rw [afterTokenMarker]
  split
  · rename_i uncut
    rw [cut] at uncut
    cases uncut
  · rename_i found
    rw [cut] at found
    cases found
    rfl

theorem Announces.found {document text : List Char} (announced : Announces document text) :
    afterTokenMarker text = some document := by
  induction announced with
  | here ended marked => rw [afterTokenMarker_line ended, if_pos ((Text.occurs_iff _ _).mpr marked)]
  | later ended unmarked _ ih =>
      rw [afterTokenMarker_line ended, if_neg (fun found => unmarked ((Text.occurs_iff _ _).mp found)), ih]

end AttestationService.Verifier

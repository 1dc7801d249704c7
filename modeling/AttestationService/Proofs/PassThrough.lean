import AttestationService.Outcome
import AttestationService.Proofs.Json.Lexemes
import AttestationService.Proofs.Verifier.Report

/-!
The way of a token from the verifier to the client. A document of integers, strings and the like is
found as the value that it spells, and what is sent on has the document's lexemes in the document's
order.
-/

namespace AttestationService.Outcome

open Json Verifier

def envelopeText (output : String) (token : List Char) : List Char :=
  '\x7b' :: lineBreak 1 ++ stringText "attestation_output" ++ ':' :: ' ' :: stringText output ++
    ',' :: lineBreak 1 ++ stringText "entity_attestation_token" ++ ':' :: ' ' :: token ++
    lineBreak 0 ++ ['\x7d', '\n']

theorem body_eq (o : Outcome) :
    o.body = envelopeText o.output (indented 1 (o.envelope.token.getD .null)) := by
  rw [body, Envelope.toJson, indented, indentedMembers_cons]
  · simp [envelopeText, memberText, following, indented, envelope]
  · rintro ⟨⟩

theorem token_found {v : Value} {text before after output : List Char}
    (spelled : Spells SpellsInteger v text) (space : IsGap before) (later : IsGap after)
    (shallow : v.depth ≤ maxDepth) (distinct : v.DistinctKeys) (whole : AllWhole v.numbers)
    (announced : Announces (before ++ text ++ after) output) : extractToken output = some v := by
  have bare : Text.Bare text := spelled.bare fun _ _ => SpellsInteger.bare
  have read := read_spelled (fun _ _ => id) noGap (spelled.readable whole) noGap shallow distinct
  rw [List.nil_append, List.append_nil] at read
  rw [extractToken, announced.found, Option.bind_some, Text.trim_bare space.blank bare later.blank,
    readText, read]
  rfl

/-- The token of a clean run is the value of the document after the marker's line, and the answer holds it in
another spelling: the same lexemes, with other space between them and other escapes in the strings. -/
theorem token_passed {v : Value} {text before after : List Char} {run : Run}
    (shallow : v.depth ≤ 127) (distinct : v.DistinctKeys) (whole : AllWhole v.numbers)
    (spelled : Spells SpellsInteger v text) (space : IsGap before) (later : IsGap after)
    (clean : run.failure = none) (announced : Announces (before ++ text ++ after) run.output.toList)
    (successMarker : String) :
    (ofRun run successMarker).token = some v ∧
      ∃ printed, (ofRun run successMarker).response.body = Utf8.encode (envelopeText run.output printed) ∧
        Spells SpellsInteger v printed ∧ readText printed = .ok v ∧
        Row v.lexemes (before ++ text ++ after) ∧ Row v.lexemes printed := by
  have numerals : ∀ n text, SpellsInteger n text → text = numberText n := fun _ _ => SpellsInteger.text_eq
  have found := token_found spelled space later shallow distinct whole announced
  have held : (ofRun run successMarker).envelope.token = some v := by
    rw [envelope, ofRun, clean]
    exact found
  have printed : Spells SpellsInteger v (indented 1 v) := indented_written v 1 fun n member => by
    obtain ⟨k, rfl, _⟩ := whole n member
    exact integer_spells k
  have document : Row v.lexemes (before ++ text ++ after) := by
    have row := ((spelled.row numerals).after space).append (.nil later)
    rwa [List.append_nil] at row
  have read := read_spelled (fun _ _ => id) noGap (printed.readable whole) noGap shallow distinct
  rw [List.nil_append, List.append_nil] at read
  refine ⟨found, indented 1 v, ?_, printed, read, document, printed.row numerals⟩
  show Utf8.encode (ofRun run successMarker).body = _
  rw [body_eq, held]
  rfl

def wideToken : Value :=
  .array [.object [("key", .number (.integer (-2 ^ 63)))], .number (.integer (2 ^ 64 - 1))]

def wideText : List Char :=
  "[ \x7b\"k\\u0065y\" :-9223372036854775808\x7d,18446744073709551615]".toList

def wideOutput : List Char :=
  "Verified.".toList ++ '\n' :: ("Entity Attestation Token: []\r".toList ++
    '\n' :: (['\t'] ++ wideText ++ ['\r', '\n']))

def wideRun : Run := ⟨String.ofList wideOutput, none⟩

theorem wideText_spells : Spells SpellsInteger wideToken wideText := by
  have unit : SpellsHex 0x65 "0065".toList :=
    ⟨'0', '0', '6', '5', 0, 0, 6, 5, .decimal 0 (by decide), .decimal 0 (by decide), .decimal 6 (by decide),
      .decimal 5 (by decide), rfl, rfl⟩
  have inside : SpellsChars "key".toList "k\\u0065y".toList :=
    .plain (by decide) (by decide) (by decide) (.escaped (.unit unit (.inl (by decide)))
      (.plain (by decide) (by decide) (by decide) .nil))
  have member := SpellsMember.mk ⟨_, inside, rfl⟩ blankGap noGap (.number (integer_spells (-2 ^ 63)))
  have others := SpellsItems.item noGap noGap (.number (integer_spells (2 ^ 64 - 1))) (.close noGap)
  exact .array blankGap (.object noGap member (.close noGap)) others

theorem wideRun_announces :
    Announces (['\t'] ++ wideText ++ ['\r', '\n']) wideRun.output.toList := by
  have unmarked : ¬ Text.occurs tokenMarker "Verified.".toList = true := by decide
  have marked : Text.occurs tokenMarker "Entity Attestation Token: []\r".toList = true := by decide
  have output : wideRun.output.toList = wideOutput := String.toList_ofList
  rw [output]
  exact .later (by decide) (fun found => unmarked ((Text.occurs_iff _ _).mpr found))
    (.here (by decide) ((Text.occurs_iff _ _).mp marked))

theorem token_passed_wide : (ofRun wideRun "ok").token = some wideToken ∧
    ∃ printed, (ofRun wideRun "ok").response.body = Utf8.encode (envelopeText wideRun.output printed) ∧
      readText printed = .ok wideToken := by
  have whole : AllWhole wideToken.numbers := by
    intro n member
    simp only [wideToken, Value.numbers, itemsNumbers, membersNumbers, List.mem_append, List.mem_cons,
      List.not_mem_nil, or_false] at member
    rcases member with rfl | rfl
    · exact ⟨_, rfl, by decide, by decide⟩
    · exact ⟨_, rfl, by decide, by decide⟩
  have distinct : wideToken.DistinctKeys := by
    simp [wideToken, Value.DistinctKeys, ItemsDistinct, MembersDistinct]
  obtain ⟨found, printed, body, _, read, _⟩ := token_passed (by decide) distinct whole wideText_spells
    (by decide) (by decide) rfl wideRun_announces "ok"
  exact ⟨found, printed, body, read⟩

end AttestationService.Outcome

import AttestationService.Outcome
import AttestationService.Proofs.Message

/-!
What a client can read of an answer. The envelope is an object around the token, so that a token may be
nested one level less than a document.
-/

namespace AttestationService

open Json

/-- A token as it is read again from where it was written. A null there stands for no token. -/
def Json.Value.passed : Value → Option Value
  | .null => none
  | v => some v.reread.merged

theorem Json.Value.passed_eq (v : Value) : v.passed = v.reread.seen := by
  cases v <;> rfl

namespace Envelope

def closing : Input := .ofText ['\n', '\x7d', '\n']

section Reading
variable (e : Envelope) {fuel : Nat}

theorem toJson_text : Input.ofText (indented 0 e.toJson ++ ['\n']) =
    .char '\x7b' :: (Input.ofText (lineBreak 1) ++
      (Input.ofText (memberText 1 ("attestation_output", .string e.output)) ++
        .char ',' :: (Input.ofText (lineBreak 1) ++
          (Input.ofText (memberText 1 ("entity_attestation_token", e.token.getD .null)) ++ closing)))) := by
  rw [toJson, indented, indentedMembers_cons]
  · simp [following, closing, lineBreak]
  · rintro ⟨⟩

theorem toJson_length (enough : (indented 0 e.toJson ++ ['\n']).length ≤ fuel) :
    (stringText "attestation_output").length ≤ fuel ∧ (stringText e.output).length ≤ fuel ∧
      (stringText "entity_attestation_token").length ≤ fuel ∧
      (indented 1 (e.token.getD .null)).length ≤ fuel := by
  have length := congrArg List.length e.toJson_text
  simp only [Input.ofText, List.length_map, List.length_append, List.length_cons, memberText,
    indented] at length enough
  omega

theorem record_read (enough : (indented 0 e.toJson ++ ['\n']).length ≤ fuel) :
    record shape (fuel + 2) (.ofText (indented 0 e.toJson ++ ['\n'])) =
      (slot fuel (maxDepth - 1) .optionalValue
        (.char ' ' :: (Input.ofText (indented 1 (e.token.getD .null)) ++ closing))).bind fun r =>
          recordMembers fuel (maxDepth - 1) shape.fields false
            [("entity_attestation_token", r.1), ("attestation_output", .text e.output)] r.2 := by
  obtain ⟨outputKey, output, tokenKey, _⟩ := e.toJson_length enough
  rw [e.toJson_text]
  unfold record
  rw [skipSpace_stop (by decide)]
  simp only
  -- The output stands before the token, and the reader takes them in this order.
  rw [recordMembers_text "attestation_output" 1 (.string e.output)
    (.char ',' :: (Input.ofText (lineBreak 1) ++
      (Input.ofText (memberText 1 ("entity_attestation_token", e.token.getD .null)) ++ closing)))
    (by omega) (show _ = some ⟨"attestation_output", .text⟩ by decide) rfl ?_]
  · have filled (rest : Input) : slot (fuel + 1) (maxDepth - 1) .text
        (.char ' ' :: (Input.ofText (stringText e.output) ++ rest)) = .ok (.text e.output, rest) :=
      slot_string blankGap (stringText_spells e.output) (by decide) (by omega)
    rw [indented, ofText_cons, List.cons_append, filled]
    show recordMembers _ _ _ _ _ _ = _
    rw [recordMembers_text "entity_attestation_token" 1 (e.token.getD .null) closing tokenKey
      (show _ = some ⟨"entity_attestation_token", .optionalValue⟩ by decide) rfl ?_]
    · rw [ofText_cons, List.cons_append]
    · intro inside same
      rw [memberText, same]
      simp only [ofText_append, ofText_cons, List.append_assoc, List.cons_append]
      exact nextMember_comma noGap (lineBreak_gap 1) _
  · intro inside same
    rw [memberText, same]
    simp only [ofText_append, ofText_cons, List.append_assoc, List.cons_append]
    exact nextMember_first (lineBreak_gap 1) _

theorem readRecord_error {f : RecordFailure}
    (refused : slot (2 * (indented 0 e.toJson ++ ['\n']).length) (maxDepth - 1) .optionalValue
      (.char ' ' :: (Input.ofText (indented 1 (e.token.getD .null)) ++ closing)) = .error f) :
    ∃ f, readRecord shape (.ofText (indented 0 e.toJson ++ ['\n'])) = .error f := by
  have read := e.record_read (Nat.le_mul_of_pos_left _ (by decide : 0 < 2))
  rw [refused] at read
  unfold readRecord
  rw [ofText_length, read]
  cases f with
  | malformed f => exact ⟨_, rfl⟩
  | mismatch m => exact ⟨_, rfl⟩

theorem token_room : 2 * (indented 1 (e.token.getD .null)).length ≤
    2 * (indented 0 e.toJson ++ ['\n']).length := by
  obtain ⟨_, _, _, enough⟩ := e.toJson_length (Nat.le_refl _)
  exact Nat.mul_le_mul_left 2 enough

theorem closing_ends : EndsNumber closing := ⟨by decide, by decide, by decide, by decide⟩

/-- An envelope whose token is missing or nested less deep than a document may be is read. -/
theorem ofJson_shallow (proper : ∀ token ∈ e.token, AllProper token.numbers)
    (shallow : ∀ token ∈ e.token, token.depth < maxDepth) :
    ofJson? (.ofText (indented 0 e.toJson ++ ['\n'])) = .ok ⟨e.output, e.token.bind Value.passed⟩ := by
  obtain ⟨output, token⟩ := e
  -- a missing token is written as a null
  have inside : AllProper (token.getD .null).numbers ∧ (token.getD .null).depth < maxDepth := by
    cases token with
    | none => exact ⟨by rintro _ ⟨⟩, by decide⟩
    | some token => exact ⟨proper token rfl, shallow token rfl⟩
  have seen : token.bind Value.passed = (token.getD .null).reread.seen := by
    cases token with
    | none => rfl
    | some token => exact token.passed_eq
  have numbers : AllProper (toJson ⟨output, token⟩).numbers := by
    simpa [toJson, AllProper, Value.numbers, membersNumbers] using inside.1
  have spelled : Spells Number.ReadAs (.object [("attestation_output", .string output),
      ("entity_attestation_token", (token.getD .null).reread)]) (indented 0 (toJson ⟨output, token⟩)) :=
    indented_spells _ 0 numbers
  have depth : (token.getD .null).reread.depth < maxDepth := by
    rw [reread_depth]
    exact inside.2
  have read : ofJson? (.ofText ([] ++ indented 0 (toJson ⟨output, token⟩) ++ ['\n'])) =
      .ok ⟨output, (token.getD .null).reread.seen⟩ :=
    ofJson_spelled output (fun _ _ => id) noGap spelled (lineBreak_gap 0) depth
  rw [seen]
  exact read

/-- An envelope with a token that is nested as deep as a document may be, or deeper, is refused. -/
theorem ofJson_deep {token : Value} (held : e.token = some token) (proper : AllProper token.numbers)
    (deep : maxDepth ≤ token.depth) :
    ∃ f, ofJson? (.ofText (indented 0 e.toJson ++ ['\n'])) = .error f := by
  have room := e.token_room
  have refused {f : RecordFailure} := e.readRecord_error (f := f)
  generalize 2 * (indented 0 e.toJson ++ ['\n']).length = fuel at room refused
  rw [held, Option.getD_some] at room refused
  have some_ : token ≠ .null := by
    rintro rfl
    exact absurd deep (by decide)
  have present : token.reread ≠ .null := by
    cases token with
    | null => contradiction
    | _ => rintro ⟨⟩
  have spelled := indented_spells token 1 proper
  have depth : maxDepth - 1 < token.reread.depth := by
    rw [reread_depth]
    exact Nat.lt_of_lt_of_le (by decide) deep
  obtain ⟨f, failed⟩ := value_deep (fun _ _ => id) spelled room depth closing_ends
  have slot := slot_value fuel (maxDepth - 1) closing (fun _ _ => id) blankGap spelled present
  rw [failed] at slot
  obtain ⟨g, error⟩ := refused slot
  exact ⟨g, by rw [ofJson?, error]; rfl⟩

end Reading

end Envelope

namespace Outcome

theorem response_pieces (o : Outcome) : Utf8.pieces o.response.body =
    Input.ofText (indented 0 o.envelope.toJson ++ ['\n']) := Utf8.pieces_encode _

theorem token_proper {run : Verifier.Run} {successMarker : String} {token : Value}
    (held : (ofRun run successMarker).envelope.token = some token) : AllProper token.numbers := by
  have found : Verifier.extractToken run.output.toList = some token := by
    unfold envelope at held
    simp only at held
    split at held
    · cases held
    · exact held
  obtain ⟨text, _, read⟩ := Option.bind_eq_some_iff.mp found
  cases result : readText (Text.trim text) with
  | error f =>
      rw [result] at read
      cases read
  | ok v =>
      rw [result] at read
      cases read
      exact read_proper result

/-- What the client reads of an answer: the output as the run printed it, and the token, unless the
token is nested as deep as a document may be. Then it reads nothing. -/
theorem decoded_iff (run : Verifier.Run) (successMarker : String) (e : Envelope) :
    Envelope.ofJson? (Utf8.pieces (ofRun run successMarker).response.body) = .ok e ↔
      (∀ token ∈ (ofRun run successMarker).envelope.token, token.depth < maxDepth) ∧
        e = ⟨run.output, (ofRun run successMarker).envelope.token.bind Value.passed⟩ := by
  rw [response_pieces]
  by_cases shallow : ∀ token ∈ (ofRun run successMarker).envelope.token, token.depth < maxDepth
  · rw [Envelope.ofJson_shallow _ (fun _ held => token_proper held) shallow]
    constructor
    · intro same
      exact ⟨shallow, (Except.ok.inj same).symm⟩
    · rintro ⟨_, rfl⟩
      rfl
  · -- some token is nested too deep, and then there is no envelope to compare with
    refine ⟨fun read => ?_, fun both => absurd both.1 shallow⟩
    obtain ⟨token, deep⟩ := not_forall.mp shallow
    obtain ⟨held, deep⟩ := Classical.not_imp.mp deep
    obtain ⟨f, refused⟩ := Envelope.ofJson_deep _ held (token_proper held) (not_lt.mp deep)
    rw [refused] at read
    cases read

def nest : Nat → Value
  | 0 => .array []
  | n + 1 => .array [nest n]

def brackets (n : Nat) : List Char := List.replicate n '[' ++ List.replicate n ']'

theorem nest_depth (n : Nat) : (nest n).depth = n + 1 := by
  induction n with
  | zero => rfl
  | succ n ih => simp [nest, Value.depth, itemsDepth, ih]

theorem nest_merged (n : Nat) : (nest n).merged = nest n := by
  induction n with
  | zero => rfl
  | succ n ih => simp [nest, Value.merged, mergedItems, ih]

theorem nest_spells (n : Nat) : Spells Number.ReadAs (nest n) (brackets (n + 1)) := by
  induction n with
  | zero => exact .emptyArray noGap
  | succ n ih =>
      have whole := Spells.array noGap ih (.close noGap)
      have opening : List.replicate (n + 1 + 1) '[' = '[' :: List.replicate (n + 1) '[' :=
        List.replicate_succ
      have closing : List.replicate (n + 1 + 1) ']' = List.replicate (n + 1) ']' ++ [']'] :=
        List.replicate_succ'
      rw [brackets, opening, closing]
      simpa [nest, brackets] using whole

def deepRun : Verifier.Run := ⟨String.ofList (Verifier.tokenMarker ++ '\n' :: brackets maxDepth), none⟩

theorem deepRun_token : Verifier.extractToken deepRun.output.toList = some (nest 126) := by
  have line : Text.cutAt? '\n' (Verifier.tokenMarker ++ '\n' :: brackets maxDepth) =
      some (Verifier.tokenMarker, brackets maxDepth) := by
    decide +kernel
  have marked : Verifier.afterTokenMarker deepRun.output.toList = some (brackets maxDepth) := by
    rw [deepRun, String.toList_ofList, Verifier.afterTokenMarker]
    split
    · rename_i none
      rw [line] at none
      cases none
    · rename_i some_
      rw [line] at some_
      cases some_
      rw [if_pos (by decide)]
  have trimmed : Text.trim (brackets maxDepth) = brackets maxDepth := by decide +kernel
  have document : value (2 * (brackets maxDepth).length + 2) maxDepth
      (Input.ofText (brackets maxDepth) ++ []) = .ok (nest 126, []) :=
    (reads (fun _ _ => id) _).value _ _ _ [] (nest_spells 126) (by omega)
      (by rw [nest_depth]; decide) trivial
  rw [List.append_nil] at document
  unfold Verifier.extractToken readText Json.read Json.document
  rw [marked, Option.bind_some, trimmed, ofText_length, document]
  exact congrArg some (nest_merged 126)

/-- Its token is accepted, and the client can read nothing of the answer. -/
theorem deepRun_undecoded : (ofRun deepRun "").envelope.token.isSome = true ∧
    ¬ ∃ e, Envelope.ofJson? (Utf8.pieces (ofRun deepRun "").response.body) = .ok e := by
  have held : (ofRun deepRun "").envelope.token = some (nest 126) := deepRun_token
  refine ⟨by rw [held]; rfl, ?_⟩
  rintro ⟨e, read⟩
  obtain ⟨f, refused⟩ := Envelope.ofJson_deep _ held (token_proper held)
    (by rw [nest_depth]; exact Nat.le_refl _)
  rw [response_pieces, refused] at read
  cases read

end Outcome

end AttestationService

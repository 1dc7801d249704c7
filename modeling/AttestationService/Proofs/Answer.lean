import AttestationService.Proofs.Outcome
import AttestationService.Proofs.PassThrough
import AttestationService.Verifier.Tool

/-!
What a run is answered with. A failure decides by itself; for a clean run the success marker
decides. The output stands in every answer as it was printed, and of a failure nothing else can be
told from the answer.
-/

namespace AttestationService.Outcome

open Json Verifier

/-- An answer tells of a run: its status, the token, and the envelope around the output and the token. -/
structure Tells (run : Run) (successMarker : String) (token : Option Value) (response : Http.Response) :
    Prop where
  failed : response.status = 500 ↔ run.failure ≠ none
  succeeded : response.status = 200 ↔ run.failure = none ∧ successMarker.toList <:+: run.output.toList
  refused : response.status = 400 ↔ run.failure = none ∧ ¬ successMarker.toList <:+: run.output.toList
  withheld : run.failure ≠ none → token = none
  found : run.failure = none → token = extractToken run.output.toList
  headers : response.headers =
    [⟨"content-type", Http.ascii "application/json"⟩, Http.lengthHeader response.body]
  body : response.body = Utf8.encode (envelopeText run.output (indented 1 (token.getD .null)))
  object : ∃ text, envelopeText run.output (indented 1 (token.getD .null)) = text ++ ['\n'] ∧
    Spells Number.ReadAs (.object [("attestation_output", .string run.output),
      ("entity_attestation_token", (token.getD .null).reread)]) text

section Status
variable {run : Run} (successMarker : String)

theorem status_cases (run : Run) (successMarker : String) :
    (run.failure ≠ none → (ofRun run successMarker).status = 500) ∧
    (run.failure = none → successMarker.toList <:+: run.output.toList →
      (ofRun run successMarker).status = 200) ∧
    (run.failure = none → ¬ successMarker.toList <:+: run.output.toList →
      (ofRun run successMarker).status = 400) := by
  have marked := Text.occurs_iff successMarker.toList run.output.toList
  refine ⟨?_, ?_, ?_⟩
  · intro failed
    exact if_pos (Option.isSome_iff_ne_none.mpr failed)
  · intro clean holds
    rw [status, ofRun, clean]
    exact if_pos (marked.mpr holds)
  · intro clean lacks
    rw [status, ofRun, clean]
    exact if_neg fun found => lacks (marked.mp found)

theorem envelope_failed (failed : run.failure ≠ none) :
    (ofRun run successMarker).envelope = ⟨run.output, none⟩ := by
  have some_ : (ofRun run successMarker).failure.isSome = true := Option.isSome_iff_ne_none.mpr failed
  rw [envelope, if_pos some_]
  rfl

theorem envelope_clean (clean : run.failure = none) :
    (ofRun run successMarker).envelope = ⟨run.output, extractToken run.output.toList⟩ := by
  rw [envelope, ofRun, clean]
  rfl

theorem response_failed (failed : run.failure ≠ none) : (ofRun run successMarker).response =
    .json 500 (Utf8.encode (envelopeText run.output ['n', 'u', 'l', 'l'])) := by
  rw [response, (status_cases run successMarker).1 failed, body_eq, envelope_failed successMarker failed]
  rfl

end Status

theorem envelopeText_object {output : String} {token : Option Value}
    (proper : ∀ v ∈ token, AllProper v.numbers) :
    ∃ text, envelopeText output (indented 1 (token.getD .null)) = text ++ ['\n'] ∧
      Spells Number.ReadAs (.object [("attestation_output", .string output),
        ("entity_attestation_token", (token.getD .null).reread)]) text := by
  have inside : AllProper (token.getD .null).numbers := by
    cases token with
    | none => rintro _ ⟨⟩
    | some token => exact proper token rfl
  have numbers : AllProper (Envelope.toJson ⟨output, token⟩).numbers := by
    simpa [Envelope.toJson, AllProper, Value.numbers, membersNumbers] using inside
  refine ⟨indented 0 (Envelope.toJson ⟨output, token⟩), ?_, indented_spells _ 0 numbers⟩
  exact (body_eq ⟨output, none, false, token⟩).symm

theorem ofRun_tells (run : Run) (successMarker : String) :
    Tells run successMarker (ofRun run successMarker).envelope.token (ofRun run successMarker).response := by
  obtain ⟨failed, marked, unmarked⟩ := status_cases run successMarker
  have status : (ofRun run successMarker).response.status = (ofRun run successMarker).status := rfl
  have output : (ofRun run successMarker).output = run.output := rfl
  constructor
  case withheld =>
    intro failure
    rw [envelope_failed successMarker failure]
  case found =>
    intro clean
    rw [envelope_clean successMarker clean]
  case headers => rfl
  case body => exact congrArg Utf8.encode (body_eq _)
  case object => exact envelopeText_object fun _ held => token_proper held
  -- the three conditions exclude one another, and one of them holds
  all_goals
    rw [status]
    by_cases clean : run.failure = none
    · by_cases holds : successMarker.toList <:+: run.output.toList
      · simp [marked clean holds, clean, holds]
      · simp [unmarked clean holds, clean, holds]
    · simp [failed clean, clean]

/-- A run is answered by its failure first and by the marker next, in an envelope with its output. Runs that
failed with the same output are answered alike, whatever failed, whatever the marker is and whatever token
was printed. -/
theorem told_of_run (run : Run) (successMarker : String) :
    (∃ token, (ofRun run successMarker).envelope = ⟨run.output, token⟩ ∧
      Tells run successMarker token (ofRun run successMarker).response) ∧
    ∀ (other : Run) (otherMarker : String), other.output = run.output → run.failure ≠ none →
      other.failure ≠ none → (ofRun other otherMarker).response = (ofRun run successMarker).response := by
  constructor
  · exact ⟨_, rfl, ofRun_tells run successMarker⟩
  · intro other otherMarker same failed otherFailed
    rw [response_failed _ failed, response_failed _ otherFailed, same]

theorem told_of_run_killed :
    let output := "ok\nEntity Attestation Token:\n[1]\n"
    (ofRun ⟨output, some (.exited none)⟩ "other").response =
      (ofRun ⟨output, some (.exited (some 1))⟩ "ok").response ∧
      (ofRun ⟨output, some (.exited (some 1))⟩ "ok").response.status = 500 ∧
      (ofRun (Ending.panicked "why").run "ok").response =
        (ofRun ⟨"", some (.exited none)⟩ "ok").response := by
  intro output
  obtain ⟨⟨_, _, tells⟩, alike⟩ := told_of_run ⟨output, some (.exited (some 1))⟩ "ok"
  obtain ⟨_, panicked⟩ := told_of_run ⟨"", some (.exited none)⟩ "ok"
  refine ⟨alike _ _ rfl ?_ ?_, tells.failed.mpr ?_, panicked _ _ rfl ?_ ?_⟩
  all_goals rintro ⟨⟩

end AttestationService.Outcome

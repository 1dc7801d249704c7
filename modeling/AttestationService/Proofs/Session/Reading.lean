import AttestationService.Proofs.Intake.Reading
import AttestationService.Proofs.Session.Attestation
import AttestationService.Proofs.Session.Deadlines

/-!
What becomes of a posted request while its body comes in. The chunk that stops the reading decides alone; if
there is none, the octets that came decide, and not the way they came in.
-/

namespace AttestationService

open Http.Body (StopsAt FirstStop contents elapsed)

namespace Intake
variable {readDeadline k : Nat} {request : Http.Request} {chunk : Http.Chunk}

theorem ofRequest_stopped (sent : Nat) (post : request.method = .post)
    (first : FirstStop readDeadline maxBodySize request.body k) (found : request.body[k]? = some chunk) :
    (ofRequest readDeadline sent request).ready =
        sent + elapsed (request.body.take k) + min chunk.delay readDeadline ∧
      (ofRequest readDeadline sent request).verdict = .error .bodyUnread := by
  obtain ⟨error, stopped⟩ := Http.Body.collect_stopped sent first found
  unfold ofRequest
  rw [post]
  simp only [stopped, and_self]

theorem ofRequest_passed (sent : Nat) (post : request.method = .post) (patient : 0 < readDeadline)
    (passing : ∀ k, ¬ StopsAt readDeadline maxBodySize request.body k) :
    (ofRequest readDeadline sent request).ready = sent + elapsed request.body ∧
      (ofRequest readDeadline sent request).verdict =
        (check (BodyNonce.ofOctets (contents request.body)).raw).2 := by
  have passed := Http.Body.collect_passed sent patient passing
  unfold ofRequest
  rw [post]
  simp only [passed, and_self]

end Intake

def Service.Lasts (service : Service) (call : Call) (time : Nat) : Prop :=
  time < service.deadline call ∧ ∀ patience ∈ call.patience, time ≤ call.sent + patience

/-- What becomes of a numbered call with the body that it posts. -/
structure Service.Reads (service : Service) (h : History) (i : Nat) (call : Call) : Prop where
  /-- The first chunk that stops the reading turns the call away as soon as that is known. -/
  stopped : ∀ k chunk, FirstStop service.deadlines.read maxBodySize call.request.body k →
    call.request.body[k]? = some chunk →
    (∀ run, .started run ∈ h.occurrences service → run.ticket.caller ≠ i) ∧
      ∀ time, time = call.sent + elapsed (call.request.body.take k) + min chunk.delay service.deadlines.read →
        service.Lasts call time → ∃ response, h.account.replies[i]? = some (.answered response time) ∧
          response.status = 400 ∧ response.body = Http.ascii "Failed to read request body"
  /-- Without one the nonce is found in all the octets when the last of them are there. -/
  passed : (∀ k, ¬ StopsAt service.deadlines.read maxBodySize call.request.body k) →
    ∀ time, time = call.sent + elapsed call.request.body → service.Lasts call time →
      match (Intake.check (BodyNonce.ofOctets (contents call.request.body)).raw).2 with
      | .ok nonce => ∃ run, .started run ∈ h.occurrences service ∧ run.ticket.caller = i ∧
          run.ticket.nonce = nonce ∧ run.ticket.admitted = time
      | .error reason => (∃ response, h.account.replies[i]? = some (.answered response time) ∧
            reason.Told call.request.method response) ∧
          ∀ run, .started run ∈ h.occurrences service → run.ticket.caller ≠ i
  alike : ∀ other : Call, other.request.method = .post →
    (∀ k, ¬ StopsAt service.deadlines.read maxBodySize call.request.body k) →
    (∀ k, ¬ StopsAt service.deadlines.read maxBodySize other.request.body k) →
    contents other.request.body = contents call.request.body →
      (service.intake other).verdict = (service.intake call).verdict
  /-- The limit is reached by no more than 1048576 octets, -/
  limit : (∀ k, ¬ StopsAt service.deadlines.read maxBodySize call.request.body k) ↔
    (∀ chunk ∈ call.request.body, chunk.delay < service.deadlines.read ∧
      ∃ octets, chunk.content = .ok octets) ∧ (contents call.request.body).length ≤ 1048576
  /-- and the room that is left makes up the limit with what was taken, after all chunks that pass. -/
  room : ∀ k ≤ call.request.body.length,
    (∀ j < k, ¬ StopsAt service.deadlines.read maxBodySize call.request.body j) →
      ∃ left held, left + (contents (call.request.body.take k)).length = maxBodySize ∧
        held.reverse.flatten = contents (call.request.body.take k) ∧
        Http.Body.collect service.deadlines.read call.sent maxBodySize [] call.request.body =
          Http.Body.collect service.deadlines.read (call.sent + elapsed (call.request.body.take k)) left held
            (call.request.body.drop k)

namespace History
variable {service : Service} {h : History} {i : Nat} {call : Call}

theorem intake_stopped {k : Nat} {chunk : Http.Chunk} (post : call.request.method = .post)
    (first : FirstStop service.deadlines.read maxBodySize call.request.body k)
    (found : call.request.body[k]? = some chunk) :
    (service.intake call).ready =
        call.sent + elapsed (call.request.body.take k) + min chunk.delay service.deadlines.read ∧
      (service.intake call).verdict = .error .bodyUnread :=
  Intake.ofRequest_stopped call.sent post first found

theorem intake_passed (post : call.request.method = .post) (patient : 0 < service.deadlines.read)
    (passing : ∀ k, ¬ StopsAt service.deadlines.read maxBodySize call.request.body k) :
    (service.intake call).ready = call.sent + elapsed call.request.body ∧
      (service.intake call).verdict =
        (Intake.check (BodyNonce.ofOctets (contents call.request.body)).raw).2 :=
  Intake.ofRequest_passed call.sent post patient passing

theorem reads (sound : h.Sound service) (sent : h.calls[i]? = some call)
    (attest : Route.immediate? call.request = none) (post : call.request.method = .post)
    (patient : 0 < service.deadlines.read) : service.Reads h i call := by
  have ruled := (Intake.ruled_iff service.deadlines.read call.sent call.request _).mpr rfl
  have fares := attests sound sent attest ruled
  refine ⟨?_, ?_, ?_, Http.Body.passing_iff, ?_⟩
  · intro k chunk first found
    obtain ⟨ready, verdict⟩ := intake_stopped post first found
    constructor
    · intro run started own
      have given : (service.intake call).verdict = .ok run.ticket.nonce := (fares.started run started own).1
      rw [verdict] at given
      cases given
    · rintro time rfl lasts
      rw [← ready] at lasts ⊢
      obtain ⟨⟨response, got, told⟩, _⟩ :=
        fares.rejected (Service.reaches_iff.mpr lasts) .bodyUnread verdict
      exact ⟨response, got, told⟩
  · rintro passing time rfl lasts
    obtain ⟨ready, verdict⟩ := intake_passed post patient passing
    rw [← ready] at lasts ⊢
    have inTime := Service.reaches_iff.mpr lasts
    rw [← verdict]
    cases ruling : (service.intake call).verdict with
    | ok nonce =>
        have admitted : service.admission? call = some ((service.intake call).ready, nonce) :=
          Service.admission_some.mpr ⟨attest, ruling, inTime, rfl⟩
        obtain ⟨run, started, _, own⟩ := admitted_run sound sent admitted
        exact ⟨run, started, by rw [own]; rfl, by rw [own]; rfl, by rw [own]; rfl⟩
    | error reason => exact fares.rejected inTime reason ruling
  · intro other otherPost passing otherPassing same
    rw [(intake_passed post patient passing).2, (intake_passed otherPost patient otherPassing).2, same]
  · intro k within before
    obtain ⟨fits, held, all, stands⟩ := Http.Body.collect_stands call.sent [] within before
    exact ⟨_, held, Nat.sub_add_cancel fits, by simpa using all, stands⟩

/-- Every posted request to attest fares as the chunks of its body come in. -/
theorem body_read_by_chunks (service : Service) (moves : List Move) (patient : 0 < service.deadlines.read)
    {i : Nat} {call : Call} (sent : (of service moves).calls[i]? = some call)
    (path : call.request.target.path = "/gpu_attest") (post : call.request.method = .post) :
    service.Reads (of service moves) i call := by
  have attest : Route.immediate? call.request = none := by
    simp [Route.immediate?, Route.ofPath, path]
  exact reads (of_sound service moves) sent attest post patient

def posted (body : List Http.Chunk) : Call :=
  ⟨⟨.post, ⟨none, none, "/gpu_attest", none⟩, [], body⟩, 0, none⟩

def promptBody : List Http.Chunk := [⟨9, .ok [0x7b]⟩, ⟨9, .ok [0x7d]⟩]

def lateBody : List Http.Chunk := [⟨9, .ok [0x7b]⟩, ⟨10, .ok [0x7d]⟩]

theorem lateBody_stops : FirstStop 10 maxBodySize lateBody 1 := by
  refine ⟨⟨_, rfl, .inl (by decide)⟩, ?_⟩
  rintro j small ⟨chunk, found, stops⟩
  obtain rfl : j = 0 := by omega
  cases found
  rcases stops with late | ⟨reason, broken⟩ | long
  · exact absurd late (by decide)
  · cases broken
  · exact absurd long (by decide)

theorem body_read_by_chunks_late :
    (∃ run, .started run ∈
        (of (steady ⟨10, 40⟩ 1) [.exchange [posted promptBody]]).occurrences (steady ⟨10, 40⟩ 1) ∧
      run.ticket.nonce = none ∧ run.ticket.admitted = 18) ∧
    ∃ response, (of (steady ⟨10, 40⟩ 1) [.exchange [posted lateBody]]).account.replies[0]? =
        some (.answered response 19) ∧
      response.status = 400 ∧ response.body = Http.ascii "Failed to read request body" := by
  constructor
  · have reads := body_read_by_chunks (steady ⟨10, 40⟩ 1) [.exchange [posted promptBody]] (by decide)
      (i := 0) (show _ = some (posted promptBody) from rfl) rfl rfl
    have each : ∀ chunk ∈ promptBody, chunk.delay < 10 ∧ ∃ octets, chunk.content = .ok octets :=
      List.forall_mem_cons.mpr ⟨⟨by decide, _, rfl⟩, List.forall_mem_singleton.mpr ⟨by decide, _, rfl⟩⟩
    have passing := reads.limit.mpr ⟨each, by decide⟩
    have passed := reads.passed passing 18 rfl ⟨by decide, nofun⟩
    have ruling : (Intake.check (BodyNonce.ofOctets (contents promptBody)).raw).2 = .ok none := by decide
    rw [show (posted promptBody).request.body = promptBody from rfl, ruling] at passed
    obtain ⟨run, started, _, nonce, admitted⟩ := passed
    exact ⟨run, started, nonce, admitted⟩
  · have reads := body_read_by_chunks (steady ⟨10, 40⟩ 1) [.exchange [posted lateBody]] (by decide)
      (i := 0) (show _ = some (posted lateBody) from rfl) rfl rfl
    obtain ⟨_, told⟩ := reads.stopped 1 _ lateBody_stops rfl
    exact told 19 rfl ⟨by decide, nofun⟩

/-- A chunk that comes exactly at the deadline is turned away, although its delay does not exceed it. -/
theorem due_chunk_refused : (steady ⟨10, 40⟩ 1).deadlines.read = 10 ∧
    (∀ chunk ∈ lateBody, ¬ 10 < chunk.delay ∧ ∃ octets, chunk.content = .ok octets) ∧
    (contents lateBody).length ≤ 1048576 ∧
    ∃ response, (of (steady ⟨10, 40⟩ 1) [.exchange [posted lateBody]]).account.replies[0]? =
        some (.answered response 19) ∧
      response.status = 400 ∧ response.body = Http.ascii "Failed to read request body" := by
  have sound := of_sound (steady ⟨10, 40⟩ 1) [.exchange [posted lateBody]]
  have known : (of (steady ⟨10, 40⟩ 1) [.exchange [posted lateBody]]).calls[0]? =
      some (posted lateBody) := rfl
  obtain ⟨_, told⟩ := (reads sound known rfl rfl (by decide)).stopped 1 _ lateBody_stops rfl
  have each : ∀ chunk ∈ lateBody, ¬ 10 < chunk.delay ∧ ∃ octets, chunk.content = .ok octets :=
    List.forall_mem_cons.mpr ⟨⟨by decide, _, rfl⟩, List.forall_mem_singleton.mpr ⟨by decide, _, rfl⟩⟩
  exact ⟨rfl, each, by decide, told 19 rfl ⟨by decide, nofun⟩⟩

end History

end AttestationService

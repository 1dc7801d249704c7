import AttestationService.Proofs.Intake.Ruling
import AttestationService.Proofs.Session.Replies
import AttestationService.Verifier.Installation

/-!
What becomes of a request to attest. It is rejected or has a run as it deserves by what it says,
unless it ends before that, and the run is given no nonce or the very text that was named.
-/

namespace AttestationService

open Service (reaches depart)

def Rejection.Told (reason : Rejection) (method : Http.Method) (response : Http.Response) : Prop :=
  match reason with
  | .invalidNonce => response.status = 400 ∧
      response.body = Http.ascii "Invalid args: nonce must be a 32-byte hex string"
  | .bodyUnread => response.status = 400 ∧ response.body = Http.ascii "Failed to read request body"
  | .methodNotAllowed => response.status = 405 ∧
      response.body = if method = .head then [] else Http.ascii "Method Not Allowed"

/-- What becomes of a numbered call to attest that deserves `verdict`. -/
structure Service.Attests (service : Service) (h : History) (i : Nat) (call : Call)
    (verdict : Except Rejection (Option Nonce)) : Prop where
  prompt : call.request.method ≠ .post → (service.intake call).ready = call.sent
  admitted : reaches (service.departure call) (service.intake call).ready = true →
    ∀ nonce, verdict = .ok nonce →
      ∃ run, .started run ∈ h.occurrences service ∧ run.ticket.caller = i ∧ run.ticket.nonce = nonce
  /-- A call that is rejected is told why, and no run starts for it. -/
  rejected : reaches (service.departure call) (service.intake call).ready = true →
    ∀ reason, verdict = .error reason →
      (∃ response, h.account.replies[i]? = some (.answered response (service.intake call).ready) ∧
        reason.Told call.request.method response) ∧
      ∀ run, .started run ∈ h.occurrences service → run.ticket.caller ≠ i
  ended : reaches (service.departure call) (service.intake call).ready = false →
    h.account.replies[i]? =
        some (depart (service.identify i call.request) call (service.departure call)) ∧
      ∀ run, .started run ∈ h.occurrences service → run.ticket.caller ≠ i
  /-- Whatever is started for the call has no nonce, or the digits that the call named. -/
  started : ∀ run, .started run ∈ h.occurrences service → run.ticket.caller = i →
    verdict = .ok run.ticket.nonce ∧
      run.performance = service.tool run.number run.ticket.nonce ∧
      ∀ verifier : Verifier.Installation, ∃ raw, call.request.Names service.deadlines.read raw ∧
        (raw = "" ∧ verifier.words run.ticket.nonce = verifier.words none ∨
          IsNonceText raw ∧ verifier.words run.ticket.nonce =
            verifier.words none ++ [Http.ascii "--nonce", Utf8.encodeString raw])

namespace History

variable {service : Service} {h : History} {i : Nat} {call : Call}
  {verdict : Except Rejection (Option Nonce)}

theorem rejection_told {reason : Rejection} (id : Correlation)
    (ruled : call.request.Ruled service.deadlines.read (.error reason)) :
    reason.Told call.request.method
      (Service.finalize id call.request.method reason.response) := by
  cases ruled with
  | invalid raw named given other =>
      have wantsBody : call.request.method ≠ .head := by
        cases named with
        | query get _ _ => simp [get]
        | body post _ _ => simp [post]
      refine ⟨Service.finalize_status _ _ _, ?_⟩
      rw [Service.finalize_body wantsBody]
      rfl
  | unread post broken =>
      have wantsBody : call.request.method ≠ .head := by simp [post]
      refine ⟨Service.finalize_status _ _ _, ?_⟩
      rw [Service.finalize_body wantsBody]
      rfl
  | refused noGet noPost =>
      refine ⟨Service.finalize_status _ _ _, ?_⟩
      by_cases head : call.request.method = .head
      · rw [if_pos head, Service.finalize, if_pos head]
        rfl
      · rw [if_neg head, Service.finalize_body head]
        rfl

theorem admitted_words {nonce : Option Nonce}
    (ruled : call.request.Ruled service.deadlines.read (.ok nonce))
    (verifier : Verifier.Installation) :
    ∃ raw, call.request.Names service.deadlines.read raw ∧
      (raw = "" ∧ verifier.words nonce = verifier.words none ∨
        IsNonceText raw ∧ verifier.words nonce =
          verifier.words none ++ [Http.ascii "--nonce", Utf8.encodeString raw]) := by
  cases ruled with
  | plain named => exact ⟨"", named, Or.inl ⟨rfl, rfl⟩⟩
  | bound nonce named digits =>
      refine ⟨nonce.text, named, Or.inr ⟨digits, ?_⟩⟩
      simp only [Verifier.Installation.words, List.append_nil]
      rfl

theorem settled_alone (sound : h.Sound service) (sent : h.calls[i]? = some call) {own : Reply}
    (settled : (service.arrive i call).stage = .inl own) :
    h.account.replies[i]? = some own ∧
      ∀ run, .started run ∈ h.occurrences service → run.ticket.caller ≠ i := by
  constructor
  · obtain ⟨reply, got⟩ := reply_exists sound sent
    have concluded := concludes_at sound sent got
    simp only [Service.Concludes, settled] at concluded
    rw [got, concluded]
  · rintro run started rfl
    obtain ⟨other, found, admitted⟩ := run_call ((started_iff sound run).mp started)
    rw [sent, Option.some.injEq] at found
    subst found
    rw [settled] at admitted
    cases admitted

theorem admitted_started (sound : h.Sound service) (sent : h.calls[i]? = some call)
    {ticket : Ticket} (admitted : (service.arrive i call).stage = .inr ticket) :
    ∃ run, .started run ∈ h.occurrences service ∧ run.ticket = ticket := by
  have arrived := service.arrive_mem 0 sent
  rw [Nat.zero_add] at arrived
  have known : ticket ∈ h.tickets service :=
    (Session.mem_tickets _ ticket).mpr ⟨_, arrived, admitted⟩
  obtain ⟨run, member, own⟩ := line_of_ticket service.tool 0 0 known
  exact ⟨run, (started_iff sound run).mpr member, own⟩

theorem attests (sound : h.Sound service) (sent : h.calls[i]? = some call)
    (attest : Route.immediate? call.request = none)
    (ruled : call.request.Ruled service.deadlines.read verdict) :
    service.Attests h i call verdict := by
  have own : verdict = (service.intake call).verdict :=
    (Intake.ruled_iff service.deadlines.read call.sent call.request verdict).mp ruled
  have stage : (service.arrive i call).stage = _ := service.arrive_attest attest
  refine ⟨?_, ?_, ?_, ?_, ?_⟩
  · exact fun noPost => Intake.ofRequest_ready service.deadlines.read call.sent noPost
  · rintro inTime nonce rfl
    rw [if_pos inTime, ← own] at stage
    obtain ⟨run, started, ticket⟩ := admitted_started sound sent stage
    exact ⟨run, started, by rw [ticket], by rw [ticket]⟩
  · rintro inTime reason rfl
    rw [if_pos inTime, ← own] at stage
    obtain ⟨got, nobody⟩ := settled_alone sound sent stage
    exact ⟨⟨_, got, rejection_told _ ruled⟩, nobody⟩
  · intro late
    rw [if_neg (by rw [late]; decide)] at stage
    exact settled_alone sound sent stage
  · rintro run started rfl
    have member := (started_iff sound run).mp started
    obtain ⟨other, found, admitted⟩ := run_call member
    rw [sent, Option.some.injEq] at found
    subst found
    have given : verdict = .ok run.ticket.nonce := own.trans (Service.arrive_ticket admitted).2.2.1
    refine ⟨given, line_performance service.tool 0 0 _ run member, fun verifier => ?_⟩
    rw [given] at ruled
    exact admitted_words ruled verifier

/-- Every request to attest fares as it deserves, and it deserves one thing only. -/
theorem attested_as_ruled (service : Service) (moves : List Move) {i : Nat} {call : Call}
    (sent : (of service moves).calls[i]? = some call)
    (path : call.request.target.path = "/gpu_attest") :
    ∃ verdict, call.request.Ruled service.deadlines.read verdict ∧
      (∀ other, call.request.Ruled service.deadlines.read other → other = verdict) ∧
      service.Attests (of service moves) i call verdict := by
  have sound := of_sound service moves
  have attest : Route.immediate? call.request = none := by
    simp [Route.immediate?, Route.ofPath, path]
  have rule := Intake.ruled_iff service.deadlines.read call.sent call.request
  have ruled := (rule _).mpr rfl
  exact ⟨_, ruled, fun other deserved => (rule other).mp deserved, attests sound sent attest ruled⟩

def mixedDigits : String := "00112233445566778899aAbBcCdDeEfF00112233445566778899AABBCCDDEEFF"

def boundRequest : Http.Request :=
  ⟨.get, ⟨none, none, "/gpu_attest", some ("nonce=" ++ mixedDigits)⟩, [], []⟩

/-- A service whose runs all take the same time and print nothing. -/
def steady (deadlines : Deadlines) (duration : Nat) : Service :=
  ⟨deadlines, "ok", fun _ _ => ⟨duration, .completed ⟨"", none⟩, [], []⟩, .ofNumber⟩

theorem attested_as_ruled_bound :
    ∃ run nonce,
      .started run ∈ (of (steady ⟨10, 10⟩ 1) [.exchange [⟨boundRequest, 0, none⟩]]).occurrences
          (steady ⟨10, 10⟩ 1) ∧
        run.ticket.caller = 0 ∧ run.ticket.nonce = some nonce ∧ nonce.text = mixedDigits := by
  have digits : IsNonceText mixedDigits := (isNonceText_iff _).mp (by decide +kernel)
  have first : FirstNonce boundRequest.pairs mixedDigits :=
    (firstNonce_iff _ _).mpr (by decide +kernel)
  obtain ⟨verdict, _, only, attests⟩ := attested_as_ruled (steady ⟨10, 10⟩ 1)
    [.exchange [⟨boundRequest, 0, none⟩]] (i := 0)
    (show _ = some (⟨boundRequest, 0, none⟩ : Call) from rfl) rfl
  have bound := only _ (.bound ⟨mixedDigits, (isNonceText_iff _).mpr digits⟩
    (.query rfl mixedDigits first) digits)
  obtain ⟨run, started, caller, nonce⟩ := attests.admitted rfl _ bound.symm
  exact ⟨run, _, started, caller, nonce, rfl⟩

end History

end AttestationService

import AttestationService.Proofs.Session.Runs

/-!
Who is answered with what. A reply comes from a page, a rejection, the deadline or the client itself,
or else from the run that the call was admitted for, and that run was given the call's own nonce. No
run answers two calls, and one that panics answers its own call with an empty envelope.
-/

namespace AttestationService

namespace Service

def answer (service : Service) (number : Nat) (call : Call) (response : Http.Response) (time : Nat) : Reply :=
  .answered (finalize (service.identify number call.request) call.request.method response) time

/-- The reply to a numbered call tells what a run came to, and the run is the call's own. -/
structure AnsweredBy (service : Service) (number : Nat) (call : Call) (run : Tenure)
    (reply : Reply) : Prop where
  own : (service.arrive number call).stage = .inr run.ticket
  caller : run.ticket.caller = number
  nonce : (service.intake call).verdict = .ok run.ticket.nonce
  performance : run.performance = service.tool run.number run.ticket.nonce
  inTime : run.ends < (service.departure call).1
  wantsBody : call.request.method ≠ .head
  reply : reply = service.answer number call
    (Outcome.ofRun run.performance.ending.run service.successMarker).response run.ends

/-- Why a numbered call was answered as it was, when all of `happened` has happened. -/
inductive Cause (service : Service) (number : Nat) (call : Call) (happened : List Occurrence)
    (reply : Reply) : Prop where
  | page (response : Http.Response) (here : Route.immediate? call.request = some response)
      (same : reply = service.answer number call response call.sent)
  | rejection (reason : Rejection) (attest : Route.immediate? call.request = none)
      (verdict : (service.intake call).verdict = .error reason)
      (same : reply = service.answer number call reason.response (service.intake call).ready)
  | expiry (same : reply = service.answer number call (.empty 408) (call.sent + service.deadlines.write))
  | cancellation (patience : Nat) (limit : call.patience = some patience)
      (same : reply = .cancelled (call.sent + patience))
  | run (run : Tenure) (started : .started run ∈ happened) (ended : .ended run ∈ happened)
      (answered : service.AnsweredBy number call run reply)

variable {service : Service} {number : Nat} {call : Call} {reply : Reply}
  {happened : List Occurrence}

theorem depart_cause : service.Cause number call happened
    (depart (service.identify number call.request) call (service.departure call)) := by
  unfold departure Call.departure
  cases limit : call.patience with
  | none => exact .expiry rfl
  | some patience =>
      by_cases early : call.sent + patience < call.sent + service.deadlines.write
      · simp only [early, if_true]
        exact .cancellation patience limit rfl
      · simp only [early, if_false]
        exact .expiry rfl

theorem settled_cause (settled : (service.arrive number call).stage = .inl reply) :
    service.Cause number call happened reply := by
  cases route : Route.immediate? call.request with
  | some response =>
      rw [arrive_page route, Sum.inl.injEq] at settled
      subst settled
      split
      · exact .page response route rfl
      · exact depart_cause
  | none =>
      rw [arrive_attest route] at settled
      split at settled
      · cases verdict : (service.intake call).verdict with
        | ok nonce =>
            simp only [verdict] at settled
            cases settled
        | error reason =>
            simp only [verdict, Sum.inl.injEq] at settled
            subst settled
            exact .rejection reason route verdict rfl
      · rw [Sum.inl.injEq] at settled
        subst settled
        exact depart_cause

theorem admitted_wantsBody {nonce : Option Nonce}
    (verdict : (service.intake call).verdict = .ok nonce) : call.request.method ≠ .head := by
  intro head
  simp [intake, Intake.ofRequest, head] at verdict

@[simp] theorem finalize_status (id : Correlation) (method : Http.Method)
    (response : Http.Response) : (finalize id method response).status = response.status := by
  unfold finalize
  split <;> rfl

theorem finalize_body {method : Http.Method} (wantsBody : method ≠ .head) (id : Correlation)
    (response : Http.Response) : (finalize id method response).body = response.body := by
  simp only [finalize, wantsBody, if_false]

end Service

namespace History

variable {service : Service} {h : History}

theorem reply_exists (sound : h.Sound service) {i : Nat} {call : Call}
    (sent : h.calls[i]? = some call) :
    ∃ reply, h.account.replies[i]? = some reply := by
  have bound := (List.getElem?_eq_some_iff.mp sent).1
  rw [← replies_length sound] at bound
  exact ⟨_, List.getElem?_eq_getElem bound⟩

theorem run_unique {run other : Tenure} (member : run ∈ h.runs service)
    (otherMember : other ∈ h.runs service) (same : run.ticket.caller = other.ticket.caller) :
    run = other :=
  line_unique service.tool (service.tickets_callers_nodup 0 h.calls) member otherMember same

theorem run_call {run : Tenure} (member : run ∈ h.runs service) :
    ∃ call, h.calls[run.ticket.caller]? = some call ∧
      (service.arrive run.ticket.caller call).stage = .inr run.ticket := by
  obtain ⟨arrival, known, admitted⟩ := (Session.mem_tickets _ _).mp (ticket_of_line _ member)
  obtain ⟨i, call, found, rfl⟩ := Service.mem_arrivals known
  rw [Service.ticket_caller admitted]
  rw [Nat.zero_add] at admitted ⊢
  exact ⟨call, found, admitted⟩

theorem concluded_by_run (sound : h.Sound service) {i : Nat} {call : Call} {reply : Reply}
    (sent : h.calls[i]? = some call) (got : h.account.replies[i]? = some reply) {run : Tenure}
    (member : run ∈ h.runs service) (own : (service.arrive i call).stage = .inr run.ticket)
    (inTime : run.ends < (service.departure call).1) :
    service.AnsweredBy i call run reply ∧ .ended run ∈ h.account.occurrences := by
  have concluded := concludes_at sound sent got
  simp only [Service.Concludes, own] at concluded
  obtain ⟨other, otherMember, ticket, same, ended⟩ := concluded
  -- the reply tells of some run for this caller, and a caller has one only
  obtain rfl : other = run := run_unique otherMember member (by rw [ticket])
  rw [Service.arrive_call] at ended
  refine ⟨?_, ended inTime⟩
  have verdict := (Service.arrive_ticket own).2.2.1
  refine ⟨own, ?_, verdict, ?_, inTime, Service.admitted_wantsBody verdict, ?_⟩
  · exact Service.ticket_caller own
  · exact line_performance service.tool 0 0 _ other member
  · rw [same, service.conclude_reply, Service.arrive_call, Service.arrive_id, if_pos inTime]
    rfl

theorem reply_cause (sound : h.Sound service) {i : Nat} {call : Call} {reply : Reply}
    (sent : h.calls[i]? = some call) (got : h.account.replies[i]? = some reply) :
    service.Cause i call h.account.occurrences reply := by
  have concluded := concludes_at sound sent got
  cases stage : (service.arrive i call).stage with
  | inl own =>
      simp only [Service.Concludes, stage] at concluded
      rw [concluded]
      exact Service.settled_cause stage
  | inr ticket =>
      simp only [Service.Concludes, stage] at concluded
      obtain ⟨run, member, rfl, same, _⟩ := concluded
      by_cases inTime : run.ends < (service.departure call).1
      · obtain ⟨answered, ended⟩ := concluded_by_run sound sent got member stage inTime
        exact .run run (started_of_ended sound.course.total ended) ended answered
      · rw [same, service.conclude_reply, Service.arrive_call, Service.arrive_id, if_neg inTime]
        exact Service.depart_cause

end History

namespace History

variable {service : Service} {h : History}

theorem started_iff (sound : h.Sound service) (run : Tenure) :
    .started run ∈ h.occurrences service ↔ run ∈ h.runs service := by
  rw [occurrences, RunQueue.advance_all service.tool sound.course.orderly, sound.course.total]
  exact mem_course_line service.tool 0 0 _ (.started run)

end History

end AttestationService

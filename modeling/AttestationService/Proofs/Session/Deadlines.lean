import AttestationService.Proofs.Session.Isolation
import AttestationService.Proofs.Session.Log

/-!
Deadlines. The handler of a call reads what there is to read, waits at the gate and waits for its own
run. If it is done before the deadline, the call is answered with what it came to, at that moment; if
it is done after the deadline, the call is answered at the deadline that its time is up. From then on
nothing is done for the call but the run that it was admitted for. Every run comes to an end, so every
handler is done some time; how late that is has no bound.
-/

namespace AttestationService

open Service (reaches depart finalize ticket)

/-- The runs of a history if a numbered call is admitted with this ticket, however late. -/
def History.runsWith (service : Service) (h : History) (i : Nat) (ticket : Ticket) : List Tenure :=
  line service.tool 0 0
    (Session.tickets ((h.arrivals service).modify i fun a => { a with stage := .inr ticket }))

/-- What the handler of a numbered call comes to and when, if it is given the time. -/
inductive Service.Handles (service : Service) (h : History) (i : Nat) (call : Call) :
    Http.Response → Nat → Prop where
  | page (response : Http.Response) (here : Route.immediate? call.request = some response) :
      Handles service h i call response call.sent
  | rejection (reason : Rejection) (attest : Route.immediate? call.request = none)
      (verdict : (service.intake call).verdict = .error reason) :
      Handles service h i call reason.response (service.intake call).ready
  | run (nonce : Option Nonce) (run : Tenure) (attest : Route.immediate? call.request = none)
      (verdict : (service.intake call).verdict = .ok nonce)
      (own : run.ticket = service.ticket i call ((service.intake call).ready, nonce))
      (member : run ∈ h.runsWith service i run.ticket) :
      Handles service h i call
        (Outcome.ofRun run.performance.ending.run service.successMarker).response run.ends

/-- An answer is the handler's own, at the moment when the handler is done, if that is before the
deadline; if it is after the deadline, the answer is given at the deadline and says that time is up. -/
structure Service.Prompt (service : Service) (i : Nat) (call : Call) (response : Http.Response)
    (finish : Nat) (answer : Http.Response) (time : Nat) : Prop where
  own : finish < service.deadline call → time = finish ∧
    answer = finalize (service.identify i call.request) call.request.method response
  expired : service.deadline call < finish → time = service.deadline call ∧
    answer = finalize (service.identify i call.request) call.request.method (.empty 408) ∧
    answer.status = 408 ∧ answer.body = []

namespace History

variable {service : Service} {h : History} {i : Nat} {call : Call}

theorem runsWith_admitted {ticket : Ticket} (sent : h.calls[i]? = some call)
    (admitted : (service.arrive i call).stage = .inr ticket) :
    h.runsWith service i ticket = h.runs service := by
  have unchanged : { service.arrive i call with stage := .inr ticket } = service.arrive i call := by
    rw [← admitted]
  have same : (h.arrivals service).modify i (fun a => { a with stage := .inr ticket }) =
      h.arrivals service := by
    apply List.ext_getElem?
    intro j
    rw [List.getElem?_modify]
    by_cases here : i = j
    · subst here
      rw [arrivals, Service.arrivals_getElem?, sent, Nat.zero_add]
      simp only [if_true]
      exact congrArg some unchanged
    · simp [here]
  rw [runsWith, same]
  rfl

theorem runsWith_run (service : Service) (sent : h.calls[i]? = some call) (ticket : Ticket) :
    ∃ run ∈ h.runsWith service i ticket, run.ticket = ticket := by
  apply line_of_ticket
  refine (Session.mem_tickets _ ticket).mpr
    ⟨{ service.arrive i call with stage := .inr ticket }, List.mem_of_getElem? (i := i) ?_, rfl⟩
  rw [List.getElem?_modify, arrivals, Service.arrivals_getElem?, sent, Nat.zero_add]
  simp

theorem handles_exists (service : Service) (sent : h.calls[i]? = some call) :
    ∃ response finish, service.Handles h i call response finish := by
  cases route : Route.immediate? call.request with
  | some response => exact ⟨_, _, .page response route⟩
  | none =>
      cases verdict : (service.intake call).verdict with
      | error reason => exact ⟨_, _, .rejection reason route verdict⟩
      | ok nonce =>
          obtain ⟨run, member, own⟩ := runsWith_run service sent
            (service.ticket i call ((service.intake call).ready, nonce))
          rw [← own] at member
          exact ⟨_, _, .run nonce run route verdict own member⟩

theorem depart_answered {id : Correlation} {answer : Http.Response} {time : Nat}
    (answered : depart id call (service.departure call) = .answered answer time) :
    service.departure call = (service.deadline call, .expired) ∧ time = service.deadline call ∧
      answer = finalize id call.request.method (.empty 408) ∧ answer.status = 408 ∧
      answer.body = [] := by
  rcases Service.departure_cases service call with ⟨expires, _⟩ | ⟨patience, _, _, cancels⟩
  · rw [expires] at answered ⊢
    cases answered
    refine ⟨rfl, rfl, rfl, Service.finalize_status id _ _, ?_⟩
    unfold finalize
    split <;> rfl
  · rw [cancels] at answered
    cases answered

theorem expired_reaches {time : Nat}
    (expires : service.departure call = (service.deadline call, .expired)) :
    reaches (service.departure call) time = true ↔ time < service.deadline call := by
  rw [expires]
  simp [reaches]

theorem departed_answer {number time : Nat} {answer : Http.Response}
    (late : ¬ reaches (service.departure call) (service.due call))
    (answered : depart (service.identify number call.request) call (service.departure call) =
      .answered answer time) :
    service.deadline call ≤ service.due call ∧ time = service.deadline call ∧
      answer = finalize (service.identify number call.request) call.request.method (.empty 408) ∧
      answer.status = 408 ∧ answer.body = [] := by
  obtain ⟨expires, expired⟩ := depart_answered answered
  rw [expired_reaches expires] at late
  exact ⟨by omega, expired⟩

section Handled
variable {response answer : Http.Response} {finish time : Nat}

theorem settled_prompt (settled : (service.arrive i call).stage =
      .inl (if reaches (service.departure call) (service.due call) then
        .answered (finalize (service.identify i call.request) call.request.method response)
          (service.due call)
      else depart (service.identify i call.request) call (service.departure call)))
    (concluded : service.Concludes (h.runs service) h.account.occurrences (service.arrive i call)
      (.answered answer time)) : service.Prompt i call response (service.due call) answer time := by
  simp only [Service.Concludes, settled] at concluded
  by_cases inTime : reaches (service.departure call) (service.due call)
  · rw [if_pos inTime] at concluded
    cases concluded
    refine ⟨fun _ => ⟨rfl, rfl⟩, fun late => ?_⟩
    have early := (Service.reaches_iff.mp inTime).1
    omega
  · rw [if_neg inTime] at concluded
    obtain ⟨late, expired⟩ := departed_answer inTime concluded.symm
    exact ⟨fun early => by omega, fun _ => expired⟩

theorem run_prompt (sent : h.calls[i]? = some call) {nonce : Option Nonce}
    {run : Tenure} (attest : Route.immediate? call.request = none)
    (verdict : (service.intake call).verdict = .ok nonce)
    (own : run.ticket = service.ticket i call ((service.intake call).ready, nonce))
    (member : run ∈ h.runsWith service i run.ticket)
    (concluded : service.Concludes (h.runs service) h.account.occurrences (service.arrive i call)
      (.answered answer time)) :
    service.Prompt i call
      (Outcome.ofRun run.performance.ending.run service.successMarker).response run.ends answer
      time := by
  have due : service.due call = (service.intake call).ready := if_pos attest
  have waited : service.due call ≤ run.ends := by
    have started := line_admitted service.tool 0 0 _ run member
    have busy := started_le_ends run
    rw [own] at started
    rw [due]
    exact Nat.le_trans started busy
  by_cases inTime : reaches (service.departure call) (service.due call)
  · have admitted : (service.arrive i call).stage = .inr run.ticket := by
      rw [own]
      apply Service.arrive_admitted
      rw [due] at inTime
      exact Service.admission_some.mpr ⟨attest, verdict, inTime, rfl⟩
    rw [runsWith_admitted sent admitted] at member
    simp only [Service.Concludes, admitted] at concluded
    obtain ⟨other, otherMember, same, replied, _⟩ := concluded
    obtain rfl : other = run := run_unique otherMember member (by rw [same])
    rw [service.conclude_reply, Service.arrive_call, Service.arrive_id] at replied
    by_cases early : other.ends < (service.departure call).1
    · rw [if_pos early] at replied
      cases replied
      have before := (Service.before_departure_iff.mp early).1
      exact ⟨fun _ => ⟨rfl, rfl⟩, fun late => by omega⟩
    · rw [if_neg early] at replied
      obtain ⟨expires, expired⟩ := depart_answered replied.symm
      rw [expires] at early
      exact ⟨fun before => absurd before early, fun _ => expired⟩
  · have stage : (service.arrive i call).stage = _ := service.arrive_attest attest
    rw [← due, if_neg inTime] at stage
    simp only [Service.Concludes, stage] at concluded
    obtain ⟨late, expired⟩ := departed_answer inTime concluded.symm
    exact ⟨fun early => by omega, fun _ => expired⟩

theorem handled_prompt (sound : h.Sound service) (sent : h.calls[i]? = some call)
    (handles : service.Handles h i call response finish)
    (got : h.account.replies[i]? = some (.answered answer time)) :
    service.Prompt i call response finish answer time := by
  have concluded := concludes_at sound sent got
  cases handles with
  | page response here =>
      have due : service.due call = call.sent := if_neg (by simp [here])
      rw [← due]
      apply settled_prompt _ concluded
      rw [due]
      exact service.arrive_page here
  | rejection reason attest verdict =>
      have due : service.due call = (service.intake call).ready := if_pos attest
      rw [← due]
      apply settled_prompt _ concluded
      rw [service.arrive_attest attest, due, verdict]
      split <;> rfl
  | run nonce run attest verdict own member =>
      exact run_prompt sent attest verdict own member concluded

end Handled

theorem reply_by_deadline (sound : h.Sound service) {reply : Reply} (sent : h.calls[i]? = some call)
    (got : h.account.replies[i]? = some reply) : reply.time ≤ service.deadline call := by
  have concluded := concludes_at sound sent got
  have departs : (service.departure call).1 ≤ service.deadline call := Service.departure_bounds.2
  cases stage : (service.arrive i call).stage with
  | inl own =>
      have settled : (service.arrive i call).settledAt = _ := Service.settledAt_eq
      simp only [Service.Arrival.settledAt, stage] at settled
      simp only [Service.Concludes, stage] at concluded
      rw [concluded, settled]
      split
      · rename_i inTime
        exact Nat.le_of_lt (Service.reaches_iff.mp inTime).1
      · exact departs
  | inr ticket =>
      simp only [Service.Concludes, stage] at concluded
      obtain ⟨run, _, _, rfl, _⟩ := concluded
      simp only [service.conclude_time, Service.arrive_call]
      split <;> omega

theorem reply_kind (sound : h.Sound service) {reply : Reply} (sent : h.calls[i]? = some call)
    (got : h.account.replies[i]? = some reply) :
    (∃ patience, call.patience = some patience ∧ reply = .cancelled (call.sent + patience)) ∨
      ∃ answer, reply = .answered answer reply.time := by
  cases reply_cause sound sent got with
  | page response _ same => exact .inr ⟨_, by rw [same]; rfl⟩
  | rejection reason _ _ same => exact .inr ⟨_, by rw [same]; rfl⟩
  | expiry same => exact .inr ⟨_, by rw [same]; rfl⟩
  | cancellation patience limit same => exact .inl ⟨patience, limit, same⟩
  | run run _ _ answered => exact .inr ⟨_, by rw [answered.reply]; rfl⟩

theorem run_admitted (sound : h.Sound service) (sent : h.calls[i]? = some call) {o : Occurrence}
    (happens : o ∈ h.occurrences service) (own : o.tenure.ticket.caller = i) :
    ∃ admission, service.admission? call = some admission ∧ admission.1 < service.deadline call ∧
      o.tenure.ticket = service.ticket i call admission := by
  rw [occurrences_runs sound] at happens
  have member := (mem_course_line service.tool 0 0 _ o).mp happens
  obtain ⟨other, found, admitted⟩ := run_call member
  rw [own] at found admitted
  rw [sent, Option.some.injEq] at found
  subst found
  have given : (service.arrive i call).stage.getRight? = _ := Service.arrive_ticket?
  rw [admitted] at given
  obtain ⟨admission, known, same⟩ := Option.map_eq_some_iff.mp given.symm
  obtain ⟨_, _, inTime, ready⟩ := Service.admission_some.mp known
  have early := (Service.reaches_iff.mp inTime).1
  rw [ready] at early
  exact ⟨admission, known, early, same.symm⟩

theorem admitted_run (sound : h.Sound service) (sent : h.calls[i]? = some call)
    {admission : Nat × Option Nonce} (admitted : service.admission? call = some admission) :
    ∃ run, .started run ∈ h.occurrences service ∧ .ended run ∈ h.occurrences service ∧
      run.ticket = service.ticket i call admission := by
  have stage : (service.arrive i call).stage = _ := Service.arrive_admitted admitted
  obtain ⟨run, started, own⟩ := admitted_started sound sent stage
  have member := (started_iff sound run).mp started
  refine ⟨run, started, ?_, own⟩
  rw [occurrences_runs sound]
  exact (mem_course_line service.tool 0 0 _ (.ended run)).mpr member

end History

/-- How a numbered call of a history fares with its deadline. -/
structure Service.KeepsTime (service : Service) (h : History) (i : Nat) (call : Call) : Prop where
  replied : ∃ reply, h.account.replies[i]? = some reply ∧ reply.time ≤ service.deadline call ∧
    ((∃ patience, call.patience = some patience ∧ reply = .cancelled (call.sent + patience)) ∨
      ∃ answer, reply = .answered answer reply.time)
  handled : ∃ response finish, service.Handles h i call response finish
  prompt : ∀ response finish answer time, service.Handles h i call response finish →
    h.account.replies[i]? = some (.answered answer time) →
      service.Prompt i call response finish answer time
  /-- Whatever is reported after the reply is about the run of the call, or about another call. -/
  silent : ∀ reply entry, h.account.replies[i]? = some reply → entry ∈ h.account.entries →
    reply.time < entry.time →
      (∃ o ∈ h.account.occurrences, o.tenure.ticket.caller = i ∧ entry.time = o.time ∧
        entry.notice ∈ o.notices) ∨
      ∃ j other, j ≠ i ∧ h.calls[j]? = some other ∧
        entry.id = service.identify j other.request ∧ entry.Concerns h j other
  /-- A run of the call is the one that it was admitted for in time, -/
  entitled : ∀ o ∈ h.occurrences service, o.tenure.ticket.caller = i →
    ∃ admission, service.admission? call = some admission ∧ admission.1 < service.deadline call ∧
      o.tenure.ticket = service.ticket i call admission
  /-- and that run takes place whatever the reply is. -/
  served : ∀ admission, service.admission? call = some admission →
    ∃ run, .started run ∈ h.occurrences service ∧ .ended run ∈ h.occurrences service ∧
      run.ticket = service.ticket i call admission

namespace History

theorem silent_after_reply (service : Service) (moves : List Move) {i : Nat} {reply : Reply}
    {entry : Entry} (got : (of service moves).account.replies[i]? = some reply)
    (reported : entry ∈ (of service moves).account.entries) (later : reply.time < entry.time) :
    (∃ o ∈ (of service moves).account.occurrences, o.tenure.ticket.caller = i ∧
        entry.time = o.time ∧ entry.notice ∈ o.notices) ∨
      ∃ j other, j ≠ i ∧ (of service moves).calls[j]? = some other ∧
        entry.id = service.identify j other.request ∧
        entry.Concerns (of service moves) j other := by
  obtain ⟨j, other, found, id, concerns⟩ := entry_concerns service moves reported
  by_cases same : j = i
  · subst same
    cases concerns with
    | run o happened caller time notice => exact .inl ⟨o, happened, caller, time, notice⟩
    | call known replied since until_ =>
        rw [got, Option.some.injEq] at replied
        subst replied
        omega
  · exact .inr ⟨j, other, same, found, id, concerns⟩

/-- Every call of every history keeps to its deadline. -/
theorem answered_by_deadline (service : Service) (moves : List Move) :
    (of service moves).account.replies.length = (of service moves).calls.length ∧
      ∀ i call, (of service moves).calls[i]? = some call →
        service.KeepsTime (of service moves) i call := by
  have sound := of_sound service moves
  refine ⟨replies_length sound, fun i call sent => ?_⟩
  obtain ⟨reply, got⟩ := reply_exists sound sent
  refine ⟨⟨reply, got, reply_by_deadline sound sent got, reply_kind sound sent got⟩,
    handles_exists service sent, ?_, ?_, ?_, ?_⟩
  · exact fun response finish answer time handles given => handled_prompt sound sent handles given
  · exact fun reply entry given reported later => silent_after_reply service moves given reported later
  · exact fun o happens own => run_admitted sound sent happens own
  · exact fun admission admitted => admitted_run sound sent admitted

def twoCalls : List Call := [attestCall .get 0, attestCall .get 0]

def oneOfTwo (number : Nat) : Ticket :=
  (steady ⟨10, 20⟩ 15).ticket number (attestCall .get 0) (0, none)

theorem answered_by_deadline_waiting : ∃ answer run,
    (of (steady ⟨10, 20⟩ 15) [.exchange twoCalls]).account.replies[1]? = some (.answered answer 20) ∧
      answer.status = 408 ∧ answer.body = [] ∧
      .ended run ∈ (of (steady ⟨10, 20⟩ 15) [.exchange twoCalls]).occurrences (steady ⟨10, 20⟩ 15) ∧
      run.ticket.caller = 1 := by
  obtain ⟨_, each⟩ := answered_by_deadline (steady ⟨10, 20⟩ 15) [.exchange twoCalls]
  have keeps := each 1 (attestCall .get 0) rfl
  have waits : (steady ⟨10, 20⟩ 15).Handles (of (steady ⟨10, 20⟩ 15) [.exchange twoCalls]) 1
      (attestCall .get 0) (Outcome.ofRun ⟨"", none⟩ "ok").response 30 := by
    refine .run none ⟨oneOfTwo 1, 1, 15, ⟨15, .completed ⟨"", none⟩, [], []⟩⟩ rfl rfl rfl ?_
    have tickets : Session.tickets (((of (steady ⟨10, 20⟩ 15) [.exchange twoCalls]).arrivals
        (steady ⟨10, 20⟩ 15)).modify 1 fun a => { a with stage := .inr (oneOfTwo 1) }) =
        [oneOfTwo 0, oneOfTwo 1] := by
      exact List.mergeSort_of_pairwise (by decide)
    rw [runsWith, tickets]
    exact List.mem_cons_of_mem _ List.mem_cons_self
  obtain ⟨reply, got, _, ⟨_, impatient, _⟩ | ⟨answer, answered⟩⟩ := keeps.replied
  · cases impatient
  · rw [answered] at got
    obtain ⟨moment, _, status, body⟩ := (keeps.prompt _ _ _ _ waits got).expired (by decide)
    rw [moment] at got
    obtain ⟨run, _, ended, own⟩ := keeps.served (0, none) rfl
    exact ⟨answer, run, got, status, body, ended, congrArg Ticket.caller own⟩

end History

end AttestationService

import AttestationService.Proofs.Session.Shares

/-!
What the log tells of each request. Of an admitted one it says that its run enters the gate and, unless it
panics, leaves it, whether the run is lost while its caller waits for it, and when the request is completed.
Whatever it says carries the id of the request. What the verifier itself reports in a run stands apart.
-/

namespace AttestationService

inductive Log.Milestone where
  | entered
  | left
  | lost
  | completed
  deriving DecidableEq

def Log.Notice.milestone? : Log.Notice → Option Log.Milestone
  | .gateEntered => some .entered
  | .gateLeft => some .left
  | .runLost _ => some .lost
  | .attestCompleted .. => some .completed
  | _ => none

def marks (kind : Log.Milestone) (entries : List Entry) : List Entry :=
  entries.filter (·.notice.milestone? = some kind)

@[simp] theorem marks_append (kind : Log.Milestone) (first second : List Entry) :
    marks kind (first ++ second) = marks kind first ++ marks kind second := List.filter_append ..

theorem marks_none {kind : Log.Milestone} {entries : List Entry}
    (plain : ∀ entry ∈ entries, entry.notice.milestone? = none) : marks kind entries = [] := by
  refine List.filter_eq_nil_iff.mpr fun entry member => ?_
  simp [plain entry member]

namespace Intake

theorem check_plain (raw : String) : (check raw).1.milestone? = none := by
  unfold check
  split <;> rfl

theorem ofBodyNonce_plain (nonce : BodyNonce) :
    ∀ notice ∈ ofBodyNonce nonce, notice.milestone? = none := by
  cases nonce <;> simp [ofBodyNonce, Log.Notice.milestone?]

theorem ofRequest_plain (readDeadline sent : Nat) (request : Http.Request) :
    ∀ notice ∈ (ofRequest readDeadline sent request).notices, notice.2.milestone? = none := by
  intro notice member
  unfold ofRequest at member
  split at member
  · simp only [List.map_cons, List.map_nil, List.mem_cons, List.not_mem_nil, or_false] at member
    rcases member with rfl | rfl | rfl
    · rfl
    · rfl
    · exact check_plain _
  · split at member
    · simp only [List.mem_cons, List.not_mem_nil, or_false] at member
      rcases member with rfl | rfl <;> rfl
    · rename_i octets _
      rcases List.mem_cons.mp member with rfl | later
      · rfl
      · obtain ⟨said, inBody, rfl⟩ := List.mem_map.mp later
        rcases List.mem_cons.mp inBody with rfl | inNonce
        · rfl
        · rcases List.mem_append.mp inNonce with ignored | ruled
          · exact ofBodyNonce_plain _ said ignored
          · rw [List.mem_singleton.mp ruled]
            exact check_plain _
  · simp only [List.map_cons, List.map_nil, List.mem_cons, List.not_mem_nil, or_false] at member
    rcases member with rfl | rfl <;> rfl

end Intake

theorem Service.arrive_plain (service : Service) (number : Nat) (call : Call) :
    ∀ entry ∈ (service.arrive number call).entries, entry.notice.milestone? = none := by
  intro entry member
  rw [arrive_entries] at member
  rcases List.mem_append.mp member with assigned | heard
  · unfold assignment at assigned
    split at assigned
    · rw [List.mem_singleton.mp assigned]
      rfl
    · cases assigned
  · split at heard
    · obtain ⟨notice, inTime, rfl⟩ := List.mem_map.mp heard
      exact Intake.ofRequest_plain _ _ _ notice (List.mem_filter.mp inTime).1
    · cases heard

namespace Outcome

theorem response_status (o : Outcome) :
    o.response.status = 200 ∨ o.response.status = 400 ∨ o.response.status = 500 := by
  show o.status = 200 ∨ o.status = 400 ∨ o.status = 500
  unfold status
  split
  · exact .inr (.inr rfl)
  · split
    · exact .inl rfl
    · exact .inr (.inl rfl)

theorem unexpired (o : Outcome) : o.response.status ≠ 408 := by
  rcases o.response_status with status | status | status <;> rw [status] <;> decide

theorem completed_level (o : Outcome) (milliseconds : Nat) :
    (Log.Notice.attestCompleted o.response.status milliseconds).level =
      if o.response.status = 500 then .error else .info := by
  rcases o.response_status with status | status | status <;> rw [status] <;> rfl

end Outcome

section Conclusions
variable {service : Service} {arrival : Service.Arrival} {run : Tenure}

theorem conclude_marks (waits : run.ends < (service.departure arrival.call).1) :
    marks .entered (service.conclude arrival run).2 = [] ∧
      marks .left (service.conclude arrival run).2 = [] ∧
      (marks .lost (service.conclude arrival run).2 = match run.performance.ending with
        | .panicked text => [⟨run.ends, arrival.id, .runLost (Verifier.Ending.panicReason text)⟩]
        | .completed _ => []) ∧
      marks .completed (service.conclude arrival run).2 = [⟨run.ends, arrival.id, .attestCompleted
        (Outcome.ofRun run.performance.ending.run service.successMarker).status
        (run.ends - arrival.call.sent)⟩] := by
  have reports : (service.conclude arrival run).2 = _ := congrArg Prod.snd (if_pos waits)
  rw [reports]
  -- whatever the run came to, its reports are spelled out
  cases run.performance.ending with
  | panicked text => exact ⟨rfl, rfl, rfl, rfl⟩
  | completed result =>
      obtain ⟨output, failure⟩ := result
      cases failure with
      | none => exact ⟨rfl, rfl, rfl, rfl⟩
      | some failure => exact ⟨rfl, rfl, rfl, rfl⟩

theorem conclude_late (late : (service.departure arrival.call).1 ≤ run.ends) :
    (service.conclude arrival run).2 = [] := by
  unfold Service.conclude
  exact congrArg Prod.snd (if_neg (Nat.not_lt.mpr late))

theorem gate_marks (run : Tenure) : marks .entered run.gateEntries = [run.enters] ∧
    (marks .left run.gateEntries = if run.performance.ending.isPanic then [] else [run.leaves]) ∧
    marks .lost run.gateEntries = [] ∧ marks .completed run.gateEntries = [] := by
  unfold Tenure.gateEntries
  cases run.performance.ending.isPanic <;> exact ⟨rfl, rfl, rfl, rfl⟩

end Conclusions

/-- What the service itself reports of the run of a call. -/
structure Service.RunLogged (service : Service) (h : History) (call : Call) (run : Tenure)
    (own : List Entry) : Prop where
  entered : marks .entered own = [run.enters]
  left : marks .left own = if run.performance.ending.isPanic then [] else [run.leaves]
  ordered : run.performance.ending.isPanic = false → [run.enters, run.leaves].Sublist (h.log service)
  /-- A run that panics before its caller is gone is reported as lost. -/
  lost : ∀ text, run.performance.ending = .panicked text → run.ends < (service.departure call).1 →
    marks .lost own = [⟨run.ends, run.ticket.id, .runLost (Verifier.Ending.panicReason text)⟩]
  kept : run.performance.ending.isPanic = false ∨ (service.departure call).1 ≤ run.ends →
    marks .lost own = []

/-- What is reported on behalf of a numbered call: by the service itself, and by the verifier in the run. -/
structure Service.Logged (service : Service) (h : History) (i : Nat) (call : Call)
    (own byTool : List Entry) : Prop where
  tagged : ∀ entry ∈ own ++ byTool, entry.id = service.identify i call.request
  /-- The verifier reports only as a run of the call begins or ends. -/
  tool : ∀ entry ∈ byTool, ∃ run, .started run ∈ h.occurrences service ∧ run.ticket.caller = i ∧
    (entry.time = run.started ∧ entry.notice ∈ run.performance.opening ∨
      entry.time = run.ends ∧ entry.notice ∈ run.performance.closing)
  admitted : ∀ ticket, (service.arrive i call).stage = .inr ticket →
    ∃ run, .started run ∈ h.occurrences service ∧ run.ticket = ticket ∧
      service.RunLogged h call run own
  unadmitted : ∀ reply, (service.arrive i call).stage = .inl reply →
    byTool = [] ∧ ∀ kind, marks kind own = []
  completed : ∀ run response time, h.account.replies[i]? = some (.answered response time) →
    service.AnsweredBy i call run (.answered response time) →
    marks .completed own = [⟨time, service.identify i call.request,
        .attestCompleted response.status (time - call.sent)⟩] ∧
      (Log.Notice.attestCompleted response.status (time - call.sent)).level =
        if response.status = 500 then .error else .info
  /-- No other call is: not one that is rejected, whose time is up, or whose client is gone. -/
  uncompleted : (∃ reason, (service.intake call).verdict = .error reason) ∨
      (∃ response time, h.account.replies[i]? = some (.answered response time) ∧
        response.status = 408) ∨
      (∃ time, h.account.replies[i]? = some (.cancelled time)) ∨
      (∀ run reply, h.account.replies[i]? = some reply → ¬ service.AnsweredBy i call run reply) →
    marks .completed own = []

namespace History

variable {service : Service} {h : History} {i : Nat} {call : Call} {told : List (List Entry)}

theorem logged_alone (logs : h.Logs service told) (sent : h.calls[i]? = some call) {reply : Reply}
    (settled : (service.arrive i call).stage = .inl reply) :
    service.Logged h i call (h.share service told i) (h.toolShare service i) := by
  obtain ⟨own, tool⟩ := share_alone logs sent settled
  have plain (kind : Log.Milestone) : marks kind (service.arrive i call).entries = [] :=
    marks_none (service.arrive_plain i call)
  rw [own, tool]
  constructor
  · intro entry member
    rw [List.append_nil] at member
    exact (Service.arrive_entry member).1
  · rintro _ ⟨⟩
  · intro ticket admitted
    rw [settled] at admitted
    cases admitted
  · intro _ _
    exact ⟨rfl, plain⟩
  · intro run response time _ answered
    have admitted := answered.own
    rw [settled] at admitted
    cases admitted
  · intro _
    exact plain .completed

theorem admitted_marks {run : Tenure} {told : List Entry} (kind : Log.Milestone) :
    marks kind ((service.arrive i call).entries ++ run.gateEntries ++ told) =
      marks kind run.gateEntries ++ marks kind told := by
  rw [marks_append, marks_append, marks_none (service.arrive_plain i call), List.nil_append]

theorem run_logged (service : Service) (moves : List Move) {run : Tenure}
    (member : run ∈ (of service moves).runs service)
    (own : (service.arrive i call).stage = .inr run.ticket) :
    service.RunLogged (of service moves) call run ((service.arrive i call).entries ++ run.gateEntries ++
      (service.conclude (service.arrive i call) run).2) := by
  obtain ⟨entered, left, lost, _⟩ := gate_marks run
  have id : (service.arrive i call).id = run.ticket.id := by
    rw [Service.arrive_id, Service.ticket_id own]
  -- A client that has gone by the end of the run adds nothing to what the gate says.
  by_cases waits : run.ends < (service.departure call).1
  · have there : run.ends < (service.departure (service.arrive i call).call).1 := by
      rwa [Service.arrive_call]
    obtain ⟨noneEntered, noneLeft, toldLost, _⟩ := conclude_marks there
    rw [id] at toldLost
    refine ⟨?_, ?_, entered_before_left service moves member, ?_, ?_⟩
    · rw [admitted_marks, entered, noneEntered, List.append_nil]
    · rw [admitted_marks, left, noneLeft, List.append_nil]
    · intro text panicked _
      rw [admitted_marks, lost, toldLost, panicked, List.nil_append]
    · rintro (fine | gone)
      · rw [admitted_marks, lost, toldLost, List.nil_append]
        cases ending : run.performance.ending with
        | completed => rfl
        | panicked text =>
            rw [ending] at fine
            cases fine
      · omega
  · have gone : (service.departure (service.arrive i call).call).1 ≤ run.ends := by
      rw [Service.arrive_call]
      exact not_lt.mp waits
    rw [conclude_late gone]
    refine ⟨?_, ?_, entered_before_left service moves member, ?_, ?_⟩
    · rw [admitted_marks, entered]
      rfl
    · rw [admitted_marks, left]
      exact List.append_nil _
    · exact fun _ _ early => absurd early waits
    · intro _
      rw [admitted_marks, lost]
      rfl

theorem answered_waits (sound : h.Sound service) (sent : h.calls[i]? = some call) {run other : Tenure}
    {response : Http.Response} {time : Nat} (got : h.account.replies[i]? = some (.answered response time))
    (member : run ∈ h.runs service) (own : (service.arrive i call).stage = .inr run.ticket)
    (answered : service.AnsweredBy i call other (.answered response time)) :
    run.ends < (service.departure call).1 := by
  by_contra late
  have concluded := concludes_at sound sent got
  simp only [Service.Concludes, own] at concluded
  obtain ⟨found, inRuns, ticket, reply, _⟩ := concluded
  obtain rfl : found = run := run_unique inRuns member (by rw [ticket])
  -- it would have departed, and that is later than it was answered
  have departed := service.conclude_time (service.arrive i call) found
  rw [← reply, Service.arrive_call, if_neg late] at departed
  have inTime := answered.inTime
  have same : time = other.ends := congrArg Reply.time answered.reply
  have after : time = (service.departure call).1 := departed
  omega

theorem logged_admitted (service : Service) (moves : List Move) (logs : (of service moves).Logs service told)
    (sent : (of service moves).calls[i]? = some call) {ticket : Ticket}
    (admitted : (service.arrive i call).stage = .inr ticket) :
    service.Logged (of service moves) i call ((of service moves).share service told i)
      ((of service moves).toolShare service i) := by
  have sound := of_sound service moves
  obtain ⟨run, member, rfl, own, tool⟩ := share_admitted logs sent admitted
  have started := (started_iff sound run).mpr member
  have id : run.ticket.id = service.identify i call.request := Service.ticket_id admitted
  obtain ⟨_, _, _, gateCompleted⟩ := gate_marks run
  have answered {reply : Reply} (got : (of service moves).account.replies[i]? = some reply)
      (waits : run.ends < (service.departure call).1) : service.AnsweredBy i call run reply :=
    (concluded_by_run sound sent got member admitted waits).1
  rw [own, tool]
  constructor
  · intro entry reported
    simp only [List.mem_append] at reported
    rcases reported with ((taken | gate) | told) | tool
    · exact (Service.arrive_entry taken).1
    · exact (gateEntries_id run gate).trans id
    · exact (Service.conclude_entry told).1.trans Service.arrive_id
    · exact (toolEntries_mem run tool).1.trans id
  · intro entry reported
    obtain ⟨_, when_⟩ := toolEntries_mem run reported
    exact ⟨run, started, Service.ticket_caller admitted, when_⟩
  · intro ticket same
    rw [admitted, Sum.inr.injEq] at same
    exact ⟨run, started, same, run_logged service moves member admitted⟩
  · intro reply settled
    rw [admitted] at settled
    cases settled
  · intro other response time got byOther
    have waits := answered_waits sound sent got member admitted byOther
    have reply := (answered got waits).reply
    obtain ⟨rfl, rfl⟩ : response = _ ∧ time = _ := Reply.answered.inj reply
    have there : run.ends < (service.departure (service.arrive i call).call).1 := by
      rwa [Service.arrive_call]
    obtain ⟨_, _, _, completed⟩ := conclude_marks there
    rw [admitted_marks, gateCompleted, completed, Service.arrive_id, Service.arrive_call,
      Service.finalize_status]
    exact ⟨rfl, Outcome.completed_level _ _⟩
  · intro without
    -- nothing is told to a caller that is gone, and one that is still there is answered by its run
    suffices late : (service.departure call).1 ≤ run.ends by
      rw [admitted_marks, gateCompleted, conclude_late (by rwa [Service.arrive_call])]
      rfl
    by_contra early
    obtain ⟨reply, got⟩ := reply_exists sound sent
    have byRun := answered got (not_le.mp early)
    rcases without with
      ⟨reason, rejected⟩ | ⟨response, time, expired, status⟩ | ⟨time, cancelled⟩ | nobody
    · have verdict := byRun.nonce
      rw [rejected] at verdict
      cases verdict
    · rw [got, Option.some.injEq] at expired
      subst expired
      obtain ⟨rfl, _⟩ := Reply.answered.inj byRun.reply
      rw [Service.finalize_status] at status
      exact Outcome.unexpired _ status
    · rw [got, Option.some.injEq] at cancelled
      subst cancelled
      cases byRun.reply
    · exact nobody run reply got byRun

/-- All that is ever reported is reported on behalf of one request each, and carries its id. -/
theorem log_traced (service : Service) (moves : List Move) :
    ∃ own byTool : Nat → List Entry,
      ((of service moves).log service).Perm
        ((List.range (of service moves).calls.length).flatMap fun i => own i ++ byTool i) ∧
      ∀ i call, (of service moves).calls[i]? = some call →
        service.Logged (of service moves) i call (own i) (byTool i) := by
  obtain ⟨told, logs⟩ := of_logs service moves
  refine ⟨_, _, log_shared (of_sound service moves) logs, fun i call sent => ?_⟩
  cases stage : (service.arrive i call).stage with
  | inl reply => exact logged_alone logs sent stage
  | inr ticket => exact logged_admitted service moves logs sent stage

end History

end AttestationService

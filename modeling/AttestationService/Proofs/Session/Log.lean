import AttestationService.Proofs.Session.Admission
import AttestationService.Proofs.Session.Attestation

/-!
The log of a history. It holds what calls report as they are taken in, what runs report, and what
callers that are still there report when their run is over; nothing else, and nothing twice. So a call
reports nothing after its reply, and whatever is reported carries the id of the call it is about.
-/

namespace AttestationService

def Service.Reports (service : Service) (runs : List Tenure) (arrival : Service.Arrival)
    (entries : List Entry) : Prop :=
  match arrival.stage with
  | .inl _ => entries = []
  | .inr ticket => ∃ run ∈ runs, run.ticket = ticket ∧ entries = (service.conclude arrival run).2

theorem joined_perm {α : Type} (a b c d e f : List α) :
    ((a ++ b ++ c) ++ (d ++ e ++ f)).Perm ((a ++ d) ++ (b ++ e) ++ (c ++ f)) := by
  classical
  rw [List.perm_iff_count]
  intro x
  simp only [List.count_append]
  omega

namespace Session

theorem occurrenceEntries_append (first second : List Occurrence) :
    occurrenceEntries (first ++ second) = occurrenceEntries first ++ occurrenceEntries second :=
  List.flatMap_append

variable (service : Service) (calls : List Call) (s : Session)

def report (service : Service) (all : List Occurrence) (arrival : Service.Arrival) : List Entry :=
  match arrival.stage with
  | .inl _ => []
  | .inr ticket =>
    match endOf? all ticket.caller with
    | some run => (service.conclude arrival run).2
    | none => []

theorem exchange_entries : (s.exchange service calls).1.entries.Perm
    ((service.arrivals s.calls calls).flatMap (·.entries) ++
      occurrenceEntries (s.exchange service calls).1.occurrences ++
      ((service.arrivals s.calls calls).map (report service (s.foreseen service calls))).flatten) := by
  refine (List.mergeSort_perm _ _).trans (.of_eq ?_)
  simp only [exchange, foreseen, accepted, Service.arrivals_eq_zipIdx, ← List.flatMap_def,
    List.flatMap_map]
  refine congrArg _ (List.flatMap_congr fun call _ => ?_)
  simp only [report]
  cases (service.arrive (s.calls + call.2) call.1).stage with
  | inl reply => rfl
  | inr ticket =>
      -- both sides look for the same end among the same occurrences
      simp only
      generalize endOf? _ ticket.caller = ended
      cases ended <;> rfl

end Session

namespace History

variable {service : Service} {h : History} {calls : List Call}

/-- The log holds what the calls report as they are taken in, what the runs report, and what the
calls report when they are told about their runs. -/
def Logs (service : Service) (h : History) (told : List (List Entry)) : Prop :=
  List.Forall₂ (service.Reports (h.runs service)) (h.arrivals service) told ∧
    h.account.entries.Perm ((h.arrivals service).flatMap (·.entries) ++
      Session.occurrenceEntries h.account.occurrences ++ told.flatten)

theorem reports_mono {runs more : List Tenure} (grows : runs ⊆ more) {arrival : Service.Arrival}
    {entries : List Entry} (reported : service.Reports runs arrival entries) :
    service.Reports more arrival entries := by
  unfold Service.Reports at reported ⊢
  cases stage : arrival.stage with
  | inl own => simpa only [stage] using reported
  | inr ticket =>
      simp only [stage] at reported ⊢
      obtain ⟨run, member, own, same⟩ := reported
      exact ⟨run, grows member, own, same⟩

theorem pause_logs {told : List (List Entry)} (logs : h.Logs service told) (milliseconds : Nat) :
    (h.next service (.pause milliseconds)).Logs service told := by
  refine ⟨logs.1, ?_⟩
  show (h.account.entries ++ Session.occurrenceEntries (h.session.queue.advance service.tool _).1).Perm
    ((h.arrivals service).flatMap (·.entries) ++ Session.occurrenceEntries (h.account.occurrences ++
      (h.session.queue.advance service.tool _).1) ++ told.flatten)
  generalize (h.session.queue.advance service.tool _).1 = happened
  rw [Session.occurrenceEntries_append]
  have longer := logs.2.append_right (Session.occurrenceEntries happened)
  have joined := joined_perm ((h.arrivals service).flatMap (·.entries))
    (Session.occurrenceEntries h.account.occurrences) told.flatten []
    (Session.occurrenceEntries happened) []
  simp only [List.append_nil, List.nil_append] at joined
  exact longer.trans joined

theorem exchange_told (sound : h.Sound service)
    (fresh : ∀ call ∈ calls, h.session.now ≤ call.sent) :
    List.Forall₂ (service.Reports
        (line service.tool 0 0 (h.tickets service ++ h.newcomers service calls)))
      (service.arrivals h.session.calls calls)
      ((service.arrivals h.session.calls calls).map
        (Session.report service (h.session.foreseen service calls))) := by
  rw [List.forall₂_map_right_iff, List.forall₂_same]
  intro arrival known
  unfold Service.Reports
  cases stage : arrival.stage with
  | inl own => simp only [Session.report, stage]
  | inr ticket =>
      have member : ticket ∈ h.newcomers service calls :=
        (Session.mem_tickets _ ticket).mpr ⟨arrival, known, stage⟩
      obtain ⟨run, inLine, own, found⟩ := endOf_foreseen sound fresh member
      exact ⟨run, inLine, own, by simp only [Session.report, stage, found]⟩

theorem exchange_logs (sound : h.Sound service) {told : List (List Entry)}
    (logs : h.Logs service told) (calls : List Call) :
    ∃ more, (h.next service (.exchange calls)).Logs service (told ++ more) := by
  obtain ⟨sent, fresh, moved⟩ := exchange_sent service h calls
  have tickets := tickets_extend sound fresh
  refine ⟨(service.arrivals h.session.calls sent).map
    (Session.report service (h.session.foreseen service sent)), ?_⟩
  rw [moved]
  constructor
  · show List.Forall₂ (service.Reports
      (line service.tool 0 0 (Session.tickets (service.arrivals 0 (h.calls ++ sent)))))
        (service.arrivals 0 (h.calls ++ sent)) _
    rw [tickets, service.arrivals_append, Nat.zero_add, ← sound.numbered]
    refine List.rel_append (logs.1.imp fun arrival entries reported => ?_) (exchange_told sound fresh)
    refine reports_mono ?_ reported
    rw [line_append]
    exact List.subset_append_left _ _
  · have longer := logs.2.append (h.session.exchange_entries service sent)
    show (h.account.entries ++ _).Perm ((service.arrivals 0 (h.calls ++ sent)).flatMap _ ++
      Session.occurrenceEntries (h.account.occurrences ++ _) ++ _)
    rw [service.arrivals_append, Nat.zero_add, ← sound.numbered, List.flatMap_append,
      Session.occurrenceEntries_append, List.flatten_append]
    exact longer.trans (joined_perm _ _ _ _ _ _)

theorem of_logs (service : Service) (moves : List Move) :
    ∃ told, (of service moves).Logs service told := by
  induction moves using List.reverseRecOn with
  | nil => exact ⟨[], .nil, .nil⟩
  | append_singleton moves move ih =>
      obtain ⟨told, logs⟩ := ih
      rw [of_snoc]
      cases move with
      | pause milliseconds => exact ⟨told, pause_logs logs milliseconds⟩
      | exchange calls =>
          obtain ⟨more, longer⟩ := exchange_logs (of_sound service moves) logs calls
          exact ⟨told ++ more, longer⟩

end History

theorem Intake.notice_time (readDeadline sent : Nat) (request : Http.Request)
    {notice : Nat × Log.Notice} (noticed : notice ∈ (ofRequest readDeadline sent request).notices) :
    notice.1 = sent ∨ notice.1 = (ofRequest readDeadline sent request).ready := by
  unfold ofRequest at noticed ⊢
  split at noticed
  · obtain ⟨_, _, rfl⟩ := List.mem_map.mp noticed
    exact .inl rfl
  · split at noticed
    · simp only [List.mem_cons, List.not_mem_nil, or_false] at noticed
      rcases noticed with rfl | rfl
      · exact .inl rfl
      · exact .inr rfl
    · rcases List.mem_cons.mp noticed with rfl | later
      · exact .inl rfl
      · obtain ⟨_, _, rfl⟩ := List.mem_map.mp later
        exact .inr rfl
  · obtain ⟨_, _, rfl⟩ := List.mem_map.mp noticed
    exact .inl rfl

namespace Service

open Service (Arrival)

variable {service : Service} {number : Nat} {call : Call} {entry : Entry}

/-- When a call's own reports are over, as far as it has been taken in. -/
def Arrival.settledAt (arrival : Arrival) : Nat :=
  match arrival.stage with
  | .inl reply => reply.time
  | .inr ticket => ticket.admitted

def assignment (service : Service) (number : Nat) (call : Call) : List Entry :=
  match service.identify number call.request with
  | .assigned _ => [⟨call.sent, service.identify number call.request, .idAssigned⟩]
  | .provided _ => []

theorem arrive_entries : (service.arrive number call).entries = service.assignment number call ++
    if Route.immediate? call.request = none then
      ((service.intake call).notices.filter fun n => reaches (service.departure call) n.1).map
        fun n => ⟨n.1, service.identify number call.request, n.2⟩
    else [] := by
  cases route : Route.immediate? call.request with
  | some response =>
      simp only [arrive, route, reduceCtorEq, if_false, List.append_nil]
      rfl
  | none =>
      simp only [arrive, route, if_true]
      rfl

def due (service : Service) (call : Call) : Nat :=
  if Route.immediate? call.request = none then (service.intake call).ready else call.sent

theorem sent_le_due : call.sent ≤ service.due call := by
  unfold due
  split
  · exact intake_not_before service.deadlines.read call.sent call.request
  · exact Nat.le_refl call.sent

theorem departure_bounds :
    call.sent ≤ (service.departure call).1 ∧ (service.departure call).1 ≤ service.deadline call := by
  rcases departure_cases service call with ⟨expires, _⟩ | ⟨patience, _, early, cancels⟩
  · rw [expires]
    exact ⟨Nat.le_add_right _ _, Nat.le_refl _⟩
  · rw [cancels]
    exact ⟨Nat.le_add_right _ _, Nat.le_of_lt early⟩

theorem settledAt_eq : (service.arrive number call).settledAt =
    if reaches (service.departure call) (service.due call) then service.due call
    else (service.departure call).1 := by
  cases route : Route.immediate? call.request with
  | some response =>
      simp only [Arrival.settledAt, arrive_page route, due, route, reduceCtorEq, if_false]
      split
      · rfl
      · exact depart_time _ _ _
  | none =>
      simp only [Arrival.settledAt, arrive_attest route, due, route, if_true]
      by_cases inTime : reaches (service.departure call) (service.intake call).ready
      · simp only [inTime, if_true]
        cases (service.intake call).verdict <;> rfl
      · simp only [inTime]
        exact depart_time _ _ _

theorem sent_le_settledAt : call.sent ≤ (service.arrive number call).settledAt := by
  rw [settledAt_eq]
  split
  · exact sent_le_due
  · exact departure_bounds.1

theorem arrive_entry (reported : entry ∈ (service.arrive number call).entries) :
    entry.id = service.identify number call.request ∧ call.sent ≤ entry.time ∧
      entry.time ≤ (service.arrive number call).settledAt := by
  rw [arrive_entries] at reported
  rcases List.mem_append.mp reported with assigned | heard
  · unfold assignment at assigned
    split at assigned
    · rw [List.mem_singleton.mp assigned]
      exact ⟨rfl, Nat.le_refl _, sent_le_settledAt⟩
    · cases assigned
  · split at heard
    · rename_i attest
      obtain ⟨notice, member, rfl⟩ := List.mem_map.mp heard
      obtain ⟨noticed, inTime⟩ := List.mem_filter.mp member
      refine ⟨rfl, ?_⟩
      rcases Intake.notice_time _ _ _ noticed with atOnce | ready
      · rw [show notice.1 = call.sent from atOnce]
        exact ⟨Nat.le_refl _, sent_le_settledAt⟩
      · -- a report at the end of the taking in says that the call got that far
        have same : notice.1 = service.due call := by
          rw [due, if_pos attest]
          exact ready
        rw [same] at inTime ⊢
        rw [settledAt_eq, if_pos inTime]
        exact ⟨sent_le_due, Nat.le_refl _⟩
    · cases heard

theorem conclude_entry {arrival : Arrival} {run : Tenure}
    (reported : entry ∈ (service.conclude arrival run).2) :
    entry.id = arrival.id ∧ entry.time = run.ends ∧
      (service.conclude arrival run).1.time = run.ends := by
  rw [conclude_time]
  simp only [conclude] at reported
  split at reported
  · rename_i early
    obtain ⟨_, _, rfl⟩ := List.mem_map.mp reported
    exact ⟨rfl, rfl, if_pos early⟩
  · cases reported

end Service

/-- What an entry of the log is about: the run of a numbered call, or what became of the call from its
sending to its reply. -/
inductive Entry.Concerns (h : History) (i : Nat) (call : Call) (entry : Entry) : Prop where
  | run (o : Occurrence) (happened : o ∈ h.account.occurrences) (caller : o.tenure.ticket.caller = i)
      (time : entry.time = o.time) (notice : entry.notice ∈ o.notices)
  | call (reply : Reply) (got : h.account.replies[i]? = some reply) (since : call.sent ≤ entry.time)
      (until_ : entry.time ≤ reply.time)

namespace History

variable {service : Service} {h : History} {entry : Entry}

theorem concerns_run (sound : h.Sound service)
    (reported : entry ∈ Session.occurrenceEntries h.account.occurrences) :
    ∃ i call, h.calls[i]? = some call ∧ entry.id = service.identify i call.request ∧
      entry.Concerns h i call := by
  obtain ⟨o, happened, member⟩ := List.mem_flatMap.mp reported
  obtain ⟨notice, noticed, rfl⟩ := List.mem_map.mp member
  have inRuns : o.tenure ∈ h.runs service := RunQueue.happened_mem_line sound.course happened
  obtain ⟨call, sent, admitted⟩ := run_call inRuns
  obtain ⟨_, _, _, own⟩ := Service.arrive_ticket admitted
  exact ⟨_, call, sent, congrArg Ticket.id own, .run o happened rfl rfl noticed⟩

theorem reply_settled (sound : h.Sound service) {i : Nat} {call : Call}
    (sent : h.calls[i]? = some call) :
    ∃ reply, h.account.replies[i]? = some reply ∧
      (service.arrive i call).settledAt ≤ reply.time := by
  obtain ⟨reply, got⟩ := reply_exists sound sent
  refine ⟨reply, got, ?_⟩
  have concluded := concludes_at sound sent got
  unfold Service.Arrival.settledAt
  cases stage : (service.arrive i call).stage with
  | inl own =>
      simp only [Service.Concludes, stage] at concluded
      rw [concluded]
  | inr ticket =>
      simp only [Service.Concludes, stage] at concluded
      obtain ⟨run, member, rfl, rfl, _⟩ := concluded
      have started := line_admitted service.tool 0 0 _ run member
      have busy := started_le_ends run
      have inTime := (Service.ticket_not_before stage).2
      simp only [service.conclude_time, Service.arrive_call]
      split <;> omega

theorem concerns_arrival (sound : h.Sound service)
    (reported : entry ∈ (h.arrivals service).flatMap (·.entries)) :
    ∃ i call, h.calls[i]? = some call ∧ entry.id = service.identify i call.request ∧
      entry.Concerns h i call := by
  obtain ⟨arrival, known, member⟩ := List.mem_flatMap.mp reported
  obtain ⟨i, call, sent, rfl⟩ := Service.mem_arrivals known
  rw [Nat.zero_add] at member
  obtain ⟨own, since, until_⟩ := Service.arrive_entry member
  obtain ⟨reply, got, settled⟩ := reply_settled sound sent
  exact ⟨i, call, sent, own, .call reply got since (Nat.le_trans until_ settled)⟩

theorem concerns_told (sound : h.Sound service) {told : List (List Entry)}
    (reports : List.Forall₂ (service.Reports (h.runs service)) (h.arrivals service) told)
    (reported : entry ∈ told.flatten) :
    ∃ i call, h.calls[i]? = some call ∧ entry.id = service.identify i call.request ∧
      entry.Concerns h i call := by
  obtain ⟨words, member, inWords⟩ := List.mem_flatten.mp reported
  obtain ⟨i, found⟩ := List.mem_iff_getElem?.mp member
  obtain ⟨call, sent, here⟩ := arrivals_paired reports found
  obtain ⟨reply, got⟩ := reply_exists sound sent
  have concluded := concludes_at sound sent got
  unfold Service.Reports at here
  cases stage : (service.arrive i call).stage with
  | inl own =>
      simp only [stage] at here
      rw [here] at inWords
      cases inWords
  | inr ticket =>
      simp only [stage] at here
      simp only [Service.Concludes, stage] at concluded
      obtain ⟨run, inRuns, own, same⟩ := here
      obtain ⟨other, otherInRuns, otherOwn, replied, _⟩ := concluded
      obtain rfl : other = run := run_unique otherInRuns inRuns (by rw [own, otherOwn])
      rw [same] at inWords
      obtain ⟨id, time, until_⟩ := Service.conclude_entry inWords
      rw [Service.arrive_id] at id
      refine ⟨i, _, sent, id, .call reply got ?_ ?_⟩
      · have after := (Service.ticket_not_before stage).1
        have started := line_admitted service.tool 0 0 _ other otherInRuns
        have busy := started_le_ends other
        rw [otherOwn] at started
        omega
      · rw [replied, until_, time]

/-- Everything in the log is about a call whose id it carries: about its run, or about the call itself
and then not after its reply. -/
theorem entry_concerns (service : Service) (moves : List Move)
    (reported : entry ∈ (of service moves).account.entries) :
    ∃ i call, (of service moves).calls[i]? = some call ∧
      entry.id = service.identify i call.request ∧ entry.Concerns (of service moves) i call := by
  have sound := of_sound service moves
  obtain ⟨told, reports, log⟩ := of_logs service moves
  rcases List.mem_append.mp (log.mem_iff.mp reported) with front | back
  · rcases List.mem_append.mp front with arrival | run
    · exact concerns_arrival sound arrival
    · exact concerns_run sound run
  · exact concerns_told sound reports back

theorem assignment_logged (service : Service) (moves : List Move) {i : Nat} {call : Call}
    (sent : (of service moves).calls[i]? = some call)
    (nameless : Correlation.provided? call.request.headers = none) :
    ⟨call.sent, .assigned (service.ids i), .idAssigned⟩ ∈ (of service moves).account.entries := by
  obtain ⟨told, _, log⟩ := of_logs service moves
  apply log.mem_iff.mpr
  refine List.mem_append_left _ (List.mem_append_left _ (List.mem_flatMap.mpr ?_))
  have known := service.arrive_mem 0 sent
  rw [Nat.zero_add] at known
  refine ⟨_, known, ?_⟩
  rw [Service.arrive_entries]
  apply List.mem_append_left
  simp [Service.assignment, Service.identify, Correlation.resolve, nameless]

end History

end AttestationService

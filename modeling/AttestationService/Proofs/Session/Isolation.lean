import AttestationService.Proofs.Session.Admission
import AttestationService.Proofs.Session.Attestation

/-!
What callers notice of each other. Two schedules are compared: in the second, calls that are never
admitted may be missing, and clients may give up at other times once they have been admitted. The
gate is the only thing that calls share, so the runs are the same in both, and so is every answer,
apart from the ids that the service assigns.
-/

namespace AttestationService

open Service (Arrival depart finalize)

abbrev Plan := List (Call × Option Call)

namespace Plan

def before (plan : Plan) : List Call := plan.map Prod.fst

def after (plan : Plan) : List Call := plan.filterMap Prod.snd

end Plan

def Service.renamed (service : Service) (ids : Nat → Correlation.Seed) : Service := { service with ids }

/-- What another schedule may make of a call without anybody else's noticing. -/
inductive Service.Spares (service : Service) : Call → Option Call → Prop where
  | kept (call : Call) : Spares service call (some call)
  | removed (call : Call) (idle : service.admission? call = none) : Spares service call none
  | retimed (call : Call) (time : Nat) (nonce : Option Nonce) (patience : Option Nat)
      (admitted : service.admission? call = some (time, nonce))
      (after : ∀ limit ∈ patience, time ≤ call.sent + limit) :
      Spares service call (some { call with patience })

/-- Two runs are the same for everybody but their callers. -/
structure Tenure.Alike (run other : Tenure) : Prop where
  number : run.number = other.number
  nonce : run.ticket.nonce = other.ticket.nonce
  started : run.started = other.started
  performance : run.performance = other.performance

def Occurrence.Alike : Occurrence → Occurrence → Prop
  | .started run, .started other => run.Alike other
  | .ended run, .ended other => run.Alike other
  | _, _ => False

def Http.Response.nameless (response : Http.Response) : Http.Response :=
  { response with headers := response.headers.filter (·.name != Correlation.responseHeader) }

/-- Two replies to a call with these headers are the same, except that ids which the service assigned
may differ. -/
def Reply.Alike (headers : Http.Headers) : Reply → Reply → Prop
  | .answered response time, .answered other otherTime =>
    time = otherTime ∧ response.nameless = other.nameless ∧
      (Correlation.provided? headers ≠ none → response = other)
  | .cancelled time, .cancelled otherTime => time = otherTime
  | _, _ => False

def Reply.IsCancelled (reply : Reply) : Prop := ∃ time, reply = .cancelled time

theorem Tenure.Alike.ends {run other : Tenure} (alike : run.Alike other) : run.ends = other.ends := by
  rw [Tenure.ends, Tenure.ends, alike.started, alike.performance]

theorem Occurrence.Alike.time {o other : Occurrence} (alike : o.Alike other) : o.time = other.time := by
  cases o <;> cases other
  · exact Tenure.Alike.started alike
  · cases alike
  · cases alike
  · exact Tenure.Alike.ends alike

namespace Service

variable {service : Service} {ids : Nat → Correlation.Seed} {plan : Plan}

@[simp] theorem renamed_admission : (service.renamed ids).admission? = service.admission? :=
  rfl

@[simp] theorem renamed_departure : (service.renamed ids).departure = service.departure :=
  rfl

@[simp] theorem renamed_intake : (service.renamed ids).intake = service.intake :=
  rfl

/-- The tickets of the admitted calls of both schedules, side by side. -/
def pairs (service : Service) (ids : Nat → Correlation.Seed) (number other : Nat) :
    Plan → List (Ticket × Ticket)
  | [] => []
  | (_, none) :: rest => pairs service ids (number + 1) other rest
  | (call, some kept) :: rest =>
    match service.admission? call with
    | none => pairs service ids (number + 1) (other + 1) rest
    | some admission =>
      (service.ticket number call admission, (service.renamed ids).ticket other kept admission) ::
        pairs service ids (number + 1) (other + 1) rest

def Twins (pair : Ticket × Ticket) : Prop :=
  pair.1.admitted = pair.2.admitted ∧ pair.1.nonce = pair.2.nonce

theorem pairs_twins (service : Service) (ids : Nat → Correlation.Seed) (number other : Nat)
    (plan : Plan) : ∀ pair ∈ service.pairs ids number other plan, Twins pair := by
  induction plan generalizing number other with
  | nil => intro pair member; cases member
  | cons step rest ih =>
      obtain ⟨call, _ | kept⟩ := step
      · exact ih (number + 1) other
      · unfold pairs
        cases service.admission? call with
        | none => exact ih (number + 1) (other + 1)
        | some admission =>
            intro pair member
            rcases List.mem_cons.mp member with rfl | later
            · exact ⟨rfl, rfl⟩
            · exact ih _ _ pair later

theorem spares_admission {call kept : Call} (spared : service.Spares call (some kept)) :
    service.admission? kept = service.admission? call := by
  cases spared with
  | kept => rfl
  | retimed time nonce patience admitted after =>
      rw [admission_patient admitted patience after, admitted]

theorem pairs_admitted (spared : ∀ step ∈ plan, service.Spares step.1 step.2) (number other : Nat) :
    (service.pairs ids number other plan).map Prod.fst =
        (service.arrivals number plan.before).filterMap (fun a => a.stage.getRight?) ∧
      (service.pairs ids number other plan).map Prod.snd =
        ((service.renamed ids).arrivals other plan.after).filterMap (fun a => a.stage.getRight?) := by
  induction plan generalizing number other with
  | nil => exact ⟨rfl, rfl⟩
  | cons step rest ih =>
      obtain ⟨head, tail⟩ := List.forall_mem_cons.mp spared
      obtain ⟨call, kept⟩ := step
      cases kept with
      | none =>
          cases head with
          | removed idle =>
              obtain ⟨first, second⟩ := ih tail (number + 1) other
              refine ⟨?_, second⟩
              simpa [pairs, Plan.before, arrivals, arrive_ticket?, idle] using first
      | some kept =>
          obtain ⟨first, second⟩ := ih tail (number + 1) (other + 1)
          have same := spares_admission head
          -- admitted or not, the call in its place fares as the call does
          constructor
          · cases admitted : service.admission? call <;>
              simpa [pairs, Plan.before, arrivals, arrive_ticket?, admitted] using first
          · cases admitted : service.admission? call <;>
              simpa [pairs, Plan.after, arrivals, arrive_ticket?, admitted, same] using second

theorem pairs_mem {front back : Plan} {call kept : Call} {admission : Nat × Option Nonce}
    (admitted : service.admission? call = some admission) (number other : Nat) :
    (service.ticket (number + front.length) call admission,
        (service.renamed ids).ticket (other + front.after.length) kept admission) ∈
      service.pairs ids number other (front ++ (call, some kept) :: back) := by
  induction front generalizing number other with
  | nil => simp [pairs, admitted, Plan.after]
  | cons step rest ih =>
      obtain ⟨first, _ | second⟩ := step
      · have later := ih (number + 1) other
        simp only [Nat.add_assoc, Nat.add_comm 1] at later
        simpa [pairs, Plan.after] using later
      · have later := ih (number + 1) (other + 1)
        simp only [Nat.add_assoc, Nat.add_comm 1] at later
        cases own : service.admission? first with
        | none => simpa [pairs, own, Plan.after] using later
        | some admission =>
            simp only [List.cons_append, pairs, own]
            exact List.mem_cons_of_mem _ (by simpa [Plan.after] using later)

def lineUp (service : Service) (ids : Nat → Correlation.Seed) (plan : Plan) : List (Ticket × Ticket) :=
  (service.pairs ids 0 0 plan).mergeSort fun a b => a.1.admitted ≤ b.1.admitted

theorem lineUp_tickets (ids : Nat → Correlation.Seed)
    (spared : ∀ step ∈ plan, service.Spares step.1 step.2) :
    (service.lineUp ids plan).map Prod.fst = Session.tickets (service.arrivals 0 plan.before) ∧
      (service.lineUp ids plan).map Prod.snd =
        Session.tickets ((service.renamed ids).arrivals 0 plan.after) := by
  obtain ⟨first, second⟩ := pairs_admitted spared 0 0
  constructor
  · rw [lineUp, Session.tickets, ← first]
    exact List.map_mergeSort fun a _ b _ => rfl
  · rw [lineUp, Session.tickets, ← second]
    refine List.map_mergeSort fun a inPairs b inPairs' => ?_
    -- both tickets of a pair have the same time, so either may be sorted by
    have left := (service.pairs_twins ids 0 0 plan a inPairs).1
    have right := (service.pairs_twins ids 0 0 plan b inPairs').1
    rw [left, right]

end Service

theorem line_alike (tool : Verifier.Tool) (number clear : Nat) (pairs : List (Ticket × Ticket))
    (twins : ∀ pair ∈ pairs, Service.Twins pair) :
    List.Forall₂ (fun run other => (run.ticket, other.ticket) ∈ pairs ∧ run.Alike other)
      (line tool number clear (pairs.map Prod.fst)) (line tool number clear (pairs.map Prod.snd)) := by
  induction pairs generalizing number clear with
  | nil => exact .nil
  | cons pair rest ih =>
      obtain ⟨head, tail⟩ := List.forall_mem_cons.mp twins
      have alike : (pair.1.redeem tool number clear).Alike (pair.2.redeem tool number clear) := by
        refine ⟨rfl, head.2, ?_, ?_⟩
        · show max pair.1.admitted clear = max pair.2.admitted clear
          rw [head.1]
        · show tool number pair.1.nonce = tool number pair.2.nonce
          rw [head.2]
      refine .cons ⟨List.mem_cons_self, alike⟩ ?_
      rw [alike.ends]
      exact (ih (number + 1) _ tail).imp fun run other found => ⟨List.mem_cons_of_mem _ found.1, found.2⟩

namespace Reply.Alike

variable {headers : Http.Headers} {method : Http.Method}

theorem finalize_nameless (id other : Correlation) (method : Http.Method) (response : Http.Response) :
    (finalize id method response).nameless = (finalize other method response).nameless := by
  simp [finalize, Http.Response.nameless, Http.Headers.set]

theorem resolve_provided (given : Correlation.provided? headers ≠ none) (fresh other : Correlation.Seed) :
    Correlation.resolve headers fresh = Correlation.resolve headers other := by
  unfold Correlation.resolve
  cases provided : Correlation.provided? headers with
  | none => exact absurd provided given
  | some value => rfl

theorem of_response (fresh other : Correlation.Seed) (response : Http.Response) (time : Nat) :
    Alike headers (.answered (finalize (.resolve headers fresh) method response) time)
      (.answered (finalize (.resolve headers other) method response) time) :=
  ⟨rfl, finalize_nameless _ _ _ _, fun given => by rw [resolve_provided given fresh other]⟩

theorem of_depart (fresh other : Correlation.Seed) (call : Call) (departure : Nat × Departure) :
    Alike call.request.headers (depart (.resolve call.request.headers fresh) call departure)
      (depart (.resolve call.request.headers other) call departure) := by
  obtain ⟨time, _ | _⟩ := departure
  · exact of_response fresh other _ time
  · rfl

end Reply.Alike

namespace Service

variable {service : Service} {ids : Nat → Correlation.Seed} {call : Call}

theorem settled_alike (ids : Nat → Correlation.Seed) (i j : Nat) {own : Reply}
    (settled : (service.arrive i call).stage = .inl own) :
    ∃ other, ((service.renamed ids).arrive j call).stage = .inl other ∧
      own.Alike call.request.headers other := by
  cases route : Route.immediate? call.request with
  | some response =>
      rw [arrive_page route, Sum.inl.injEq] at settled
      refine ⟨_, arrive_page route, ?_⟩
      subst settled
      rw [renamed_departure]
      split
      · exact .of_response _ _ response _
      · exact .of_depart _ _ call _
  | none =>
      rw [arrive_attest route] at settled ⊢
      rw [renamed_departure, renamed_intake]
      split at settled
      · rename_i inTime
        cases verdict : (service.intake call).verdict with
        | ok nonce =>
            rw [verdict] at settled
            cases settled
        | error rejection =>
            rw [verdict] at settled
            cases settled
            rw [if_pos inTime]
            exact ⟨_, rfl, .of_response _ _ _ _⟩
      · rename_i late
        cases settled
        rw [if_neg late]
        exact ⟨_, rfl, .of_depart _ _ call _⟩

theorem conclude_alike (i j : Nat) {run other : Tenure} (alike : run.Alike other) :
    (service.conclude (service.arrive i call) run).1.Alike call.request.headers
      ((service.renamed ids).conclude ((service.renamed ids).arrive j call) other).1 := by
  rw [conclude_reply, conclude_reply, arrive_call, arrive_call, arrive_id, arrive_id, ← alike.ends,
    ← alike.performance, renamed_departure]
  split
  · exact .of_response _ _ _ _
  · exact .of_depart _ _ call _

/-- Callers that differ in how long they wait are answered alike, or one of them has gone. -/
theorem conclude_patience (i j : Nat) {run other : Tenure} (alike : run.Alike other)
    (patience : Option Nat) :
    (service.conclude (service.arrive i call) run).1.IsCancelled ∨
      ((service.renamed ids).conclude ((service.renamed ids).arrive j { call with patience })
        other).1.IsCancelled ∨
      (service.conclude (service.arrive i call) run).1.Alike call.request.headers
        ((service.renamed ids).conclude ((service.renamed ids).arrive j { call with patience })
          other).1 := by
  have deadline : service.deadline { call with patience } = service.deadline call := rfl
  rw [conclude_reply, conclude_reply, arrive_call, arrive_call, arrive_id, arrive_id, ← alike.ends,
    ← alike.performance, renamed_departure]
  rcases departure_cases service call with ⟨expires, patient⟩ | ⟨limit, waits, early, cancels⟩
  · rcases departure_cases service { call with patience } with
      ⟨otherExpires, _⟩ | ⟨otherLimit, _, otherEarly, otherCancels⟩
    · -- both wait for the deadline
      right; right
      rw [expires, otherExpires, deadline]
      split
      · exact .of_response _ _ _ _
      · exact .of_response _ _ _ _
    · rw [expires, otherCancels]
      by_cases inTime : run.ends < call.sent + otherLimit
      · right; right
        have before : run.ends < service.deadline call := Nat.lt_trans inTime otherEarly
        rw [if_pos before, if_pos inTime]
        exact .of_response _ _ _ _
      · right; left
        rw [if_neg inTime]
        exact ⟨_, rfl⟩
  · rw [cancels]
    by_cases inTime : run.ends < call.sent + limit
    · rw [if_pos inTime]
      by_cases otherInTime : run.ends < (service.departure { call with patience }).1
      · right; right
        rw [if_pos otherInTime]
        exact .of_response _ _ _ _
      · right; left
        rw [if_neg otherInTime]
        rcases departure_cases service { call with patience } with
          ⟨otherExpires, _⟩ | ⟨otherLimit, _, _, otherCancels⟩
        · -- the run ends before the client's giving up, which is before the deadline of both
          rw [otherExpires, deadline] at otherInTime
          omega
        · rw [otherCancels]
          exact ⟨_, rfl⟩
    · left
      rw [if_neg inTime]
      exact ⟨_, rfl⟩

end Service

namespace History

variable {service : Service} {ids : Nat → Correlation.Seed} {h other : History} {plan : Plan}

theorem occurrences_runs (sound : h.Sound service) :
    h.occurrences service = (h.runs service).flatMap Tenure.course := by
  rw [occurrences, RunQueue.advance_all service.tool sound.course.orderly, sound.course.total]
  rfl

theorem runs_alike (ids : Nat → Correlation.Seed) (spared : ∀ step ∈ plan, service.Spares step.1 step.2)
    (before : h.calls = plan.before) (after : other.calls = plan.after) :
    List.Forall₂ (fun run twin => (run.ticket, twin.ticket) ∈ service.lineUp ids plan ∧ run.Alike twin)
      (h.runs service) (other.runs (service.renamed ids)) := by
  obtain ⟨first, second⟩ := Service.lineUp_tickets ids spared
  rw [runs, runs, tickets, tickets, arrivals, arrivals, before, after, ← first, ← second]
  apply line_alike
  intro pair member
  exact service.pairs_twins ids 0 0 plan pair (List.mem_mergeSort.mp member)

theorem paired_runs (spared : ∀ step ∈ plan, service.Spares step.1 step.2)
    (before : h.calls = plan.before) (after : other.calls = plan.after) {run twin : Tenure}
    (inRuns : run ∈ h.runs service) (inOther : twin ∈ other.runs (service.renamed ids))
    (paired : (run.ticket, twin.ticket) ∈ service.lineUp ids plan) : run.Alike twin := by
  obtain ⟨first, _⟩ := Service.lineUp_tickets ids spared
  have distinct := service.tickets_callers_nodup 0 plan.before
  rw [← first, List.map_map] at distinct
  have alike := runs_alike ids spared before after
  obtain ⟨k, inRange, here⟩ := List.getElem_of_mem inRuns
  obtain ⟨sameLength, each⟩ := List.forall₂_iff_get.mp alike
  obtain ⟨member, same⟩ := each k inRange (by omega)
  simp only [List.get_eq_getElem, here] at member same
  -- a caller stands in one pair only, so its run has one counterpart
  have twins := List.inj_on_of_nodup_map distinct member paired rfl
  have callers : (other.runs (service.renamed ids))[k].ticket.caller = twin.ticket.caller :=
    congrArg (fun pair => pair.2.caller) twins
  rw [← run_unique (List.getElem_mem _) inOther callers]
  exact same

theorem replies_alike (sound : h.Sound service) (otherSound : other.Sound (service.renamed ids))
    (spared : ∀ step ∈ plan, service.Spares step.1 step.2)
    (before : h.calls = plan.before) (after : other.calls = plan.after) {front back : Plan}
    {call kept : Call} (place : plan = front ++ (call, some kept) :: back) :
    ∃ reply twin, h.account.replies[front.length]? = some reply ∧
      other.account.replies[front.after.length]? = some twin ∧
      (reply.Alike call.request.headers twin ∨
        kept ≠ call ∧ (reply.IsCancelled ∨ twin.IsCancelled)) := by
  have sent : h.calls[front.length]? = some call := by simp [before, place, Plan.before]
  have otherSent : other.calls[front.after.length]? = some kept := by
    simp [after, place, Plan.after]
  obtain ⟨reply, got⟩ := reply_exists sound sent
  obtain ⟨twin, otherGot⟩ := reply_exists otherSound otherSent
  refine ⟨reply, twin, got, otherGot, ?_⟩
  have concluded := concludes_at sound sent got
  have otherConcluded := concludes_at otherSound otherSent otherGot
  have spares : service.Spares call (some kept) :=
    spared (call, some kept) (by simp [place])
  cases admitted : service.admission? call with
  | none =>
      -- no run in either history: each call is answered on its own
      left
      obtain ⟨own, settled⟩ : ∃ own, (service.arrive front.length call).stage = .inl own :=
        Service.arrive_idle admitted
      cases spares with
      | kept =>
          obtain ⟨otherOwn, otherSettled, alike⟩ := Service.settled_alike ids _ front.after.length settled
          simp only [Service.Concludes, settled] at concluded
          simp only [Service.Concludes, otherSettled] at otherConcluded
          rw [concluded, otherConcluded]
          exact alike
      | retimed time nonce patience was => rw [admitted] at was; cases was
  | some admission =>
      -- both calls are admitted, and their runs stand at the same place of the two lines
      have otherAdmitted : (service.renamed ids).admission? kept = some admission :=
        (Service.spares_admission spares).trans admitted
      simp only [Service.Concludes, Service.arrive_admitted admitted] at concluded
      simp only [Service.Concludes, Service.arrive_admitted otherAdmitted] at otherConcluded
      obtain ⟨run, inRuns, own, rfl, _⟩ := concluded
      obtain ⟨otherRun, inOther, otherOwn, rfl, _⟩ := otherConcluded
      have paired : (run.ticket, otherRun.ticket) ∈ service.lineUp ids plan := by
        have listed : _ ∈ service.pairs ids 0 0 (front ++ (call, some kept) :: back) :=
          Service.pairs_mem admitted 0 0
        rw [own, otherOwn, Service.lineUp, List.mem_mergeSort, place]
        simpa using listed
      have alike := paired_runs spared before after inRuns inOther paired
      by_cases same : kept = call
      · left
        rw [same]
        exact Service.conclude_alike _ _ alike
      · cases spares with
        | kept => exact absurd rfl same
        | retimed time nonce patience =>
            rcases Service.conclude_patience front.length front.after.length alike patience with
              gone | otherGone | answered
            · exact .inr ⟨same, .inl gone⟩
            · exact .inr ⟨same, .inr otherGone⟩
            · exact .inl answered

/-- Two histories whose schedules differ only in calls that were never admitted, and in how long the
clients of admitted calls waited, have the same runs at the same times. Whoever is in both gets the
same answer in both, unless it has gone in one of them. -/
theorem isolated (service : Service) (ids : Nat → Correlation.Seed) (moves otherMoves : List Move)
    (plan : Plan) (spared : ∀ step ∈ plan, service.Spares step.1 step.2)
    (before : (of service moves).calls = plan.before)
    (after : (of (service.renamed ids) otherMoves).calls = plan.after) :
    List.Forall₂ Occurrence.Alike ((of service moves).occurrences service)
        ((of (service.renamed ids) otherMoves).occurrences (service.renamed ids)) ∧
      ∀ (front back : Plan) (call kept : Call), plan = front ++ (call, some kept) :: back →
        ∃ reply twin, (of service moves).account.replies[front.length]? = some reply ∧
          (of (service.renamed ids) otherMoves).account.replies[front.after.length]? = some twin ∧
          (reply.Alike call.request.headers twin ∨
            kept ≠ call ∧ (reply.IsCancelled ∨ twin.IsCancelled)) := by
  have sound := of_sound service moves
  have otherSound := of_sound (service.renamed ids) otherMoves
  constructor
  · rw [occurrences_runs sound, occurrences_runs otherSound]
    refine List.rel_flatMap (runs_alike ids spared before after) fun run twin alike => ?_
    exact .cons alike.2 (.cons alike.2 .nil)
  · intro front back call kept place
    exact replies_alike sound otherSound spared before after place

theorem of_exchange_calls (service : Service) (calls : List Call) :
    (of service [.exchange calls]).calls = calls := by
  show [] ++ calls.map (Call.after 0) = calls
  have unmoved : Call.after 0 = id := by
    funext call
    simp [Call.after]
  rw [unmoved, List.map_id, List.nil_append]

def attestCall (method : Http.Method) (sent : Nat) : Call :=
  ⟨⟨method, ⟨none, none, "/gpu_attest", none⟩, [], []⟩, sent, none⟩

/-- A refused call is missing, and the client of a run that has started goes away. -/
def crowd : Plan :=
  [(attestCall (.other "PUT") 0, none),
    (attestCall .get 0, some { attestCall .get 0 with patience := some 2 }),
    (attestCall .get 1, some (attestCall .get 1))]

def otherIds (number : Nat) : Correlation.Seed := .ofNumber (number + 7)

theorem isolated_crowd :
    List.Forall₂ Occurrence.Alike
        ((of (steady ⟨10, 20⟩ 5) [.exchange crowd.before]).occurrences (steady ⟨10, 20⟩ 5))
        ((of ((steady ⟨10, 20⟩ 5).renamed otherIds) [.exchange crowd.after]).occurrences
          ((steady ⟨10, 20⟩ 5).renamed otherIds)) ∧
      ∃ reply twin,
        (of (steady ⟨10, 20⟩ 5) [.exchange crowd.before]).account.replies[2]? = some reply ∧
        (of ((steady ⟨10, 20⟩ 5).renamed otherIds) [.exchange crowd.after]).account.replies[1]? =
          some twin ∧
        reply.Alike [] twin := by
  have spared : ∀ step ∈ crowd, (steady ⟨10, 20⟩ 5).Spares step.1 step.2 := by
    simp only [crowd, List.forall_mem_cons]
    refine ⟨.removed _ rfl, .retimed _ 0 none (some 2) rfl ?_, .kept _, by simp⟩
    intro limit _
    exact Nat.zero_le _
  obtain ⟨runs, replies⟩ := isolated (steady ⟨10, 20⟩ 5) otherIds [.exchange crowd.before]
    [.exchange crowd.after] crowd spared (of_exchange_calls _ _) (of_exchange_calls _ _)
  refine ⟨runs, ?_⟩
  obtain ⟨reply, twin, got, otherGot, alike | ⟨moved, _⟩⟩ :=
    replies (crowd.take 2) [] (attestCall .get 1) (attestCall .get 1) rfl
  · exact ⟨reply, twin, got, otherGot, alike⟩
  · exact absurd rfl moved

end History

end AttestationService

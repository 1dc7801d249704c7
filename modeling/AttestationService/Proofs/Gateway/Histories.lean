import AttestationService.Proofs.Gateway.Steps
import AttestationService.Proofs.Session.History

/-!
Histories as paths of the gateway. What the service does in time is one order of the steps that the
gateway can take, so whatever holds in every reachable state holds along every history.
-/

namespace AttestationService

open Service (Arrival reaches depart finalize)
open Relation (ReflTransGen)

def Errand.ofTenure (run : Tenure) : Errand := ⟨run.ticket, .running⟩

def RunQueue.errands (q : RunQueue) : Gate Ticket Errand :=
  ⟨q.gate.free, q.gate.waiting, q.gate.holders.map Errand.ofTenure⟩

def Reply.standing : Reply → Standing
  | .answered response _ => .answered response
  | .cancelled _ => .dropped

def Standing.admitted : Standing → Standing
  | .ruled request (.ok _) => .waiting request
  | other => other

namespace Gateway

variable {marker : String} {ids : Nat → Correlation.Seed} {s s' : Gateway} {i : Nat}
  {a b : Standing} {request : Http.Request}

@[simp] theorem stand_standing : (s.stand i a).standing i = a := by
  simp [stand]

@[simp] theorem stand_stand : (s.stand i a).stand i b = s.stand i b := by
  simp [stand]

def standRange (s : Gateway) (number n : Nat) (goal : Nat → Standing) : Gateway :=
  { s with
    standing := fun j => if number ≤ j ∧ j < number + n then goal j else s.standing j }

/-- Requests that take their steps one after the other, each without the gate. -/
theorem standRange_reached (number n : Nat) (goal : Nat → Standing)
    (turn : ∀ j, number ≤ j → j < number + n → ∀ t : Gateway, t.gate = s.gate →
      t.results = s.results → t.standing j = s.standing j →
      ReflTransGen (Step marker ids) t (t.stand j (goal j))) :
    ReflTransGen (Step marker ids) s (s.standRange number n goal) := by
  -- the last one of the range goes after all others, which leave it where it was
  induction n with
  | zero =>
      have nobody : s.standRange number 0 goal = s := by
        simp only [standRange]
        congr 1
        funext j
        exact if_neg (by omega)
      rw [nobody]
  | succ n ih =>
      have front := ih fun j low high => turn j low (by omega)
      have last := turn (number + n) (by omega) (by omega) (s.standRange number n goal)
        rfl rfl (if_neg (by omega))
      have same : (s.standRange number n goal).stand (number + n) (goal (number + n)) =
          s.standRange number (n + 1) goal := by
        simp only [standRange, stand]
        congr 1
        funext j
        by_cases own : j = number + n
        · subst own
          rw [Function.update_self, if_pos (by omega)]
        · rw [Function.update_of_ne own]
          exact if_congr (by omega) rfl rfl
      rw [same] at last
      exact front.trans last

section Intake

theorem read_reached (deadline now room : Nat) (taken : List (List UInt8))
    (chunks : List Http.Chunk) (reading : s.standing i = .reading request room taken chunks) :
    ReflTransGen (Step marker ids) s (s.stand i (.ruled request
      (match (Http.Body.collect deadline now room taken chunks).2 with
      | .ok octets => (Intake.check (BodyNonce.ofOctets octets).raw).2
      | .error _ => .error .bodyUnread))) := by
  -- each chunk is one step, and the request stands at the chunks that are left
  induction chunks generalizing s now room taken with
  | nil =>
      by_cases impatient : deadline = 0
      · simp only [Http.Body.collect, impatient, if_true]
        exact .single (.breaks i request room taken [] reading)
      · simp only [Http.Body.collect, impatient, if_false]
        exact .single (.hearsAll i request room taken reading)
  | cons chunk rest ih =>
      have broken : Step marker ids s _ := .breaks i request room taken (chunk :: rest) reading
      unfold Http.Body.collect
      by_cases late : deadline ≤ chunk.delay
      · simp only [late, if_true]
        exact .single broken
      · cases content : chunk.content with
        | error reason =>
            simp only [late, if_false]
            exact .single broken
        | ok piece =>
            by_cases long : room < piece.length
            · simp only [late, long, if_false, if_true]
              exact .single broken
            · have heard : Step marker ids s _ := .hears i request room taken chunk rest piece reading
                content (Nat.le_of_not_lt long)
              simp only [late, long, if_false]
              have tail := ih (s := s.stand i
                (.reading request (room - piece.length) (piece :: taken) rest))
                (now + chunk.delay) (room - piece.length) (piece :: taken) stand_standing
              rw [stand_stand] at tail
              exact .head heard tail

theorem intake_reached (sent : s.standing i = .sent request)
    (attest : Route.immediate? request = none) (readDeadline time : Nat) :
    ReflTransGen (Step marker ids) s
      (s.stand i (.ruled request (Intake.ofRequest readDeadline time request).verdict)) := by
  by_cases post : request.method = .post
  · have opened : Step marker ids s _ := .opens i request sent attest post
    have read : ReflTransGen (Step marker ids) (s.stand i (.reading request maxBodySize [] request.body)) _ :=
      read_reached readDeadline time maxBodySize [] request.body stand_standing
    rw [stand_stand] at read
    refine .head opened ?_
    unfold Intake.ofRequest
    rw [post]
    simp only
    split <;> rename_i found <;> simpa only [found] using read
  · exact .single (.rules i request sent attest post readDeadline time)

end Intake

section Calls
variable {service : Service} {call : Call}

theorem depart_reached (service : Service) (call : Call)
    (handled : (s.standing i).handled? = some call.request) :
    Step marker service.ids s (s.stand i (depart (service.identify i call.request) call
      (service.departure call)).standing) := by
  obtain ⟨time, departure⟩ := service.departure call
  cases departure with
  | expired => exact .expires i call.request handled
  | cancelled => exact .cancels i call.request handled

def arrived (call : Call) (stage : Reply ⊕ Ticket) : Standing :=
  match stage with
  | .inl reply => reply.standing
  | .inr ticket => .ruled call.request (.ok ticket.nonce)

theorem arrive_reached (unsent : s.standing i = .unsent) :
    ReflTransGen (Step marker service.ids) s (s.stand i (arrived call (service.arrive i call).stage)) := by
  -- A call is sent first; then it is answered at once, ruled on, or given up.
  have sent : Step marker service.ids s (s.stand i (.sent call.request)) := .sends i call.request unsent
  refine .head sent ?_
  have standing : (s.stand i (.sent call.request)).standing i = .sent call.request := stand_standing
  have departed : Step marker service.ids (s.stand i (.sent call.request)) _ :=
    depart_reached service call (by rw [standing]; rfl)
  rw [stand_stand] at departed
  cases route : Route.immediate? call.request with
  | some response =>
      rw [Service.arrive_page route]
      by_cases inTime : reaches (service.departure call) call.sent = true
      · rw [if_pos inTime]
        have answered : Step marker service.ids _ _ := .pages i call.request response standing route
        rw [reply, stand_stand] at answered
        exact .single answered
      · rw [if_neg inTime]
        exact .single departed
  | none =>
      rw [Service.arrive_attest route]
      by_cases inTime : reaches (service.departure call) (service.intake call).ready = true
      · rw [if_pos inTime]
        have ruled : ReflTransGen (Step marker service.ids) (s.stand i (.sent call.request)) _ :=
          intake_reached standing route service.deadlines.read call.sent
        rw [stand_stand] at ruled
        cases verdict : (service.intake call).verdict with
        | ok nonce =>
            simp only [arrived]
            rw [← verdict]
            exact ruled
        | error reason =>
            have known : (Intake.ofRequest service.deadlines.read call.sent call.request).verdict =
              .error reason := verdict
            rw [known] at ruled
            have rejected : Step marker service.ids (s.stand i (.ruled call.request (.error reason))) _ :=
              .rejects i call.request reason stand_standing
            rw [reply, stand_stand] at rejected
            exact ruled.tail rejected
      · rw [if_neg inTime]
        exact .single departed

end Calls

section Queue
variable {tool : Verifier.Tool} {q q' : RunQueue} {happened : List Occurrence}

/-- The run tasks take steps of their own, and perhaps requests too, after which `happened` has
happened and the requests stand as given. -/
structure Passing (marker : String) (ids : Nat → Correlation.Seed) (s : Gateway)
    (happened : List Occurrence) (q : RunQueue) (standing : Nat → Standing) (s' : Gateway) : Prop where
  steps : ReflTransGen (Step marker ids) s s'
  gate : s'.gate = q.errands
  standing : s'.standing = standing
  kept : s.results ⊆ s'.results
  results : ∀ run, .ended run ∈ happened → (run.ticket, run.performance.ending) ∈ s'.results

theorem passing_refl (gate : s.gate = q.errands) : Passing marker ids s [] q s.standing s := by
  refine ⟨.refl, gate, rfl, List.Subset.refl _, ?_⟩
  intro run member
  cases member

theorem passing_trans {front back : List Occurrence} {standing later : Nat → Standing}
    {s'' : Gateway} (first : Passing marker ids s front q standing s')
    (second : Passing marker ids s' back q' later s'') :
    Passing marker ids s (front ++ back) q' later s'' := by
  refine ⟨first.steps.trans second.steps, second.gate, second.standing,
    List.Subset.trans first.kept second.kept, ?_⟩
  intro run member
  rcases List.mem_append.mp member with old | new
  · exact second.kept (first.results run old)
  · exact second.results run new

theorem next_passing {before : Option Nat} {o : Occurrence} (orderly : q.Orderly)
    (next : q.next? tool before = some (o, q')) (gate : s.gate = q.errands) :
    ∃ s', Passing marker ids s [o] q' s.standing s' := by
  rcases RunQueue.next_cases orderly next with
    ⟨ticket, rest, idle, -, rfl, rfl⟩ | ⟨waiting, run, busy, -, rfl, rfl⟩
  -- a start in the queue is two steps of the task: it takes the permit, then it calls the tool
  · have shown : s.gate = ⟨1, ticket :: rest, []⟩ := by
      rw [gate, RunQueue.errands, idle]
      rfl
    have passed : Step marker ids s { s with gate := ⟨0, rest, [.enter ticket]⟩ } :=
      .passes (.enter ticket) _ (by rw [shown]; rfl)
    have started : Step marker ids { s with gate := ⟨0, rest, [.enter ticket]⟩ } _ :=
      .starts [] [] ticket rfl
    refine ⟨_, (ReflTransGen.single passed).tail started, rfl, rfl, List.Subset.refl _, ?_⟩
    intro run member
    simp at member
  · have shown : s.gate = ⟨0, waiting, [⟨run.ticket, .running⟩]⟩ := by
      rw [gate, RunQueue.errands, busy]
      rfl
    have ended : Step marker ids s _ :=
      .ends [] [] run.ticket run.performance.ending (by rw [shown]; rfl)
    have left : Step marker ids { s with
        gate := ⟨s.gate.free, s.gate.waiting, [⟨run.ticket, .ended run.performance.ending⟩]⟩ } _ :=
      .leaves [] [] run.ticket run.performance.ending rfl
    refine ⟨_, (ReflTransGen.single ended).tail left, ?_, rfl, List.subset_cons_self _ _, ?_⟩
    · simp [shown, RunQueue.errands]
    · intro other member
      simp only [List.mem_singleton, Occurrence.ended.injEq] at member
      subst member
      exact List.mem_cons_self

theorem advanceWith_passing (before : Option Nat) (fuel : Nat) (orderly : q.Orderly)
    (gate : s.gate = q.errands) :
    ∃ s', Passing marker ids s (RunQueue.advanceWith tool before fuel q).1
      (RunQueue.advanceWith tool before fuel q).2 s.standing s' := by
  induction fuel generalizing s q with
  | zero => exact ⟨s, passing_refl gate⟩
  | succ fuel ih =>
      unfold RunQueue.advanceWith
      cases next : q.next? tool before with
      | none => exact ⟨s, passing_refl gate⟩
      | some found =>
          obtain ⟨o, q'⟩ := found
          obtain ⟨middle, first⟩ := next_passing orderly next gate
          obtain ⟨last, others⟩ := ih (RunQueue.next_moves orderly next).orderly first.gate
          rw [first.standing] at others
          exact ⟨last, passing_trans first others⟩

theorem accept_passing (orderly : q.Orderly) (gate : s.gate = q.errands) (ticket : Ticket)
    (ruled : s.standing ticket.caller = .ruled request (.ok ticket.nonce))
    (id : ticket.id = .resolve request.headers (ids ticket.caller)) :
    ∃ s', Passing marker ids s (q.accept tool ticket).1 (q.accept tool ticket).2
      (Function.update s.standing ticket.caller (.waiting request)) s' := by
  obtain ⟨middle, advanced⟩ : ∃ middle, Passing marker ids s
      (q.advance tool (some ticket.admitted)).1 (q.advance tool (some ticket.admitted)).2
      s.standing middle :=
    advanceWith_passing (some ticket.admitted) q.pending orderly gate
  have still : middle.standing ticket.caller = .ruled request (.ok ticket.nonce) := by
    rw [advanced.standing, ruled]
  have admitted : Step marker ids middle _ :=
    .admits ticket.caller request ticket.nonce ticket.admitted still
  have own : (⟨ticket.caller, .resolve request.headers (ids ticket.caller), ticket.nonce,
      ticket.admitted⟩ : Ticket) = ticket := by
    rw [← id]
  rw [own] at admitted
  refine ⟨_, advanced.steps.tail admitted, ?_, ?_, advanced.kept, advanced.results⟩
  · show middle.gate.enter ticket = (q.accept tool ticket).2.errands
    rw [advanced.gate]
    rfl
  · show Function.update middle.standing _ _ = _
    rw [advanced.standing]

theorem acceptAll_passing (marker : String) {given : List Occurrence} {earlier : List Ticket}
    (course : RunQueue.OnCourse tool earlier given q) (gate : s.gate = q.errands)
    (tickets : List Ticket) (now : ∀ ticket ∈ tickets, q.now ≤ ticket.admitted)
    (ordered : tickets.Pairwise fun a b => a.admitted ≤ b.admitted)
    (distinct : (tickets.map Ticket.caller).Nodup)
    (ruled : ∀ ticket ∈ tickets, ∃ request : Http.Request,
      s.standing ticket.caller = .ruled request (.ok ticket.nonce) ∧
        ticket.id = .resolve request.headers (ids ticket.caller)) :
    ∃ s', Passing marker ids s (q.acceptAll tool tickets).1 (q.acceptAll tool tickets).2
      (fun j => if j ∈ tickets.map Ticket.caller then (s.standing j).admitted else s.standing j)
      s' := by
  -- The tickets come in one by one; calls have one ticket each, so the rest leaves the first alone.
  induction tickets generalizing s q given earlier with
  | nil => exact ⟨s, passing_refl gate⟩
  | cons ticket rest ih =>
      obtain ⟨request, own, id⟩ := ruled ticket List.mem_cons_self
      obtain ⟨next, reached⟩ := RunQueue.accept_onCourse course ticket (now ticket List.mem_cons_self)
      obtain ⟨middle, first⟩ : ∃ middle, Passing marker ids s (q.accept tool ticket).1
          (q.accept tool ticket).2 _ middle := accept_passing course.orderly gate ticket own id
      rw [List.map_cons, List.nodup_cons] at distinct
      have others : ∀ j, j ≠ ticket.caller → middle.standing j = s.standing j := by
        intro j other
        rw [first.standing, Function.update_of_ne other]
      have tail := ih next first.gate
        (fun other member => by
          rw [reached]
          exact List.rel_of_pairwise_cons ordered member)
        ordered.of_cons distinct.2
        (fun other member => by
          have apart : other.caller ≠ ticket.caller := by
            intro same
            rw [← same] at distinct
            exact distinct.1 (List.mem_map_of_mem member)
          rw [others other.caller apart]
          exact ruled other (List.mem_cons_of_mem _ member))
      obtain ⟨last, second⟩ := tail
      refine ⟨last, ?_⟩
      have whole := passing_trans first second
      -- the first ticket and the rest together admit exactly the calls of the whole list
      have same : (fun j => if j ∈ rest.map Ticket.caller then (middle.standing j).admitted
            else middle.standing j) =
          fun j => if j ∈ (ticket :: rest).map Ticket.caller then (s.standing j).admitted
            else s.standing j := by
        funext j
        by_cases here : j = ticket.caller
        · subst here
          rw [if_neg distinct.1, if_pos (by simp), first.standing, Function.update_self, own]
          rfl
        · rw [others j here]
          exact if_congr (by simp [here]) rfl rfl
      rw [same] at whole
      exact whole

end Queue

/-- The gateway stands where a history stands. -/
structure Shows (service : Service) (h : History) (s : Gateway) : Prop where
  gate : s.gate = h.session.queue.errands
  standing : ∀ j, s.standing j = (h.account.replies[j]?.map Reply.standing).getD .unsent
  results : ∀ run, .ended run ∈ h.account.occurrences →
    (run.ticket, run.performance.ending) ∈ s.results

section Histories
variable {service : Service} {h : History}

theorem pause_reached (sound : h.Sound service) (shows : Shows service h s) (milliseconds : Nat) :
    ∃ s', ReflTransGen (Step service.successMarker service.ids) s s' ∧
      Shows service (h.next service (.pause milliseconds)) s' := by
  obtain ⟨s', passing⟩ : ∃ s', Passing service.successMarker service.ids s
      (h.session.queue.advance service.tool (some (h.session.now + milliseconds))).1
      (h.session.queue.advance service.tool (some (h.session.now + milliseconds))).2
      s.standing s' :=
    advanceWith_passing _ _ sound.course.orderly shows.gate
  refine ⟨s', passing.steps, passing.gate, ?_, ?_⟩
  · intro j
    rw [passing.standing, shows.standing j]
    show _ = ((h.account.replies ++ [])[j]?.map Reply.standing).getD .unsent
    rw [List.append_nil]
  · intro run member
    rcases List.mem_append.mp member with old | new
    · exact passing.kept (shows.results run old)
    · exact passing.results run new

section Exchange
variable {calls : List Call}

def takenIn (service : Service) (number : Nat) (calls : List Call) (j : Nat) : Standing :=
  match calls[j - number]? with
  | some call => arrived call (service.arrive j call).stage
  | none => .unsent

theorem takenIn_reached (service : Service) (calls : List Call)
    (unsent : ∀ j, h.session.calls ≤ j → s.standing j = .unsent) :
    ReflTransGen (Step service.successMarker service.ids) s
      (s.standRange h.session.calls calls.length (takenIn service h.session.calls calls)) := by
  apply standRange_reached
  intro j low high t _ _ standing
  obtain ⟨call, found⟩ : ∃ call, calls[j - h.session.calls]? = some call :=
    ⟨_, List.getElem?_eq_getElem (by omega)⟩
  simp only [takenIn, found]
  exact arrive_reached (standing.trans (unsent j low))

theorem takenIn_admitted (service : Service) (s : Gateway) (h : History) (calls : List Call) (j : Nat) :
    (if j ∈ (h.newcomers service calls).map Ticket.caller then
        ((s.standRange h.session.calls calls.length
          (takenIn service h.session.calls calls)).standing j).admitted
      else (s.standRange h.session.calls calls.length
          (takenIn service h.session.calls calls)).standing j) =
      (s.standRange h.session.calls calls.length fun j =>
        (takenIn service h.session.calls calls j).admitted).standing j := by
  simp only [standRange]
  by_cases within : h.session.calls ≤ j ∧ j < h.session.calls + calls.length
  · simp only [if_pos within]
    by_cases member : j ∈ (h.newcomers service calls).map Ticket.caller
    · rw [if_pos member]
    · rw [if_neg member]
      -- without a ticket the call has been answered, and being admitted would change nothing
      obtain ⟨i, rfl⟩ := Nat.exists_eq_add_of_le within.1
      obtain ⟨call, found⟩ : ∃ call, calls[i]? = some call :=
        ⟨_, List.getElem?_eq_getElem (by omega)⟩
      simp only [takenIn, Nat.add_sub_cancel_left, found]
      cases stage : (service.arrive (h.session.calls + i) call).stage with
      | inl reply => cases reply <;> rfl
      | inr ticket =>
          have known := service.arrive_mem h.session.calls found
          have inLine := (Session.mem_tickets _ ticket).mpr ⟨_, known, stage⟩
          rw [← Service.ticket_caller stage] at member
          exact absurd (List.mem_map_of_mem inLine) member
  · have stranger : j ∉ (h.newcomers service calls).map Ticket.caller := by
      intro member
      obtain ⟨ticket, known, rfl⟩ := List.mem_map.mp member
      exact within (service.ticket_caller_bounds h.session.calls calls ticket known)
    rw [if_neg stranger, if_neg within, if_neg within]

theorem entered_passing (sound : h.Sound service) (shows : Shows service h s)
    (fresh : ∀ call ∈ calls, h.session.now ≤ call.sent) :
    ∃ s', Passing service.successMarker service.ids s
      ((h.session.accepted service calls).1 ++ (h.session.remaining service calls).1)
      (h.session.remaining service calls).2
      (s.standRange h.session.calls calls.length fun j =>
        (takenIn service h.session.calls calls j).admitted).standing s' := by
  have number : h.session.calls = h.account.replies.length :=
    sound.numbered.trans (History.replies_length sound).symm
  have unsent : ∀ j, h.session.calls ≤ j → s.standing j = .unsent := by
    intro j late
    rw [shows.standing j, List.getElem?_eq_none (by omega)]
    rfl
  have taken : ReflTransGen (Step service.successMarker service.ids) s _ :=
    takenIn_reached service calls unsent
  have ruled : ∀ ticket ∈ h.newcomers service calls, ∃ request : Http.Request,
      (s.standRange h.session.calls calls.length
        (takenIn service h.session.calls calls)).standing ticket.caller =
          .ruled request (.ok ticket.nonce) ∧
        ticket.id = .resolve request.headers (service.ids ticket.caller) := by
    intro ticket member
    obtain ⟨i, call, found, stage⟩ := History.newcomers_origin member
    have bound := (List.getElem?_eq_some_iff.mp found).1
    obtain ⟨_, _, _, own⟩ := Service.arrive_ticket stage
    have caller := Service.ticket_caller stage
    refine ⟨call.request, ?_, by rw [own, Service.identify]⟩
    simp only [standRange, takenIn, caller, Nat.add_sub_cancel_left, found, stage, arrived]
    rw [if_pos (by omega)]
  obtain ⟨inLine, accepted⟩ := acceptAll_passing service.successMarker
    (s := s.standRange h.session.calls calls.length (takenIn service h.session.calls calls))
    sound.course shows.gate
    (h.newcomers service calls)
    (fun ticket member => Nat.le_trans sound.now (History.newcomers_after fresh member))
    (History.newcomers_ordered service h calls)
    (service.tickets_callers_nodup h.session.calls calls) ruled
  rw [funext (takenIn_admitted service s h calls)] at accepted
  obtain ⟨last, remaining⟩ : ∃ t, Passing service.successMarker service.ids inLine
      (h.session.remaining service calls).1 (h.session.remaining service calls).2
      inLine.standing t :=
    advanceWith_passing _ _ (History.accepted_onCourse sound fresh).orderly accepted.gate
  rw [accepted.standing] at remaining
  have whole := passing_trans accepted remaining
  exact ⟨last, taken.trans whole.steps, whole.gate, whole.standing, whole.kept, whole.results⟩

theorem conclude_reached {j : Nat} (call : Call) {reply : Reply} {runs : List Tenure}
    {happened : List Occurrence}
    (concluded : service.Concludes runs happened (service.arrive j call) reply)
    (standing : s.standing j = (arrived call (service.arrive j call).stage).admitted)
    (results : ∀ run, .ended run ∈ happened →
      (run.ticket, run.performance.ending) ∈ s.results) :
    ReflTransGen (Step service.successMarker service.ids) s (s.stand j reply.standing) := by
  unfold Service.Concludes at concluded
  cases stage : (service.arrive j call).stage with
  | inl own =>
      simp only [stage] at concluded standing
      subst concluded
      -- the call was over before any admission, so no step is left
      have already : s.standing j = reply.standing := by
        rw [standing]
        cases reply <;> rfl
      rw [← already, stand, Function.update_eq_self]
  | inr ticket =>
      simp only [stage] at concluded standing
      obtain ⟨run, _, rfl, same, ended⟩ := concluded
      have waiting : s.standing j = .waiting call.request := standing
      rw [same, service.conclude_reply, Service.arrive_call, Service.arrive_id]
      rw [Service.arrive_call] at ended
      by_cases inTime : run.ends < (service.departure call).1
      · rw [if_pos inTime]
        exact .single (.delivers j call.request run.ticket run.performance.ending waiting
          (results run (ended inTime)) (Service.ticket_caller stage))
      · rw [if_neg inTime]
        exact .single (depart_reached service call (by rw [waiting]; rfl))

theorem settled_reached {later : History} (after : later.Sound service)
    (sent : later.calls = h.calls ++ calls) (number : h.session.calls = h.calls.length)
    (standing : ∀ i call, calls[i]? = some call → s.standing (h.session.calls + i) =
      (arrived call (service.arrive (h.session.calls + i) call).stage).admitted)
    (results : ∀ run, .ended run ∈ later.account.occurrences →
      (run.ticket, run.performance.ending) ∈ s.results) :
    ReflTransGen (Step service.successMarker service.ids) s
      (s.standRange h.session.calls calls.length fun j =>
        (later.account.replies[j]?.map Reply.standing).getD .unsent) := by
  apply standRange_reached
  intro j low high t _ resultsKept stands
  obtain ⟨i, rfl⟩ := Nat.exists_eq_add_of_le low
  obtain ⟨call, found⟩ : ∃ call, calls[i]? = some call :=
    ⟨_, List.getElem?_eq_getElem (by omega)⟩
  obtain ⟨reply, got⟩ : ∃ reply, later.account.replies[h.session.calls + i]? = some reply := by
    refine ⟨_, List.getElem?_eq_getElem ?_⟩
    rw [History.replies_length after, sent, List.length_append, ← number]
    omega
  rw [got]
  apply conclude_reached call
  · apply History.concludes_at after _ got
    rw [sent, number, List.getElem?_append_right (by omega), Nat.add_sub_cancel_left, found]
  · exact stands.trans (standing i call found)
  · intro run ended
    rw [resultsKept]
    exact results run ended

theorem exchange_reached (sound : h.Sound service) (shows : Shows service h s)
    (calls : List Call) :
    ∃ s', ReflTransGen (Step service.successMarker service.ids) s s' ∧
      Shows service (h.next service (.exchange calls)) s' := by
  have after := History.exchange_sound sound calls
  obtain ⟨sent, fresh, moved⟩ := History.exchange_sent service h calls
  obtain ⟨replies, occurrences, session⟩ := h.session.exchange_spec service sent
  rw [moved] at after ⊢
  -- the runs come first and the replies last: without time, no order between them is lost
  obtain ⟨last, entered⟩ := entered_passing sound shows fresh
  have standing : ∀ i call, sent[i]? = some call → last.standing (h.session.calls + i) =
      (arrived call (service.arrive (h.session.calls + i) call).stage).admitted := by
    intro i call found
    have bound := (List.getElem?_eq_some_iff.mp found).1
    rw [entered.standing]
    simp only [standRange, takenIn, Nat.add_sub_cancel_left, found]
    rw [if_pos (by omega)]
  have results : ∀ run,
      .ended run ∈ h.account.occurrences ++ (h.session.exchange service sent).1.occurrences →
        (run.ticket, run.performance.ending) ∈ last.results := by
    intro run member
    rcases List.mem_append.mp member with old | new
    · exact entered.kept (shows.results run old)
    · rw [occurrences] at new
      exact entered.results run new
  have settled := settled_reached after rfl sound.numbered standing results
  refine ⟨_, entered.steps.trans settled, ?_, ?_, results⟩
  · show last.gate = (h.session.exchange service sent).2.queue.errands
    rw [session]
    exact entered.gate
  · intro j
    have number := sound.numbered
    have answered := History.replies_length sound
    have everyone : (h.account.andThen (h.session.exchange service sent).1).replies.length =
        (h.calls ++ sent).length := History.replies_length after
    rw [List.length_append] at everyone
    simp only [standRange, entered.standing]
    by_cases within : h.session.calls ≤ j ∧ j < h.session.calls + sent.length
    · rw [if_pos within]
    · rw [if_neg within, if_neg within, shows.standing j]
      by_cases old : j < h.session.calls
      · show _ = ((h.account.replies ++ _)[j]?.map _).getD _
        rw [List.getElem?_append_left (by omega)]
      · rw [List.getElem?_eq_none (by omega), List.getElem?_eq_none (by omega)]

end Exchange

/-- Every history stands where the gateway can come to stand. -/
theorem history_reachable (service : Service) (moves : List Move) :
    ∃ s, Reachable service.successMarker service.ids s ∧ Shows service (History.of service moves) s := by
  induction moves using List.reverseRecOn with
  | nil =>
      refine ⟨start, .refl, rfl, fun _ => rfl, ?_⟩
      intro run member
      cases member
  | append_singleton moves move ih =>
      obtain ⟨s, reached, shows⟩ := ih
      have sound := History.of_sound service moves
      rw [History.of_snoc]
      cases move with
      | pause milliseconds =>
          obtain ⟨s', steps, later⟩ := pause_reached sound shows milliseconds
          exact ⟨s', reached.trans steps, later⟩
      | exchange calls =>
          obtain ⟨s', steps, later⟩ := exchange_reached sound shows calls
          exact ⟨s', reached.trans steps, later⟩

/-- Along every history the permit is kept, at the gateway and at the queue of its runs. -/
theorem history_kept (service : Service) (moves : List Move) :
    (∃ s, Shows service (History.of service moves) s ∧ s.PermitKept service.successMarker service.ids) ∧
      (History.of service moves).session.queue.gate.free +
        (History.of service moves).session.queue.gate.holders.length = 1 := by
  obtain ⟨s, reached, shows⟩ := history_reachable service moves
  have single := permit_single reached
  refine ⟨⟨s, shows, kept_of_single single⟩, ?_⟩
  rw [shows.gate] at single
  simpa [RunQueue.errands] using single

end Histories

end Gateway

end AttestationService

import AttestationService.Proofs.Intake.Body
import AttestationService.Session

/-!
What calls come to before any run. A call is answered on its own, gives up, or is admitted for one
run with its own nonce. The admitted ones stand in line by the time of their admission, and those of
one moment by their number.
-/

namespace AttestationService

open Service (Arrival reaches finalize depart)

theorem intake_not_before (readDeadline sent : Nat) (request : Http.Request) :
    sent ≤ (Intake.ofRequest readDeadline sent request).ready := by
  unfold Intake.ofRequest
  split
  · exact Nat.le_refl sent
  · have read := Http.Body.collect_not_before readDeadline sent maxBodySize [] request.body
    split <;> rename_i found <;> rw [found] at read <;> exact read
  · exact Nat.le_refl sent

theorem le_of_reaches {departure : Nat × Departure} {time : Nat}
    (inTime : reaches departure time = true) : time ≤ departure.1 := by
  simp only [reaches, Bool.or_eq_true, decide_eq_true_eq, Bool.and_eq_true, beq_iff_eq] at inTime
  omega

theorem depart_time (id : Correlation) (call : Call) (departure : Nat × Departure) :
    (depart id call departure).time = departure.1 := by
  obtain ⟨time, _ | _⟩ := departure <;> rfl

namespace Service

variable {service : Service} {number : Nat} {call : Call}

def intake (service : Service) (call : Call) : Intake :=
  Intake.ofRequest service.deadlines.read call.sent call.request

def departure (service : Service) (call : Call) : Nat × Departure :=
  call.departure service.deadlines.write

@[simp] theorem arrive_call : (service.arrive number call).call = call := by
  unfold arrive
  cases Route.immediate? call.request <;> rfl

@[simp] theorem arrive_id :
    (service.arrive number call).id = service.identify number call.request := by
  unfold arrive
  cases Route.immediate? call.request <;> rfl

theorem arrive_page {response : Http.Response}
    (page : Route.immediate? call.request = some response) :
    (service.arrive number call).stage =
      .inl (if reaches (service.departure call) call.sent then
        .answered (finalize (service.identify number call.request) call.request.method
          response) call.sent
      else depart (service.identify number call.request) call
        (service.departure call)) := by
  simp only [arrive, page]
  rfl

theorem arrive_attest (attest : Route.immediate? call.request = none) :
    (service.arrive number call).stage =
      if reaches (service.departure call) (service.intake call).ready then
        match (service.intake call).verdict with
        | .ok nonce => .inr ⟨number, service.identify number call.request, nonce,
            (service.intake call).ready⟩
        | .error rejection => .inl (.answered
            (finalize (service.identify number call.request) call.request.method
              rejection.response) (service.intake call).ready)
      else .inl (depart (service.identify number call.request) call
        (service.departure call)) := by
  simp only [arrive, attest]
  rfl

theorem arrive_ticket {ticket : Ticket}
    (admitted : (service.arrive number call).stage = .inr ticket) :
    Route.immediate? call.request = none ∧
      reaches (service.departure call) (service.intake call).ready = true ∧
      (service.intake call).verdict = .ok ticket.nonce ∧
      ticket = ⟨number, service.identify number call.request, ticket.nonce,
        (service.intake call).ready⟩ := by
  cases route : Route.immediate? call.request with
  | some response =>
      rw [arrive_page route] at admitted
      cases admitted
  | none =>
      rw [arrive_attest route] at admitted
      split at admitted
      · rename_i inTime
        split at admitted
        · rename_i nonce verdict
          cases admitted
          exact ⟨rfl, inTime, verdict, rfl⟩
        · cases admitted
      · cases admitted

theorem ticket_caller {ticket : Ticket}
    (admitted : (service.arrive number call).stage = .inr ticket) : ticket.caller = number := by
  obtain ⟨_, _, _, own⟩ := arrive_ticket admitted
  rw [own]

theorem ticket_id {ticket : Ticket} (admitted : (service.arrive number call).stage = .inr ticket) :
    ticket.id = service.identify number call.request := by
  obtain ⟨_, _, _, own⟩ := arrive_ticket admitted
  rw [own]

theorem ticket_not_before {ticket : Ticket}
    (admitted : (service.arrive number call).stage = .inr ticket) :
    call.sent ≤ ticket.admitted ∧ ticket.admitted ≤ (service.departure call).1 := by
  obtain ⟨_, inTime, _, own⟩ := arrive_ticket admitted
  rw [own]
  exact ⟨intake_not_before _ _ _, le_of_reaches inTime⟩

def arrivals (service : Service) (number : Nat) : List Call → List Arrival
  | [] => []
  | call :: rest => service.arrive number call :: arrivals service (number + 1) rest

theorem arrivals_eq_zipIdx (service : Service) (number : Nat) (calls : List Call) :
    service.arrivals number calls =
      calls.zipIdx.map fun (call, i) => service.arrive (number + i) call := by
  have shifted : ∀ start, (calls.zipIdx start).map (fun (call, i) => service.arrive (number + i) call)
      = service.arrivals (number + start) calls := by
    induction calls with
    | nil => exact fun _ => rfl
    | cons call rest ih =>
        intro start
        simp only [List.zipIdx_cons, List.map_cons, arrivals, ih (start + 1), Nat.add_assoc]
  exact (shifted 0).symm

theorem arrivals_append (service : Service) (number : Nat) (front back : List Call) :
    service.arrivals number (front ++ back) =
      service.arrivals number front ++ service.arrivals (number + front.length) back := by
  induction front generalizing number with
  | nil => rfl
  | cons call rest ih =>
      simp only [List.cons_append, arrivals, ih, List.length_cons]
      rw [Nat.add_assoc, Nat.add_comm 1 rest.length]

@[simp] theorem arrivals_length (service : Service) (number : Nat) (calls : List Call) :
    (service.arrivals number calls).length = calls.length := by
  induction calls generalizing number with
  | nil => rfl
  | cons call rest ih => simp [arrivals, ih]

theorem arrivals_getElem? (service : Service) (number : Nat) (calls : List Call) (i : Nat) :
    (service.arrivals number calls)[i]? = calls[i]?.map (service.arrive (number + i)) := by
  induction calls generalizing number i with
  | nil => rfl
  | cons call rest ih =>
      cases i with
      | zero => rfl
      | succ i =>
          simp only [arrivals, List.getElem?_cons_succ, ih]
          rw [Nat.add_assoc, Nat.add_comm 1 i]

theorem mem_arrivals {service : Service} {number : Nat} {calls : List Call} {arrival : Arrival}
    (member : arrival ∈ service.arrivals number calls) :
    ∃ i call, calls[i]? = some call ∧ arrival = service.arrive (number + i) call := by
  obtain ⟨i, found⟩ := List.mem_iff_getElem?.mp member
  rw [arrivals_getElem?] at found
  obtain ⟨call, known, same⟩ := Option.map_eq_some_iff.mp found
  exact ⟨i, call, known, same.symm⟩

theorem arrive_mem (service : Service) (number : Nat) {calls : List Call} {i : Nat} {call : Call}
    (found : calls[i]? = some call) :
    service.arrive (number + i) call ∈ service.arrivals number calls := by
  apply List.mem_of_getElem? (i := i)
  rw [arrivals_getElem?, found]
  rfl

end Service

/-- Whether a run stands in line before another: by the time of its admission, and among those of
one moment by the number of the request. -/
def Ticket.Before (a b : Ticket) : Prop :=
  a.admitted < b.admitted ∨ a.admitted = b.admitted ∧ a.caller < b.caller

namespace Session

theorem mem_tickets (arrivals : List Arrival) (ticket : Ticket) :
    ticket ∈ tickets arrivals ↔ ∃ arrival ∈ arrivals, arrival.stage = .inr ticket := by
  simp only [tickets, List.mem_mergeSort, List.mem_filterMap]
  refine exists_congr fun arrival => and_congr_right fun _ => ?_
  cases arrival.stage <;> simp

theorem mergeSort_before (l : List Ticket) (numbered : l.Pairwise fun a b => a.caller < b.caller) :
    (l.mergeSort fun a b => a.admitted ≤ b.admitted).Pairwise Ticket.Before := by
  have transitive : ∀ a b c : Ticket, decide (a.admitted ≤ b.admitted) = true →
      decide (b.admitted ≤ c.admitted) = true → decide (a.admitted ≤ c.admitted) = true := by
    intro a b c first second
    simp only [decide_eq_true_eq] at first second ⊢
    omega
  have total : ∀ a b : Ticket,
      (decide (a.admitted ≤ b.admitted) || decide (b.admitted ≤ a.admitted)) = true := by
    intro a b
    simp only [Bool.or_eq_true, decide_eq_true_eq]
    omega
  induction l with
  | nil => simp
  | cons ticket rest ih =>
      have tail := ih numbered.of_cons
      have sorted := List.pairwise_mergeSort transitive total (ticket :: rest)
      -- the sort is stable: the head goes behind those only that are strictly earlier
      obtain ⟨front, back, whole, others, early⟩ :=
        List.mergeSort_cons transitive total ticket rest
      rw [whole] at sorted ⊢
      rw [others] at tail
      have later : ∀ b ∈ back, ticket.Before b := by
        intro b member
        have notBefore : ticket.admitted ≤ b.admitted := by
          have tailSorted := (List.pairwise_append.mp sorted).2.1
          simpa using List.rel_of_pairwise_cons tailSorted member
        have inRest : b ∈ rest := by
          have inSorted : b ∈ rest.mergeSort fun a b => a.admitted ≤ b.admitted := by
            rw [others]
            exact List.mem_append_right front member
          exact List.mem_mergeSort.mp inSorted
        have larger := List.rel_of_pairwise_cons numbered inRest
        rcases Nat.lt_or_eq_of_le notBefore with less | equal
        · exact Or.inl less
        · exact Or.inr ⟨equal, larger⟩
      obtain ⟨frontBefore, backBefore, across⟩ := List.pairwise_append.mp tail
      refine List.pairwise_append.mpr ⟨frontBefore, .cons later backBefore, ?_⟩
      intro a inFront b inBack
      rcases List.mem_cons.mp inBack with rfl | inBack
      · have less := early a inFront
        simp only [Bool.not_eq_true', decide_eq_false_iff_not] at less
        exact Or.inl (by omega)
      · exact across a inFront b inBack

end Session

namespace Service

variable (service : Service)

theorem tickets_numbered (number : Nat) (calls : List Call) :
    ((service.arrivals number calls).filterMap fun a => a.stage.getRight?).Pairwise
        (fun a b => a.caller < b.caller) ∧
      ∀ ticket ∈ (service.arrivals number calls).filterMap fun a => a.stage.getRight?,
        number ≤ ticket.caller ∧ ticket.caller < number + calls.length := by
  induction calls generalizing number with
  | nil => simp [arrivals]
  | cons call rest ih =>
      obtain ⟨ordered, bounds⟩ := ih (number + 1)
      simp only [arrivals, List.filterMap_cons]
      cases admitted : (service.arrive number call).stage with
      | inl reply =>
          refine ⟨ordered, fun ticket member => ?_⟩
          have range := bounds ticket member
          simp only [List.length_cons]
          omega
      | inr ticket =>
          have own := ticket_caller admitted
          constructor
          · refine .cons (fun other member => ?_) ordered
            have range := bounds other member
            omega
          · intro other member
            simp only [List.length_cons]
            rcases List.mem_cons.mp member with rfl | later
            · omega
            · have range := bounds other later
              omega

theorem tickets_before (number : Nat) (calls : List Call) :
    (Session.tickets (service.arrivals number calls)).Pairwise Ticket.Before :=
  Session.mergeSort_before _ (service.tickets_numbered number calls).1

theorem ticket_caller_bounds (number : Nat) (calls : List Call) (ticket : Ticket)
    (member : ticket ∈ Session.tickets (service.arrivals number calls)) :
    number ≤ ticket.caller ∧ ticket.caller < number + calls.length :=
  (service.tickets_numbered number calls).2 ticket (List.mem_mergeSort.mp member)

theorem tickets_callers_nodup (number : Nat) (calls : List Call) :
    ((Session.tickets (service.arrivals number calls)).map Ticket.caller).Nodup := by
  have distinct : (((service.arrivals number calls).filterMap fun a => a.stage.getRight?).map
      Ticket.caller).Nodup := by
    rw [List.Nodup, List.pairwise_map]
    exact (service.tickets_numbered number calls).1.imp fun less => Nat.ne_of_lt less
  exact ((List.mergeSort_perm _ _).map _).nodup_iff.mpr distinct

theorem tickets_append (front back : List Call)
    (apart : ∀ a ∈ Session.tickets (service.arrivals 0 front),
      ∀ b ∈ Session.tickets (service.arrivals front.length back), a.admitted ≤ b.admitted) :
    Session.tickets (service.arrivals 0 (front ++ back)) =
      Session.tickets (service.arrivals 0 front) ++
        Session.tickets (service.arrivals front.length back) := by
  have asymmetric : ∀ a b : Ticket, a.Before b → b.Before a → a = b := by
    intro a b first second
    simp only [Ticket.Before] at first second
    omega
  -- both sides hold the same tickets, and the order leaves no choice
  apply List.Perm.eq_of_pairwise (fun a b _ _ => asymmetric a b)
  · exact service.tickets_before 0 (front ++ back)
  · refine List.pairwise_append.mpr ⟨service.tickets_before _ _, service.tickets_before _ _, ?_⟩
    intro a inFront b inBack
    have first := service.ticket_caller_bounds 0 front a inFront
    have second := service.ticket_caller_bounds front.length back b inBack
    rcases Nat.lt_or_eq_of_le (apart a inFront b inBack) with less | equal
    · exact Or.inl less
    · exact Or.inr ⟨equal, by omega⟩
  · simp only [Session.tickets, arrivals_append, List.filterMap_append, Nat.zero_add]
    exact (List.mergeSort_perm _ _).trans
      ((List.mergeSort_perm _ _).append (List.mergeSort_perm _ _)).symm

end Service

end AttestationService

import AttestationService.Proofs.Session.History

/-!
The runs of a history. Every admitted call has one run, whether or not its caller is still there;
no other run takes place; and they follow one another in the order of their admission without a
gap that somebody waits through.
-/

namespace AttestationService

/-- What the runs for numbered calls are, in the order of their starts. -/
structure Service.Serves (service : Service) (calls : List Call) (runs : List Tenure) : Prop where
  /-- A call has a run with its own ticket if it was admitted, and none if it was not. -/
  once : ∀ i call, calls[i]? = some call →
    (runs.map Tenure.ticket).filter (·.caller == i) = (service.arrive i call).stage.getRight?.toList
  callers : ∀ run ∈ runs, run.ticket.caller < calls.length
  order : (runs.map Tenure.ticket).Pairwise Ticket.Before
  numbers : runs.map Tenure.number = List.range runs.length
  performance : ∀ run ∈ runs, run.performance = service.tool run.number run.ticket.nonce
  first : ∀ run ∈ runs.head?, run.started = run.ticket.admitted
  next : runs.IsChain Follows
  /-- While somebody waits there is a run at the verifier. -/
  busy : ∀ run ∈ runs, ∀ time, run.ticket.admitted ≤ time → time < run.started →
    ∃ other ∈ runs, other.started ≤ time ∧ time < other.ends

theorem line_busy (tool : Verifier.Tool) (number clear : Nat) (tickets : List Ticket)
    (ordered : tickets.Pairwise fun a b => a.admitted ≤ b.admitted) (run : Tenure)
    (member : run ∈ line tool number clear tickets) (time : Nat)
    (admitted : run.ticket.admitted ≤ time) (waits : time < run.started) :
    time < clear ∨
      ∃ other ∈ line tool number clear tickets, other.started ≤ time ∧ time < other.ends := by
  -- along the line: the run that is waited for is the head or stands in the rest
  induction tickets generalizing number clear with
  | nil => cases member
  | cons ticket rest ih =>
      have start : (ticket.redeem tool number clear).started = max ticket.admitted clear := rfl
      rcases List.mem_cons.mp member with rfl | later
      · left
        have own : (ticket.redeem tool number clear).ticket.admitted = ticket.admitted := rfl
        omega
      · have after := List.rel_of_pairwise_cons ordered (ticket_of_line tool later)
        rcases ih (number + 1) _ ordered.of_cons later with running | ⟨other, known, during⟩
        · by_cases begun : (ticket.redeem tool number clear).started ≤ time
          · right
            exact ⟨_, List.mem_cons_self, begun, running⟩
          · left
            omega
        · right
          exact ⟨other, List.mem_cons_of_mem _ known, during⟩

namespace Service

variable (service : Service)

theorem own_tickets (number : Nat) (calls : List Call) (i : Nat) (call : Call)
    (found : calls[i]? = some call) :
    ((service.arrivals number calls).filterMap fun a => a.stage.getRight?).filter
        (·.caller == number + i) =
      (service.arrive (number + i) call).stage.getRight?.toList := by
  induction calls generalizing number i with
  | nil => simp at found
  | cons head rest ih =>
      have others := (service.tickets_numbered (number + 1) rest).2
      cases i with
      | zero =>
          -- later calls have larger numbers, so no ticket among theirs is this caller's own
          have alone : ((service.arrivals (number + 1) rest).filterMap
              fun a => a.stage.getRight?).filter (·.caller == number) = [] := by
            apply List.filter_eq_nil_iff.mpr
            intro ticket member
            have range := others ticket member
            simp only [beq_iff_eq]
            omega
          simp only [List.getElem?_cons_zero, Option.some.injEq] at found
          subst found
          simp only [arrivals, List.filterMap_cons, Nat.add_zero]
          cases admitted : (service.arrive number head).stage with
          | inl reply => simpa using alone
          | inr ticket => simp [ticket_caller admitted, alone]
      | succ i =>
          have tail := ih (number + 1) i (by simpa using found)
          rw [Nat.add_assoc, Nat.add_comm 1 i] at tail
          simp only [arrivals, List.filterMap_cons]
          cases admitted : (service.arrive number head).stage with
          | inl reply => simpa using tail
          | inr ticket =>
              have other : ¬ ticket.caller = number + (i + 1) := by
                have same := ticket_caller admitted
                omega
              simpa [other] using tail

theorem tickets_own (calls : List Call) (i : Nat) (call : Call) (found : calls[i]? = some call) :
    (Session.tickets (service.arrivals 0 calls)).filter (·.caller == i) =
      (service.arrive i call).stage.getRight?.toList := by
  have own := service.own_tickets 0 calls i call found
  rw [Nat.zero_add] at own
  have sorted := (List.mergeSort_perm ((service.arrivals 0 calls).filterMap fun a =>
    a.stage.getRight?) fun a b => a.admitted ≤ b.admitted).filter (·.caller == i)
  rw [own] at sorted
  cases admitted : (service.arrive i call).stage.getRight? with
  | none =>
      rw [admitted] at sorted
      exact sorted.eq_nil
  | some ticket =>
      rw [admitted] at sorted
      exact List.perm_singleton.mp sorted

theorem serves_line (calls : List Call) :
    service.Serves calls (line service.tool 0 0 (Session.tickets (service.arrivals 0 calls))) := by
  have before := service.tickets_before 0 calls
  refine ⟨?_, ?_, ?_, ?_, ?_, ?_, ?_, ?_⟩
  · intro i call found
    rw [line_tickets]
    exact service.tickets_own calls i call found
  · intro run member
    have bounds := service.ticket_caller_bounds 0 calls run.ticket (ticket_of_line _ member)
    omega
  · rw [line_tickets]
    exact before
  · have numbers := line_numbers service.tool 0 0 (Session.tickets (service.arrivals 0 calls))
    have lengths := congrArg List.length numbers
    rw [List.length_map, List.length_range'] at lengths
    rw [numbers, lengths, List.range_eq_range']
  · exact fun run member => line_performance service.tool 0 0 _ run member
  · intro run head
    cases tickets : Session.tickets (service.arrivals 0 calls) with
    | nil => simp [tickets, line] at head
    | cons ticket rest =>
        simp only [tickets, line, List.head?_cons, Option.mem_some_iff] at head
        subst head
        exact Nat.max_eq_left (Nat.zero_le _)
  · exact line_chain service.tool 0 0 _
  · intro run member time admitted waits
    have ordered : (Session.tickets (service.arrivals 0 calls)).Pairwise
        fun a b => a.admitted ≤ b.admitted := by
      refine before.imp fun earlier => ?_
      rcases earlier with less | ⟨equal, _⟩ <;> omega
    rcases line_busy service.tool 0 0 _ ordered run member time admitted waits with early | during
    · omega
    · exact during

end Service

namespace History

/-- All that happens in a history and after it are the runs of its admitted calls: each has its own,
in the order of admission, and starts as soon as it is admitted and the run before it is over. -/
theorem served_in_line (service : Service) (moves : List Move) :
    ∃ runs, service.Serves (of service moves).calls runs ∧
      (of service moves).occurrences service = runs.flatMap Tenure.course ∧
      (∀ o ∈ (of service moves).account.occurrences, o.time ≤ (of service moves).session.now) ∧
      ∀ o ∈ ((of service moves).session.queue.advance service.tool none).1,
        (of service moves).session.now ≤ o.time := by
  have sound := of_sound service moves
  have coming := RunQueue.advance_all service.tool sound.course.orderly
  refine ⟨(of service moves).runs service, service.serves_line _, ?_, sound.past, ?_⟩
  · rw [occurrences, coming, sound.course.total]
    rfl
  · rw [coming]
    exact sound.coming

end History

end AttestationService

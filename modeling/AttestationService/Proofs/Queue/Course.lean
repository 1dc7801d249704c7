import AttestationService.Proofs.Queue.Future

/-!
A queue that is given tickets in the order of time. Whatever it was given and however far it has
advanced, what happened so far and what is still to happen are together the line of all its tickets
from the first run on. So no run is lost, started twice or put off.
-/

namespace AttestationService.RunQueue

variable {tool : Verifier.Tool} {q : RunQueue} {tickets : List Ticket} {happened : List Occurrence}

/-- A queue that was given `tickets`, after all of `happened`. -/
structure OnCourse (tool : Verifier.Tool) (tickets : List Ticket) (happened : List Occurrence)
    (q : RunQueue) : Prop where
  orderly : q.Orderly
  total : happened ++ q.future tool = (line tool 0 0 tickets).flatMap Tenure.course
  number : q.count + q.gate.waiting.length = tickets.length
  lastEnd : ∀ time, q.now ≤ time → max time (q.lastEnd tool) = max time (lineEnd tool 0 0 tickets)

theorem empty_onCourse (tool : Verifier.Tool) : OnCourse tool [] [] .empty := by
  refine ⟨⟨rfl, ?_, ?_⟩, rfl, rfl, fun _ _ => rfl⟩
  · intro ticket member
    cases member
  · intro run member
    cases member

theorem advance_onCourse (course : OnCourse tool tickets happened q) (before : Option Nat) :
    OnCourse tool tickets (happened ++ (q.advance tool before).1) (q.advance tool before).2 := by
  have advances := advance_advances tool before course.orderly
  refine ⟨advances.orderly, ?_, advances.number.trans course.number, ?_⟩
  · rw [List.append_assoc, ← advances.future]
    exact course.total
  · intro time after
    rw [advances.lastEnd]
    exact course.lastEnd time (Nat.le_trans advances.now after)

def takeIn (q : RunQueue) (ticket : Ticket) : RunQueue :=
  ⟨q.gate.enter ticket, ticket.admitted, q.count⟩

theorem takeIn_orderly (orderly : q.Orderly) (ticket : Ticket) (now : q.now ≤ ticket.admitted)
    (rest : ∀ o ∈ q.future tool, ticket.admitted ≤ o.time) : (q.takeIn ticket).Orderly := by
  refine ⟨orderly.permit, ?_, ?_⟩
  · intro other member
    rcases List.mem_append.mp member with old | new
    · exact Nat.le_trans (orderly.admitted other old) now
    · rw [List.mem_singleton.mp new]
      exact Nat.le_refl _
  · intro run member
    have coming : .ended run ∈ q.future tool :=
      List.mem_append_left _ (List.mem_map_of_mem member)
    exact rest _ coming

/-- The gate is free for the newcomer when it is for the last in line, unless that is before the
newcomer's own admission. -/
theorem takeIn_clear (orderly : q.Orderly) (ticket : Ticket) (now : q.now ≤ ticket.admitted)
    (rest : ∀ o ∈ q.future tool, ticket.admitted ≤ o.time) :
    (q.takeIn ticket).clear = q.clear ∨
      q.gate.holders = [] ∧ q.gate.waiting = [] ∧ (q.takeIn ticket).clear = ticket.admitted := by
  obtain ⟨waiting, idle | ⟨run, busy⟩⟩ := orderly_gate orderly
  · cases waiting with
    | nil =>
        right
        simp [idle, clear, takeIn, Gate.enter]
    | cons head others =>
        left
        -- the start of the first in line is due at once, so the newcomer comes at that very time
        have early : head.admitted ≤ q.now := orderly.admitted head (by simp [idle])
        have late : ticket.admitted ≤ q.now := by
          have first := rest (.started (head.redeem tool q.count q.now))
            (by simp [future, clear, idle, line, Tenure.course])
          simpa [Occurrence.time, Ticket.redeem, early] using first
        simp [clear, takeIn, Gate.enter, idle, Nat.le_antisymm now late]
  · left
    simp [clear, takeIn, Gate.enter, busy]

theorem takeIn_line (orderly : q.Orderly) (ticket : Ticket) (now : q.now ≤ ticket.admitted)
    (rest : ∀ o ∈ q.future tool, ticket.admitted ≤ o.time) :
    line tool q.count (q.takeIn ticket).clear (q.gate.waiting ++ [ticket]) =
        line tool q.count q.clear q.gate.waiting ++
          [ticket.redeem tool (q.count + q.gate.waiting.length) (q.lastEnd tool)] ∧
      (q.takeIn ticket).lastEnd tool =
        (ticket.redeem tool (q.count + q.gate.waiting.length) (q.lastEnd tool)).ends := by
  rcases takeIn_clear orderly ticket now rest with same | ⟨idle, alone, own⟩
  · constructor
    · rw [same, line_append]
      rfl
    · show lineEnd tool q.count (q.takeIn ticket).clear (q.gate.waiting ++ [ticket]) = _
      rw [same, lineEnd_append]
      rfl
  · have free : q.lastEnd tool = q.now := by simp [lastEnd, clear, idle, alone, lineEnd]
    have started : ticket.redeem tool q.count ticket.admitted = ticket.redeem tool q.count q.now := by
      simp [Ticket.redeem, Nat.max_eq_left now]
    constructor
    · simp [alone, own, free, line, started]
    · show lineEnd tool q.count (q.takeIn ticket).clear (q.gate.waiting ++ [ticket]) = _
      simp [alone, own, free, lineEnd, started]

theorem takeIn_onCourse (course : OnCourse tool tickets happened q) (ticket : Ticket)
    (now : q.now ≤ ticket.admitted) (rest : ∀ o ∈ q.future tool, ticket.admitted ≤ o.time) :
    OnCourse tool (tickets ++ [ticket]) happened (q.takeIn ticket) := by
  have orderly := course.orderly
  have run : ticket.redeem tool (q.count + q.gate.waiting.length) (q.lastEnd tool) =
      ticket.redeem tool tickets.length (lineEnd tool 0 0 tickets) := by
    rw [course.number]
    simp only [Ticket.redeem, course.lastEnd ticket.admitted now]
  obtain ⟨extended, last⟩ := takeIn_line orderly ticket now rest
  -- the run that the queue adds is the one that the line of all tickets adds
  rw [run] at extended last
  refine ⟨takeIn_orderly orderly ticket now rest, ?_, ?_, ?_⟩
  · have later : (q.takeIn ticket).future tool = q.future tool ++
        (ticket.redeem tool tickets.length (lineEnd tool 0 0 tickets)).course := by
      show _ ++ (line tool q.count (q.takeIn ticket).clear (q.gate.waiting ++ [ticket])).flatMap _ = _
      rw [extended]
      simp [future, takeIn, Gate.enter]
    rw [later, ← List.append_assoc, course.total, line_append]
    simp [line]
  · show q.count + (q.gate.waiting ++ [ticket]).length = (tickets ++ [ticket]).length
    have number := course.number
    simp only [List.length_append, List.length_singleton]
    omega
  · intro time _
    rw [last, lineEnd_append]
    simp [lineEnd]

theorem accept_onCourse (course : OnCourse tool tickets happened q) (ticket : Ticket)
    (now : q.now ≤ ticket.admitted) :
    OnCourse tool (tickets ++ [ticket]) (happened ++ (q.accept tool ticket).1)
        (q.accept tool ticket).2 ∧
      (q.accept tool ticket).2.now = ticket.admitted := by
  have advances := advance_advances tool (some ticket.admitted) course.orderly
  have middle := advance_onCourse course (some ticket.admitted)
  have reached : (q.advance tool (some ticket.admitted)).2.now ≤ ticket.admitted := by
    apply advances.recent _ now
    intro o member
    have due := advances.due o member
    simp only [Option.all_some, decide_eq_true_eq] at due
    omega
  have rest : ∀ o ∈ (q.advance tool (some ticket.admitted)).2.future tool,
      ticket.admitted ≤ o.time := by
    intro o member
    have late := advances.rest o member
    simpa using late
  have admitted := takeIn_onCourse middle ticket reached rest
  have same : (q.accept tool ticket).2 = (q.advance tool (some ticket.admitted)).2.takeIn ticket := by
    simp [accept, takeIn, Nat.max_eq_right reached]
  rw [same]
  exact ⟨admitted, rfl⟩

theorem acceptAll_onCourse (course : OnCourse tool tickets happened q) (newcomers : List Ticket)
    (now : ∀ ticket ∈ newcomers, q.now ≤ ticket.admitted)
    (ordered : newcomers.Pairwise fun a b => a.admitted ≤ b.admitted) :
    OnCourse tool (tickets ++ newcomers) (happened ++ (q.acceptAll tool newcomers).1)
      (q.acceptAll tool newcomers).2 := by
  induction newcomers generalizing q tickets happened with
  | nil => simpa [acceptAll] using course
  | cons ticket rest ih =>
      obtain ⟨next, reached⟩ := accept_onCourse course ticket (now ticket List.mem_cons_self)
      have after : ∀ other ∈ rest, (q.accept tool ticket).2.now ≤ other.admitted := by
        intro other member
        rw [reached]
        exact List.rel_of_pairwise_cons ordered member
      have tail := ih next after ordered.of_cons
      simpa [acceptAll, List.append_assoc] using tail

theorem acceptAll_recent (course : OnCourse tool tickets happened q) (newcomers : List Ticket)
    (now : ∀ ticket ∈ newcomers, q.now ≤ ticket.admitted)
    (ordered : newcomers.Pairwise fun a b => a.admitted ≤ b.admitted) (time : Nat)
    (reached : q.now ≤ time) (admitted : ∀ ticket ∈ newcomers, ticket.admitted ≤ time) :
    (q.acceptAll tool newcomers).2.now ≤ time ∧
      ∀ o ∈ (q.acceptAll tool newcomers).1, o.time ≤ time := by
  induction newcomers generalizing q tickets happened with
  | nil => exact ⟨reached, fun o member => by cases member⟩
  | cons ticket rest ih =>
      obtain ⟨next, own⟩ := accept_onCourse course ticket (now ticket List.mem_cons_self)
      have bound := admitted ticket List.mem_cons_self
      have after : ∀ other ∈ rest, (q.accept tool ticket).2.now ≤ other.admitted := by
        intro other member
        rw [own]
        exact List.rel_of_pairwise_cons ordered member
      obtain ⟨last, later⟩ := ih next after ordered.of_cons (by rw [own]; exact bound)
        fun other member => admitted other (List.mem_cons_of_mem ticket member)
      refine ⟨last, fun o member => ?_⟩
      rcases List.mem_append.mp member with first | second
      · have due := (advance_advances tool (some ticket.admitted) course.orderly).due o first
        simp only [Option.all_some, decide_eq_true_eq] at due
        omega
      · exact later o second

theorem happened_mem_line (course : OnCourse tool tickets happened q) {o : Occurrence}
    (member : o ∈ happened) : o.tenure ∈ line tool 0 0 tickets := by
  apply (mem_course_line tool 0 0 tickets o).mp
  rw [← course.total]
  exact List.mem_append_left _ member

end AttestationService.RunQueue

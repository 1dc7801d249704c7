import AttestationService.Proofs.Queue.Line

/-!
What is still to happen in a queue of runs, in closed form: the end of the run at the verifier, then
the line of those who wait. A queue that advances takes its future from the front, as far as it is
due; an admission adds a run at the back. `OnCourse` ties a queue to all tickets that it was ever
given, and holds of every queue that is given tickets in the order of time.
-/

namespace AttestationService.RunQueue

variable {tool : Verifier.Tool} {before : Option Nat} {q q' : RunQueue} {o : Occurrence}

/-- From when on the gate is free for those who wait. -/
def clear (q : RunQueue) : Nat :=
  match q.gate.holders with
  | [] => q.now
  | run :: _ => run.ends

def future (tool : Verifier.Tool) (q : RunQueue) : List Occurrence :=
  q.gate.holders.map .ended ++ (line tool q.count q.clear q.gate.waiting).flatMap Tenure.course

def lastEnd (tool : Verifier.Tool) (q : RunQueue) : Nat :=
  lineEnd tool q.count q.clear q.gate.waiting

/-- The permit is there or with one run, whoever waits has been admitted, and the run at the
verifier is not over yet. -/
structure Orderly (q : RunQueue) : Prop where
  permit : q.gate.free + q.gate.holders.length = 1
  admitted : ∀ ticket ∈ q.gate.waiting, ticket.admitted ≤ q.now
  unfinished : ∀ run ∈ q.gate.holders, q.now ≤ run.ends

theorem orderly_gate (orderly : q.Orderly) :
    ∃ waiting, q.gate = ⟨1, waiting, []⟩ ∨ ∃ run, q.gate = ⟨0, waiting, [run]⟩ := by
  obtain ⟨⟨free, waiting, holders⟩, now, count⟩ := q
  have permit : free + holders.length = 1 := orderly.permit
  refine ⟨waiting, ?_⟩
  rcases holders with _ | ⟨run, _ | ⟨other, rest⟩⟩
  · left
    simp only [List.length_nil] at permit
    subst permit
    rfl
  · right
    refine ⟨run, ?_⟩
    simp only [List.length_cons, List.length_nil] at permit
    have none : free = 0 := by omega
    subst none
    rfl
  · simp only [List.length_cons] at permit
    omega

theorem next_cases (orderly : q.Orderly) (next : q.next? tool before = some (o, q')) :
    (∃ ticket rest, q.gate = ⟨1, ticket :: rest, []⟩ ∧ before.all (q.now < ·) ∧
      o = .started (q.begins tool ticket) ∧
      q' = ⟨⟨0, rest, [q.begins tool ticket]⟩, q.now, q.count + 1⟩) ∨
    ∃ waiting run, q.gate = ⟨0, waiting, [run]⟩ ∧ before.all (run.ends < ·) ∧
      o = .ended run ∧ q' = ⟨⟨1, waiting, []⟩, run.ends, q.count⟩ := by
  obtain ⟨waiting, idle | ⟨run, busy⟩⟩ := orderly_gate orderly
  · left
    cases waiting with
    | nil => simp [next?, idle, Gate.pass?, Gate.leave?] at next
    | cons ticket rest =>
        simp only [next?, idle, Gate.pass?, List.nil_append, Option.ite_none_right_eq_some,
          Option.some.injEq, Prod.mk.injEq] at next
        exact ⟨ticket, rest, idle, next.1, next.2.1.symm, next.2.2.symm⟩
  · right
    simp only [next?, busy, Gate.pass?, Gate.leave?, Option.ite_none_right_eq_some,
      Option.some.injEq, Prod.mk.injEq, Nat.zero_add] at next
    exact ⟨waiting, run, busy, next.1, next.2.1.symm, next.2.2.symm⟩

-- Nothing happens only if there is nothing left or it is not due.
theorem next_none (orderly : q.Orderly) (stuck : q.next? tool before = none)
    (first : o ∈ (q.future tool).head?) : ¬ before.all (o.time < ·) := by
  obtain ⟨waiting, idle | ⟨run, busy⟩⟩ := orderly_gate orderly
  · cases waiting with
    | nil => simp [future, idle, line] at first
    | cons ticket rest =>
        have early : ticket.admitted ≤ q.now := orderly.admitted ticket (by simp [idle])
        simp only [future, clear, idle, line, Tenure.course, Ticket.redeem, List.map_nil,
          List.flatMap_cons, List.nil_append, List.cons_append, List.head?_cons,
          Option.mem_some_iff] at first
        subst first
        simp only [Occurrence.time, Nat.max_eq_right early]
        simpa only [next?, idle, Gate.pass?, ite_eq_right_iff, reduceCtorEq, imp_false] using stuck
  · simp only [future, busy, List.map_cons, List.cons_append, List.head?_cons,
      Option.mem_some_iff] at first
    subst first
    simp only [next?, busy, Gate.pass?, Gate.leave?, ite_eq_right_iff, reduceCtorEq,
      imp_false] at stuck
    exact stuck

theorem begins_eq_redeem (tool : Verifier.Tool) {ticket : Ticket} (early : ticket.admitted ≤ q.now) :
    q.begins tool ticket = ticket.redeem tool q.count q.now := by
  simp [begins, Ticket.redeem, Nat.max_eq_right early]

/-- What a single step changes and what it keeps. -/
structure Moves (tool : Verifier.Tool) (q : RunQueue) (o : Occurrence) (q' : RunQueue) : Prop where
  orderly : q'.Orderly
  future : q.future tool = o :: q'.future tool
  lastEnd : q'.lastEnd tool = q.lastEnd tool
  number : q'.count + q'.gate.waiting.length = q.count + q.gate.waiting.length
  now : q.now ≤ q'.now
  time : o.time = q'.now
  pending : q.pending = q'.pending + 1

theorem next_moves (orderly : q.Orderly) (next : q.next? tool before = some (o, q')) :
    Moves tool q o q' := by
  rcases next_cases orderly next with
    ⟨ticket, rest, idle, -, rfl, rfl⟩ | ⟨waiting, run, busy, -, rfl, rfl⟩
  · -- the gate is free and the head of the line starts: the clock stands still
    have early : ticket.admitted ≤ q.now := orderly.admitted ticket (by simp [idle])
    have start := begins_eq_redeem tool early
    refine ⟨⟨rfl, ?_, ?_⟩, ?_, ?_, ?_, Nat.le_refl _, rfl, ?_⟩
    · intro other member
      exact orderly.admitted other (by simp [idle, show other ∈ rest from member])
    · intro run member
      rw [List.mem_singleton.mp member]
      exact Nat.le_add_right _ _
    · simp [RunQueue.future, clear, idle, line, Tenure.course, start]
    · simp [RunQueue.lastEnd, clear, idle, lineEnd, start]
    · simp only [idle, List.length_cons]
      omega
    · simp only [RunQueue.pending, idle, List.length_cons, List.length_nil]
      omega
  · -- a run ends, and the clock goes on to its end
    have unfinished : q.now ≤ run.ends := orderly.unfinished run (by rw [busy]; simp)
    refine ⟨⟨rfl, ?_, ?_⟩, ?_, ?_, ?_, unfinished, rfl, ?_⟩
    · intro ticket member
      have early := orderly.admitted ticket (by rw [busy]; exact member)
      exact Nat.le_trans early unfinished
    · intro other member
      cases member
    · simp [RunQueue.future, clear, busy]
    · simp [RunQueue.lastEnd, clear, busy]
    · simp [busy]
    · simp [RunQueue.pending, busy]

theorem future_ordered (tool : Verifier.Tool) (orderly : q.Orderly) :
    (q.future tool).Pairwise fun a b => a.time ≤ b.time := by
  have waiting := course_ordered tool q.count q.clear q.gate.waiting
  obtain ⟨_, idle | ⟨run, busy⟩⟩ := orderly_gate orderly
  · simpa [future, idle] using waiting
  · have after := course_not_before tool q.count q.clear q.gate.waiting
    have clear : q.clear = run.ends := by simp [clear, busy]
    rw [clear] at waiting after
    simp only [future, busy, clear, List.map_cons, List.map_nil, List.cons_append, List.nil_append]
    rw [busy] at waiting after
    exact .cons after waiting

theorem future_undue (orderly : q.Orderly)
    (first : ∀ o ∈ (q.future tool).head?, ¬ before.all (o.time < ·)) :
    ∀ o ∈ q.future tool, ¬ before.all (o.time < ·) := by
  have ordered := future_ordered tool orderly
  cases coming : q.future tool with
  | nil => intro o member; cases member
  | cons head rest =>
      rw [coming] at ordered first
      have late : ¬ before.all (head.time < ·) := first head rfl
      intro o member due
      rcases List.mem_cons.mp member with rfl | later
      · exact late due
      · cases before with
        | none => exact late rfl
        | some limit =>
            have after := List.rel_of_pairwise_cons ordered later
            simp only [Option.all_some, decide_eq_true_eq] at late due
            omega

structure Advances (tool : Verifier.Tool) (before : Option Nat) (q : RunQueue)
    (happened : List Occurrence) (q' : RunQueue) : Prop where
  orderly : q'.Orderly
  future : q.future tool = happened ++ q'.future tool
  lastEnd : q'.lastEnd tool = q.lastEnd tool
  number : q'.count + q'.gate.waiting.length = q.count + q.gate.waiting.length
  now : q.now ≤ q'.now
  recent : ∀ time, q.now ≤ time → (∀ o ∈ happened, o.time ≤ time) → q'.now ≤ time
  due : ∀ o ∈ happened, before.all (o.time < ·)
  rest : ∀ o ∈ q'.future tool, ¬ before.all (o.time < ·)

theorem next_due (orderly : q.Orderly) (next : q.next? tool before = some (o, q')) :
    before.all (o.time < ·) := by
  rcases next_cases orderly next with ⟨_, _, _, due, rfl, _⟩ | ⟨_, _, _, due, rfl, _⟩ <;> exact due

theorem advanceWith_advances (orderly : q.Orderly) (fuel : Nat) (enough : q.pending ≤ fuel) :
    Advances tool before q (advanceWith tool before fuel q).1
      (advanceWith tool before fuel q).2 := by
  -- the fuel counts what is pending, so it runs out only when nothing is left to happen
  induction fuel generalizing q with
  | zero =>
      have nothing : q.future tool = [] := by
        have few : 2 * q.gate.waiting.length + q.gate.holders.length = 0 := Nat.le_zero.mp enough
        have alone : q.gate.waiting = [] := List.eq_nil_of_length_eq_zero (by omega)
        have idle : q.gate.holders = [] := List.eq_nil_of_length_eq_zero (by omega)
        simp [RunQueue.future, alone, idle, line]
      refine ⟨orderly, rfl, rfl, rfl, Nat.le_refl _, fun _ early _ => early, ?_, ?_⟩
      · intro o member
        cases member
      · rw [advanceWith, nothing]
        intro o member
        cases member
  | succ fuel ih =>
      cases step : q.next? tool before with
      | none =>
          rw [advanceWith, step]
          refine ⟨orderly, rfl, rfl, rfl, Nat.le_refl _, fun _ early _ => early, ?_, ?_⟩
          · intro o member
            cases member
          · exact future_undue orderly fun o first => next_none orderly step first
      | some found =>
          obtain ⟨o, middle⟩ := found
          have moves := next_moves orderly step
          have due := next_due orderly step
          have left : middle.pending ≤ fuel := by
            have used := moves.pending
            omega
          have tail := ih moves.orderly left
          rw [advanceWith, step]
          refine ⟨tail.orderly, ?_, tail.lastEnd.trans moves.lastEnd,
            tail.number.trans moves.number, Nat.le_trans moves.now tail.now, ?_, ?_, tail.rest⟩
          · rw [moves.future, tail.future]
            rfl
          · intro time _ bounded
            apply tail.recent time
            · rw [← moves.time]
              exact bounded o List.mem_cons_self
            · exact fun later member => bounded later (List.mem_cons_of_mem o member)
          · intro other member
            rcases List.mem_cons.mp member with rfl | later
            · exact due
            · exact tail.due other later

theorem advance_advances (tool : Verifier.Tool) (before : Option Nat) (orderly : q.Orderly) :
    Advances tool before q (q.advance tool before).1 (q.advance tool before).2 :=
  advanceWith_advances orderly q.pending (Nat.le_refl _)

theorem advance_all (tool : Verifier.Tool) (orderly : q.Orderly) :
    (q.advance tool none).1 = q.future tool := by
  have advances := advance_advances tool none orderly
  have nothing : (q.advance tool none).2.future tool = [] :=
    List.eq_nil_iff_forall_not_mem.mpr fun o member => advances.rest o member rfl
  rw [advances.future, nothing, List.append_nil]

end AttestationService.RunQueue

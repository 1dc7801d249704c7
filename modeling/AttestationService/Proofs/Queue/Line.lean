import AttestationService.RunQueue
import Mathlib.Data.List.Chain
import Mathlib.Data.List.Nodup

/-!
Runs in line. Each starts as soon as it is admitted and the run before it is over, so the tickets
and the tool fix every run, and a longer line only adds to a shorter one.
-/

namespace AttestationService

def Tenure.course (run : Tenure) : List Occurrence := [.started run, .ended run]

/-- The run with a given number, if the gate is free from the time `clear` on. -/
def Ticket.redeem (tool : Verifier.Tool) (number clear : Nat) (ticket : Ticket) : Tenure :=
  ⟨ticket, number, max ticket.admitted clear, tool number ticket.nonce⟩

/-- The runs that tickets come to in their order. -/
def line (tool : Verifier.Tool) (number clear : Nat) : List Ticket → List Tenure
  | [] => []
  | ticket :: rest =>
    let run := ticket.redeem tool number clear
    run :: line tool (number + 1) run.ends rest

def lineEnd (tool : Verifier.Tool) (number clear : Nat) : List Ticket → Nat
  | [] => clear
  | ticket :: rest => lineEnd tool (number + 1) (ticket.redeem tool number clear).ends rest

section Line
variable (tool : Verifier.Tool)

theorem redeem_starts_at_or_after (number clear : Nat) (ticket : Ticket) :
    clear ≤ (ticket.redeem tool number clear).started :=
  Nat.le_max_right _ _

theorem started_le_ends (run : Tenure) : run.started ≤ run.ends :=
  Nat.le_add_right _ _

theorem line_append (number clear : Nat) (front back : List Ticket) :
    line tool number clear (front ++ back) =
      line tool number clear front ++
        line tool (number + front.length) (lineEnd tool number clear front) back := by
  induction front generalizing number clear with
  | nil => rfl
  | cons ticket rest ih =>
      simp only [List.cons_append, line, lineEnd, ih, List.length_cons]
      rw [Nat.add_assoc, Nat.add_comm 1 rest.length]

theorem lineEnd_append (number clear : Nat) (front back : List Ticket) :
    lineEnd tool number clear (front ++ back) =
      lineEnd tool (number + front.length) (lineEnd tool number clear front) back := by
  induction front generalizing number clear with
  | nil => rfl
  | cons ticket rest ih =>
      simp only [List.cons_append, lineEnd, ih, List.length_cons]
      rw [Nat.add_assoc, Nat.add_comm 1 rest.length]

@[simp] theorem line_tickets (number clear : Nat) (tickets : List Ticket) :
    (line tool number clear tickets).map Tenure.ticket = tickets := by
  induction tickets generalizing number clear with
  | nil => rfl
  | cons ticket rest ih => simp [line, ih, Ticket.redeem]

theorem ticket_of_line {number clear : Nat} {tickets : List Ticket} {run : Tenure}
    (member : run ∈ line tool number clear tickets) : run.ticket ∈ tickets := by
  rw [← line_tickets tool number clear tickets]
  exact List.mem_map_of_mem member

theorem line_of_ticket {tickets : List Ticket} {ticket : Ticket} (number clear : Nat)
    (member : ticket ∈ tickets) : ∃ run ∈ line tool number clear tickets, run.ticket = ticket := by
  rw [← line_tickets tool number clear tickets] at member
  exact List.mem_map.mp member

theorem line_unique {number clear : Nat} {tickets : List Ticket}
    (distinct : (tickets.map Ticket.caller).Nodup) {run other : Tenure}
    (member : run ∈ line tool number clear tickets)
    (otherMember : other ∈ line tool number clear tickets)
    (same : run.ticket.caller = other.ticket.caller) : run = other := by
  rw [← line_tickets tool number clear tickets, List.map_map] at distinct
  exact List.inj_on_of_nodup_map distinct member otherMember same

theorem line_numbers (number clear : Nat) (tickets : List Ticket) :
    (line tool number clear tickets).map Tenure.number = List.range' number tickets.length := by
  induction tickets generalizing number clear with
  | nil => rfl
  | cons ticket rest ih => simp [line, ih, Ticket.redeem, List.range'_succ]

theorem line_performance (number clear : Nat) (tickets : List Ticket) (run : Tenure)
    (member : run ∈ line tool number clear tickets) :
    run.performance = tool run.number run.ticket.nonce := by
  induction tickets generalizing number clear with
  | nil => cases member
  | cons ticket rest ih =>
      rcases List.mem_cons.mp member with rfl | later
      · rfl
      · exact ih _ _ later

/-- The run after another starts at the later of its own admission and the end of that other. -/
def Follows (earlier later : Tenure) : Prop :=
  later.started = max later.ticket.admitted earlier.ends

theorem line_chain (number clear : Nat) (tickets : List Ticket) :
    (line tool number clear tickets).IsChain Follows := by
  induction tickets generalizing number clear with
  | nil => exact .nil
  | cons ticket rest ih =>
      cases rest with
      | nil => exact .singleton _
      | cons next others => exact .cons_cons rfl (ih (number + 1) _)

theorem line_admitted (number clear : Nat) (tickets : List Ticket) (run : Tenure)
    (member : run ∈ line tool number clear tickets) : run.ticket.admitted ≤ run.started := by
  induction tickets generalizing number clear with
  | nil => cases member
  | cons ticket rest ih =>
      rcases List.mem_cons.mp member with rfl | later
      · exact Nat.le_max_left _ _
      · exact ih _ _ later

theorem line_not_before (number clear : Nat) (tickets : List Ticket) (run : Tenure)
    (member : run ∈ line tool number clear tickets) : clear ≤ run.started := by
  induction tickets generalizing number clear with
  | nil => cases member
  | cons ticket rest ih =>
      have head := redeem_starts_at_or_after tool number clear ticket
      rcases List.mem_cons.mp member with rfl | later
      · exact head
      · have tail := ih _ _ later
        have busy := started_le_ends (ticket.redeem tool number clear)
        omega

theorem course_not_before (number clear : Nat) (tickets : List Ticket) (o : Occurrence)
    (member : o ∈ (line tool number clear tickets).flatMap Tenure.course) : clear ≤ o.time := by
  obtain ⟨run, inLine, inCourse⟩ := List.mem_flatMap.mp member
  have start := line_not_before tool number clear tickets run inLine
  have finish := started_le_ends run
  simp only [Tenure.course, List.mem_cons, List.not_mem_nil, or_false] at inCourse
  rcases inCourse with rfl | rfl
  · exact start
  · exact Nat.le_trans start finish

theorem course_ordered (number clear : Nat) (tickets : List Ticket) :
    ((line tool number clear tickets).flatMap Tenure.course).Pairwise
      fun a b => a.time ≤ b.time := by
  induction tickets generalizing number clear with
  | nil => exact .nil
  | cons ticket rest ih =>
      have busy := started_le_ends (ticket.redeem tool number clear)
      have after := course_not_before tool (number + 1) (ticket.redeem tool number clear).ends rest
      refine .cons ?_ (.cons after (ih _ _))
      intro o member
      rcases List.mem_cons.mp member with rfl | later
      · exact busy
      · exact Nat.le_trans busy (after o later)

theorem mem_course_line (number clear : Nat) (tickets : List Ticket) (o : Occurrence) :
    o ∈ (line tool number clear tickets).flatMap Tenure.course ↔
      o.tenure ∈ line tool number clear tickets := by
  simp only [List.mem_flatMap, Tenure.course, List.mem_cons, List.not_mem_nil, or_false]
  constructor
  · rintro ⟨run, member, rfl | rfl⟩ <;> exact member
  · intro member
    refine ⟨o.tenure, member, ?_⟩
    cases o with
    | started run => exact Or.inl rfl
    | ended run => exact Or.inr rfl

end Line

/-- However far a line has come, a run that has ended has started before. -/
theorem started_of_ended {runs : List Tenure} {front back : List Occurrence} {run : Tenure}
    (whole : front ++ back = runs.flatMap Tenure.course) (member : .ended run ∈ front) :
    .started run ∈ front := by
  -- the course goes by pairs, so a front part that reaches an end contains the start before it
  induction runs generalizing front with
  | nil =>
      rw [(List.append_eq_nil_iff.mp whole).1] at member
      cases member
  | cons first rest ih =>
      rcases front with _ | ⟨start, _ | ⟨finish, others⟩⟩
      · cases member
      · simp only [List.flatMap_cons, Tenure.course, List.cons_append, List.cons.injEq] at whole
        rw [whole.1] at member
        simp at member
      · simp only [List.flatMap_cons, Tenure.course, List.cons_append, List.nil_append,
          List.cons.injEq] at whole
        obtain ⟨rfl, rfl, tail⟩ := whole
        simp only [List.mem_cons, reduceCtorEq, Occurrence.ended.injEq, false_or] at member
        rcases member with rfl | later
        · exact List.mem_cons_self
        · exact List.mem_cons_of_mem _ (List.mem_cons_of_mem _ (ih tail later))

end AttestationService

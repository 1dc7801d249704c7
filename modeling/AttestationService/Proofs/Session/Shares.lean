import AttestationService.Proofs.Session.Log
import Mathlib.Data.List.Flatten
import Mathlib.Data.List.Perm.Basic

/-!
The log divided among the requests. Each request has a share in it: what is reported as it is taken in, what
its run reports, and what is reported when it is told about its run. The shares together are the whole log,
and what happens at the gate stands in the log in its order.
-/

namespace AttestationService

section Runs
variable (run : Tenure)

def Tenure.enters : Entry := ⟨run.started, run.ticket.id, .gateEntered⟩

def Tenure.leaves : Entry := ⟨run.ends, run.ticket.id, .gateLeft⟩

/-- What the service reports of a run at the gate. A run that panics does not say that it leaves. -/
def Tenure.gateEntries : List Entry :=
  run.enters ::
    if run.performance.ending.isPanic then [] else [run.leaves]

def Tenure.toolEntries : List Entry :=
  run.performance.opening.map (fun notice => ⟨run.started, run.ticket.id, notice⟩) ++
    run.performance.closing.map fun notice => ⟨run.ends, run.ticket.id, notice⟩

theorem course_entries :
    (Session.occurrenceEntries run.course).Perm (run.gateEntries ++ run.toolEntries) := by
  have entries : Session.occurrenceEntries run.course =
      run.enters :: (run.toolEntries ++
        if run.performance.ending.isPanic then [] else [run.leaves]) := by
    unfold Session.occurrenceEntries Tenure.course Tenure.toolEntries
    simp only [List.flatMap_cons, List.flatMap_nil, Occurrence.notices, Occurrence.time, Occurrence.tenure,
      List.map_cons, List.map_append, List.append_nil, List.cons_append, List.append_assoc]
    split <;> rfl
  rw [entries]
  exact .cons _ List.perm_append_comm

theorem gateEntries_id {entry : Entry} (member : entry ∈ run.gateEntries) : entry.id = run.ticket.id := by
  rcases List.mem_cons.mp member with rfl | left
  · rfl
  · split at left
    · cases left
    · rw [List.mem_singleton.mp left]
      rfl

theorem toolEntries_mem {entry : Entry} (member : entry ∈ run.toolEntries) : entry.id = run.ticket.id ∧
    (entry.time = run.started ∧ entry.notice ∈ run.performance.opening ∨
      entry.time = run.ends ∧ entry.notice ∈ run.performance.closing) := by
  rcases List.mem_append.mp member with opening | closing
  · obtain ⟨notice, known, rfl⟩ := List.mem_map.mp opening
    exact ⟨rfl, .inl ⟨rfl, known⟩⟩
  · obtain ⟨notice, known, rfl⟩ := List.mem_map.mp closing
    exact ⟨rfl, .inr ⟨rfl, known⟩⟩

end Runs

section Shares
variable {α : Type}

theorem perm_byNumber (number : α → Nat) {bound : Nat} {things : List α}
    (below : ∀ thing ∈ things, number thing < bound) :
    things.Perm ((List.range bound).flatMap fun i => things.filter (number · == i)) := by
  -- the things with the largest number are set aside, and the others have a lower bound
  induction bound generalizing things with
  | zero =>
      obtain rfl : things = [] := List.eq_nil_iff_forall_not_mem.mpr fun thing member =>
        Nat.not_lt_zero _ (below thing member)
      exact .nil
  | succ bound ih =>
      have least : ∀ thing ∈ things.filter (number · != bound), number thing < bound := by
        intro thing member
        obtain ⟨known, other⟩ := List.mem_filter.mp member
        have small := below thing known
        have differs : number thing ≠ bound := by simpa using other
        omega
      have same : ∀ i ∈ List.range bound,
          (things.filter (number · != bound)).filter (number · == i) = things.filter (number · == i) := by
        intro i member
        rw [List.filter_filter]
        refine List.filter_congr fun thing _ => ?_
        have small := List.mem_range.mp member
        by_cases here : number thing = i
        · simp [here, Nat.ne_of_lt small]
        · simp [here]
      have others := ih least
      rw [List.flatMap_congr same] at others
      rw [List.range_succ, List.flatMap_append, List.flatMap_singleton]
      refine .trans ?_ (others.append_right _)
      exact (List.filter_append_perm (number · != bound) things).symm.trans (.of_eq (by simp [bne]))

theorem flatten_byPlace (parts : List (List α)) :
    parts.flatten = (List.range parts.length).flatMap fun i => (parts[i]?).getD [] := by
  induction parts with
  | nil => rfl
  | cons part parts ih => simp [List.range_succ_eq_map, List.flatMap_map, ih]

end Shares

namespace History
variable {service : Service} {h : History} {i : Nat} {call : Call}

def log (service : Service) (h : History) : List Entry :=
  h.account.entries ++ Session.occurrenceEntries (h.session.queue.advance service.tool none).1

def ownRuns (service : Service) (h : History) (i : Nat) : List Tenure :=
  (h.runs service).filter (·.ticket.caller == i)

/-- What is reported on behalf of a caller, if `told` are the reports of callers about their runs. -/
def share (service : Service) (h : History) (told : List (List Entry)) (i : Nat) : List Entry :=
  (((h.arrivals service).map (·.entries))[i]?).getD [] ++ (h.ownRuns service i).flatMap Tenure.gateEntries ++
    (told[i]?).getD []

def toolShare (service : Service) (h : History) (i : Nat) : List Entry :=
  (h.ownRuns service i).flatMap Tenure.toolEntries

theorem occurrences_eq (sound : h.Sound service) :
    h.occurrences service = (h.runs service).flatMap Tenure.course := by
  rw [occurrences, RunQueue.advance_all service.tool sound.course.orderly, sound.course.total]
  rfl

theorem runs_shared (sound : h.Sound service) :
    (Session.occurrenceEntries (h.occurrences service)).Perm ((List.range h.calls.length).flatMap fun i =>
      (h.ownRuns service i).flatMap Tenure.gateEntries ++ h.toolShare service i) := by
  have callers : ∀ run ∈ h.runs service, run.ticket.caller < h.calls.length := by
    intro run member
    obtain ⟨call, sent, _⟩ := run_call member
    exact (List.getElem?_eq_some_iff.mp sent).1
  have grouped := (perm_byNumber (fun run : Tenure => run.ticket.caller) callers).flatMap_right
    fun run : Tenure => Session.occurrenceEntries run.course
  rw [List.flatMap_assoc] at grouped
  rw [occurrences_eq sound, Session.occurrenceEntries, List.flatMap_assoc]
  refine grouped.trans (List.Perm.flatMap_left _ fun i _ => ?_)
  exact (List.Perm.flatMap_left _ fun run _ => course_entries run).trans
    (List.flatMap_append_perm _ _ _).symm

theorem log_shared (sound : h.Sound service) {told : List (List Entry)} (logs : h.Logs service told) :
    (h.log service).Perm ((List.range h.calls.length).flatMap fun i =>
      h.share service told i ++ h.toolShare service i) := by
  obtain ⟨reports, written⟩ := logs
  have arrived : (h.arrivals service).length = h.calls.length := service.arrivals_length 0 h.calls
  have taken : (h.arrivals service).flatMap (·.entries) = (List.range h.calls.length).flatMap fun i =>
      (((h.arrivals service).map (·.entries))[i]?).getD [] := by
    rw [List.flatMap_def, flatten_byPlace, List.length_map, arrived]
  have concluded : told.flatten = (List.range h.calls.length).flatMap fun i => (told[i]?).getD [] := by
    rw [flatten_byPlace, ← reports.length_eq, arrived]
  have whole : (h.log service).Perm ((h.arrivals service).flatMap (·.entries) ++
      (Session.occurrenceEntries (h.occurrences service) ++ told.flatten)) := by
    have later := written.append_right
      (Session.occurrenceEntries (h.session.queue.advance service.tool none).1)
    refine later.trans ?_
    rw [occurrences, Session.occurrenceEntries_append]
    simp only [List.append_assoc]
    exact (List.perm_append_comm.append_left _).append_left _
  refine whole.trans ?_
  rw [taken, concluded]
  refine (((runs_shared sound).append_right _).append_left _).trans ?_
  refine ((List.flatMap_append_perm _ _ _).append_left _).trans ?_
  refine (List.flatMap_append_perm _ _ _).trans (List.Perm.flatMap_left _ fun i _ => ?_)
  -- what the tool reports stands between the service's own reports, and is put behind them
  unfold share
  simp only [List.append_assoc]
  exact (List.perm_append_comm.append_left _).append_left _

theorem ownRuns_tickets (service : Service) (sent : h.calls[i]? = some call) :
    (h.ownRuns service i).map Tenure.ticket = (service.arrive i call).stage.getRight?.toList := by
  have once := (service.serves_line h.calls).once i call sent
  rw [List.filter_map] at once
  exact once

theorem arrival_entries (sent : h.calls[i]? = some call) :
    (((h.arrivals service).map (·.entries))[i]?).getD [] = (service.arrive i call).entries := by
  have here : (h.arrivals service)[i]? = h.calls[i]?.map (service.arrive (0 + i)) :=
    service.arrivals_getElem? 0 h.calls i
  rw [List.getElem?_map, here, sent, Nat.zero_add]
  rfl

theorem told_at {told : List (List Entry)} (logs : h.Logs service told) (sent : h.calls[i]? = some call) :
    service.Reports (h.runs service) (service.arrive i call) ((told[i]?).getD []) := by
  have arrived : (h.arrivals service).length = h.calls.length := service.arrivals_length 0 h.calls
  have inRange : i < told.length := by
    rw [← logs.1.length_eq, arrived]
    exact (List.getElem?_eq_some_iff.mp sent).1
  obtain ⟨other, found, reported⟩ := arrivals_paired logs.1 (List.getElem?_eq_getElem inRange)
  rw [sent, Option.some.injEq] at found
  subst found
  rwa [List.getElem?_eq_getElem inRange]

theorem share_alone {told : List (List Entry)} (logs : h.Logs service told) (sent : h.calls[i]? = some call)
    {reply : Reply} (settled : (service.arrive i call).stage = .inl reply) :
    h.share service told i = (service.arrive i call).entries ∧ h.toolShare service i = [] := by
  have alone : h.ownRuns service i = [] := by
    have tickets := ownRuns_tickets service sent
    rw [settled] at tickets
    exact List.map_eq_nil_iff.mp tickets
  have reported := told_at logs sent
  simp only [Service.Reports, settled] at reported
  rw [share, toolShare, alone, arrival_entries sent, reported]
  simp

theorem share_admitted {told : List (List Entry)} (logs : h.Logs service told)
    (sent : h.calls[i]? = some call) {ticket : Ticket}
    (admitted : (service.arrive i call).stage = .inr ticket) :
    ∃ run ∈ h.runs service, run.ticket = ticket ∧
      h.share service told i = (service.arrive i call).entries ++ run.gateEntries ++
        (service.conclude (service.arrive i call) run).2 ∧
      h.toolShare service i = run.toolEntries := by
  have reported := told_at logs sent
  simp only [Service.Reports, admitted] at reported
  obtain ⟨run, member, own, same⟩ := reported
  have alone : h.ownRuns service i = [run] := by
    have tickets := ownRuns_tickets service sent
    rw [admitted] at tickets
    obtain ⟨other, single, ticketed⟩ := List.map_eq_singleton_iff.mp tickets
    have known : other ∈ h.runs service := (List.mem_filter.mp (single ▸ List.mem_singleton_self other)).1
    rw [single, run_unique known member (by rw [ticketed, own])]
  refine ⟨run, member, own, ?_, ?_⟩
  · rw [share, alone, arrival_entries sent, same, List.flatMap_singleton]
  · rw [toolShare, alone, List.flatMap_singleton]

section Order

theorem occurrenceEntries_ordered {occurrences : List Occurrence}
    (ordered : occurrences.Pairwise fun a b => a.time ≤ b.time) :
    (Session.occurrenceEntries occurrences).Pairwise fun a b => a.time ≤ b.time := by
  have timed (o : Occurrence) :
      ∀ entry ∈ o.notices.map fun n => (⟨o.time, o.tenure.ticket.id, n⟩ : Entry), entry.time = o.time := by
    intro entry member
    obtain ⟨_, _, rfl⟩ := List.mem_map.mp member
    rfl
  refine List.pairwise_flatMap.mpr ⟨fun o _ => ?_, ordered.imp fun before first member second other => ?_⟩
  · refine List.pairwise_of_forall_mem_list fun first member second other => ?_
    rw [timed o first member, timed o second other]
  · rw [timed _ first member, timed _ second other]
    exact before

theorem occurrences_ordered (sound : h.Sound service) :
    (h.occurrences service).Pairwise fun a b => a.time ≤ b.time := by
  rw [occurrences_eq sound]
  exact course_ordered service.tool 0 0 _

theorem exchange_sublist (s : Session) (calls : List Call)
    (ordered : (s.exchange service calls).1.occurrences.Pairwise fun a b => a.time ≤ b.time) :
    (Session.occurrenceEntries (s.exchange service calls).1.occurrences).Sublist
      (s.exchange service calls).1.entries := by
  refine List.sublist_mergeSort ?_ ?_ ?_ ?_
  · intro a b c first second
    have before := of_decide_eq_true first
    have after := of_decide_eq_true second
    exact decide_eq_true (Nat.le_trans before after)
  · intro a b
    simpa using Nat.le_total a.time b.time
  · exact (occurrenceEntries_ordered ordered).imp fun before => decide_eq_true before
  · exact ((List.sublist_append_right _ _).trans (List.sublist_append_left _ _))

/-- The log keeps the order of what happens at the gate. -/
theorem log_ordered (service : Service) (moves : List Move) :
    (Session.occurrenceEntries ((of service moves).occurrences service)).Sublist
      ((of service moves).log service) := by
  rw [occurrences, Session.occurrenceEntries_append]
  refine List.Sublist.append ?_ (.refl _)
  -- move by move: an exchange sorts its reports, and those of the gate are in order already
  induction moves using List.reverseRecOn with
  | nil => exact .slnil
  | append_singleton moves move ih =>
      have ordered := occurrences_ordered (of_sound service (moves ++ [move]))
      rw [of_snoc] at ordered ⊢
      cases move with
      | pause milliseconds =>
          show (Session.occurrenceEntries (_ ++ _)).Sublist (_ ++ _)
          rw [Session.occurrenceEntries_append]
          exact ih.append (.refl _)
      | exchange calls =>
          show (Session.occurrenceEntries (_ ++ _)).Sublist (_ ++ _)
          rw [Session.occurrenceEntries_append]
          refine ih.append (exchange_sublist _ _ ?_)
          have happened := List.Pairwise.sublist (List.sublist_append_left _ _) ordered
          exact List.Pairwise.sublist (List.sublist_append_right _ _) happened

/-- A run that does not panic is reported to enter the gate, and later to leave it. -/
theorem entered_before_left (service : Service) (moves : List Move) {run : Tenure}
    (member : run ∈ (of service moves).runs service) (completed : run.performance.ending.isPanic = false) :
    [run.enters, run.leaves].Sublist
      ((of service moves).log service) := by
  have inCourse : run.course.Sublist ((of service moves).occurrences service) := by
    rw [occurrences_eq (of_sound service moves), List.flatMap_def]
    exact List.sublist_flatten_of_mem (List.mem_map_of_mem member)
  have reported : [run.enters, run.leaves].Sublist
      (Session.occurrenceEntries run.course) := by
    simp only [Session.occurrenceEntries, Tenure.course, List.flatMap_cons, List.flatMap_nil,
      Occurrence.notices, completed, List.map_cons, List.map_append, List.append_nil]
    refine .cons_cons _ ?_
    exact (List.sublist_append_right _ _).trans (List.sublist_append_right _ _)
  exact (reported.trans (inCourse.flatMap _)).trans (log_ordered service moves)

end Order

end History

end AttestationService

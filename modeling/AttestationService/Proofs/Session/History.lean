import AttestationService.Proofs.Queue.Course
import AttestationService.Proofs.Session.Arrival
import Mathlib.Data.List.Forall2
import Mathlib.Data.List.Induction
import Mathlib.Data.List.Nodup

/-!
Histories of the service: clients wait or send calls, as many and as often as they like, and every
call has come to its end before the next ones are sent. `Sound` is what a history keeps with every
move. The main statement is that the runs of a history, those still to come included, are the line
of its admitted calls, whatever became of the callers and of the runs before.
-/

namespace AttestationService

open RunQueue (OnCourse)

/-- Something that clients do: they send nothing for a while, or they send calls, each some time
from now, and wait until each has ended. -/
inductive Move where
  | pause (milliseconds : Nat)
  | exchange (calls : List Call)

def Call.after (now : Nat) (call : Call) : Call := { call with sent := now + call.sent }

def Account.andThen (first second : Account) : Account :=
  ⟨first.replies ++ second.replies, first.occurrences ++ second.occurrences,
    first.entries ++ second.entries⟩

/-- The service at a moment, with all calls so far in the order of their numbers and all that they
brought. -/
structure History where
  session : Session
  calls : List Call
  account : Account

namespace History

def start : History := ⟨.start, [], ⟨[], [], []⟩⟩

def next (service : Service) (h : History) : Move → History
  | .pause milliseconds =>
    let (account, session) := h.session.pause service milliseconds
    ⟨session, h.calls, h.account.andThen account⟩
  | .exchange calls =>
    let calls := calls.map (Call.after h.session.now)
    let (account, session) := h.session.exchange service calls
    ⟨session, h.calls ++ calls, h.account.andThen account⟩

def of (service : Service) (moves : List Move) : History :=
  moves.foldl (next service) start

theorem of_snoc (service : Service) (moves : List Move) (move : Move) :
    of service (moves ++ [move]) = (of service moves).next service move := by
  simp [of]

def arrivals (service : Service) (h : History) : List Service.Arrival :=
  service.arrivals 0 h.calls

def tickets (service : Service) (h : History) : List Ticket :=
  Session.tickets (h.arrivals service)

def runs (service : Service) (h : History) : List Tenure :=
  line service.tool 0 0 (h.tickets service)

/-- All that happens, now and later, if nobody sends anything any more. -/
def occurrences (service : Service) (h : History) : List Occurrence :=
  h.account.occurrences ++ (h.session.queue.advance service.tool none).1

end History

/-- How a call ends, given the runs and all that has happened: on its own, or as its run and its
departure decide. -/
def Service.Concludes (service : Service) (runs : List Tenure) (happened : List Occurrence)
    (arrival : Service.Arrival) (reply : Reply) : Prop :=
  match arrival.stage with
  | .inl own => reply = own
  | .inr ticket => ∃ run ∈ runs, run.ticket = ticket ∧ reply = (service.conclude arrival run).1 ∧
      (run.ends < (service.departure arrival.call).1 → .ended run ∈ happened)

structure History.Sound (service : Service) (h : History) : Prop where
  numbered : h.session.calls = h.calls.length
  course : OnCourse service.tool (h.tickets service) h.account.occurrences h.session.queue
  now : h.session.queue.now ≤ h.session.now
  admitted : ∀ ticket ∈ h.tickets service, ticket.admitted ≤ h.session.now
  past : ∀ o ∈ h.account.occurrences, o.time ≤ h.session.now
  coming : ∀ o ∈ h.session.queue.future service.tool, h.session.now ≤ o.time
  replies : List.Forall₂ (service.Concludes (h.runs service) h.account.occurrences)
    (h.arrivals service) h.account.replies

namespace Session

variable {service : Service} {s : Session}

theorem endOf_mem {occurrences : List Occurrence} {caller : Nat} {run : Tenure}
    (found : endOf? occurrences caller = some run) :
    .ended run ∈ occurrences ∧ run.ticket.caller = caller := by
  obtain ⟨o, member, here⟩ := List.exists_of_findSome?_eq_some found
  cases o with
  | started other => cases here
  | ended other =>
      simp only [Option.ite_none_right_eq_some, Option.some.injEq] at here
      obtain ⟨own, rfl⟩ := here
      exact ⟨member, own⟩

theorem endOf_exists {occurrences : List Occurrence} {run : Tenure}
    (member : .ended run ∈ occurrences) :
    ∃ found, endOf? occurrences run.ticket.caller = some found := by
  rw [← Option.isSome_iff_exists, endOf?, List.findSome?_isSome_iff]
  exact ⟨.ended run, member, by simp⟩

def settle (service : Service) (all : List Occurrence) (arrival : Service.Arrival) : Reply :=
  match arrival.stage with
  | .inl reply => reply
  | .inr ticket =>
    match endOf? all ticket.caller with
    | some run => (service.conclude arrival run).1
    | none => Service.depart arrival.id arrival.call (service.departure arrival.call)

def lastReply (now : Nat) (replies : List Reply) : Nat :=
  (replies.map Reply.time).foldl max now

theorem lastReply_bounds (now : Nat) (replies : List Reply) :
    now ≤ lastReply now replies ∧ ∀ reply ∈ replies, reply.time ≤ lastReply now replies := by
  unfold lastReply
  induction replies generalizing now with
  | nil => exact ⟨Nat.le_refl now, fun reply member => by cases member⟩
  | cons reply rest ih =>
      obtain ⟨base, others⟩ := ih (max now reply.time)
      simp only [List.map_cons, List.foldl_cons]
      refine ⟨by omega, fun other member => ?_⟩
      rcases List.mem_cons.mp member with rfl | later
      · omega
      · exact others other later

section Exchange
variable (service) (calls : List Call) (s)

def accepted : List Occurrence × RunQueue :=
  s.queue.acceptAll service.tool (tickets (service.arrivals s.calls calls))

/-- Everything that ever happens from an exchange on. -/
def foreseen : List Occurrence :=
  (s.accepted service calls).1 ++ ((s.accepted service calls).2.advance service.tool none).1

def exchangeReplies : List Reply :=
  (service.arrivals s.calls calls).map (settle service (s.foreseen service calls))

def exchangeEnd : Nat := lastReply s.now (s.exchangeReplies service calls)

def remaining : List Occurrence × RunQueue :=
  (s.accepted service calls).2.advance service.tool (some (s.exchangeEnd service calls + 1))

theorem exchange_spec :
    (s.exchange service calls).1.replies = s.exchangeReplies service calls ∧
      (s.exchange service calls).1.occurrences =
        (s.accepted service calls).1 ++ (s.remaining service calls).1 ∧
      (s.exchange service calls).2 =
        ⟨(s.remaining service calls).2, s.exchangeEnd service calls, s.calls + calls.length⟩ := by
  have replies : (s.exchange service calls).1.replies = s.exchangeReplies service calls := by
    simp only [exchange, exchangeReplies, foreseen, accepted, Service.arrivals_eq_zipIdx,
      List.map_map]
    refine List.map_congr_left fun call _ => ?_
    simp only [Function.comp_apply, settle, Service.departure]
    cases (service.arrive (s.calls + call.2) call.1).stage with
    | inl reply => rfl
    | inr ticket =>
        -- both sides look for the same end among the same occurrences
        simp only
        generalize endOf? _ ticket.caller = ended
        cases ended <;> rfl
  have finish : (s.exchange service calls).2.now = s.exchangeEnd service calls := by
    rw [exchangeEnd, ← replies]
    rfl
  have queue : (s.accepted service calls).2.advance service.tool
      (some ((s.exchange service calls).2.now + 1)) = s.remaining service calls := by
    rw [finish]
    rfl
  refine ⟨replies, ?_, ?_⟩
  · rw [← queue, accepted, Service.arrivals_eq_zipIdx]
    rfl
  · rw [← queue, ← finish, accepted, Service.arrivals_eq_zipIdx]
    rfl

end Exchange

end Session

namespace Service

theorem conclude_reply (service : Service) (arrival : Arrival) (run : Tenure) :
    (service.conclude arrival run).1 =
      if run.ends < (service.departure arrival.call).1 then
        .answered (finalize arrival.id arrival.call.request.method
          (Outcome.ofRun run.performance.ending.run service.successMarker).response) run.ends
      else depart arrival.id arrival.call (service.departure arrival.call) := by
  by_cases early : run.ends < (service.departure arrival.call).1
  · rw [if_pos early]
    unfold conclude
    exact congrArg Prod.fst (if_pos early)
  · rw [if_neg early]
    unfold conclude
    exact congrArg Prod.fst (if_neg early)

theorem conclude_time (service : Service) (arrival : Arrival) (run : Tenure) :
    (service.conclude arrival run).1.time =
      if run.ends < (service.departure arrival.call).1 then run.ends
      else (service.departure arrival.call).1 := by
  rw [conclude_reply]
  split
  · rfl
  · exact depart_time _ _ _

theorem concludes_mono {service : Service} {runs more : List Tenure}
    {happened now : List Occurrence} (grows : runs ⊆ more) (passes : happened ⊆ now)
    {arrival : Arrival} {reply : Reply} (concluded : service.Concludes runs happened arrival reply) :
    service.Concludes more now arrival reply := by
  unfold Concludes at concluded ⊢
  cases stage : arrival.stage with
  | inl own => simpa only [stage] using concluded
  | inr ticket =>
      simp only [stage] at concluded ⊢
      obtain ⟨run, member, own, same, ended⟩ := concluded
      exact ⟨run, grows member, own, same, fun early => passes (ended early)⟩

end Service

namespace History

variable {service : Service} {h : History}

@[simp] theorem start_tickets (service : Service) : start.tickets service = [] := by
  simp [tickets, arrivals, start, Service.arrivals, Session.tickets]

theorem start_sound (service : Service) : start.Sound service := by
  refine ⟨rfl, ?_, Nat.le_refl 0, ?_, ?_, ?_, .nil⟩
  · rw [start_tickets]
    exact RunQueue.empty_onCourse service.tool
  · rw [start_tickets]
    intro ticket member
    cases member
  · intro o member
    cases member
  · intro o member
    cases member

theorem pause_sound (sound : h.Sound service) (milliseconds : Nat) :
    (h.next service (.pause milliseconds)).Sound service := by
  have advances := RunQueue.advance_advances service.tool
    (some (h.session.now + milliseconds)) sound.course.orderly
  have course := RunQueue.advance_onCourse sound.course (some (h.session.now + milliseconds))
  have due : ∀ o ∈ (h.session.queue.advance service.tool
      (some (h.session.now + milliseconds))).1, o.time ≤ h.session.now + milliseconds := by
    intro o member
    have early := advances.due o member
    simp only [Option.all_some, decide_eq_true_eq] at early
    omega
  have later : h.session.now ≤ h.session.now + milliseconds := Nat.le_add_right _ _
  refine ⟨sound.numbered, course, ?_, ?_, ?_, ?_, ?_⟩
  · exact advances.recent _ (Nat.le_trans sound.now later) due
  · exact fun ticket member => Nat.le_trans (sound.admitted ticket member) later
  · intro o member
    rcases List.mem_append.mp member with old | new
    · exact Nat.le_trans (sound.past o old) later
    · exact due o new
  · intro o member
    have late := advances.rest o member
    show h.session.now + milliseconds ≤ o.time
    simpa using late
  · show List.Forall₂ _ (h.arrivals service) (h.account.replies ++ [])
    rw [List.append_nil]
    exact sound.replies.imp fun arrival reply concluded =>
      Service.concludes_mono (List.Subset.refl _) (List.subset_append_left _ _) concluded

section Exchange
variable {calls : List Call}

def newcomers (service : Service) (h : History) (calls : List Call) : List Ticket :=
  Session.tickets (service.arrivals h.session.calls calls)

theorem newcomers_origin {ticket : Ticket} (member : ticket ∈ h.newcomers service calls) :
    ∃ i call, calls[i]? = some call ∧
      (service.arrive (h.session.calls + i) call).stage = .inr ticket := by
  obtain ⟨arrival, known, admitted⟩ := (Session.mem_tickets _ ticket).mp member
  obtain ⟨i, call, found, rfl⟩ := Service.mem_arrivals known
  exact ⟨i, call, found, admitted⟩

theorem newcomers_after (fresh : ∀ call ∈ calls, h.session.now ≤ call.sent) {ticket : Ticket}
    (member : ticket ∈ h.newcomers service calls) : h.session.now ≤ ticket.admitted := by
  obtain ⟨i, call, found, admitted⟩ := newcomers_origin member
  have sent := fresh call (List.mem_of_getElem? found)
  exact Nat.le_trans sent (Service.ticket_not_before admitted).1

theorem newcomers_ordered (service : Service) (h : History) (calls : List Call) :
    (h.newcomers service calls).Pairwise fun a b => a.admitted ≤ b.admitted := by
  refine (service.tickets_before h.session.calls calls).imp fun before => ?_
  rcases before with less | ⟨equal, _⟩ <;> omega

theorem accepted_onCourse (sound : h.Sound service)
    (fresh : ∀ call ∈ calls, h.session.now ≤ call.sent) :
    OnCourse service.tool (h.tickets service ++ h.newcomers service calls)
      (h.account.occurrences ++ (h.session.accepted service calls).1)
      (h.session.accepted service calls).2 := by
  apply RunQueue.acceptAll_onCourse sound.course
  · exact fun ticket member => Nat.le_trans sound.now (newcomers_after fresh member)
  · exact newcomers_ordered service h calls

theorem tickets_extend (sound : h.Sound service)
    (fresh : ∀ call ∈ calls, h.session.now ≤ call.sent) :
    Session.tickets (service.arrivals 0 (h.calls ++ calls)) =
      h.tickets service ++ h.newcomers service calls := by
  rw [newcomers, sound.numbered]
  apply service.tickets_append
  intro a old b new
  rw [← sound.numbered] at new
  exact Nat.le_trans (sound.admitted a old) (newcomers_after fresh new)

theorem endOf_foreseen (sound : h.Sound service)
    (fresh : ∀ call ∈ calls, h.session.now ≤ call.sent) {ticket : Ticket}
    (member : ticket ∈ h.newcomers service calls) :
    ∃ run ∈ line service.tool 0 0 (h.tickets service ++ h.newcomers service calls),
      run.ticket = ticket ∧
        Session.endOf? (h.session.foreseen service calls) ticket.caller = some run := by
  have course := accepted_onCourse sound fresh
  have foreseen : h.account.occurrences ++ h.session.foreseen service calls =
      (line service.tool 0 0 (h.tickets service ++ h.newcomers service calls)).flatMap
        Tenure.course := by
    rw [← course.total, Session.foreseen, RunQueue.advance_all service.tool course.orderly,
      List.append_assoc]
  have distinct := service.tickets_callers_nodup 0 (h.calls ++ calls)
  rw [tickets_extend sound fresh] at distinct
  obtain ⟨run, inLine, own⟩ := line_of_ticket service.tool 0 0
    (List.mem_append_right (h.tickets service) member)
  have ends : .ended run ∈ h.account.occurrences ++ h.session.foreseen service calls := by
    rw [foreseen]
    exact (mem_course_line service.tool 0 0 _ (.ended run)).mpr inLine
  have ahead : .ended run ∈ h.session.foreseen service calls := by
    rcases List.mem_append.mp ends with old | new
    · -- a run that ended before belongs to a call with a smaller number
      have known := ticket_of_line _ (RunQueue.happened_mem_line sound.course old)
      have small := (service.ticket_caller_bounds 0 h.calls run.ticket known).2
      have large := (service.ticket_caller_bounds h.session.calls calls ticket member).1
      rw [sound.numbered] at large
      rw [own] at small
      omega
    · exact new
  obtain ⟨found, there⟩ := Session.endOf_exists ahead
  obtain ⟨foundEnds, same⟩ := Session.endOf_mem there
  have foundInLine : found ∈ line service.tool 0 0
      (h.tickets service ++ h.newcomers service calls) := by
    apply (mem_course_line service.tool 0 0 _ (.ended found)).mp
    rw [← foreseen]
    exact List.mem_append_right _ foundEnds
  obtain rfl : found = run := line_unique service.tool distinct foundInLine inLine same
  rw [own] at there
  exact ⟨found, inLine, own, there⟩

theorem settle_admitted (sound : h.Sound service)
    (fresh : ∀ call ∈ calls, h.session.now ≤ call.sent) {arrival : Service.Arrival}
    (known : arrival ∈ service.arrivals h.session.calls calls) {ticket : Ticket}
    (admitted : arrival.stage = .inr ticket) :
    ∃ run ∈ line service.tool 0 0 (h.tickets service ++ h.newcomers service calls),
      run.ticket = ticket ∧
        Session.settle service (h.session.foreseen service calls) arrival =
          (service.conclude arrival run).1 := by
  have member : ticket ∈ h.newcomers service calls :=
    (Session.mem_tickets _ ticket).mpr ⟨arrival, known, admitted⟩
  obtain ⟨run, inLine, own, found⟩ := endOf_foreseen sound fresh member
  refine ⟨run, inLine, own, ?_⟩
  simp only [Session.settle, admitted, found]

theorem newcomers_by_end (sound : h.Sound service)
    (fresh : ∀ call ∈ calls, h.session.now ≤ call.sent) {ticket : Ticket}
    (member : ticket ∈ h.newcomers service calls) :
    ticket.admitted ≤ h.session.exchangeEnd service calls := by
  obtain ⟨arrival, known, admitted⟩ := (Session.mem_tickets _ ticket).mp member
  obtain ⟨run, inLine, own, settled⟩ := settle_admitted sound fresh known admitted
  have replied := (Session.lastReply_bounds h.session.now
    (h.session.exchangeReplies service calls)).2 _ (List.mem_map_of_mem known)
  rw [settled, service.conclude_time] at replied
  have started := line_admitted service.tool 0 0 _ run inLine
  have busy := started_le_ends run
  rw [own] at started
  obtain ⟨i, call, _, rfl⟩ := Service.mem_arrivals known
  have inTime := (Service.ticket_not_before admitted).2
  rw [Service.arrive_call] at replied
  show ticket.admitted ≤ Session.lastReply _ _
  split at replied <;> omega

theorem conclude_by_end {arrival : Service.Arrival} {run : Tenure}
    (known : arrival ∈ service.arrivals h.session.calls calls)
    (settled : Session.settle service (h.session.foreseen service calls) arrival =
      (service.conclude arrival run).1)
    (early : run.ends < (service.departure arrival.call).1) :
    run.ends ≤ h.session.exchangeEnd service calls := by
  have replied := (Session.lastReply_bounds h.session.now
    (h.session.exchangeReplies service calls)).2 _ (List.mem_map_of_mem known)
  rw [settled, service.conclude_time, if_pos early] at replied
  exact replied

theorem remaining_onCourse (sound : h.Sound service)
    (fresh : ∀ call ∈ calls, h.session.now ≤ call.sent) :
    OnCourse service.tool (h.tickets service ++ h.newcomers service calls)
      (h.account.occurrences ++
        ((h.session.accepted service calls).1 ++ (h.session.remaining service calls).1))
      (h.session.remaining service calls).2 := by
  rw [← List.append_assoc]
  exact RunQueue.advance_onCourse (accepted_onCourse sound fresh)
    (some (h.session.exchangeEnd service calls + 1))

theorem exchange_recent (sound : h.Sound service)
    (fresh : ∀ call ∈ calls, h.session.now ≤ call.sent) :
    (h.session.remaining service calls).2.now ≤ h.session.exchangeEnd service calls ∧
      ∀ o ∈ (h.session.accepted service calls).1 ++ (h.session.remaining service calls).1,
        o.time ≤ h.session.exchangeEnd service calls := by
  have advances := RunQueue.advance_advances service.tool
    (some (h.session.exchangeEnd service calls + 1)) (accepted_onCourse sound fresh).orderly
  have later := (Session.lastReply_bounds h.session.now
    (h.session.exchangeReplies service calls)).1
  obtain ⟨reached, early⟩ := RunQueue.acceptAll_recent sound.course (h.newcomers service calls)
    (fun ticket member => Nat.le_trans sound.now (newcomers_after fresh member))
    (newcomers_ordered service h calls) (h.session.exchangeEnd service calls)
    (Nat.le_trans sound.now later) fun ticket member => newcomers_by_end sound fresh member
  have due : ∀ o ∈ (h.session.remaining service calls).1,
      o.time ≤ h.session.exchangeEnd service calls := by
    intro o member
    have soon := advances.due o member
    simp only [Option.all_some, decide_eq_true_eq] at soon
    omega
  constructor
  · exact advances.recent _ reached due
  · intro o member
    rcases List.mem_append.mp member with first | second
    · exact early o first
    · exact due o second

theorem exchange_coming (sound : h.Sound service)
    (fresh : ∀ call ∈ calls, h.session.now ≤ call.sent) :
    ∀ o ∈ (h.session.remaining service calls).2.future service.tool,
      h.session.exchangeEnd service calls < o.time := by
  have advances := RunQueue.advance_advances service.tool
    (some (h.session.exchangeEnd service calls + 1)) (accepted_onCourse sound fresh).orderly
  intro o member
  have late := advances.rest o member
  simp only [Option.all_some, decide_eq_true_eq] at late
  omega

theorem exchange_concludes (sound : h.Sound service)
    (fresh : ∀ call ∈ calls, h.session.now ≤ call.sent) :
    List.Forall₂ (service.Concludes
        (line service.tool 0 0 (h.tickets service ++ h.newcomers service calls))
        (h.account.occurrences ++
          ((h.session.accepted service calls).1 ++ (h.session.remaining service calls).1)))
      (service.arrivals h.session.calls calls) (h.session.exchangeReplies service calls) := by
  rw [Session.exchangeReplies, List.forall₂_map_right_iff, List.forall₂_same]
  intro arrival known
  unfold Service.Concludes
  cases stage : arrival.stage with
  | inl own => simp only [Session.settle, stage]
  | inr ticket =>
      obtain ⟨run, inLine, own, settled⟩ := settle_admitted sound fresh known stage
      refine ⟨run, inLine, own, settled, fun answered => ?_⟩
      have soon := conclude_by_end known settled answered
      have ends := (mem_course_line service.tool 0 0 _ (.ended run)).mpr inLine
      rw [← (remaining_onCourse sound fresh).total] at ends
      rcases List.mem_append.mp ends with done | late
      · exact done
      · -- what is still to come is due after the exchange
        have after : h.session.exchangeEnd service calls < run.ends :=
          exchange_coming sound fresh _ late
        omega

theorem exchange_sent (service : Service) (h : History) (calls : List Call) :
    ∃ sent : List Call, (∀ call ∈ sent, h.session.now ≤ call.sent) ∧
      h.next service (.exchange calls) = ⟨(h.session.exchange service sent).2, h.calls ++ sent,
        h.account.andThen (h.session.exchange service sent).1⟩ := by
  refine ⟨calls.map (Call.after h.session.now), ?_, rfl⟩
  intro call member
  obtain ⟨original, _, rfl⟩ := List.mem_map.mp member
  exact Nat.le_add_right _ _

theorem exchange_sound (sound : h.Sound service) (calls : List Call) :
    (h.next service (.exchange calls)).Sound service := by
  obtain ⟨sent, fresh, moved⟩ := exchange_sent service h calls
  obtain ⟨replies, occurrences, session⟩ := h.session.exchange_spec service sent
  obtain ⟨reached, recent⟩ := exchange_recent sound fresh
  have tickets := tickets_extend sound fresh
  -- the exchange lasts until its last reply, and nobody is admitted after that
  have later := (Session.lastReply_bounds h.session.now
    (h.session.exchangeReplies service sent)).1
  rw [moved]
  refine ⟨?_, ?_, ?_, ?_, ?_, ?_, ?_⟩
  · show (h.session.exchange service sent).2.calls = (h.calls ++ sent).length
    rw [session, List.length_append, ← sound.numbered]
  · show OnCourse service.tool (Session.tickets (service.arrivals 0 (h.calls ++ sent)))
      (h.account.occurrences ++ (h.session.exchange service sent).1.occurrences)
      (h.session.exchange service sent).2.queue
    rw [tickets, occurrences, session]
    exact remaining_onCourse sound fresh
  · show (h.session.exchange service sent).2.queue.now ≤ (h.session.exchange service sent).2.now
    rw [session]
    exact reached
  · show ∀ ticket ∈ Session.tickets (service.arrivals 0 (h.calls ++ sent)),
      ticket.admitted ≤ (h.session.exchange service sent).2.now
    rw [tickets, session]
    intro ticket member
    rcases List.mem_append.mp member with old | new
    · exact Nat.le_trans (sound.admitted ticket old) later
    · exact newcomers_by_end sound fresh new
  · show ∀ o ∈ h.account.occurrences ++ (h.session.exchange service sent).1.occurrences,
      o.time ≤ (h.session.exchange service sent).2.now
    rw [occurrences, session]
    intro o member
    rcases List.mem_append.mp member with old | new
    · exact Nat.le_trans (sound.past o old) later
    · exact recent o new
  · show ∀ o ∈ (h.session.exchange service sent).2.queue.future service.tool,
      (h.session.exchange service sent).2.now ≤ o.time
    rw [session]
    exact fun o member => Nat.le_of_lt (exchange_coming sound fresh o member)
  · show List.Forall₂ (service.Concludes
        (line service.tool 0 0 (Session.tickets (service.arrivals 0 (h.calls ++ sent))))
        (h.account.occurrences ++ (h.session.exchange service sent).1.occurrences))
      (service.arrivals 0 (h.calls ++ sent))
      (h.account.replies ++ (h.session.exchange service sent).1.replies)
    rw [tickets, occurrences, replies, service.arrivals_append, Nat.zero_add, ← sound.numbered]
    refine List.rel_append ?_ (exchange_concludes sound fresh)
    refine sound.replies.imp fun arrival reply concluded => ?_
    refine Service.concludes_mono ?_ (List.subset_append_left _ _) concluded
    rw [line_append]
    exact List.subset_append_left _ _

end Exchange

theorem replies_length (sound : h.Sound service) : h.account.replies.length = h.calls.length := by
  have paired := sound.replies.length_eq
  rw [arrivals, Service.arrivals_length] at paired
  exact paired.symm

theorem arrivals_paired {α : Type} {R : Service.Arrival → α → Prop} {l : List α}
    (paired : List.Forall₂ R (h.arrivals service) l) {i : Nat} {a : α} (found : l[i]? = some a) :
    ∃ call, h.calls[i]? = some call ∧ R (service.arrive i call) a := by
  obtain ⟨inRange, rfl⟩ := List.getElem?_eq_some_iff.mp found
  obtain ⟨sameLength, each⟩ := List.forall₂_iff_get.mp paired
  have inArrivals : i < (h.arrivals service).length := by omega
  obtain ⟨call, sent, arrived⟩ : ∃ call, h.calls[i]? = some call ∧
      (h.arrivals service)[i] = service.arrive i call := by
    have here : (h.arrivals service)[i]? = h.calls[i]?.map (service.arrive (0 + i)) :=
      Service.arrivals_getElem? service 0 h.calls i
    rw [List.getElem?_eq_getElem inArrivals, Nat.zero_add] at here
    obtain ⟨call, sent, same⟩ := Option.map_eq_some_iff.mp here.symm
    exact ⟨call, sent, same.symm⟩
  have related := each i inArrivals inRange
  simp only [List.get_eq_getElem, arrived] at related
  exact ⟨call, sent, related⟩

theorem concludes_at (sound : h.Sound service) {i : Nat} {call : Call} {reply : Reply}
    (sent : h.calls[i]? = some call) (got : h.account.replies[i]? = some reply) :
    service.Concludes (h.runs service) h.account.occurrences (service.arrive i call) reply := by
  obtain ⟨other, found, concluded⟩ := arrivals_paired sound.replies got
  rw [sent, Option.some.injEq] at found
  exact found ▸ concluded

theorem of_sound (service : Service) (moves : List Move) : (of service moves).Sound service := by
  induction moves using List.reverseRecOn with
  | nil => exact start_sound service
  | append_singleton moves move ih =>
      rw [of_snoc]
      cases move with
      | pause milliseconds => exact pause_sound ih milliseconds
      | exchange calls => exact exchange_sound ih calls

end History

end AttestationService

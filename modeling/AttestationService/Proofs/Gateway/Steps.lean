import AttestationService.Session
import Mathlib.Logic.Function.Basic
import Mathlib.Logic.Relation

/-!
The gateway as a step relation over any number of requests, without time: whatever may happen next
can happen next. A request can be dropped at any moment while its handler is at work, and the task
of its run goes on without it. The permit is never lost, and it comes back only between two runs.
-/

namespace AttestationService

open Service (finalize)

/-- How far a run task has come that holds the permit. -/
inductive Stage where
  | entered
  | running
  | ended (ending : Verifier.Ending)

structure Errand where
  ticket : Ticket
  stage : Stage

def Errand.enter (ticket : Ticket) : Errand := ⟨ticket, .entered⟩

def Errand.isRunning (errand : Errand) : Bool :=
  match errand.stage with
  | .running => true
  | .entered | .ended _ => false

inductive Standing where
  | unsent
  | sent (request : Http.Request)
  /-- Its body is being read: the room left, the pieces so far, last first, and what is to come. -/
  | reading (request : Http.Request) (room : Nat) (taken : List (List UInt8)) (rest : List Http.Chunk)
  | ruled (request : Http.Request) (verdict : Except Rejection (Option Nonce))
  | waiting (request : Http.Request)
  | answered (response : Http.Response)
  | dropped

def Standing.handled? : Standing → Option Http.Request
  | .sent request | .reading request _ _ _ | .ruled request _ | .waiting request => some request
  | .unsent | .answered _ | .dropped => none

structure Gateway where
  standing : Nat → Standing
  gate : Gate Ticket Errand
  results : List (Ticket × Verifier.Ending)

namespace Gateway

def start : Gateway := ⟨fun _ => .unsent, .single, []⟩

def stand (s : Gateway) (i : Nat) (standing : Standing) : Gateway :=
  { s with standing := Function.update s.standing i standing }

def reply (s : Gateway) (ids : Nat → Correlation.Seed) (i : Nat) (request : Http.Request)
    (response : Http.Response) : Gateway :=
  s.stand i (.answered (finalize (.resolve request.headers (ids i)) request.method response))

/-- What may happen next, in a gateway with a given success marker and given ids to assign. -/
inductive Step (marker : String) (ids : Nat → Correlation.Seed) (s : Gateway) : Gateway → Prop where
  | sends (i : Nat) (request : Http.Request) (unsent : s.standing i = .unsent) :
      Step marker ids s (s.stand i (.sent request))
  | pages (i : Nat) (request : Http.Request) (response : Http.Response)
      (sent : s.standing i = .sent request) (page : Route.immediate? request = some response) :
      Step marker ids s (s.reply ids i request response)
  | opens (i : Nat) (request : Http.Request) (sent : s.standing i = .sent request)
      (attest : Route.immediate? request = none) (post : request.method = .post) :
      Step marker ids s (s.stand i (.reading request maxBodySize [] request.body))
  /-- Whoever does not post is ruled on at once, at whatever time. -/
  | rules (i : Nat) (request : Http.Request) (sent : s.standing i = .sent request)
      (attest : Route.immediate? request = none) (other : request.method ≠ .post)
      (readDeadline time : Nat) :
      Step marker ids s (s.stand i (.ruled request (Intake.ofRequest readDeadline time request).verdict))
  | hears (i : Nat) (request : Http.Request) (room : Nat) (taken : List (List UInt8))
      (chunk : Http.Chunk) (rest : List Http.Chunk) (piece : List UInt8)
      (reading : s.standing i = .reading request room taken (chunk :: rest))
      (content : chunk.content = .ok piece) (fits : piece.length ≤ room) :
      Step marker ids s (s.stand i (.reading request (room - piece.length) (piece :: taken) rest))
  | hearsAll (i : Nat) (request : Http.Request) (room : Nat) (taken : List (List UInt8))
      (reading : s.standing i = .reading request room taken []) :
      Step marker ids s (s.stand i
        (.ruled request (Intake.check (BodyNonce.ofOctets taken.reverse.flatten).raw).2))
  | breaks (i : Nat) (request : Http.Request) (room : Nat) (taken : List (List UInt8))
      (rest : List Http.Chunk) (reading : s.standing i = .reading request room taken rest) :
      Step marker ids s (s.stand i (.ruled request (.error .bodyUnread)))
  | rejects (i : Nat) (request : Http.Request) (reason : Rejection)
      (ruled : s.standing i = .ruled request (.error reason)) :
      Step marker ids s (s.reply ids i request reason.response)
  | admits (i : Nat) (request : Http.Request) (nonce : Option Nonce) (time : Nat)
      (ruled : s.standing i = .ruled request (.ok nonce)) :
      Step marker ids s { s.stand i (.waiting request) with
        gate := s.gate.enter ⟨i, .resolve request.headers (ids i), nonce, time⟩ }
  | cancels (i : Nat) (request : Http.Request)
      (handled : (s.standing i).handled? = some request) :
      Step marker ids s (s.stand i .dropped)
  | expires (i : Nat) (request : Http.Request)
      (handled : (s.standing i).handled? = some request) :
      Step marker ids s (s.reply ids i request (.empty 408))
  | passes (errand : Errand) (gate : Gate Ticket Errand)
      (passed : s.gate.pass? Errand.enter = some (errand, gate)) :
      Step marker ids s { s with gate }
  | starts (front back : List Errand) (ticket : Ticket)
      (holders : s.gate.holders = front ++ ⟨ticket, .entered⟩ :: back) :
      Step marker ids s { s with
        gate := ⟨s.gate.free, s.gate.waiting, front ++ ⟨ticket, .running⟩ :: back⟩ }
  | ends (front back : List Errand) (ticket : Ticket) (ending : Verifier.Ending)
      (holders : s.gate.holders = front ++ ⟨ticket, .running⟩ :: back) :
      Step marker ids s { s with
        gate := ⟨s.gate.free, s.gate.waiting, front ++ ⟨ticket, .ended ending⟩ :: back⟩ }
  /-- A task whose tool run is over drops the permit, by unwinding if the run panicked. -/
  | leaves (front back : List Errand) (ticket : Ticket) (ending : Verifier.Ending)
      (holders : s.gate.holders = front ++ ⟨ticket, .ended ending⟩ :: back) :
      Step marker ids s { s with
        gate := ⟨s.gate.free + 1, s.gate.waiting, front ++ back⟩
        results := (ticket, ending) :: s.results }
  | delivers (i : Nat) (request : Http.Request) (ticket : Ticket) (ending : Verifier.Ending)
      (waiting : s.standing i = .waiting request) (result : (ticket, ending) ∈ s.results)
      (own : ticket.caller = i) :
      Step marker ids s (s.reply ids i request (Outcome.ofRun ending.run marker).response)

def Reachable (marker : String) (ids : Nat → Correlation.Seed) : Gateway → Prop :=
  Relation.ReflTransGen (Step marker ids) start

variable {marker : String} {ids : Nat → Correlation.Seed} {s s' : Gateway}

/-- What a step does at the gate. -/
inductive AtGate (g : Gate Ticket Errand) : Gate Ticket Errand → Prop where
  | nothing : AtGate g g
  | enters (ticket : Ticket) : AtGate g (g.enter ticket)
  | passes (errand : Errand) (g' : Gate Ticket Errand)
      (passed : g.pass? Errand.enter = some (errand, g')) : AtGate g g'
  | starts (front back : List Errand) (ticket : Ticket)
      (holders : g.holders = front ++ ⟨ticket, .entered⟩ :: back) :
      AtGate g ⟨g.free, g.waiting, front ++ ⟨ticket, .running⟩ :: back⟩
  | ends (front back : List Errand) (ticket : Ticket) (ending : Verifier.Ending)
      (holders : g.holders = front ++ ⟨ticket, .running⟩ :: back) :
      AtGate g ⟨g.free, g.waiting, front ++ ⟨ticket, .ended ending⟩ :: back⟩
  | leaves (front back : List Errand) (ticket : Ticket) (ending : Verifier.Ending)
      (holders : g.holders = front ++ ⟨ticket, .ended ending⟩ :: back) :
      AtGate g ⟨g.free + 1, g.waiting, front ++ back⟩

/-- Requests do nothing at the gate but enter; the rest is the run tasks' own. -/
theorem step_atGate (step : Step marker ids s s') : AtGate s.gate s'.gate := by
  cases step with
  | sends | pages | opens | rules | hears | hearsAll | breaks | rejects | cancels | expires
  | delivers => exact .nothing
  | admits => exact .enters _
  | passes errand gate passed => exact .passes errand gate passed
  | starts front back ticket holders => exact .starts front back ticket holders
  | ends front back ticket ending holders => exact .ends front back ticket ending holders
  | leaves front back ticket ending holders => exact .leaves front back ticket ending holders

section Gate
variable {g g' : Gate Ticket Errand}

theorem pass_cases {errand : Errand} (passed : g.pass? Errand.enter = some (errand, g')) :
    g.free = g'.free + 1 ∧ g'.holders = g.holders ++ [errand] := by
  unfold Gate.pass? at passed
  split at passed
  · rename_i free ticket rest available _
    simp only [Option.some.injEq, Prod.mk.injEq] at passed
    obtain ⟨rfl, rfl⟩ := passed
    exact ⟨available, rfl⟩
  · cases passed

theorem atGate_permits (move : AtGate g g') :
    g'.free + g'.holders.length = g.free + g.holders.length := by
  cases move with
  | nothing => rfl
  | enters ticket => rfl
  | passes errand g' passed =>
      obtain ⟨taken, holders⟩ := pass_cases passed
      rw [holders, List.length_append, List.length_singleton]
      omega
  | starts front back ticket holders => simp [holders]
  | ends front back ticket ending holders => simp [holders]
  | leaves front back ticket ending holders =>
      simp only [holders, List.length_append, List.length_cons]
      omega

theorem atGate_frees (move : AtGate g g') (frees : g.free < g'.free) :
    ∃ ticket ending, ⟨ticket, .ended ending⟩ ∈ g.holders := by
  cases move with
  | nothing => exact absurd frees (Nat.lt_irrefl _)
  | enters ticket => exact absurd frees (Nat.lt_irrefl _)
  | passes errand g' passed =>
      have taken := (pass_cases passed).1
      omega
  | starts front back ticket holders => exact absurd frees (Nat.lt_irrefl _)
  | ends front back ticket ending holders => exact absurd frees (Nat.lt_irrefl _)
  | leaves front back ticket ending holders =>
      refine ⟨ticket, ending, ?_⟩
      rw [holders]
      exact List.mem_append_right _ List.mem_cons_self

theorem atGate_goesOn (move : AtGate g g') {ticket : Ticket}
    (active : ⟨ticket, .running⟩ ∈ g.holders) :
    ⟨ticket, .running⟩ ∈ g'.holders ∨ ∃ ending, ⟨ticket, .ended ending⟩ ∈ g'.holders := by
  cases move with
  | nothing => exact Or.inl active
  | enters other => exact Or.inl active
  | passes errand g' passed =>
      rw [(pass_cases passed).2]
      exact Or.inl (List.mem_append_left _ active)
  | starts front back other holders =>
      -- the run that starts is another one, since this one is running already
      left
      rw [holders] at active
      simp only [List.mem_append, List.mem_cons, Errand.mk.injEq, reduceCtorEq, and_false,
        false_or] at active
      rcases active with before | after
      · exact List.mem_append_left _ before
      · exact List.mem_append_right _ (List.mem_cons_of_mem _ after)
  | ends front back other ending holders =>
      rw [holders] at active
      simp only [List.mem_append, List.mem_cons, Errand.mk.injEq, and_true] at active
      rcases active with before | rfl | after
      · exact Or.inl (List.mem_append_left _ before)
      · exact Or.inr ⟨ending, List.mem_append_right _ List.mem_cons_self⟩
      · exact Or.inl (List.mem_append_right _ (List.mem_cons_of_mem _ after))
  | leaves front back other ending holders =>
      -- only a run that has ended leaves
      left
      rw [holders] at active
      simp only [List.mem_append, List.mem_cons, Errand.mk.injEq, reduceCtorEq, and_false,
        false_or] at active
      exact List.mem_append.mpr active

end Gate

-- Only this induction looks at whole runs of the system; the rest follows in each state.
theorem permit_single (reached : Reachable marker ids s) :
    s.gate.free + s.gate.holders.length = 1 := by
  induction reached with
  | refl => rfl
  | tail _ step ih => exact (atGate_permits (step_atGate step)).trans ih

/-- What holds of the gate in every reachable state, and of every step from there. -/
structure PermitKept (marker : String) (ids : Nat → Correlation.Seed) (s : Gateway) : Prop where
  exclusive : (s.gate.holders.filter Errand.isRunning).length ≤ 1
  permit : s.gate.free + s.gate.holders.length = 1
  isOpen : s.gate.isOpen = true ↔ s.gate.holders = []
  /-- The permit does not come back while a run is active. -/
  frees : ∀ s', Step marker ids s s' → s.gate.free < s'.gate.free →
    ∀ errand ∈ s.gate.holders, errand.isRunning = false
  /-- An active run goes on until it ends by itself, whatever becomes of its caller. -/
  goesOn : ∀ s', Step marker ids s s' → ∀ ticket, ⟨ticket, .running⟩ ∈ s.gate.holders →
    ⟨ticket, .running⟩ ∈ s'.gate.holders ∨ ∃ ending, ⟨ticket, .ended ending⟩ ∈ s'.gate.holders
  /-- The permit of a task comes back when its run is over, however that ended. -/
  returns : ∀ ticket ending, ⟨ticket, .ended ending⟩ ∈ s.gate.holders →
    ∃ s', Step marker ids s s' ∧ s'.gate.isOpen = true ∧ s'.standing = s.standing

/-- Where there is one permit in all, it is kept. -/
theorem kept_of_single (permit : s.gate.free + s.gate.holders.length = 1) : s.PermitKept marker ids := by
  have alone : ∀ errand ∈ s.gate.holders, s.gate.holders = [errand] ∧ s.gate.free = 0 := by
    intro errand member
    cases holders : s.gate.holders with
    | nil =>
        rw [holders] at member
        cases member
    | cons head rest =>
        rw [holders, List.length_cons] at permit
        have nobody : rest = [] := List.length_eq_zero_iff.mp (by omega)
        rw [holders, nobody] at member
        rw [nobody, List.mem_singleton.mp member]
        exact ⟨rfl, by omega⟩
  refine ⟨?_, permit, ?_, ?_, ?_, ?_⟩
  · have fewer := List.length_filter_le Errand.isRunning s.gate.holders
    omega
  · rw [Gate.isOpen, beq_iff_eq, ← List.length_eq_zero_iff]
    omega
  · intro s' step frees errand member
    obtain ⟨ticket, ending, ended⟩ := atGate_frees (step_atGate step) frees
    have holder := (alone _ ended).1
    rw [holder] at member
    rw [List.mem_singleton.mp member]
    rfl
  · exact fun s' step ticket active => atGate_goesOn (step_atGate step) active
  · intro ticket ending ended
    obtain ⟨holder, taken⟩ := alone _ ended
    refine ⟨_, .leaves [] [] ticket ending holder, ?_, rfl⟩
    simp [Gate.isOpen, taken]

theorem permit_kept (reached : Reachable marker ids s) : s.PermitKept marker ids :=
  kept_of_single (permit_single reached)

def plainRequest : Http.Request := ⟨.get, ⟨none, none, "/gpu_attest", none⟩, [], []⟩

/-- The permit is kept when a caller leaves while its run is active, the run panics and the next one
in line begins. -/
theorem permit_kept_after_panic :
    ∃ s, Reachable "ok" .ofNumber s ∧ s.standing 0 = .dropped ∧
      (∃ ticket, s.results = [(ticket, .panicked "boom")] ∧ ticket.caller = 0) ∧
      (∃ ticket, s.gate.holders = [⟨ticket, .running⟩] ∧ ticket.caller = 1) ∧
      s.PermitKept "ok" .ofNumber := by
  have attest : Route.immediate? plainRequest = none := by decide
  have other : plainRequest.method ≠ .post := by decide
  have sent := (Relation.ReflTransGen.refl.tail (Step.sends 0 plainRequest rfl) :
    Reachable "ok" .ofNumber _).tail (.sends 1 plainRequest rfl)
  have ruled := (sent.tail (.rules 0 plainRequest rfl attest other 0 0)).tail
    (.rules 1 plainRequest rfl attest other 0 0)
  have inLine := (ruled.tail (.admits 0 plainRequest none 0 rfl)).tail
    (.admits 1 plainRequest none 0 rfl)
  have begun := (inLine.tail (.passes _ _ rfl)).tail (.starts [] [] _ rfl)
  have gone := begun.tail (.cancels 0 plainRequest rfl)
  have panicked := (gone.tail (.ends [] [] _ (.panicked "boom") rfl)).tail (.leaves [] [] _ _ rfl)
  have next := (panicked.tail (.passes _ _ rfl)).tail (.starts [] [] _ rfl)
  exact ⟨_, next, rfl, ⟨_, rfl, rfl⟩, ⟨_, rfl, rfl⟩, permit_kept next⟩

end Gateway

end AttestationService

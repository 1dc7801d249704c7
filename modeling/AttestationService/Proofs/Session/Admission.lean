import AttestationService.Proofs.Session.Arrival

/-!
Which calls are admitted, whatever their numbers. A call that is taken in on time is admitted for the
nonce that it asks for; how long its client waits after that makes no difference. From there on the
deadline and the client only decide whether the caller is told.
-/

namespace AttestationService

open Service (reaches depart)

namespace Service

variable {service : Service} {number : Nat} {call : Call} {time : Nat}

/-- The moment from which on a call can only be answered that its time is up. -/
def deadline (service : Service) (call : Call) : Nat := call.sent + service.deadlines.write

theorem departure_cases (service : Service) (call : Call) :
    service.departure call = (service.deadline call, .expired) ∧
        (∀ patience ∈ call.patience, service.deadline call ≤ call.sent + patience) ∨
      ∃ patience, call.patience = some patience ∧
        call.sent + patience < service.deadline call ∧
        service.departure call = (call.sent + patience, .cancelled) := by
  unfold departure Call.departure deadline
  cases limit : call.patience with
  | none => simp
  | some patience =>
      by_cases early : call.sent + patience < call.sent + service.deadlines.write
      · right
        exact ⟨patience, rfl, early, by simp [early]⟩
      · left
        simp only [early, if_false, Option.mem_some_iff, forall_eq', true_and]
        omega

-- At the client's own last moment the taking in still comes first; at the deadline it does not.
theorem reaches_iff : reaches (service.departure call) time = true ↔
    time < service.deadline call ∧ ∀ patience ∈ call.patience, time ≤ call.sent + patience := by
  rcases departure_cases service call with ⟨expires, patient⟩ | ⟨patience, limit, early, cancels⟩
  · rw [expires]
    simp only [reaches, reduceCtorEq, beq_iff_eq, Bool.and_eq_true, and_false, or_false,
      Bool.or_eq_true, decide_eq_true_eq]
    constructor
    · intro before
      exact ⟨before, fun patience member => by have := patient patience member; omega⟩
    · exact fun both => both.1
  · rw [cancels]
    simp only [reaches, beq_iff_eq, Bool.and_eq_true, Bool.or_eq_true, decide_eq_true_eq, limit,
      Option.mem_some_iff, forall_eq', and_true]
    omega

theorem before_departure_iff : time < (service.departure call).1 ↔
    time < service.deadline call ∧ ∀ patience ∈ call.patience, time < call.sent + patience := by
  rcases departure_cases service call with ⟨expires, patient⟩ | ⟨patience, limit, early, cancels⟩
  · rw [expires]
    constructor
    · intro before
      exact ⟨before, fun patience member => Nat.lt_of_lt_of_le before (patient patience member)⟩
    · exact fun both => both.1
  · rw [cancels]
    simp only [limit, Option.mem_some_iff, forall_eq']
    omega

def admission? (service : Service) (call : Call) : Option (Nat × Option Nonce) :=
  match Route.immediate? call.request, (service.intake call).verdict with
  | none, .ok nonce =>
    if reaches (service.departure call) (service.intake call).ready then
      some ((service.intake call).ready, nonce)
    else none
  | _, _ => none

def ticket (service : Service) (number : Nat) (call : Call) (admission : Nat × Option Nonce) : Ticket :=
  ⟨number, service.identify number call.request, admission.2, admission.1⟩

theorem admission_some {admission : Nat × Option Nonce} :
    service.admission? call = some admission ↔ Route.immediate? call.request = none ∧
      (service.intake call).verdict = .ok admission.2 ∧
      reaches (service.departure call) (service.intake call).ready = true ∧
      (service.intake call).ready = admission.1 := by
  obtain ⟨time, nonce⟩ := admission
  unfold admission?
  split
  · rename_i attest verdict
    rw [attest, verdict, Option.ite_none_right_eq_some, Option.some.injEq, Prod.mk.injEq,
      Except.ok.injEq]
    exact ⟨fun ⟨inTime, ready, same⟩ => ⟨rfl, same, inTime, ready⟩,
      fun ⟨_, same, inTime, ready⟩ => ⟨inTime, ready, same⟩⟩
  · rename_i other
    simp only [reduceCtorEq, false_iff]
    exact fun ⟨attest, verdict, _⟩ => other nonce attest verdict

theorem arrive_ticket? : (service.arrive number call).stage.getRight? =
    (service.admission? call).map (service.ticket number call) := by
  cases route : Route.immediate? call.request with
  | some response => simp [arrive_page route, admission?, route]
  | none =>
      rw [arrive_attest route]
      unfold admission?
      cases verdict : (service.intake call).verdict <;> simp only [route] <;> split <;> rfl

theorem arrive_admitted {admission : Nat × Option Nonce}
    (admitted : service.admission? call = some admission) :
    (service.arrive number call).stage = .inr (service.ticket number call admission) := by
  have own : (service.arrive number call).stage.getRight? = some (service.ticket number call admission) := by
    rw [arrive_ticket?, admitted]
    rfl
  simpa using own

theorem arrive_idle (idle : service.admission? call = none) :
    ∃ reply, (service.arrive number call).stage = .inl reply := by
  have nothing : (service.arrive number call).stage.getRight? = none := by
    rw [arrive_ticket?, idle]
    rfl
  cases stage : (service.arrive number call).stage with
  | inl reply => exact ⟨reply, rfl⟩
  | inr ticket => simp [stage] at nothing

/-- Whoever was admitted is admitted just the same if its client waits for longer or for less, but
until its admission. -/
theorem admission_patient {admission : Nat × Option Nonce}
    (admitted : service.admission? call = some admission) (patience : Option Nat)
    (after : ∀ limit ∈ patience, admission.1 ≤ call.sent + limit) :
    service.admission? { call with patience } = some admission := by
  obtain ⟨attest, verdict, inTime, ready⟩ := admission_some.mp admitted
  have early := (reaches_iff.mp inTime).1
  refine admission_some.mpr ⟨attest, verdict, reaches_iff.mpr ⟨early, ?_⟩, ready⟩
  intro limit member
  have late := after limit member
  rw [← ready] at late
  exact late

end Service

end AttestationService

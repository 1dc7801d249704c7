import AttestationService.Proofs.Correlation
import AttestationService.Proofs.Session.Deadlines

/-!
Ids in a history. Every answer, whatever it tells, carries one id: the one that the client gave, or the
one that was assigned to this call, and to no other if what ids are made of does not repeat. The same id
is on the call's runs and on all that is reported for it.
-/

namespace AttestationService

/-- A numbered call of a history goes by this id. -/
structure Service.Identifies (service : Service) (h : History) (i : Nat) (call : Call)
    (id : Correlation) : Prop where
  given : ∀ value, Correlation.Gives call.request.headers value →
    id = .provided value ∧ id.headerValue = value
  assigned : (∀ value, ¬ Correlation.Gives call.request.headers value) →
    id = .assigned (service.ids i) ∧ ⟨call.sent, id, .idAssigned⟩ ∈ h.account.entries ∧
      ∃ text, Correlation.isUuid text = true ∧ id.headerValue = Utf8.encode text
  /-- The call is answered with the id, unless its client gives up first. -/
  answered : ∃ reply, h.account.replies[i]? = some reply ∧
    ((∃ patience, call.patience = some patience ∧ reply = .cancelled (call.sent + patience)) ∨
      ∃ answer time, reply = .answered answer time ∧
        answer.headers.filter (·.name == "x-ms-request-id") = [⟨"x-ms-request-id", id.headerValue⟩])
  /-- What is reported as the call is taken in, by its run, and when it is told about the run. -/
  reported : (∀ entry ∈ (service.arrive i call).entries, entry.id = id) ∧
    (∀ o ∈ h.occurrences service, o.tenure.ticket.caller = i → o.tenure.ticket.id = id) ∧
    ∀ run, ∀ entry ∈ (service.conclude (service.arrive i call) run).2, entry.id = id

/-- No two of the first ids are made of the same octets, as far as an id shows them. -/
def Service.FreshIds (service : Service) (count : Nat) : Prop :=
  ∀ i < count, ∀ j < count,
    Correlation.stamped (service.ids i).val = Correlation.stamped (service.ids j).val → i = j

namespace Service

theorem finalize_id (id : Correlation) (method : Http.Method) (response : Http.Response) :
    (finalize id method response).headers.filter (·.name == "x-ms-request-id") =
      [⟨"x-ms-request-id", id.headerValue⟩] :=
  Http.Headers.set_filter _ Correlation.responseHeader id.headerValue

end Service

namespace History

variable {service : Service} {h : History} {i : Nat} {call : Call} {reply : Reply}

theorem reply_id (sound : h.Sound service) (sent : h.calls[i]? = some call)
    (got : h.account.replies[i]? = some reply) :
    (∃ patience, call.patience = some patience ∧ reply = .cancelled (call.sent + patience)) ∨
      ∃ answer time, reply = .answered answer time ∧
        answer.headers.filter (·.name == "x-ms-request-id") =
          [⟨"x-ms-request-id", (service.identify i call.request).headerValue⟩] := by
  cases reply_cause sound sent got with
  | page response _ same => exact .inr ⟨_, _, same, Service.finalize_id _ _ _⟩
  | rejection reason _ _ same => exact .inr ⟨_, _, same, Service.finalize_id _ _ _⟩
  | expiry same => exact .inr ⟨_, _, same, Service.finalize_id _ _ _⟩
  | cancellation patience limit same => exact .inl ⟨patience, limit, same⟩
  | run run _ _ answered => exact .inr ⟨_, _, answered.reply, Service.finalize_id _ _ _⟩

theorem run_id (sound : h.Sound service) (sent : h.calls[i]? = some call) {o : Occurrence}
    (happens : o ∈ h.occurrences service) (own : o.tenure.ticket.caller = i) :
    o.tenure.ticket.id = service.identify i call.request := by
  obtain ⟨_, _, _, ticket⟩ := run_admitted sound sent happens own
  rw [ticket]
  rfl

theorem identifies (service : Service) (moves : List Move)
    (sent : (of service moves).calls[i]? = some call) :
    service.Identifies (of service moves) i call (service.identify i call.request) := by
  have sound := of_sound service moves
  obtain ⟨reply, got⟩ := reply_exists sound sent
  refine ⟨?_, ?_, ⟨reply, got, reply_id sound sent got⟩, ⟨?_, ?_, ?_⟩⟩
  · intro value gives
    rw [Service.identify, Correlation.resolve_given gives]
    exact ⟨rfl, rfl⟩
  · intro nameless
    rw [Service.identify, Correlation.resolve_assigned nameless]
    have logged := assignment_logged service moves sent (Correlation.provided_eq_none nameless)
    exact ⟨rfl, logged, _, Correlation.uuidText_isUuid (service.ids i), rfl⟩
  · exact fun entry member => (Service.arrive_entry member).1
  · exact fun o happens own => run_id sound sent happens own
  · intro run entry member
    rw [(Service.conclude_entry member).1, Service.arrive_id]

/-- Every call of every history goes by one id, and all that is in the log is about a call whose id it
carries. Where ids are fresh, no two calls are answered with the same assigned id. -/
theorem identified (service : Service) (moves : List Move) :
    (∀ i call, (of service moves).calls[i]? = some call →
      ∃ id, service.Identifies (of service moves) i call id) ∧
    (∀ entry ∈ (of service moves).account.entries, ∃ i call,
      (of service moves).calls[i]? = some call ∧
        service.Identifies (of service moves) i call entry.id ∧
        entry.Concerns (of service moves) i call) ∧
    (service.FreshIds (of service moves).calls.length →
      ∀ i j call other id otherId, i ≠ j →
        (of service moves).calls[i]? = some call → (of service moves).calls[j]? = some other →
        service.Identifies (of service moves) i call id →
        service.Identifies (of service moves) j other otherId →
        (∀ value, ¬ Correlation.Gives call.request.headers value) →
        (∀ value, ¬ Correlation.Gives other.request.headers value) →
          id.headerValue ≠ otherId.headerValue) := by
  refine ⟨fun i call sent => ⟨_, identifies service moves sent⟩, fun entry reported => ?_, ?_⟩
  · obtain ⟨i, call, sent, id, concerns⟩ := entry_concerns service moves reported
    refine ⟨i, call, sent, ?_, concerns⟩
    rw [id]
    exact identifies service moves sent
  · intro fresh i j call other id otherId apart sent otherSent first second nameless otherNameless same
    rw [(first.assigned nameless).1, (second.assigned otherNameless).1] at same
    have inside := (List.getElem?_eq_some_iff.mp sent).1
    have otherInside := (List.getElem?_eq_some_iff.mp otherSent).1
    exact apart (fresh i inside j otherInside (Correlation.stamped_of_headerValue same))

def strangers : List Call :=
  let headers : Http.Headers := [⟨"x-ms-request-id", [0xFF]⟩, ⟨"x-request-id", []⟩]
  [⟨{ (attestCall .get 0).request with headers }, 0, none⟩, attestCall .get 0, attestCall .get 0]

theorem identified_strangers :
    (∃ answer time, (of (steady ⟨10, 20⟩ 15) [.exchange strangers]).account.replies[0]? =
        some (.answered answer time) ∧
      answer.headers.filter (·.name == "x-ms-request-id") = [⟨"x-ms-request-id", [0xFF]⟩]) ∧
    ∃ first second answer time,
      (of (steady ⟨10, 20⟩ 15) [.exchange strangers]).account.replies[2]? = some (.answered answer time) ∧
        answer.headers.filter (·.name == "x-ms-request-id") = [⟨"x-ms-request-id", second⟩] ∧
        first = (Correlation.assigned (.ofNumber 1)).headerValue ∧ first ≠ second := by
  obtain ⟨calls, _, distinct⟩ := identified (steady ⟨10, 20⟩ 15) [.exchange strangers]
  have nameless : ∀ value, ¬ Correlation.Gives (attestCall .get 0).request.headers value := by
    intro value gives
    cases Correlation.provided_eq_some_iff.mpr gives
  obtain ⟨id, named⟩ := calls 0 _ rfl
  obtain ⟨first, one⟩ := calls 1 _ rfl
  obtain ⟨second, two⟩ := calls 2 _ rfl
  constructor
  · have kept := (named.given [0xFF] (Correlation.provided_eq_some_iff.mp rfl)).2
    obtain ⟨reply, got, ⟨_, impatient, _⟩ | ⟨answer, time, rfl, header⟩⟩ := named.answered
    · cases impatient
    · rw [kept] at header
      exact ⟨answer, time, got, header⟩
  · have fresh : (steady ⟨10, 20⟩ 15).FreshIds 3 := by
      unfold Service.FreshIds
      decide
    have other := distinct fresh 1 2 _ _ _ _ (by decide) rfl rfl one two nameless nameless
    obtain ⟨reply, got, ⟨_, impatient, _⟩ | ⟨answer, time, rfl, header⟩⟩ := two.answered
    · cases impatient
    · refine ⟨_, _, answer, time, got, header, ?_, other⟩
      rw [(one.assigned nameless).1]
      rfl

end History

end AttestationService

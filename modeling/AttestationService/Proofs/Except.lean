/-!
Steps that may fail. A chain of steps gives a result if each of them does, and fails as the first
that does not.
-/

namespace AttestationService

section Steps
variable {ε δ α β : Type} {x : Except ε α}

theorem map_ok {f : α → β} {b : β} (done : x.map f = .ok b) : ∃ a, x = .ok a ∧ f a = b := by
  cases x with
  | error e => cases done
  | ok a => exact ⟨a, rfl, Except.ok.inj done⟩

theorem map_made {f : α → β} : (∃ b, x.map f = .ok b) ↔ ∃ a, x = .ok a := by
  constructor
  · rintro ⟨b, done⟩
    obtain ⟨a, made, _⟩ := map_ok done
    exact ⟨a, made⟩
  · rintro ⟨a, rfl⟩
    exact ⟨f a, rfl⟩

theorem mapError_ok {f : ε → δ} {a : α} : x.mapError f = .ok a ↔ x = .ok a := by
  constructor
  · intro done
    cases x with
    | error e => cases done
    | ok b => exact congrArg _ (Except.ok.inj done)
  · rintro rfl
    rfl

section Chains
variable {f : α → Except ε β}

theorem bind_ok {b : β} (done : x.bind f = .ok b) : ∃ a, x = .ok a ∧ f a = .ok b := by
  cases x with
  | error e => cases done
  | ok a => exact ⟨a, rfl, done⟩

theorem bind_eq_ok {b : β} : (x >>= f) = .ok b ↔ ∃ a, x = .ok a ∧ f a = .ok b := by
  constructor
  · exact bind_ok
  · rintro ⟨a, rfl, done⟩
    exact done

theorem bind_made : (∃ b, (x >>= f) = .ok b) ↔ ∃ a, x = .ok a ∧ ∃ b, f a = .ok b := by
  constructor
  · rintro ⟨b, done⟩
    obtain ⟨a, made, rest⟩ := bind_ok done
    exact ⟨a, made, b, rest⟩
  · rintro ⟨a, rfl, b, rest⟩
    exact ⟨b, rest⟩

theorem bind_eq_error {e : ε} : (x >>= f) = .error e ↔ x = .error e ∨ ∃ a, x = .ok a ∧ f a = .error e := by
  constructor
  · intro failed
    cases x with
    | error d =>
        cases failed
        exact .inl rfl
    | ok a => exact .inr ⟨a, rfl, failed⟩
  · rintro (rfl | ⟨a, rfl, failed⟩)
    · rfl
    · exact failed

end Chains

end Steps

end AttestationService

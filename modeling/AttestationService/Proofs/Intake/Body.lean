import AttestationService.Http.Body
import Mathlib.Data.List.Forall2

/-!
What it takes to read a body completely: every chunk comes in time and without a failure, and all of
them together are not too long. What is read is then their concatenation.
-/

namespace AttestationService.Http.Body

/-- The chunk came before its deadline and held this piece. -/
def Delivers (deadline : Nat) (chunk : Chunk) (piece : List UInt8) : Prop :=
  chunk.delay < deadline ∧ chunk.content = .ok piece

/-- The chunks make up a body of these octets, `room` at most. -/
def Whole (deadline room : Nat) (chunks : List Chunk) (octets : List UInt8) : Prop :=
  0 < deadline ∧ octets.length ≤ room ∧
    ∃ pieces, List.Forall₂ (Delivers deadline) chunks pieces ∧ octets = pieces.flatten

theorem whole_nil (deadline room : Nat) (octets : List UInt8) :
    Whole deadline room [] octets ↔ 0 < deadline ∧ octets = [] := by
  constructor
  · rintro ⟨patient, _, pieces, delivered, rfl⟩
    cases delivered
    exact ⟨patient, rfl⟩
  · rintro ⟨patient, rfl⟩
    exact ⟨patient, Nat.zero_le _, [], .nil, rfl⟩

theorem whole_cons (deadline room : Nat) (chunk : Chunk) (rest : List Chunk) (octets : List UInt8) :
    Whole deadline room (chunk :: rest) octets ↔
      ∃ piece others, Delivers deadline chunk piece ∧ piece.length ≤ room ∧
        Whole deadline (room - piece.length) rest others ∧ octets = piece ++ others := by
  constructor
  · rintro ⟨patient, fits, pieces, delivered, rfl⟩
    cases delivered with
    | @cons _ piece _ others head tail =>
        simp only [List.flatten_cons, List.length_append] at fits
        refine ⟨piece, others.flatten, head, by omega, ⟨patient, by omega, others, tail, rfl⟩, ?_⟩
        rw [List.flatten_cons]
  · rintro ⟨piece, others, head, small, ⟨patient, fits, pieces, tail, rfl⟩, rfl⟩
    refine ⟨patient, ?_, piece :: pieces, .cons head tail, rfl⟩
    rw [List.length_append]
    omega

/-- Reading succeeds exactly on a complete body, and takes nothing from it and adds nothing. -/
theorem collect_ok_iff (deadline now room : Nat) (taken : List (List UInt8)) (chunks : List Chunk)
    (octets : List UInt8) :
    (collect deadline now room taken chunks).2 = .ok octets ↔
      ∃ body, Whole deadline room chunks body ∧ octets = taken.reverse.flatten ++ body := by
  -- the room left and the pieces taken change with every chunk
  induction chunks generalizing now room taken with
  | nil =>
      simp only [collect, whole_nil]
      by_cases impatient : deadline = 0
      · simp [impatient]
      · simp only [impatient, if_false, Except.ok.injEq]
        constructor
        · rintro rfl
          exact ⟨[], ⟨Nat.pos_of_ne_zero impatient, rfl⟩, by simp⟩
        · rintro ⟨_, ⟨_, rfl⟩, rfl⟩
          simp
  | cons chunk rest ih =>
      simp only [whole_cons, Delivers]
      by_cases late : deadline ≤ chunk.delay
      · simp only [collect, late, if_true, reduceCtorEq, false_iff]
        rintro ⟨_, ⟨_, _, ⟨early, _⟩, _⟩, _⟩
        omega
      · cases content : chunk.content with
        | error reason => simp [collect, late, content]
        | ok piece =>
            by_cases long : room < piece.length
            · simp only [collect, late, content, long, if_true, if_false, reduceCtorEq, false_iff]
              rintro ⟨_, ⟨_, _, ⟨_, same⟩, small, _⟩, _⟩
              cases same
              omega
            · simp only [collect, late, content, long, if_false, ih]
              constructor
              · rintro ⟨others, whole, rfl⟩
                refine ⟨piece ++ others, ⟨piece, others, ⟨by omega, rfl⟩, by omega, whole, rfl⟩, ?_⟩
                simp
              · rintro ⟨_, ⟨_, others, ⟨_, same⟩, _, whole, rfl⟩, rfl⟩
                cases same
                exact ⟨others, whole, by simp⟩

theorem collect_not_before (deadline now room : Nat) (taken : List (List UInt8))
    (chunks : List Chunk) : now ≤ (collect deadline now room taken chunks).1 := by
  induction chunks generalizing now room taken with
  | nil => exact Nat.le_refl now
  | cons chunk rest ih =>
      have tail := fun room taken => ih (now + chunk.delay) room taken
      unfold collect
      split
      · exact Nat.le_add_right _ _
      · split
        · exact Nat.le_add_right _ _
        · split
          · exact Nat.le_add_right _ _
          · exact Nat.le_trans (Nat.le_add_right _ _) (tail _ _)

end AttestationService.Http.Body

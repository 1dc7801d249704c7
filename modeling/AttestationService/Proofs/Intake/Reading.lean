import AttestationService.Intake

/-!
How a body is read, chunk by chunk. The reading goes on until a chunk is too late, is a failure or
makes the body too long, whatever would follow. Without such a chunk all octets have been taken when
the last chunk came, and how they were cut makes no difference.
-/

namespace AttestationService.Http

def Chunk.octets (chunk : Chunk) : List UInt8 :=
  match chunk.content with
  | .ok octets => octets
  | .error _ => []

namespace Body

def contents (chunks : List Chunk) : List UInt8 := chunks.flatMap Chunk.octets

def elapsed (chunks : List Chunk) : Nat := chunks.foldl (fun time chunk => time + chunk.delay) 0

/-- The chunk at this place comes too late, is a failure, or makes the chunks so far longer than the room. -/
def StopsAt (deadline room : Nat) (chunks : List Chunk) (k : Nat) : Prop :=
  ∃ chunk, chunks[k]? = some chunk ∧ (deadline ≤ chunk.delay ∨ (∃ reason, chunk.content = .error reason) ∨
    room < (contents (chunks.take (k + 1))).length)

/-- The first chunk at which the reading stops. -/
def FirstStop (deadline room : Nat) (chunks : List Chunk) (k : Nat) : Prop :=
  StopsAt deadline room chunks k ∧ ∀ j < k, ¬ StopsAt deadline room chunks j

section Reading
variable {deadline room k : Nat} {chunks : List Chunk} {chunk : Chunk}

theorem contents_next (found : chunks[k]? = some chunk) :
    contents (chunks.take (k + 1)) = contents (chunks.take k) ++ chunk.octets := by
  rw [List.take_add_one, found, contents, List.flatMap_append]
  simp [contents]

theorem elapsed_next (found : chunks[k]? = some chunk) :
    elapsed (chunks.take (k + 1)) = elapsed (chunks.take k) + chunk.delay := by
  rw [List.take_add_one, found, elapsed, List.foldl_append]
  rfl

theorem drop_next (found : chunks[k]? = some chunk) : chunks.drop k = chunk :: chunks.drop (k + 1) := by
  obtain ⟨bound, rfl⟩ := List.getElem?_eq_some_iff.mp found
  exact List.drop_eq_getElem_cons bound

theorem passes (found : chunks[k]? = some chunk) (goesOn : ¬ StopsAt deadline room chunks k) :
    chunk.delay < deadline ∧ chunk.content = .ok chunk.octets ∧
      (contents (chunks.take k)).length + chunk.octets.length ≤ room := by
  have inTime : ¬ deadline ≤ chunk.delay := fun late => goesOn ⟨chunk, found, .inl late⟩
  have fits : ¬ room < (contents (chunks.take (k + 1))).length :=
    fun long => goesOn ⟨chunk, found, .inr (.inr long)⟩
  rw [contents_next found, List.length_append] at fits
  refine ⟨by omega, ?_, by omega⟩
  cases held : chunk.content with
  | error reason => exact absurd ⟨chunk, found, .inr (.inl ⟨reason, held⟩)⟩ goesOn
  | ok octets => rw [Chunk.octets, held]

/-- Where the reading stands after chunks that pass. The room that is left and the octets that were taken make
up the room there was, so no subtraction is cut off. -/
theorem collect_stands (now : Nat) (taken : List (List UInt8)) (within : k ≤ chunks.length)
    (before : ∀ j < k, ¬ StopsAt deadline room chunks j) : (contents (chunks.take k)).length ≤ room ∧
      ∃ held, held.reverse.flatten = taken.reverse.flatten ++ contents (chunks.take k) ∧
        collect deadline now room taken chunks = collect deadline (now + elapsed (chunks.take k))
          (room - (contents (chunks.take k)).length) held (chunks.drop k) := by
  induction k with
  | zero => exact ⟨Nat.zero_le room, taken, by simp [contents], rfl⟩
  | succ k ih =>
      obtain ⟨fits, held, all, same⟩ := ih (Nat.le_of_succ_le within) fun j small => before j (by omega)
      have found : chunks[k]? = some chunks[k] := List.getElem?_eq_getElem within
      obtain ⟨inTime, content, small⟩ := passes found (before k (Nat.lt_succ_self k))
      have roomy : ¬ room - (contents (chunks.take k)).length < chunks[k].octets.length := by omega
      rw [contents_next found, List.length_append]
      refine ⟨small, chunks[k].octets :: held, ?_, ?_⟩
      · rw [List.reverse_cons, List.flatten_append, all]
        simp
      · rw [same, drop_next found, collect, if_neg (by omega), content]
        simp only
        rw [if_neg roomy, elapsed_next found, Nat.add_assoc, Nat.sub_sub]

/-- The reading ends with the chunk that stops it, when that comes or when its time is up. -/
theorem collect_stopped (now : Nat) (first : FirstStop deadline room chunks k)
    (found : chunks[k]? = some chunk) :
    ∃ error, collect deadline now room [] chunks =
      (now + elapsed (chunks.take k) + min chunk.delay deadline, .error error) := by
  obtain ⟨⟨_, same, stops⟩, before⟩ := first
  rw [found, Option.some.injEq] at same
  subst same
  have bound := (List.getElem?_eq_some_iff.mp found).1
  obtain ⟨fits, held, _, stands⟩ := collect_stands now [] (Nat.le_of_lt bound) before
  rw [stands, drop_next found, collect]
  by_cases late : deadline ≤ chunk.delay
  · rw [if_pos late, Nat.min_eq_right late]
    exact ⟨_, rfl⟩
  · rw [if_neg late, Nat.min_eq_left (by omega)]
    cases content : chunk.content with
    | error reason => exact ⟨_, rfl⟩
    | ok octets =>
        have long : room < (contents (chunks.take (k + 1))).length := by
          rcases stops with slow | ⟨reason, broken⟩ | long
          · exact absurd slow late
          · rw [content] at broken
            cases broken
          · exact long
        rw [contents_next found, List.length_append, Chunk.octets, content] at long
        simp only at long ⊢
        rw [if_pos (by omega)]
        exact ⟨_, rfl⟩

theorem collect_passed (now : Nat) (patient : 0 < deadline)
    (passing : ∀ k, ¬ StopsAt deadline room chunks k) :
    collect deadline now room [] chunks = (now + elapsed chunks, .ok (contents chunks)) := by
  obtain ⟨_, held, all, stands⟩ := collect_stands now [] (Nat.le_refl chunks.length) fun j _ => passing j
  rw [List.take_length] at all stands
  rw [stands, List.drop_length, collect, if_neg (by omega), all]
  rfl

theorem passing_iff : (∀ k, ¬ StopsAt deadline room chunks k) ↔
    (∀ chunk ∈ chunks, chunk.delay < deadline ∧ ∃ octets, chunk.content = .ok octets) ∧
      (contents chunks).length ≤ room := by
  constructor
  · intro passing
    constructor
    · intro chunk member
      obtain ⟨k, found⟩ := List.mem_iff_getElem?.mp member
      obtain ⟨inTime, content, _⟩ := passes found (passing k)
      exact ⟨inTime, _, content⟩
    · have whole := (collect_stands 0 [] (Nat.le_refl chunks.length) fun j _ => passing j).1
      rwa [List.take_length] at whole
  · rintro ⟨each, fits⟩ k ⟨chunk, found, late | ⟨reason, broken⟩ | long⟩
    · have inTime := (each chunk (List.mem_of_getElem? found)).1
      omega
    · obtain ⟨_, octets, content⟩ := each chunk (List.mem_of_getElem? found)
      rw [content] at broken
      cases broken
    · have whole : contents chunks = contents (chunks.take (k + 1)) ++ contents (chunks.drop (k + 1)) := by
        rw [contents, ← List.take_append_drop (k + 1) chunks, List.flatMap_append]
        simp [contents]
      rw [whole, List.length_append] at fits
      omega

end Reading

end Body

end AttestationService.Http

import AttestationService.Proofs.Json.Written

/-!
What is written can be read. The text of a value whose numbers may be read is a spelling of the value, with
each real replaced by the one that its text is read as.
-/

namespace AttestationService.Json

def Number.reread (n : Number) : Number :=
  match value 1 0 (.ofText (numberText n)) with
  | .ok (.number m, _) => m
  | _ => n

mutual

def Value.reread : Value → Value
  | .number n => .number n.reread
  | .array items => .array (itemsReread items)
  | .object members => .object (membersReread members)
  | v => v

def itemsReread : List Value → List Value
  | [] => []
  | v :: rest => v.reread :: itemsReread rest

def membersReread : List (String × Value) → List (String × Value)
  | [] => []
  | (key, v) :: rest => (key, v.reread) :: membersReread rest

end

section Numbers
variable {n m : Number}

theorem Number.ReadAs.reread (read : m.ReadAs (numberText n)) : n.reread = m := by
  have here := read.read 0 0 [] trivial
  rw [List.append_nil] at here
  rw [Number.reread, here]

theorem Number.Proper.readAs (proper : n.Proper) : n.reread.ReadAs (numberText n) := by
  obtain ⟨m, read⟩ := proper.reread
  rw [read.reread]
  exact read

theorem integer_reread {n : Int} (low : -2 ^ 63 ≤ n) (high : n < 2 ^ 64) :
    (Number.integer n).reread = .integer n := (integer_readAs low high).reread

mutual

/-- Integers come back as they are, and so does a value that holds no other numbers. -/
theorem reread_whole : ∀ v : Value, AllProper v.numbers →
    (∀ n ∈ v.numbers, ∃ k, n = .integer k) → v.reread = v
  | .null, _, _ | .bool _, _, _ | .string _, _, _ => rfl
  | .number n, proper, whole => by
      have some_ : n ∈ Value.numbers (.number n) := List.mem_cons_self
      obtain ⟨k, rfl⟩ := whole n some_
      obtain ⟨low, high⟩ := proper (.integer k) some_
      rw [Value.reread, integer_reread low high]
  | .array items, proper, whole => congrArg Value.array (itemsReread_whole items proper whole)
  | .object members, proper, whole => congrArg Value.object (membersReread_whole members proper whole)

theorem itemsReread_whole : ∀ items : List Value, AllProper (itemsNumbers items) →
    (∀ n ∈ itemsNumbers items, ∃ k, n = .integer k) → itemsReread items = items
  | [], _, _ => rfl
  | v :: items, proper, whole => congrArg₂ List.cons
      (reread_whole v proper.left fun n member => whole n (List.mem_append_left _ member))
      (itemsReread_whole items proper.right fun n member => whole n (List.mem_append_right _ member))

theorem membersReread_whole : ∀ members : List (String × Value), AllProper (membersNumbers members) →
    (∀ n ∈ membersNumbers members, ∃ k, n = .integer k) → membersReread members = members
  | [], _, _ => rfl
  | (key, v) :: members, proper, whole => congrArg₂ (fun w rest => (key, w) :: rest)
      (reread_whole v proper.left fun n member => whole n (List.mem_append_left _ member))
      (membersReread_whole members proper.right fun n member =>
        whole n (List.mem_append_right _ member))

end

mutual

theorem reread_depth : ∀ v : Value, v.reread.depth = v.depth
  | .null | .bool _ | .number _ | .string _ => rfl
  | .array items => congrArg (· + 1) (itemsReread_depth items)
  | .object members => congrArg (· + 1) (membersReread_depth members)

theorem itemsReread_depth : ∀ items : List Value, itemsDepth (itemsReread items) = itemsDepth items
  | [] => rfl
  | v :: items => congrArg₂ max (reread_depth v) (itemsReread_depth items)

theorem membersReread_depth : ∀ members : List (String × Value),
    membersDepth (membersReread members) = membersDepth members
  | [] => rfl
  | (_, v) :: members => congrArg₂ max (reread_depth v) (membersReread_depth members)

end

end Numbers

section Spellings
variable {Numeral : Number → List Char → Prop} {n : Number} {text : List Char}

/-- However the number is spelled, it is read as its own text is. -/
def RereadFrom (Numeral : Number → List Char → Prop) (n : Number) : Prop :=
  ∀ text, Numeral n text → n.reread.ReadAs text

theorem SpellsItems.reread {items : List Value}
    (each : ∀ v ∈ items, ∀ text, Spells Numeral v text → Spells Number.ReadAs v.reread text)
    (spelled : SpellsItems Numeral items text) : SpellsItems Number.ReadAs (itemsReread items) text := by
  induction items generalizing text with
  | nil =>
      cases spelled with
      | close space => exact .close space
  | cons v items ih =>
      obtain ⟨first, others⟩ := List.forall_mem_cons.mp each
      cases spelled with
      | item before after next more => exact .item before after (first _ next) (ih others more)

theorem SpellsMember.reread {key : String} {v : Value}
    (contents : ∀ text, Spells Numeral v text → Spells Number.ReadAs v.reread text)
    (spelled : SpellsMember Numeral (key, v) text) : SpellsMember Number.ReadAs (key, v.reread) text := by
  cases spelled with
  | mk named before after spelled => exact .mk named before after (contents _ spelled)

theorem SpellsMembers.reread {members : List (String × Value)}
    (each : ∀ m ∈ members, ∀ text, Spells Numeral m.2 text → Spells Number.ReadAs m.2.reread text)
    (spelled : SpellsMembers Numeral members text) :
    SpellsMembers Number.ReadAs (membersReread members) text := by
  induction members generalizing text with
  | nil =>
      cases spelled with
      | close space => exact .close space
  | cons m members ih =>
      obtain ⟨first, others⟩ := List.forall_mem_cons.mp each
      cases spelled with
      | member before after next more => exact .member before after (next.reread first) (ih others more)

theorem Spells.reread {v : Value} (numerals : ∀ n ∈ v.numbers, RereadFrom Numeral n)
    (spelled : Spells Numeral v text) : Spells Number.ReadAs v.reread text := by
  induction v using Value.induct generalizing text with
  | null =>
      cases spelled
      exact .null
  | bool b =>
      cases spelled with
      | yes => exact .yes
      | no => exact .no
  | number n =>
      cases spelled with
      | number numeral => exact .number (numerals n List.mem_cons_self _ numeral)
  | string s =>
      cases spelled with
      | string written => exact .string written
  | array items ih =>
      have each : ∀ v ∈ items, ∀ text, Spells Numeral v text → Spells Number.ReadAs v.reread text :=
        fun v member _ => ih v member fun n inside => numerals n (item_numbers member inside)
      cases spelled with
      | emptyArray space => exact .emptyArray space
      | array space next more =>
          obtain ⟨first, others⟩ := List.forall_mem_cons.mp each
          exact .array space (first _ next) (more.reread others)
  | object members ih =>
      have each : ∀ m ∈ members, ∀ text, Spells Numeral m.2 text →
          Spells Number.ReadAs m.2.reread text :=
        fun m member _ => ih m member fun n inside => numerals n (member_numbers member inside)
      cases spelled with
      | emptyObject space => exact .emptyObject space
      | object space next more =>
          obtain ⟨first, others⟩ := List.forall_mem_cons.mp each
          exact .object space (next.reread first) (more.reread others)

theorem Number.Proper.rereadFrom (proper : n.Proper) : RereadFrom AsWritten n := by
  rintro _ rfl
  exact proper.readAs

/-- The indented text of a value whose numbers may be read is a spelling of the value as it is read again. -/
theorem indented_spells (v : Value) (level : Nat) (proper : AllProper v.numbers) :
    Spells Number.ReadAs v.reread (indented level v) := by
  have written : Spells AsWritten v (indented level v) := indented_written v level fun _ _ => rfl
  exact written.reread fun n member => (proper n member).rereadFrom

end Spellings

end AttestationService.Json

import AttestationService.Proofs.Json.Integers
import AttestationService.Proofs.Json.Printing
import AttestationService.Proofs.Text.Search

/-!
Whole documents. A spelling of a value with space around it is read as the value, and if no object has a key
twice, nothing is merged away. No spelling begins or ends with a blank.
-/

namespace AttestationService.Json

mutual

/-- No object has two members with one key. -/
def Value.DistinctKeys : Value → Prop
  | .array items => ItemsDistinct items
  | .object members => (members.map Prod.fst).Nodup ∧ MembersDistinct members
  | _ => True

def ItemsDistinct : List Value → Prop
  | [] => True
  | v :: rest => v.DistinctKeys ∧ ItemsDistinct rest

def MembersDistinct : List (String × Value) → Prop
  | [] => True
  | (_, v) :: rest => v.DistinctKeys ∧ MembersDistinct rest

end

section Merging
variable {members : List (String × Value)}

theorem insert_fresh {key : String} (fresh : key ∉ members.map Prod.fst) (v : Value) :
    insert key v members = members ++ [(key, v)] := by
  induction members with
  | nil => rfl
  | cons m members ih =>
      rw [List.map_cons, List.mem_cons, not_or] at fresh
      rw [insert, if_neg (Ne.symm fresh.1), ih fresh.2]
      rfl

theorem mergeMembers_distinct (distinct : (members.map Prod.fst).Nodup) : mergeMembers members = members := by
  suffices from_ : ∀ done, ((done ++ members).map Prod.fst).Nodup →
      members.foldl (fun merged m => insert m.1 m.2 merged) done = done ++ members from from_ [] distinct
  clear distinct
  induction members with
  | nil => simp
  | cons m members ih =>
      intro done distinct
      have fresh : m.1 ∉ done.map Prod.fst := by
        rw [List.map_append, List.nodup_append] at distinct
        exact fun old => distinct.2.2 _ old _ (by simp) rfl
      rw [List.foldl_cons, insert_fresh fresh, ih, List.append_assoc]
      · rfl
      · rwa [List.append_assoc]

mutual

theorem merged_distinct : ∀ v : Value, v.DistinctKeys → v.merged = v
  | .null, _ | .bool _, _ | .number _, _ | .string _, _ => rfl
  | .array items, distinct => congrArg Value.array (mergedItems_distinct items distinct)
  | .object members, distinct => by
      rw [Value.merged, mergedMembers_distinct members distinct.2, mergeMembers_distinct distinct.1]

theorem mergedItems_distinct : ∀ items : List Value, ItemsDistinct items → mergedItems items = items
  | [], _ => rfl
  | v :: items, distinct =>
      congrArg₂ List.cons (merged_distinct v distinct.1) (mergedItems_distinct items distinct.2)

theorem mergedMembers_distinct : ∀ members : List (String × Value), MembersDistinct members →
    mergedMembers members = members
  | [], _ => rfl
  | (key, v) :: members, distinct => congrArg₂ (fun w rest => (key, w) :: rest)
      (merged_distinct v distinct.1) (mergedMembers_distinct members distinct.2)

end

end Merging

section Reading
variable {Numeral : Number → List Char → Prop} {v : Value} {before text after : List Char}

theorem document_spelled (numerals : ∀ n text, Numeral n text → n.ReadAs text) (space : IsGap before)
    (spelled : Spells Numeral v text) (later : IsGap after) (shallow : v.depth ≤ maxDepth) :
    document (.ofText (before ++ text ++ after)) = .ok v := by
  have ends : EndsNumber (.ofText after) := by
    have blank : EndsNumber (Input.ofText after ++ []) :=
      endsNumber_gap later (show EndsNumber [] from trivial)
    rwa [List.append_nil] at blank
  have enough : 2 * text.length ≤ 2 * (before ++ text ++ after).length + 2 := by
    simp only [List.length_append]
    omega
  have read := (reads numerals _).value v text maxDepth (.ofText after) spelled enough shallow ends
  have taken : value (2 * (before ++ text ++ after).length + 2) maxDepth
      (.ofText (before ++ text ++ after)) = .ok (v, .ofText after) := by
    rw [ofText_append, ofText_append, List.append_assoc (Input.ofText before), value_gap space, read]
  unfold document
  rw [ofText_length, taken]
  simp only [Except.bind, finish_gap v later]

theorem read_spelled (numerals : ∀ n text, Numeral n text → n.ReadAs text) (space : IsGap before)
    (spelled : Spells Numeral v text) (later : IsGap after) (shallow : v.depth ≤ maxDepth)
    (distinct : v.DistinctKeys) : read (.ofText (before ++ text ++ after)) = .ok v := by
  rw [read, document_spelled numerals space spelled later shallow, Except.map, merged_distinct v distinct]

/-- Integers of 64 bits are read as they are, however a value that holds no other numbers is spelled. -/
theorem Spells.readable (spelled : Spells SpellsInteger v text) (whole : AllWhole v.numbers) :
    Spells Number.ReadAs v text := by
  have read : Spells Number.ReadAs v.reread text := spelled.reread fun n member letters numeral => by
    rw [numeral.text_eq]
    exact (whole.proper n member).readAs
  rwa [reread_whole v whole.proper fun n member => (whole n member).imp fun _ => And.left] at read

end Reading

section Ends
variable {Numeral : Number → List Char → Prop} {text : List Char}

theorem items_last {items : List Value} (spelled : SpellsItems Numeral items text) :
    ∃ front, text = front ++ [']'] := by
  induction items generalizing text with
  | nil =>
      cases spelled with
      | close space => exact ⟨_, rfl⟩
  | cons v items ih =>
      cases spelled with
      | item _ _ _ more =>
          obtain ⟨front, rfl⟩ := ih more
          exact ⟨_, (List.append_assoc _ _ _).symm⟩

theorem members_last {members : List (String × Value)} (spelled : SpellsMembers Numeral members text) :
    ∃ front, text = front ++ ['\x7d'] := by
  induction members generalizing text with
  | nil =>
      cases spelled with
      | close space => exact ⟨_, rfl⟩
  | cons m members ih =>
      cases spelled with
      | member _ _ _ more =>
          obtain ⟨front, rfl⟩ := ih more
          exact ⟨_, (List.append_assoc _ _ _).symm⟩

theorem Spells.bare {v : Value} (numerals : ∀ n text, Numeral n text → Text.Bare text)
    (spelled : Spells Numeral v text) : Text.Bare text := by
  cases spelled with
  | null => exact ⟨⟨_, _, rfl, by decide⟩, ['n', 'u', 'l'], _, rfl, by decide⟩
  | yes => exact ⟨⟨_, _, rfl, by decide⟩, ['t', 'r', 'u'], _, rfl, by decide⟩
  | no => exact ⟨⟨_, _, rfl, by decide⟩, ['f', 'a', 'l', 's'], _, rfl, by decide⟩
  | number numeral => exact numerals _ _ numeral
  | string written =>
      obtain ⟨inside, _, rfl⟩ := written
      exact ⟨⟨_, _, rfl, by decide⟩, _, _, rfl, by decide⟩
  | emptyArray => exact ⟨⟨_, _, rfl, by decide⟩, _, _, rfl, by decide⟩
  | array _ _ more =>
      obtain ⟨front, rfl⟩ := items_last more
      exact ⟨⟨_, _, rfl, by decide⟩, _, _, (List.append_assoc _ _ _).symm, by decide⟩
  | emptyObject => exact ⟨⟨_, _, rfl, by decide⟩, _, _, rfl, by decide⟩
  | object _ _ more =>
      obtain ⟨front, rfl⟩ := members_last more
      exact ⟨⟨_, _, rfl, by decide⟩, _, _, (List.append_assoc _ _ _).symm, by decide⟩

theorem digit_solid {c : Char} (digit : c.isDigit = true) : Text.isBlank c = false := by
  have bounds : '0' ≤ c ∧ c ≤ '9' := by simpa [Char.isDigit, Char.le_def] using digit
  have low : '0'.toNat ≤ c.toNat := Char.le_def.mp bounds.1
  have high : c.toNat ≤ '9'.toNat := Char.le_def.mp bounds.2
  simp only [Char.reduceToNat] at low high
  simp only [Text.isBlank, Bool.or_eq_false_iff, Bool.and_eq_false_iff, decide_eq_false_iff_not,
    beq_eq_false_iff_ne]
  omega

theorem IsDecimal.bare {digits : List Char} (decimal : IsDecimal digits) : Text.Bare digits := by
  obtain ⟨all, c, rest, rfl, _⟩ := decimal
  refine ⟨⟨c, rest, rfl, digit_solid all.head⟩, (c :: rest).dropLast, (c :: rest).getLast (by simp), ?_,
    digit_solid (all _ (List.getLast_mem _))⟩
  exact (List.dropLast_append_getLast _).symm

theorem SpellsInteger.bare {n : Number} (spelled : SpellsInteger n text) : Text.Bare text := by
  cases spelled with
  | natural decimal => exact decimal.bare
  | negative decimal =>
      obtain ⟨front, c, same, solid⟩ := decimal.bare.ends
      exact ⟨⟨_, _, rfl, by decide⟩, '-' :: front, c, congrArg ('-' :: ·) same, solid⟩

theorem IsGap.blank (space : IsGap text) : ∀ c ∈ text, Text.isBlank c = true := by
  intro c member
  have found := space c member
  simp only [isSpace, Bool.or_eq_true, beq_iff_eq] at found
  rcases found with ((rfl | rfl) | rfl) | rfl <;> decide

end Ends

end AttestationService.Json

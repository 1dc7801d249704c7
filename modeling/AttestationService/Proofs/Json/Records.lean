import AttestationService.Json.Record
import AttestationService.Proofs.Json.Printing

/-!
Reading a record from a document that is an object with the record's fields as its members. The members fill
the fields' slots one after the other, however the document is spelled.
-/

namespace AttestationService.Json

section Members
variable {fuel depth : Nat} {fields : List Field} {field : Field} {first : Bool} {slots : Slots}
  {input rest name contents : Input} {key : String}

theorem recordMembers_close (close : nextMember first input = .ok none) :
    recordMembers (fuel + 1) depth fields first slots input =
      (complete slots fields).map (·, afterBracket input) := by
  rw [recordMembers, close]

theorem recordMembers_field (next : nextMember first input = .ok (some rest))
    (named : stringRest fuel [] true rest = .ok (key, name))
    (known : fields.find? (·.name == key) = some field) (fresh : slots.lookup key = none)
    (colon : colon name = .ok contents) :
    recordMembers (fuel + 1) depth fields first slots input =
      (slot fuel depth field.kind contents).bind fun r =>
        recordMembers fuel depth fields false ((key, r.1) :: slots) r.2 := by
  rw [recordMembers, next]
  simp only
  rw [named]
  simp only
  rw [known]
  simp only
  rw [fresh, if_neg (by decide), colon]
  simp only
  cases slot fuel depth field.kind contents <;> rfl

theorem recordMembers_text (key : String) (level : Nat) (v : Value) (more : Input)
    (enough : (stringText key).length ≤ fuel)
    (known : fields.find? (·.name == key) = some field) (fresh : slots.lookup key = none)
    (next : ∀ inside, stringText key = '"' :: inside → nextMember first input =
      .ok (some (.ofText (inside ++ ':' :: ' ' :: indented level v) ++ more))) :
    recordMembers (fuel + 1) depth fields first slots input =
      (slot fuel depth field.kind (.ofText (' ' :: indented level v) ++ more)).bind fun r =>
        recordMembers fuel depth fields false ((key, r.1) :: slots) r.2 := by
  obtain ⟨inside, same, read⟩ := string_read (stringText_spells key)
  have here := next inside same
  rw [ofText_append, List.append_assoc] at here
  exact recordMembers_field here (read fuel _ enough) known fresh (colon_gap noGap _)

end Members

section Slots
variable {Numeral : Number → List Char → Prop} {fuel depth : Nat} {kind : FieldKind} {v : Value} {s : Slot}
  {gap text : List Char} {rest : Input}

theorem slot_string {contents : String} (space : IsGap gap) (spelled : SpellsString contents text)
    (textual : kind ≠ .optionalValue) (enough : text.length ≤ fuel) :
    slot fuel depth kind (.ofText gap ++ (.ofText text ++ rest)) = .ok (.text contents, rest) := by
  obtain ⟨inside, rfl, read⟩ := string_read spelled
  have quoted : skipSpace (.ofText gap ++ (Input.ofText ('"' :: inside) ++ rest)) =
      .char '"' :: (Input.ofText inside ++ rest) := skipSpace_before space (by decide) _
  have taken : textSlot fuel (.char '"' :: (Input.ofText inside ++ rest)) = .ok (.text contents, rest) := by
    rw [textSlot, skipSpace_stop (by decide)]
    simp only
    rw [read fuel rest enough]
    rfl
  unfold slot
  rw [quoted]
  cases kind with
  | text => exact taken
  | optionalText => exact taken
  | optionalValue => contradiction

theorem slot_null (space : IsGap gap) (optional : kind ≠ .text) :
    slot fuel depth kind (.ofText gap ++ (.ofText ['n', 'u', 'l', 'l'] ++ rest)) = .ok (.absent, rest) := by
  have skipped : skipSpace (.ofText gap ++ (Input.ofText ['n', 'u', 'l', 'l'] ++ rest)) =
      .char 'n' :: (Input.ofText ['u', 'l', 'l'] ++ rest) := skipSpace_before space (by decide) _
  unfold slot
  rw [skipped]
  cases kind with
  | text => contradiction
  | optionalText => rfl
  | optionalValue => rfl

theorem spells_null (numerals : ∀ n text, Numeral n text → n.ReadAs text)
    (spelled : Spells Numeral v ('n' :: text)) : v = .null := by
  generalize whole : 'n' :: text = letters at spelled
  cases spelled with
  | null => rfl
  | number numeral =>
      obtain ⟨c, rest, rfl, start⟩ := (numerals _ _ numeral).starts
      cases whole
      exact absurd start (by decide)
  | string written =>
      obtain ⟨inside, _, rfl⟩ := written
      cases whole
  | _ => cases whole

theorem slot_value (fuel depth : Nat) (rest : Input) (numerals : ∀ n text, Numeral n text → n.ReadAs text)
    (space : IsGap gap) (spelled : Spells Numeral v text) (some_ : v ≠ .null) :
    slot fuel depth .optionalValue (.ofText gap ++ (.ofText text ++ rest)) =
      grammar ((value fuel depth (.ofText text ++ rest)).map fun (v, rest) => (.value v.merged, rest)) := by
  -- the first letter decides: only null begins with an n
  obtain ⟨c, more, rfl, solid, _⟩ := spells_starts numerals spelled
  have skipped : skipSpace (.ofText gap ++ (Input.ofText (c :: more) ++ rest)) =
      Input.ofText (c :: more) ++ rest := skipSpace_before space solid _
  unfold slot
  rw [skipped]
  split
  · contradiction
  · contradiction
  · rename_i same
    cases same
    exact absurd (spells_null numerals spelled) some_
  · contradiction
  · rfl

/-- What a value fills the slot of a field with, if it suits the field. -/
def Slot.ofValue? : FieldKind → Value → Option Slot
  | .text, .string s => some (.text s)
  | .text, _ => none
  | _, .null => some .absent
  | .optionalText, .string s => some (.text s)
  | .optionalText, _ => none
  | .optionalValue, v => some (.value v.merged)

theorem slot_spelled (numerals : ∀ n text, Numeral n text → n.ReadAs text) (space : IsGap gap)
    (spelled : Spells Numeral v text) (enough : 2 * text.length ≤ fuel) (shallow : v.depth ≤ depth)
    (ends : EndsNumber rest) (suits : Slot.ofValue? kind v = some s) :
    slot fuel depth kind (.ofText gap ++ (.ofText text ++ rest)) = .ok (s, rest) := by
  by_cases null : v = .null
  · subst null
    cases spelled
    cases kind with
    | text => cases suits
    | optionalText =>
        cases suits
        exact slot_null space (by decide)
    | optionalValue =>
        cases suits
        exact slot_null space (by decide)
  · by_cases valued : kind = .optionalValue
    · subst valued
      rw [slot_value fuel depth rest numerals space spelled null,
        (reads numerals fuel).value v text depth rest spelled enough shallow ends]
      cases v with
      | null => contradiction
      | _ => exact congrArg (fun s => Except.ok (s, rest)) (Option.some.inj suits)
    · obtain ⟨contents, rfl, rfl⟩ : ∃ contents, v = .string contents ∧ s = .text contents := by
        cases kind <;> cases v <;> first | contradiction | cases suits
        · exact ⟨_, rfl, rfl⟩
        · exact ⟨_, rfl, rfl⟩
      cases spelled with
      | string written => exact slot_string space written valued (by omega)

end Slots

section Objects
variable {Numeral : Number → List Char → Prop} {fuel depth : Nat} {fields : List Field} {slots all : Slots}
  {members : List (String × Value)} {text : List Char} {rest : Input}

def fill (fields : List Field) (slots : Slots) : List (String × Value) → Option Slots
  | [] => some slots
  | (key, v) :: members =>
    match fields.find? (·.name == key), slots.lookup key with
    | some field, none =>
      (Slot.ofValue? field.kind v).bind fun s => fill fields ((key, s) :: slots) members
    | _, _ => none

theorem fill_cons {m : String × Value} (filled : fill fields slots (m :: members) = some all) :
    ∃ field s, fields.find? (·.name == m.1) = some field ∧ slots.lookup m.1 = none ∧
      Slot.ofValue? field.kind m.2 = some s ∧ fill fields ((m.1, s) :: slots) members = some all := by
  obtain ⟨key, v⟩ := m
  unfold fill at filled
  split at filled
  · rename_i field known fresh
    obtain ⟨s, suits, others⟩ := Option.bind_eq_some_iff.mp filled
    exact ⟨field, s, known, fresh, suits, others⟩
  · cases filled

theorem recordMembers_member (numerals : ∀ n text, Numeral n text → n.ReadAs text) {m : String × Value}
    {more : List Char} {input : Input} {first : Bool} {field : Field} {s : Slot}
    (spelled : SpellsMember Numeral m text) (enough : 2 * text.length ≤ fuel) (shallow : m.2.depth ≤ depth)
    (next : ∀ inside, text = '"' :: inside →
      nextMember first input = .ok (some (.ofText inside ++ (.ofText more ++ rest))))
    (ends : EndsNumber (.ofText more ++ rest)) (known : fields.find? (·.name == m.1) = some field)
    (fresh : slots.lookup m.1 = none) (suits : Slot.ofValue? field.kind m.2 = some s) :
    recordMembers (fuel + 1) depth fields first slots input =
      recordMembers fuel depth fields false ((m.1, s) :: slots) (.ofText more ++ rest) := by
  cases spelled with
  | mk named spaceBefore spaceAfter contents =>
      rename_i key v name before after text
      obtain ⟨inside, rfl, readKey⟩ := string_read named
      simp only [List.length_append, List.length_cons, List.cons_append] at enough
      have here := next (inside ++ before ++ ':' :: after ++ text) (by simp)
      have filled : slot fuel depth field.kind (.ofText after ++ (.ofText text ++ (.ofText more ++ rest))) =
          .ok (s, .ofText more ++ rest) :=
        slot_spelled numerals spaceAfter contents (by omega) shallow ends suits
      simp only [ofText_append, ofText_cons, List.append_assoc, List.cons_append] at here
      rw [recordMembers_field here (readKey fuel _ (by simp only [List.length_cons]; omega)) known fresh
        (colon_gap spaceBefore _), filled]
      rfl

theorem recordMembers_spelled (numerals : ∀ n text, Numeral n text → n.ReadAs text)
    (spelled : SpellsMembers Numeral members text) (enough : 2 * text.length < fuel)
    (shallow : membersDepth members ≤ depth) (filled : fill fields slots members = some all) :
    recordMembers fuel depth fields false slots (.ofText text ++ rest) =
      (complete all fields).map (·, rest) := by
  -- along the members: each fills one more slot, and there is fuel left for the others
  induction members generalizing fuel slots text with
  | nil =>
      obtain ⟨fuel, rfl⟩ : ∃ less, fuel = less + 1 := ⟨fuel - 1, by omega⟩
      cases filled
      cases spelled with
      | close space =>
          simp only [ofText_append, ofText_cons, ofText_nil, List.append_assoc, List.cons_append,
            List.nil_append]
          rw [recordMembers_close (nextMember_close space false rest), afterBracket_gap space (by decide)]
  | cons m members ih =>
      obtain ⟨field, s, known, fresh, suits, others⟩ := fill_cons filled
      obtain ⟨fuel, rfl⟩ : ∃ less, fuel = less + 1 := ⟨fuel - 1, by omega⟩
      cases spelled with
      | member spaceBefore spaceAfter next later =>
          simp only [membersDepth] at shallow
          simp only [List.length_append, List.length_cons] at enough
          rw [recordMembers_member numerals next (by omega) (by omega) ?_ (members_endNumber later rest)
            known fresh suits]
          · exact ih later (by omega) (by omega) others
          · rintro inside rfl
            simp only [ofText_append, ofText_cons, List.cons_append, List.append_assoc]
            exact nextMember_comma spaceBefore spaceAfter _

theorem recordObject_spelled (numerals : ∀ n text, Numeral n text → n.ReadAs text)
    (spelled : Spells Numeral (.object members) ('\x7b' :: text)) (enough : 2 * text.length < fuel)
    (shallow : membersDepth members ≤ depth) (filled : fill fields [] members = some all) :
    recordMembers fuel depth fields true [] (.ofText text ++ rest) = (complete all fields).map (·, rest) := by
  obtain ⟨fuel, rfl⟩ : ∃ less, fuel = less + 1 := ⟨fuel - 1, by omega⟩
  generalize opened : '\x7b' :: text = whole at spelled
  cases spelled with
  | emptyObject space =>
      obtain rfl : text = _ ++ ['\x7d'] := List.tail_eq_of_cons_eq opened
      cases filled
      simp only [ofText_append, ofText_cons, ofText_nil, List.append_assoc, List.cons_append,
        List.nil_append]
      rw [recordMembers_close (nextMember_close space true rest), afterBracket_gap space (by decide)]
  | @object _ first later _ _ space next more =>
      obtain rfl : text = _ ++ first ++ later := List.tail_eq_of_cons_eq opened
      obtain ⟨field, s, known, fresh, suits, others⟩ := fill_cons filled
      -- a member takes some text, which leaves fuel for the later ones
      have letter : 0 < first.length := by
        cases next with
        | mk _ _ _ _ =>
            simp only [List.length_append, List.length_cons]
            omega
      simp only [membersDepth] at shallow
      simp only [List.length_append] at enough
      simp only [ofText_append, List.append_assoc]
      rw [recordMembers_member numerals next (by omega) (by omega) ?_ (members_endNumber more rest) known
        fresh suits]
      · exact recordMembers_spelled numerals more (by omega) (by omega) others
      · rintro inside rfl
        simp only [ofText_cons, List.cons_append]
        exact nextMember_first space _

theorem record_spelled {shape : Shape} {before : List Char}
    (numerals : ∀ n text, Numeral n text → n.ReadAs text) (space : IsGap before)
    (spelled : Spells Numeral (.object members) text) (enough : 2 * text.length ≤ fuel)
    (shallow : membersDepth members < maxDepth) (filled : fill shape.fields [] members = some all) :
    record shape fuel (.ofText before ++ (.ofText text ++ rest)) =
      (complete all shape.fields).map (·, rest) := by
  obtain ⟨inside, rfl⟩ : ∃ inside, text = '\x7b' :: inside := by
    cases spelled with
    | emptyObject _ => exact ⟨_, rfl⟩
    | object _ _ _ => exact ⟨_, rfl⟩
  have opened : skipSpace (.ofText before ++ (.ofText ('\x7b' :: inside) ++ rest)) =
      .char '\x7b' :: (Input.ofText inside ++ rest) :=
    skipSpace_before space (by decide) (Input.ofText inside ++ rest)
  rw [List.length_cons] at enough
  unfold record
  rw [opened]
  exact recordObject_spelled numerals spelled (by omega) (by omega) filled

/-- A document that spells an object is read as a record by its members. -/
theorem readRecord_spelled {shape : Shape} {before after : List Char} {slots : List Slot}
    (numerals : ∀ n text, Numeral n text → n.ReadAs text) (space : IsGap before)
    (spelled : Spells Numeral (.object members) text) (later : IsGap after)
    (shallow : membersDepth members < maxDepth) (filled : fill shape.fields [] members = some all)
    (completed : complete all shape.fields = .ok slots) :
    readRecord shape (.ofText (before ++ text ++ after)) = .ok slots := by
  have enough : 2 * text.length ≤ 2 * (before ++ text ++ after).length + 2 := by
    simp only [List.length_append]
    omega
  have taken : record shape (2 * (before ++ text ++ after).length + 2) (.ofText (before ++ text ++ after)) =
      .ok (slots, .ofText after) := by
    rw [ofText_append, ofText_append, List.append_assoc (Input.ofText before),
      record_spelled numerals space spelled enough shallow filled, completed]
    rfl
  unfold readRecord
  rw [ofText_length, taken]
  simp only [Except.bind, finish_gap slots later, grammar]

end Objects

end AttestationService.Json

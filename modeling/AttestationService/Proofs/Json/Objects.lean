import AttestationService.Proofs.Json.Fields

/-!
Reading an object as a record. The reader goes along the members once; whether it succeeds, and with
which slots, is said by the members as a whole.
-/

namespace AttestationService.Json

theorem SpellsString.unique {s other : String} {text : List Char} (spelled : SpellsString s text)
    (also : SpellsString other text) : s = other := by
  obtain ⟨_, rfl, read⟩ := string_read spelled
  obtain ⟨_, same, again⟩ := string_read also
  cases same
  have one := (read _ [] (Nat.le_refl _)).symm.trans (again _ [] (Nat.le_refl _))
  cases one
  rfl

/-- The members with the names they say. -/
def Decodes (ms : List (String × List Char)) (members : List MemberText) : Prop :=
  List.Forall₂ (fun m member => SpellsString m.1 member.1 ∧ m.2 = member.2) ms members

section Names
variable {ms : List (String × List Char)} {members extra later : List MemberText}

theorem Decodes.perm (decoded : Decodes ms members) (order : members.Perm later) :
    ∃ others, ms.Perm others ∧ Decodes others later := by
  have both : Relation.Comp (List.Forall₂ _) List.Perm ms later := ⟨members, decoded, order⟩
  rwa [List.forall₂_comp_perm_eq_perm_comp_forall₂] at both

theorem Decodes.unique {others : List (String × List Char)} (decoded : Decodes ms members)
    (also : Decodes others members) : ms = others := by
  induction decoded generalizing others with
  | nil =>
      cases also
      rfl
  | @cons m _ _ _ one _ ih =>
      obtain ⟨n, _, ⟨spelled, same⟩, later, rfl⟩ := List.forall₂_cons_right_iff.mp also
      rw [ih later, Prod.ext (one.1.unique spelled) (one.2.trans same.symm)]

theorem Decodes.append {some_ : List (String × List Char)} (decoded : Decodes ms members)
    (also : Decodes some_ extra) : Decodes (ms ++ some_) (members ++ extra) := List.rel_append decoded also

theorem decodes_extra {P : String → Prop} (unknown : ∀ m ∈ extra, ∃ key, SpellsString key m.1 ∧ P key) :
    ∃ ms, Decodes ms extra ∧ ∀ m ∈ ms, P m.1 := by
  induction extra with
  | nil => exact ⟨[], .nil, nofun⟩
  | cons m extra ih =>
      obtain ⟨key, spelled, holds⟩ := unknown m List.mem_cons_self
      obtain ⟨ms, decoded, all⟩ := ih fun m member => unknown m (List.mem_cons_of_mem _ member)
      refine ⟨(key, m.2) :: ms, .cons ⟨spelled, rfl⟩ decoded, fun m member => ?_⟩
      rcases List.mem_cons.mp member with rfl | member
      · exact holds
      · exact all m member

end Names

section Members
variable {fuel depth : Nat} {fields : List Field} {slots : Slots} {first : Bool} {m : MemberText}
  {members : List MemberText} {text : List Char} {result : List Slot} {input rest after : Input}

theorem recordMembers_other {key : String} {left contents : Input}
    (next : nextMember first input = .ok (some rest))
    (named : stringRest fuel [] true rest = .ok (key, left)) (unknown : fields.find? (·.name == key) = none)
    (colon : colon left = .ok contents) (skipped : skip fuel false [] contents = .ok after) :
    recordMembers (fuel + 1) depth fields first slots input =
      recordMembers fuel depth fields false slots after := by
  rw [recordMembers, next]
  simp only
  rw [named]
  simp only
  rw [unknown, colon]
  simp only [Except.bind]
  rw [skipped]

theorem recordMembers_repeated {key : String} {left : Input} {field : Field} {filled : Slot}
    (next : nextMember first input = .ok (some rest)) (named : stringRest fuel [] true rest = .ok (key, left))
    (known : fields.find? (·.name == key) = some field) (full : slots.lookup key = some filled) :
    recordMembers (fuel + 1) depth fields first slots input = .error (.mismatch (.repeated key)) := by
  rw [recordMembers, next]
  simp only
  rw [named]
  simp only
  rw [known, full]
  exact if_pos rfl

theorem slot_bind_iff {α : Type} {gap : List Char} {kind : FieldKind}
    {more : Slot × Input → Except RecordFailure α} {a : α}
    (formed : IsValueText text) (space : IsGap gap) (ends : EndsNumber rest)
    (enough : 2 * text.length ≤ fuel) :
    (slot fuel depth kind (.ofText gap ++ (.ofText text ++ rest))).bind more = .ok a ↔
      ∃ s, SlotOf depth kind text s ∧ more (s, rest) = .ok a := by
  constructor
  · intro made
    obtain ⟨⟨s, left⟩, filled, done⟩ := bind_ok made
    obtain ⟨suits, rfl⟩ := (slot_iff formed space ends enough).mp filled
    exact ⟨s, suits, done⟩
  · rintro ⟨s, suits, done⟩
    rw [(slot_iff formed space ends enough).mpr ⟨suits, rfl⟩]
    exact done

theorem recordMembers_next (formed : IsMemberText m text) (enough : 2 * text.length ≤ fuel)
    (ends : EndsNumber rest)
    (next : ∀ inside, text = '"' :: inside → nextMember first input = .ok (some (.ofText inside ++ rest))) :
    recordMembers (fuel + 1) depth fields first slots input = .ok (result, after) ↔
      ∃ key, SpellsString key m.1 ∧
      match fields.find? (·.name == key) with
      | none => recordMembers fuel depth fields false slots rest = .ok (result, after)
      | some field => slots.lookup key = none ∧ ∃ s, SlotOf depth field.kind m.2 s ∧
          recordMembers fuel depth fields false ((key, s) :: slots) rest = .ok (result, after) := by
  cases formed with
  | @mk name before behind text named spaceBefore spaceAfter contents =>
      obtain ⟨inside, rfl, _⟩ := skipString_read named
      simp only [List.length_append, List.length_cons, List.cons_append] at enough
      have here := next (inside ++ before ++ ':' :: behind ++ text) (by simp)
      simp only [ofText_append, ofText_cons, List.append_assoc, List.cons_append] at here
      have colon := colon_gap spaceBefore (Input.ofText behind ++ (Input.ofText text ++ rest))
      generalize Input.ofText before ++ .char ':' ::
        (Input.ofText behind ++ (Input.ofText text ++ rest)) = left at *
      have reads (key : String) (after : Input) := @stringRest_iff key inside fuel left after named (by omega)
      cases read : stringRest fuel [] true (Input.ofText inside ++ left) with
      | error f =>
          rw [recordMembers, here]
          simp only
          rw [read]
          constructor
          · intro made
            cases made
          · rintro ⟨key, spelled, _⟩
            rw [(reads key left).mpr ⟨spelled, rfl⟩] at read
            cases read
      | ok taken =>
          obtain ⟨key, after⟩ := taken
          obtain ⟨spelled, rfl⟩ := (reads key after).mp read
          -- the text of a key says one string, so the one that was read is the one that is meant
          have alone (P : String → Prop) : (∃ other, SpellsString other ('"' :: inside) ∧ P other) ↔
              P key := by
            constructor
            · rintro ⟨other, also, holds⟩
              exact also.unique spelled ▸ holds
            · exact fun holds => ⟨key, spelled, holds⟩
          refine Iff.trans ?_ (alone _).symm
          cases known : fields.find? (·.name == key) with
          | none =>
              -- one unit of fuel is left for the space, the others are for the value's own characters
              obtain ⟨fuel, rfl⟩ : ∃ less, fuel = less + 1 := ⟨fuel - 1, by omega⟩
              have skipped := (skip_gap spaceAfter fuel _).trans
                (skip_read contents (fun _ => ends) (by omega))
              rw [recordMembers_other here read known colon skipped]
          | some field =>
              cases fresh : slots.lookup key with
              | some filled =>
                  rw [recordMembers_repeated here read known fresh]
                  constructor
                  · intro made
                    cases made
                  · rintro ⟨full, _⟩
                    cases full
              | none =>
                  rw [recordMembers_field here read known fresh colon,
                    slot_bind_iff contents spaceAfter ends (by omega)]
                  exact (and_iff_right rfl).symm

theorem recordMembers_cons {back : Input} (distinct : (fields.map Field.name).Nodup)
    (formed : IsMemberText m text)
    (enough : 2 * text.length ≤ fuel) (ends : EndsNumber rest)
    (next : ∀ inside, text = '"' :: inside → nextMember first input = .ok (some (.ofText inside ++ rest)))
    (others : ∀ slots, recordMembers fuel depth fields false slots rest = .ok (result, after) ↔
      after = back ∧ ∃ ms, Decodes ms members ∧ Filled depth slots ms fields result) :
    recordMembers (fuel + 1) depth fields first slots input = .ok (result, after) ↔
      after = back ∧ ∃ ms, Decodes ms (m :: members) ∧ Filled depth slots ms fields result := by
  rw [recordMembers_next formed enough ends next]
  constructor
  · rintro ⟨key, spelled, read⟩
    -- a member with a strange name is passed over; the others fill their field
    cases known : fields.find? (·.name == key) with
    | none =>
        rw [known] at read
        obtain ⟨same, ms, decoded, filled⟩ := (others slots).mp read
        exact ⟨same, (key, m.2) :: ms, .cons ⟨spelled, rfl⟩ decoded, (filled_unknown known).mpr filled⟩
    | some field =>
        rw [known] at read
        obtain ⟨fresh, s, suits, read⟩ := read
        obtain ⟨same, ms, decoded, filled⟩ := (others _).mp read
        exact ⟨same, (key, m.2) :: ms, .cons ⟨spelled, rfl⟩ decoded,
          (filled_known distinct known).mpr ⟨fresh, s, suits, filled⟩⟩
  · rintro ⟨same, ms, decoded, filled⟩
    obtain ⟨⟨key, _⟩, ms, ⟨spelled, rfl⟩, later, rfl⟩ := List.forall₂_cons_right_iff.mp decoded
    refine ⟨key, spelled, ?_⟩
    cases known : fields.find? (·.name == key) with
    | none => exact (others slots).mpr ⟨same, ms, later, (filled_unknown known).mp filled⟩
    | some field =>
        obtain ⟨fresh, s, suits, filled⟩ := (filled_known distinct known).mp filled
        exact ⟨fresh, s, suits, (others _).mpr ⟨same, ms, later, filled⟩⟩

theorem recordMembers_end (close : nextMember first input = .ok none) :
    recordMembers (fuel + 1) depth fields first slots input = .ok (result, after) ↔
      after = afterBracket input ∧ ∃ ms, Decodes ms [] ∧ Filled depth slots ms fields result := by
  rw [recordMembers_close close]
  constructor
  · intro read
    obtain ⟨_, done, same⟩ := map_ok read
    cases same
    exact ⟨rfl, [], .nil, complete_iff.mp done⟩
  · rintro ⟨rfl, ms, decoded, filled⟩
    cases decoded
    rw [complete_iff.mpr filled]
    rfl

theorem recordMembers_iff (distinct : (fields.map Field.name).Nodup) (formed : IsMembersText members text)
    (enough : 2 * text.length < fuel) :
    recordMembers fuel depth fields false slots (.ofText text ++ rest) = .ok (result, after) ↔
      after = rest ∧ ∃ ms, Decodes ms members ∧ Filled depth slots ms fields result := by
  -- on the members, as each may fill a slot more and takes its own text off the fuel
  induction members generalizing fuel slots text with
  | nil =>
      obtain ⟨fuel, rfl⟩ : ∃ less, fuel = less + 1 := ⟨fuel - 1, by omega⟩
      cases formed with
      | close space =>
          simp only [ofText_append, ofText_cons, ofText_nil, List.append_assoc, List.cons_append,
            List.nil_append]
          rw [recordMembers_end (nextMember_close space false rest), afterBracket_gap space (by decide)]
  | cons m members ih =>
      obtain ⟨fuel, rfl⟩ : ∃ less, fuel = less + 1 := ⟨fuel - 1, by omega⟩
      cases formed with
      | member spaceBefore spaceAfter next later =>
          simp only [List.length_append, List.length_cons] at enough
          refine recordMembers_cons distinct next (by omega)
            (later.ends rest) ?_ fun slots => ih later (by omega)
          rintro inside rfl
          simp only [ofText_append, ofText_cons, List.cons_append, List.append_assoc]
          exact nextMember_comma spaceBefore spaceAfter _

theorem IsMemberText.positive (formed : IsMemberText m text) : 0 < text.length := by
  cases formed
  simp only [List.length_append, List.length_cons]
  omega

theorem recordObject_iff (distinct : (fields.map Field.name).Nodup)
    (formed : IsObjectText members ('\x7b' :: text))
    (enough : 2 * text.length < fuel) :
    recordMembers fuel depth fields true [] (.ofText text ++ rest) = .ok (result, after) ↔
      after = rest ∧ ∃ ms, Decodes ms members ∧ Filled depth [] ms fields result := by
  obtain ⟨fuel, rfl⟩ : ∃ less, fuel = less + 1 := ⟨fuel - 1, by omega⟩
  generalize opened : '\x7b' :: text = whole at formed
  cases formed with
  | empty space =>
      obtain rfl : text = _ ++ ['\x7d'] := List.tail_eq_of_cons_eq opened
      simp only [ofText_append, ofText_cons, ofText_nil, List.append_assoc, List.cons_append, List.nil_append]
      rw [recordMembers_end (nextMember_close space true rest), afterBracket_gap space (by decide)]
  | @members _ first later _ _ space next more =>
      obtain rfl : text = _ ++ first ++ later := List.tail_eq_of_cons_eq opened
      have letter := next.positive
      simp only [List.length_append] at enough
      simp only [ofText_append, List.append_assoc]
      refine recordMembers_cons distinct next (by omega) (more.ends rest) ?_ fun slots =>
        recordMembers_iff distinct more (by omega)
      rintro inside rfl
      simp only [ofText_cons, List.cons_append]
      exact nextMember_first space _

/-- The text is an object with these members, with space around it. -/
def IsObjectDocument (members : List MemberText) (text : List Char) : Prop :=
  ∃ before object after, IsGap before ∧ IsObjectText members object ∧ IsGap after ∧
    text = before ++ object ++ after

theorem record_object {shape : Shape} (opened : skipSpace input = .char '\x7b' :: rest) :
    record shape fuel input = recordMembers fuel (maxDepth - 1) shape.fields true [] rest := by
  unfold record
  rw [opened]
  rfl

theorem readRecord_ok {shape : Shape} : readRecord shape input = .ok result ↔
    ∃ gap, IsGap gap ∧ record shape (2 * input.length + 2) input = .ok (result, .ofText gap) := by
  unfold readRecord
  constructor
  · intro read
    split at read
    · rename_i slots done
      cases read
      obtain ⟨⟨slots, after⟩, taken, finished⟩ := bind_ok done
      cases ended : finish (slots, after) with
      | error f =>
          rw [ended] at finished
          cases finished
      | ok made =>
          rw [ended] at finished
          cases finished
          obtain ⟨rfl, gap, space, rfl⟩ := finish_taken ended
          exact ⟨gap, space, taken⟩
    · cases read
    · cases read
  · rintro ⟨gap, space, taken⟩
    rw [taken]
    simp only [Except.bind, finish_gap result space, grammar]

/-- An object is read as a record if its names say something and each field holds what the members
with its name say. -/
theorem readRecord_iff {shape : Shape} (distinct : (shape.fields.map Field.name).Nodup)
    (formed : IsObjectDocument members text) :
    readRecord shape (.ofText text) = .ok result ↔
      ∃ ms, Decodes ms members ∧ Filled (maxDepth - 1) [] ms shape.fields result := by
  obtain ⟨before, object, behind, space, formed, later, same⟩ := formed
  obtain ⟨inside, rfl⟩ : ∃ inside, object = '\x7b' :: inside := by
    cases formed <;> exact ⟨_, rfl⟩
  have opened : skipSpace (.ofText text) = .char '\x7b' :: (Input.ofText inside ++ .ofText behind) := by
    rw [same, ofText_append, ofText_append, List.append_assoc]
    exact skipSpace_before space (by decide) _
  have enough : 2 * inside.length < 2 * (Input.ofText text).length + 2 := by
    rw [ofText_length, same]
    simp only [List.length_append, List.length_cons]
    omega
  rw [readRecord_ok]
  simp only [record_object opened, recordObject_iff distinct formed enough]
  constructor
  · rintro ⟨_, _, _, all⟩
    exact all
  · exact fun all => ⟨behind, later, rfl, all⟩

end Members

end AttestationService.Json

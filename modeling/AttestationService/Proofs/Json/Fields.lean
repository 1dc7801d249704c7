import AttestationService.Proofs.Json.Records
import AttestationService.Proofs.Json.Skipping.Values
import Mathlib.Data.List.Forall2
import Mathlib.Data.List.Nodup
import Mathlib.Data.List.Perm.Basic

/-!
What the fields of a record hold, decided by the members of the object's text alone: a field takes
the value of the one member that names it, whatever the order of the members and whatever the others
hold.
-/

namespace AttestationService.Json

section Slots
variable {fuel depth : Nat} {kind : FieldKind} {s : Slot} {gap text : List Char} {input rest after : Input}

def SlotOf (depth : Nat) (kind : FieldKind) (text : List Char) (s : Slot) : Prop :=
  ∃ v, Spells Number.ReadAs v text ∧ v.depth ≤ depth ∧ Slot.ofValue? kind v = some s

theorem skipSpace_again (input : Input) : skipSpace (skipSpace input) = skipSpace input := by
  obtain ⟨gap, space, same⟩ := skipSpace_taken input
  conv => rhs; rw [same, skipSpace_gap space]

theorem value_solid (fuel depth : Nat) (input : Input) :
    value fuel depth input = value fuel depth (skipSpace input) := by
  obtain ⟨gap, space, same⟩ := skipSpace_taken input
  conv => lhs; rw [same]
  exact value_gap space fuel depth _

theorem textSlot_ok (textual : kind ≠ .optionalValue)
    (read : textSlot fuel (skipSpace input) = .ok (s, rest)) :
    ∃ less v, value less depth input = .ok (v, rest) ∧ Slot.ofValue? kind v = some s := by
  unfold textSlot at read
  rw [skipSpace_again] at read
  split at read
  · cases read
  · rename_i inside quoted
    cases named : stringRest fuel [] true inside with
    | error f =>
        rw [named] at read
        cases read
    | ok made =>
        rw [named] at read
        cases read
        refine ⟨fuel + 1, .string made.1, ?_, by cases kind <;> first | rfl | contradiction⟩
        rw [value_solid, quoted]
        exact value_string named
  · cases read

theorem nullSlot_ok {letters : Input} (optional : kind ≠ .text)
    (found : skipSpace input = .char 'n' :: letters)
    (read : grammar ((word ['u', 'l', 'l'] letters).map (Slot.absent, ·)) = .ok (s, rest)) :
    ∃ less v, value less depth input = .ok (v, rest) ∧ Slot.ofValue? kind v = some s := by
  cases taken : word ['u', 'l', 'l'] letters with
  | error f =>
      rw [taken] at read
      cases read
  | ok behind =>
      rw [taken] at read
      cases read
      refine ⟨1, .null, ?_, by cases kind <;> first | rfl | contradiction⟩
      have null : value 1 depth (.char 'n' :: letters) =
          (word ['u', 'l', 'l'] letters).map (Value.null, ·) := by
        unfold value
        rfl
      rw [value_solid, found, null, taken]
      rfl

theorem slot_ok (read : slot fuel depth kind input = .ok (s, rest)) :
    ∃ less v, value less depth input = .ok (v, rest) ∧ Slot.ofValue? kind v = some s := by
  unfold slot at read
  split at read
  · exact textSlot_ok (by decide) read
  · rename_i found
    exact nullSlot_ok (by decide) found read
  · rename_i found
    exact nullSlot_ok (by decide) found read
  · exact textSlot_ok (by decide) read
  · rename_i notNull
    cases made : value fuel depth (skipSpace input) with
    | error f =>
        rw [made] at read
        cases read
    | ok taken =>
        obtain ⟨v, behind⟩ := taken
        rw [made] at read
        cases read
        refine ⟨fuel, v, (value_solid _ _ _).trans made, ?_⟩
        cases v with
        | null =>
            obtain ⟨gap, text, space, spelled, same⟩ := (takes fuel).value ((value_solid _ _ _).trans made)
            cases spelled
            rw [ofText_append, List.append_assoc] at same
            have found : skipSpace (.ofText gap ++ (Input.ofText ['n', 'u', 'l', 'l'] ++ rest)) =
                .char 'n' :: (Input.ofText ['u', 'l', 'l'] ++ rest) := skipSpace_before space (by decide) _
            exact absurd ((congrArg skipSpace same).trans found) (notNull _)
        | _ => rfl

theorem slot_iff (formed : IsValueText text) (space : IsGap gap) (ends : EndsNumber rest)
    (enough : 2 * text.length ≤ fuel) :
    slot fuel depth kind (.ofText gap ++ (.ofText text ++ rest)) = .ok (s, after) ↔
      SlotOf depth kind text s ∧ after = rest := by
  constructor
  · intro read
    obtain ⟨less, v, taken, suits⟩ := slot_ok read
    rw [value_gap space] at taken
    have skipped := value_skips taken
    rw [skip_read formed (fun _ => ends) (by rw [List.length_append, ofText_length]; omega)] at skipped
    cases skipped
    obtain ⟨front, core, blank, spelled, same⟩ := (takes less).value taken
    -- both scans end in the same place, so the value that was read has all of the text but space in front
    obtain rfl : text = front ++ core := ofText_injective (List.append_cancel_right same)
    obtain ⟨c, letters, first, solid, _⟩ := formed.starts
    cases front with
    | nil => exact ⟨⟨v, spelled, ((returns less).value taken).shallow, suits⟩, rfl⟩
    | cons d front =>
        cases first
        exact absurd (blank _ List.mem_cons_self) (by rw [solid]; decide)
  · rintro ⟨⟨v, spelled, shallow, suits⟩, rfl⟩
    exact slot_spelled (fun _ _ => id) space spelled enough shallow ends suits

theorem SlotOf.unique {other : Slot} (filled : SlotOf depth kind text s)
    (also : SlotOf depth kind text other) :
    s = other := by
  have read {s : Slot} (filled : SlotOf depth kind text s) :
      slot (2 * text.length) depth kind (Input.ofText [] ++ (Input.ofText text ++ [])) = .ok (s, []) := by
    have formed : IsValueText text := let ⟨_, spelled, _⟩ := filled; spelled.formed
    have ends : EndsNumber [] := trivial
    exact (slot_iff formed noGap ends (Nat.le_refl _)).mpr ⟨filled, rfl⟩
  have same := (read filled).symm.trans (read also)
  cases same
  rfl

end Slots

def named (key : String) (ms : List (String × List Char)) : List (String × List Char) :=
  ms.filter (·.1 == key)

/-- What a field ends with: what filled it before, or what the one member that names it says. -/
def Field.Settles (depth : Nat) (field : Field) : Option Slot → List (String × List Char) → Slot → Prop
  | some filled, [], s => s = filled
  | none, [], s => field.kind ≠ .text ∧ s = .absent
  | none, [m], s => SlotOf depth field.kind m.2 s
  | _, _, _ => False

/-- The slots of a record whose members are these. -/
def Filled (depth : Nat) (slots : Slots) (ms : List (String × List Char)) (fields : List Field)
    (result : List Slot) : Prop :=
  List.Forall₂ (fun field s => field.Settles depth (slots.lookup field.name)
    (named field.name ms) s) fields result

section Forall₂
variable {α β : Type} {R S : α → β → Prop} {l : List α} {m : List β}

theorem forall₂_congr (same : ∀ a ∈ l, ∀ b, R a b ↔ S a b) : List.Forall₂ R l m ↔ List.Forall₂ S l m := by
  rw [List.forall₂_iff_zip, List.forall₂_iff_zip]
  refine and_congr_right fun _ => ⟨fun all a b member => ?_, fun all a b member => ?_⟩
  · exact (same a (List.of_mem_zip member).1 b).mp (all member)
  · exact (same a (List.of_mem_zip member).1 b).mpr (all member)

theorem forall₂_mem (all : List.Forall₂ R l m) {a : α} (member : a ∈ l) : ∃ b, R a b := by
  induction all with
  | nil => cases member
  | cons one _ ih =>
      cases member with
      | head => exact ⟨_, one⟩
      | tail _ later => exact ih later

end Forall₂

section Filling
variable {depth : Nat} {slots : Slots} {fields : List Field} {ms : List (String × List Char)}
  {result : List Slot}
  {key : String} {text : List Char} {field : Field}

theorem complete_iff : complete slots fields = .ok result ↔ Filled depth slots [] fields result := by
  induction fields generalizing result with
  | nil =>
      constructor
      · rintro ⟨⟩
        exact .nil
      · rintro ⟨⟩
        rfl
  | cons field fields ih =>
      have others (s : Slot) : (complete slots fields >>= fun rest => pure (s :: rest)) = .ok result ↔
          ∃ rest, Filled depth slots [] fields rest ∧ s :: rest = result := by
        rw [bind_eq_ok]
        exact exists_congr fun rest => and_congr ih ⟨Except.ok.inj, congrArg Except.ok⟩
      rw [Filled, List.forall₂_cons_left_iff]
      unfold complete
      cases slots.lookup field.name with
      | some filled =>
          refine (others filled).trans ?_
          constructor
          · rintro ⟨rest, all, rfl⟩
            exact ⟨filled, rest, rfl, all, rfl⟩
          · rintro ⟨_, rest, rfl, all, rfl⟩
            exact ⟨rest, all, rfl⟩
      | none =>
          -- no member has given the field, so only an optional one can do without
          cases kind : field.kind with
          | text =>
              constructor
              · rintro ⟨⟩
              · rintro ⟨_, _, ⟨optional, _⟩, _⟩
                exact absurd kind optional
          | _ =>
              refine (others .absent).trans ?_
              constructor
              · rintro ⟨rest, all, rfl⟩
                exact ⟨.absent, rest, ⟨by rw [kind]; decide, rfl⟩, all, rfl⟩
              · rintro ⟨_, rest, ⟨_, rfl⟩, all, rfl⟩
                exact ⟨rest, all, rfl⟩

theorem named_other {name : String} (other : key ≠ name) : named name ((key, text) :: ms) = named name ms :=
  List.filter_cons_of_neg (by simpa using other)

theorem named_same : named key ((key, text) :: ms) = (key, text) :: named key ms :=
  List.filter_cons_of_pos (beq_self_eq_true key)

theorem filled_unknown (unknown : fields.find? (·.name == key) = none) :
    Filled depth slots ((key, text) :: ms) fields result ↔ Filled depth slots ms fields result := by
  refine forall₂_congr fun field member s => ?_
  have other : field.name ≠ key := by simpa using List.find?_eq_none.mp unknown field member
  rw [named_other other.symm]

theorem filled_known (distinct : (fields.map Field.name).Nodup)
    (known : fields.find? (·.name == key) = some field) :
    Filled depth slots ((key, text) :: ms) fields result ↔ slots.lookup key = none ∧
      ∃ s, SlotOf depth field.kind text s ∧ Filled depth ((key, s) :: slots) ms fields result := by
  obtain rfl : field.name = key := by simpa using List.find?_some known
  have member := List.mem_of_find?_eq_some known
  have moved {s : Slot} (fresh : slots.lookup field.name = none) (filled : SlotOf depth field.kind text s) :
      Filled depth slots ((field.name, text) :: ms) fields result ↔
        Filled depth ((field.name, s) :: slots) ms fields result := by
    refine forall₂_congr fun other among b => ?_
    -- only the field of that name sees the member, and what it saw as a member it now sees as a slot
    by_cases same : other.name = field.name
    · obtain rfl := List.inj_on_of_nodup_map distinct among member same
      rw [named_same, fresh, List.lookup_cons_self]
      cases named other.name ms with
      | nil => exact ⟨fun also => also.unique filled, fun same => same ▸ filled⟩
      | cons _ _ => exact Iff.rfl
    · rw [named_other (Ne.symm same), List.lookup_cons, beq_eq_false_iff_ne.mpr same]
  constructor
  · intro all
    obtain ⟨s, settled⟩ : ∃ s,
        field.Settles depth (slots.lookup field.name) (named field.name ((field.name, text) :: ms)) s :=
      forall₂_mem all member
    rw [named_same] at settled
    cases fresh : slots.lookup field.name with
    | some filled =>
        rw [fresh] at settled
        exact settled.elim
    | none =>
        rw [fresh] at settled
        cases alone : named field.name ms with
        | nil =>
            rw [alone] at settled
            exact ⟨rfl, s, settled, (moved fresh settled).mp all⟩
        | cons _ _ =>
            rw [alone] at settled
            exact settled.elim
  · rintro ⟨fresh, s, filled, all⟩
    exact (moved fresh filled).mpr all

end Filling

section Orders
variable {depth : Nat} {slots : Slots} {fields : List Field} {ms others extra : List (String × List Char)}
  {result : List Slot} {key : String} {field : Field} {s : Slot} {held : Option Slot}

theorem Field.Settles.perm (settled : field.Settles depth held ms s) (order : ms.Perm others) :
    field.Settles depth held others s := by
  match ms with
  | [] =>
      obtain rfl := order.nil_eq
      exact settled
  | [m] =>
      obtain rfl := order.singleton_eq
      exact settled
  | _ :: _ :: _ => cases held <;> exact settled.elim

theorem Filled.perm (filled : Filled depth slots ms fields result) (order : ms.Perm others) :
    Filled depth slots others fields result :=
  filled.imp fun _ _ settled => settled.perm (order.filter _)

theorem named_append (key : String) (ms others : List (String × List Char)) :
    named key (ms ++ others) = named key ms ++ named key others := List.filter_append ..

theorem filled_append (unknown : ∀ m ∈ extra, m.1 ∉ fields.map Field.name) :
    Filled depth slots (ms ++ extra) fields result ↔ Filled depth slots ms fields result := by
  refine forall₂_congr fun field among s => ?_
  have none : named field.name extra = [] := by
    refine List.filter_eq_nil_iff.mpr fun m member same => unknown m member ?_
    rw [beq_iff_eq.mp same]
    exact List.mem_map_of_mem among
  rw [named_append, none, List.append_nil]

theorem Field.not_settles_twice {m again : String × List Char} :
    ¬ field.Settles depth held (m :: again :: ms) s := by
  intro settled
  cases held <;> exact settled

theorem Filled.alone {text : List Char} (filled : Filled depth slots ((field.name, text) :: ms) fields result)
    (among : field ∈ fields) : named field.name ms = [] := by
  obtain ⟨s, settled⟩ := forall₂_mem filled among
  rw [named_same] at settled
  cases others : named field.name ms with
  | nil => rfl
  | cons again more =>
      rw [others] at settled
      exact absurd settled Field.not_settles_twice

theorem Filled.named_text (filled : Filled depth [] ms fields result) (among : field ∈ fields)
    (text : field.kind = .text) : named field.name ms ≠ [] := by
  intro none
  obtain ⟨s, settled⟩ := forall₂_mem filled among
  rw [none] at settled
  exact settled.1 text

def cleared (key : String) (fields : List Field) (result : List Slot) : List Slot :=
  fields.zipWith (fun field s => if field.name = key then .absent else s) result

theorem filled_cleared {text : List Char} (optional : ∀ field ∈ fields, field.name = key → field.kind ≠ .text)
    (alone : named key ms = []) (filled : Filled depth [] ((key, text) :: ms) fields result) :
    Filled depth [] ms fields (cleared key fields result) := by
  unfold Filled at filled ⊢
  induction filled with
  | nil => exact .nil
  | @cons field s fields result settled _ ih =>
      refine .cons ?_ (ih fun field member => optional field (List.mem_cons_of_mem _ member))
      by_cases same : field.name = key
      · subst same
        simp only [alone, if_true]
        exact ⟨optional field List.mem_cons_self rfl, rfl⟩
      · rw [named_other (Ne.symm same)] at settled
        simpa only [if_neg same] using settled

end Orders

end AttestationService.Json

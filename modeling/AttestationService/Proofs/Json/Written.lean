import AttestationService.Json.Writer
import AttestationService.Proofs.Json.Results
import AttestationService.Proofs.Json.Spelling

/-!
What is written is a spelling of the value, on one line as well as indented, whatever spellings the numbers
are allowed, as long as they are allowed the one in which they are written.
-/

namespace AttestationService.Json

/-- To show something of every value, the items of an array and the members of an object come first. -/
theorem Value.induct {motive : Value → Prop} (null : motive .null) (bool : ∀ b, motive (.bool b))
    (number : ∀ n, motive (.number n)) (string : ∀ s, motive (.string s))
    (array : ∀ items, (∀ v ∈ items, motive v) → motive (.array items))
    (object : ∀ members, (∀ m ∈ members, motive m.2) → motive (.object members)) (v : Value) : motive v :=
  @Value.rec motive (fun items => ∀ v ∈ items, motive v) (fun members => ∀ m ∈ members, motive m.2)
    (fun m => motive m.2) null bool number string array object
    (fun _ none => by cases none)
    (fun _ _ first others => List.forall_mem_cons.mpr ⟨first, others⟩)
    (fun _ none => by cases none)
    (fun _ _ first others => List.forall_mem_cons.mpr ⟨first, others⟩)
    (fun _ _ contents => contents) v

theorem item_numbers {items : List Value} {v : Value} (member : v ∈ items) :
    v.numbers ⊆ itemsNumbers items := by
  induction items with
  | nil => cases member
  | cons w items ih =>
      rcases List.mem_cons.mp member with rfl | later
      · exact List.subset_append_left _ _
      · exact List.subset_append_of_subset_right _ (ih later)

theorem member_numbers {members : List (String × Value)} {m : String × Value} (member : m ∈ members) :
    m.2.numbers ⊆ membersNumbers members := by
  induction members with
  | nil => cases member
  | cons n members ih =>
      rcases List.mem_cons.mp member with rfl | later
      · exact List.subset_append_left _ _
      · exact List.subset_append_of_subset_right _ (ih later)

section Strings

theorem hexDigit_spells {n : Nat} (small : n < 16) : HexDigit (hexDigit n) n := by
  unfold hexDigit
  split
  · rename_i decimal
    exact .decimal n decimal
  · rename_i letter
    exact .lower n (by omega) small

theorem escapeChar_spells (c : Char) : SpellsChars [c] (escapeChar c) := by
  have short {l c : Char} (known : (l, c) ∈ escapeLetters) : SpellsChars [c] ['\\', l] :=
    .escaped (.letter known) .nil
  unfold escapeChar
  iterate 7
    split
    · rename_i same
      rw [same]
      exact short (by decide)
  split
  · -- the controls have two digits after two zeros
    rename_i control
    have zero : HexDigit '0' 0 := .decimal 0 (by decide)
    have spelled : SpellsHex c.toNat ['0', '0', hexDigit (c.toNat / 16), hexDigit (c.toNat % 16)] :=
      ⟨_, _, _, _, 0, 0, c.toNat / 16, c.toNat % 16, zero, zero, hexDigit_spells (by omega),
        hexDigit_spells (by omega), rfl, by omega⟩
    have unit := SpellsEscape.unit spelled (.inl (by omega))
    rw [Char.ofNat_toNat] at unit
    exact .escaped unit .nil
  · rename_i noQuote noBackslash _ _ _ _ _ printable
    exact .plain noQuote noBackslash printable .nil

theorem SpellsChars.append {cs ds first second : List Char} (spelled : SpellsChars cs first)
    (more : SpellsChars ds second) : SpellsChars (cs ++ ds) (first ++ second) := by
  induction spelled with
  | nil => exact more
  | plain noQuote noBackslash printable _ ih => exact .plain noQuote noBackslash printable ih
  | escaped escape _ ih =>
      rw [List.append_assoc]
      exact .escaped escape ih

theorem flatMap_spells (cs : List Char) : SpellsChars cs (cs.flatMap escapeChar) := by
  induction cs with
  | nil => exact .nil
  | cons c cs ih => exact (escapeChar_spells c).append ih

theorem stringText_spells (s : String) : SpellsString s (stringText s) :=
  ⟨_, flatMap_spells s.toList, rfl⟩

end Strings

section Lists
variable {Numeral : Number → List Char → Prop} {gap close : List Char}

theorem noGap : IsGap [] := fun _ none => by cases none

theorem blankGap : IsGap [' '] := fun c member => by
  rw [List.mem_singleton.mp member]
  decide

theorem lineBreak_gap (level : Nat) : IsGap (lineBreak level) := by
  intro c member
  rcases List.mem_cons.mp member with rfl | blank
  · decide
  · rw [List.eq_of_mem_replicate blank]
    decide

def following {α : Type} (gap : List Char) (print : α → List Char) (rest : List α) : List Char :=
  rest.flatMap fun a => ',' :: gap ++ print a

theorem array_spells {print : Value → List Char} {v : Value} {items : List Value} (space : IsGap gap)
    (each : ∀ w ∈ v :: items, Spells Numeral w (print w)) (closing : IsGap close) :
    Spells Numeral (.array (v :: items))
      ('[' :: gap ++ print v ++ (following gap print items ++ (close ++ [']']))) := by
  obtain ⟨first, others⟩ := List.forall_mem_cons.mp each
  refine .array space first ?_
  clear each first
  induction items with
  | nil => exact .close closing
  | cons w items ih =>
      obtain ⟨next, later⟩ := List.forall_mem_cons.mp others
      simpa [following] using SpellsItems.item noGap space next (ih later)

theorem object_spells {print : String × Value → List Char} {m : String × Value}
    {members : List (String × Value)} (space : IsGap gap)
    (each : ∀ n ∈ m :: members, SpellsMember Numeral n (print n)) (closing : IsGap close) :
    Spells Numeral (.object (m :: members))
      ('\x7b' :: gap ++ print m ++ (following gap print members ++ (close ++ ['\x7d']))) := by
  obtain ⟨first, others⟩ := List.forall_mem_cons.mp each
  refine .object space first ?_
  clear each first
  induction members with
  | nil => exact .close closing
  | cons n members ih =>
      obtain ⟨next, later⟩ := List.forall_mem_cons.mp others
      simpa [following] using SpellsMembers.member noGap space next (ih later)

end Lists

inductive Layout where
  | compact
  | pretty
  deriving DecidableEq, Repr

def Layout.text (layout : Layout) (v : Value) : List Char :=
  match layout with
  | .compact => Json.compact v
  | .pretty => indented 0 v

/-- The one spelling of a number that is written. -/
def AsWritten (n : Number) (text : List Char) : Prop := text = numberText n

section Layouts
variable {Numeral : Number → List Char → Prop}

def memberText (level : Nat) (m : String × Value) : List Char :=
  stringText m.1 ++ ':' :: ' ' :: indented level m.2

def compactMember (m : String × Value) : List Char := stringText m.1 ++ ':' :: compact m.2

theorem indentedItems_cons (level : Nat) (v : Value) (items : List Value) :
    indentedItems level (v :: items) =
      lineBreak level ++ indented level v ++ following (lineBreak level) (indented level) items := by
  induction items generalizing v with
  | nil => simp [indentedItems, following]
  | cons w items ih =>
      rw [indentedItems, ih w]
      · simp [following]
      · intro none
        cases none

theorem indentedMembers_cons (level : Nat) (m : String × Value) (members : List (String × Value)) :
    indentedMembers level (m :: members) =
      lineBreak level ++ memberText level m ++ following (lineBreak level) (memberText level) members := by
  induction members generalizing m with
  | nil => simp [indentedMembers, following, memberText]
  | cons n members ih =>
      rw [indentedMembers, ih n]
      · simp [following, memberText]
      · intro none
        cases none

theorem compactItems_cons (v : Value) (items : List Value) :
    compactItems (v :: items) = compact v ++ following [] compact items := by
  induction items generalizing v with
  | nil => simp [compactItems, following]
  | cons w items ih =>
      rw [compactItems, ih w]
      · simp [following]
      · intro none
        cases none

theorem compactMembers_cons (m : String × Value) (members : List (String × Value)) :
    compactMembers (m :: members) = compactMember m ++ following [] compactMember members := by
  induction members generalizing m with
  | nil => simp [compactMembers, following, compactMember]
  | cons n members ih =>
      rw [compactMembers, ih n]
      · simp [following, compactMember]
      · intro none
        cases none

theorem indented_written (v : Value) (level : Nat)
    (numerals : ∀ n ∈ v.numbers, Numeral n (numberText n)) : Spells Numeral v (indented level v) := by
  induction v using Value.induct generalizing level with
  | null => exact .null
  | bool b =>
      cases b with
      | true => exact .yes
      | false => exact .no
  | number n => exact .number (numerals n List.mem_cons_self)
  | string s => exact .string (stringText_spells s)
  | array items ih =>
      cases items with
      | nil => exact .emptyArray noGap
      | cons v items =>
          have each : ∀ w ∈ v :: items, Spells Numeral w (indented (level + 1) w) := fun w member =>
            ih w member _ fun n inside => numerals n (item_numbers member inside)
          have whole := array_spells (lineBreak_gap (level + 1)) each (lineBreak_gap level)
          rw [indented, indentedItems_cons]
          · simpa using whole
          · rintro ⟨⟩
  | object members ih =>
      cases members with
      | nil => exact .emptyObject noGap
      | cons m members =>
          have each : ∀ n ∈ m :: members, SpellsMember Numeral n (memberText (level + 1) n) := by
            intro n member
            have contents := ih n member (level + 1) fun k inside => numerals k (member_numbers member inside)
            simpa [memberText] using SpellsMember.mk (stringText_spells n.1) noGap blankGap contents
          have whole := object_spells (lineBreak_gap (level + 1)) each (lineBreak_gap level)
          rw [indented, indentedMembers_cons]
          · simpa using whole
          · rintro ⟨⟩

theorem compact_written (v : Value) (numerals : ∀ n ∈ v.numbers, Numeral n (numberText n)) :
    Spells Numeral v (compact v) := by
  induction v using Value.induct with
  | null => exact .null
  | bool b =>
      cases b with
      | true => exact .yes
      | false => exact .no
  | number n => exact .number (numerals n List.mem_cons_self)
  | string s => exact .string (stringText_spells s)
  | array items ih =>
      cases items with
      | nil => exact .emptyArray noGap
      | cons v items =>
          have each : ∀ w ∈ v :: items, Spells Numeral w (compact w) := fun w member =>
            ih w member fun n inside => numerals n (item_numbers member inside)
          have whole := array_spells noGap each noGap
          rw [compact, compactItems_cons]
          simpa using whole
  | object members ih =>
      cases members with
      | nil => exact .emptyObject noGap
      | cons m members =>
          have each : ∀ n ∈ m :: members, SpellsMember Numeral n (compactMember n) := by
            intro n member
            have contents := ih n member fun k inside => numerals k (member_numbers member inside)
            simpa [compactMember] using SpellsMember.mk (stringText_spells n.1) noGap noGap contents
          have whole := object_spells noGap each noGap
          rw [compact, compactMembers_cons]
          simpa using whole

theorem Layout.spells (layout : Layout) {v : Value}
    (numerals : ∀ n ∈ v.numbers, Numeral n (numberText n)) : Spells Numeral v (layout.text v) := by
  cases layout with
  | compact => exact compact_written v numerals
  | pretty => exact indented_written v 0 numerals

end Layouts

end AttestationService.Json

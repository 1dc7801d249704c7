import AttestationService.Proofs.Json.Grammar
import AttestationService.Proofs.Json.Written
import AttestationService.Proofs.Text.LineEnds

/-!
Carriage returns at the ends of lines are space between the tokens of a document: with or without them, a
document says the same value.
-/

namespace AttestationService.Json

open Text (SameLines)

section Unbroken
variable {text : List Char}

theorem HexDigit.unbroken {c : Char} {n : Nat} (digit : HexDigit c n) : c ≠ '\n' := by
  rintro rfl
  have read := (hexDigit_read digit).1
  have none : hexQuad?.hexDigit? '\n' = none := by decide
  rw [none] at read
  cases read

theorem SpellsHex.unbroken {n : Nat} (spelled : SpellsHex n text) : '\n' ∉ text := by
  obtain ⟨a, b, c, d, i, j, k, l, first, second, third, fourth, rfl, _⟩ := spelled
  simp [first.unbroken.symm, second.unbroken.symm, third.unbroken.symm, fourth.unbroken.symm]

theorem SpellsEscape.unbroken {c : Char} (spelled : SpellsEscape c text) : '\n' ∉ text := by
  cases spelled with
  | letter known =>
      have letters : ∀ pair ∈ escapeLetters, '\n' ∉ [pair.1] := by decide
      exact letters _ known
  | unit digits => simp [digits.unbroken]
  | pair first second => simp [first.unbroken, second.unbroken]

theorem SpellsChars.unbroken {cs : List Char} (spelled : SpellsChars cs text) : '\n' ∉ text := by
  induction spelled with
  | nil => simp
  | plain noQuote noBackslash printable _ ih =>
      rw [List.mem_cons, not_or]
      refine ⟨?_, ih⟩
      rintro rfl
      exact printable (by decide)
  | escaped escape _ ih => simp [escape.unbroken, ih]

theorem SpellsString.unbroken {s : String} (spelled : SpellsString s text) : '\n' ∉ text := by
  obtain ⟨inside, chars, rfl⟩ := spelled
  simp [chars.unbroken]

theorem AllNumeric.unbroken (all : AllNumeric text) : '\n' ∉ text := by
  intro broken
  rcases all _ broken with digit | mark
  · exact absurd digit (by decide)
  · exact absurd mark (by decide)

end Unbroken

theorem IsGap.sameLines {gap other : List Char} (space : IsGap gap) (same : SameLines gap other) :
    IsGap other :=
  same.all (by decide) (by decide) space

theorem IsGap.mark {gap back other : List Char} {c : Char} (space : IsGap gap)
    (same : SameLines (gap ++ c :: back) other) (noReturn : c ≠ '\r') (noFeed : c ≠ '\n') :
    ∃ left rest, other = left ++ c :: rest ∧ IsGap left ∧ SameLines back rest := by
  obtain ⟨left, right, rfl, before, behind⟩ := same.cut (.inr (by simp [noReturn, noFeed]))
  obtain ⟨rest, rfl, after⟩ := behind.head noReturn noFeed
  exact ⟨left, rest, rfl, space.sameLines before, after⟩

theorem IsGap.close {gap other : List Char} {c : Char} (space : IsGap gap)
    (same : SameLines (gap ++ [c]) other) (noReturn : c ≠ '\r') (noFeed : c ≠ '\n') :
    ∃ left, other = left ++ [c] ∧ IsGap left := by
  obtain ⟨left, rest, rfl, before, nothing⟩ := space.mark same noReturn noFeed
  rw [nothing.eq_of_unbroken (by simp)]
  exact ⟨left, rfl, before⟩

section Values
variable {Numeral : Number → List Char → Prop} {text other : List Char}

/-- The lines of a spelling may be ended in either way. -/
def EndsFreely (Numeral : Number → List Char → Prop) (v : Value) : Prop :=
  ∀ text other, Spells Numeral v text → SameLines text other → Spells Numeral v other

theorem SpellsItems.sameLines {items : List Value} (bare : ∀ n text, Numeral n text → Text.Bare text)
    (each : ∀ v ∈ items, EndsFreely Numeral v) (spelled : SpellsItems Numeral items text)
    (same : SameLines text other) : SpellsItems Numeral items other := by
  induction items generalizing text other with
  | nil =>
      cases spelled with
      | close space =>
          obtain ⟨left, rfl, before⟩ := space.close same (by decide) (by decide)
          exact .close before
  | cons v items ih =>
      obtain ⟨first, others⟩ := List.forall_mem_cons.mp each
      cases spelled with
      | item before after next more =>
          simp only [List.append_assoc, List.cons_append] at same
          obtain ⟨left, rest, rfl, leftSpace, same⟩ := before.mark same (by decide) (by decide)
          rw [← List.append_assoc] at same
          obtain ⟨right, text, tail, rfl, rightSpace, same, behind⟩ := same.core (next.bare bare)
          have item := SpellsItems.item leftSpace (after.sameLines rightSpace) (first _ _ next same)
            (ih others more behind)
          simpa using item

theorem SpellsMember.sameLines {m : String × Value} (bare : ∀ n text, Numeral n text → Text.Bare text)
    (contents : EndsFreely Numeral m.2) (spelled : SpellsMember Numeral m text)
    (same : SameLines text other) : SpellsMember Numeral m other := by
  cases spelled with
  | mk named before after written =>
      have nameBare := (Spells.string named).bare bare
      simp only [List.append_assoc, List.cons_append] at same
      rw [← List.nil_append (_ ++ _), ← List.append_assoc] at same
      obtain ⟨none, name, rest, rfl, nothing, sameName, same⟩ := same.core nameBare
      rw [nothing.eq_of_unbroken (by simp), sameName.eq_of_unbroken named.unbroken, List.nil_append]
      obtain ⟨left, rest, rfl, leftSpace, same⟩ := before.mark same (by decide) (by decide)
      rw [← List.append_nil (_ ++ _)] at same
      obtain ⟨right, text, none, rfl, rightSpace, same, nothing⟩ := same.core (written.bare bare)
      rw [nothing.eq_of_unbroken (by simp), List.append_nil]
      have member := SpellsMember.mk named leftSpace (after.sameLines rightSpace) (contents _ _ written same)
      simpa using member

theorem SpellsMember.bare {m : String × Value} (bare : ∀ n text, Numeral n text → Text.Bare text)
    (spelled : SpellsMember Numeral m text) : Text.Bare text := by
  cases spelled with
  | mk named before after written =>
      obtain ⟨c, rest, opened, solid⟩ := ((Spells.string named).bare bare).starts
      obtain ⟨front, last, closed, firm⟩ := (written.bare bare).ends
      rw [opened, closed]
      exact ⟨⟨c, _, rfl, solid⟩, _, last, (List.append_assoc _ _ _).symm, firm⟩

theorem SpellsMembers.sameLines {members : List (String × Value)}
    (bare : ∀ n text, Numeral n text → Text.Bare text) (each : ∀ m ∈ members, EndsFreely Numeral m.2)
    (spelled : SpellsMembers Numeral members text) (same : SameLines text other) :
    SpellsMembers Numeral members other := by
  induction members generalizing text other with
  | nil =>
      cases spelled with
      | close space =>
          obtain ⟨left, rfl, before⟩ := space.close same (by decide) (by decide)
          exact .close before
  | cons m members ih =>
      obtain ⟨first, others⟩ := List.forall_mem_cons.mp each
      cases spelled with
      | member before after next more =>
          simp only [List.append_assoc, List.cons_append] at same
          obtain ⟨left, rest, rfl, leftSpace, same⟩ := before.mark same (by decide) (by decide)
          rw [← List.append_assoc] at same
          obtain ⟨right, text, tail, rfl, rightSpace, same, behind⟩ := same.core (next.bare bare)
          have member := SpellsMembers.member leftSpace (after.sameLines rightSpace)
            (next.sameLines bare first same) (ih others more behind)
          simpa using member

/-- Every spelling of a value is one with its lines ended in the other way, if no number has a line end. -/
theorem Spells.sameLines {v : Value} (bare : ∀ n text, Numeral n text → Text.Bare text)
    (unbroken : ∀ n text, Numeral n text → '\n' ∉ text) : EndsFreely Numeral v := by
  -- A line end stands only in the gaps between the parts; every other part is copied as it is.
  induction v using Value.induct with
  | null =>
      intro text other spelled same
      cases spelled
      rw [same.eq_of_unbroken (by decide)]
      exact .null
  | bool b =>
      intro text other spelled same
      cases spelled with
      | yes =>
          rw [same.eq_of_unbroken (by decide)]
          exact .yes
      | no =>
          rw [same.eq_of_unbroken (by decide)]
          exact .no
  | number n =>
      intro text other spelled same
      cases spelled with
      | number numeral =>
          rw [same.eq_of_unbroken (unbroken n _ numeral)]
          exact .number numeral
  | string s =>
      intro text other spelled same
      cases spelled with
      | string written =>
          rw [same.eq_of_unbroken written.unbroken]
          exact .string written
  | array items ih =>
      intro text other spelled same
      cases spelled with
      | emptyArray space =>
          rw [List.cons_append] at same
          obtain ⟨rest, rfl, inner⟩ := same.head (by decide) (by decide)
          obtain ⟨left, rfl, before⟩ := space.close inner (by decide) (by decide)
          exact .emptyArray before
      | array space next more =>
          obtain ⟨first, others⟩ := List.forall_mem_cons.mp ih
          rw [List.cons_append, List.cons_append] at same
          obtain ⟨rest, rfl, inner⟩ := same.head (by decide) (by decide)
          -- an item has no line end at either side, so its copy in the other text can be cut out
          obtain ⟨left, text, tail, rfl, before, same, behind⟩ := inner.core (next.bare bare)
          exact .array (space.sameLines before) (first _ _ next same) (more.sameLines bare others behind)
  | object members ih =>
      intro text other spelled same
      cases spelled with
      | emptyObject space =>
          rw [List.cons_append] at same
          obtain ⟨rest, rfl, inner⟩ := same.head (by decide) (by decide)
          obtain ⟨left, rfl, before⟩ := space.close inner (by decide) (by decide)
          exact .emptyObject before
      | object space next more =>
          obtain ⟨first, others⟩ := List.forall_mem_cons.mp ih
          rw [List.cons_append, List.cons_append] at same
          obtain ⟨rest, rfl, inner⟩ := same.head (by decide) (by decide)
          obtain ⟨left, text, tail, rfl, before, same, behind⟩ := inner.core (next.bare bare)
          exact .object (space.sameLines before) (next.sameLines bare first same)
            (more.sameLines bare others behind)

end Values

section Documents
variable {text other : List Char} {v : Value}

theorem AllNumeric.solid (all : AllNumeric text) : ∀ c ∈ text, Text.isBlank c = false := by
  intro c member
  rcases all c member with digit | mark
  · exact digit_solid digit
  · have marks : (['-', '+', '.', 'e', 'E'].any Text.isBlank) = false := by decide
    exact Bool.eq_false_iff.mpr (List.any_eq_false.mp marks c mark)

theorem Number.ReadAs.bare {n : Number} (read : n.ReadAs text) : Text.Bare text := by
  have solid := read.numeric.solid
  obtain ⟨c, rest, rfl, _⟩ := read.starts
  refine ⟨⟨c, rest, rfl, solid c List.mem_cons_self⟩, (c :: rest).dropLast, (c :: rest).getLast (by simp), ?_,
    solid _ (List.getLast_mem _)⟩
  exact (List.dropLast_append_getLast _).symm

/-- Blanks around a document are trimmed away, more of them than may stand between its tokens. -/
theorem document_trim : IsDocument v (Text.trim text) ↔ v.depth ≤ maxDepth ∧ ∃ front core back,
    (∀ c ∈ front, Text.isBlank c = true) ∧ Spells Number.ReadAs v core ∧
      (∀ c ∈ back, Text.isBlank c = true) ∧ text = front ++ core ++ back := by
  constructor
  · rintro ⟨shallow, before, core, after, space, spelled, later, same⟩
    obtain ⟨front, back, leading, trailing, whole⟩ := Text.trim_around text
    rw [same] at whole
    refine ⟨shallow, front ++ before, core, after ++ back, ?_, spelled, ?_, by rw [whole]; simp⟩
    · exact List.forall_mem_append.mpr ⟨leading, space.blank⟩
    · exact List.forall_mem_append.mpr ⟨later.blank, trailing⟩
  · rintro ⟨shallow, front, core, back, leading, spelled, trailing, rfl⟩
    rw [Text.trim_bare leading (spelled.bare fun _ _ read => read.bare) trailing]
    exact ⟨shallow, [], core, [], noGap, spelled, noGap, by simp⟩

theorem IsDocument.sameLines (stated : IsDocument v (Text.trim text)) (same : SameLines text other) :
    IsDocument v (Text.trim other) := by
  obtain ⟨shallow, front, core, back, leading, spelled, trailing, rfl⟩ := document_trim.mp stated
  have bare : ∀ n text, Number.ReadAs n text → Text.Bare text := fun _ _ read => read.bare
  have unbroken : ∀ n text, Number.ReadAs n text → '\n' ∉ text := fun _ _ read => read.numeric.unbroken
  obtain ⟨left, middle, right, rfl, before, inside, behind⟩ := same.core (spelled.bare bare)
  apply document_trim.mpr
  exact ⟨shallow, left, middle, right, before.all (by decide) (by decide) leading,
    Spells.sameLines bare unbroken _ _ spelled inside, behind.all (by decide) (by decide) trailing, rfl⟩

theorem readText_iff : (readText text).toOption = some v ↔ ∃ w, IsDocument w text ∧ w.merged = v := by
  unfold readText read
  constructor
  · intro made
    cases taken : document (.ofText text) with
    | error e =>
        rw [taken] at made
        cases made
    | ok w =>
        rw [taken] at made
        obtain ⟨whole, stated, same⟩ := document_iff.mp taken
        rw [ofText_injective same]
        exact ⟨w, stated, Option.some.inj made⟩
  · rintro ⟨w, stated, rfl⟩
    rw [document_iff.mpr ⟨text, stated, rfl⟩]
    rfl

theorem readText_sameLines (same : SameLines text other) :
    (readText (Text.trim other)).toOption = (readText (Text.trim text)).toOption := by
  apply Option.ext
  intro v
  rw [readText_iff, readText_iff]
  constructor
  · rintro ⟨w, stated, merges⟩
    exact ⟨w, stated.sameLines same.symm, merges⟩
  · rintro ⟨w, stated, merges⟩
    exact ⟨w, stated.sameLines same, merges⟩

end Documents

end AttestationService.Json

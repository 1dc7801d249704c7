import AttestationService.Proofs.Json.Skipping.Scalars

/-!
Skipping over a value that is not wanted. All that the grammar allows is skipped over, at any depth,
and where the reader of values accepts a text it ends where the skipping ends.
-/

namespace AttestationService.Json

section Steps
variable {fuel : Nat} {open_ outer : List Bracket} {gap before name text : List Char} {c : Char}
  {input rest : Input}

theorem skip_scalar (solid : isSpace c = false) (noBracket : c ≠ '[') (noBrace : c ≠ '\x7b')
    (passed : skip.scalar fuel c input = .ok rest) :
    skip (fuel + 1) false open_ (.char c :: input) = skip fuel true open_ rest := by
  conv => lhs; unfold skip
  rw [skipSpace_stop solid]
  simp only [Bool.false_eq_true, if_false]
  rw [passed]

theorem scalar_digit (digit : c.isDigit = true) (fuel : Nat) (input : Input) :
    skip.scalar fuel c input = skipNumber (.char c :: input) := by
  unfold skip.scalar
  split
  iterate 5 cases digit
  rw [digitOf_digit digit]
  rfl

theorem skip_emptyArray (space : IsGap gap) :
    skip (fuel + 1) false open_ (.char '[' :: (Input.ofText gap ++ .char ']' :: rest)) =
      skip fuel true open_ rest := by
  conv => lhs; unfold skip
  rw [skipSpace_stop (by decide)]
  simp only [Bool.false_eq_true, if_false]
  rw [skipSpace_before space (by decide)]
  rfl

theorem skip_array (space : IsGap gap) (solid : isSpace c = false) (stays : c ≠ ']') :
    skip (fuel + 1) false open_ (.char '[' :: (Input.ofText gap ++ .char c :: rest)) =
      skip fuel false (.array :: open_) (.char c :: rest) := by
  conv => lhs; unfold skip
  rw [skipSpace_stop (by decide)]
  simp only [Bool.false_eq_true, if_false]
  rw [skipSpace_before space solid]
  split
  · rename_i same
    simp only [List.cons.injEq, Utf8.Piece.char.injEq] at same
    exact absurd same.1 stays
  · contradiction
  · rfl

theorem skip_emptyObject (space : IsGap gap) :
    skip (fuel + 1) false open_ (.char '\x7b' :: (Input.ofText gap ++ .char '\x7d' :: rest)) =
      skip fuel true open_ rest := by
  conv => lhs; unfold skip
  rw [skipSpace_stop (by decide)]
  simp only [Bool.false_eq_true, if_false]
  rw [skipSpace_before space (by decide)]
  rfl

theorem skip_object (space : IsGap gap) (named : skipKey fuel (.char '"' :: input) = .ok rest) :
    skip (fuel + 1) false open_ (.char '\x7b' :: (Input.ofText gap ++ .char '"' :: input)) =
      skip fuel false (.object :: open_) rest := by
  conv => lhs; unfold skip
  rw [skipSpace_stop (by decide)]
  simp only [Bool.false_eq_true, if_false]
  rw [skipSpace_before space (by decide)]
  split
  · rename_i same
    simp only [List.cons.injEq, Utf8.Piece.char.injEq] at same
    exact absurd same.1 (by decide)
  · rw [named]

theorem skip_item (space : IsGap gap) :
    skip (fuel + 1) true (.array :: outer) (.ofText gap ++ .char ',' :: rest) =
      skip fuel false (.array :: outer) rest := by
  conv => lhs; unfold skip
  simp only [if_true]
  rw [skipSpace_before space (by decide)]
  rfl

theorem skip_closeArray (space : IsGap gap) :
    skip (fuel + 1) true (.array :: outer) (.ofText gap ++ .char ']' :: rest) =
      skip fuel true outer rest := by
  conv => lhs; unfold skip
  simp only [if_true]
  rw [skipSpace_before space (by decide)]
  rfl

theorem skip_member (space : IsGap gap) (named : skipKey fuel input = .ok rest) :
    skip (fuel + 1) true (.object :: outer) (.ofText gap ++ .char ',' :: input) =
      skip fuel false (.object :: outer) rest := by
  conv => lhs; unfold skip
  simp only [if_true]
  rw [skipSpace_before space (by decide)]
  simp only
  rw [named]

theorem skip_closeObject (space : IsGap gap) :
    skip (fuel + 1) true (.object :: outer) (.ofText gap ++ .char '\x7d' :: rest) =
      skip fuel true outer rest := by
  conv => lhs; unfold skip
  simp only [if_true]
  rw [skipSpace_before space (by decide)]
  rfl

theorem skip_gap (space : IsGap gap) (fuel : Nat) (rest : Input) :
    skip (fuel + 1) false open_ (.ofText gap ++ rest) = skip (fuel + 1) false open_ rest := by
  conv => lhs; unfold skip
  conv => rhs; unfold skip
  rw [skipSpace_gap space]
  simp only [Bool.false_eq_true, if_false]

theorem skipKey_read (space : IsGap gap) (formed : IsStringText name) (spaceBefore : IsGap before)
    (enough : name.length ≤ fuel + 1) (rest : Input) :
    skipKey fuel (.ofText gap ++ (.ofText name ++ (.ofText before ++ .char ':' :: rest))) = .ok rest := by
  obtain ⟨inside, rfl, skipped⟩ := skipString_read formed
  unfold skipKey
  rw [ofText_cons, List.cons_append, skipSpace_before space (by decide)]
  simp only
  rw [skipped fuel _ enough]
  exact colon_gap spaceBefore rest

end Steps

/-- With fuel for each of the text's characters and one unit more, skipping goes on behind the text. -/
def Passes (ended : Bool) (open_ outer : List Bracket) (text : List Char) (rest : Input) : Prop :=
  ∀ fuel, text.length < fuel → ∃ less, fuel ≤ less + text.length ∧
    skip fuel ended open_ (.ofText text ++ rest) = skip less true outer rest

section Passing
variable {ended late : Bool} {open_ middle outer : List Bracket} {front text more : List Char} {rest : Input}

theorem Passes.append (first : Passes ended open_ middle text (.ofText more ++ rest))
    (others : Passes true middle outer more rest) : Passes ended open_ outer (text ++ more) rest := by
  intro fuel enough
  rw [List.length_append] at enough ⊢
  obtain ⟨less, spent, skipped⟩ := first fuel (by omega)
  obtain ⟨least, later, passed⟩ := others less (by omega)
  refine ⟨least, by omega, ?_⟩
  rw [ofText_append, List.append_assoc, skipped, passed]

theorem Passes.step (some_ : front ≠ []) (step : ∀ fuel, front.length ≤ fuel + 1 →
      skip (fuel + 1) ended open_ (.ofText front ++ (.ofText text ++ rest)) =
        skip fuel late middle (.ofText text ++ rest))
    (others : Passes late middle outer text rest) : Passes ended open_ outer (front ++ text) rest := by
  intro fuel enough
  have positive := List.length_pos_iff.mpr some_
  rw [List.length_append] at enough ⊢
  obtain ⟨fuel, rfl⟩ : ∃ less, fuel = less + 1 := ⟨fuel - 1, by omega⟩
  obtain ⟨less, spent, passed⟩ := others fuel (by omega)
  refine ⟨less, by omega, ?_⟩
  rw [ofText_append, List.append_assoc, step fuel (by omega), passed]

theorem Passes.nil (outer : List Bracket) (rest : Input) : Passes true outer outer [] rest :=
  fun fuel _ => ⟨fuel, Nat.le_refl _, rfl⟩

theorem Passes.single (some_ : text ≠ []) (step : ∀ fuel, text.length ≤ fuel + 1 →
      skip (fuel + 1) ended open_ (.ofText text ++ rest) = skip fuel true outer rest) :
    Passes ended open_ outer text rest := by
  have passed : Passes ended open_ outer (text ++ []) rest := .step some_ step (.nil outer rest)
  rwa [List.append_nil] at passed

theorem Passes.gap (passed : Passes false open_ outer text rest) (space : IsGap front) :
    Passes false open_ outer (front ++ text) rest := by
  intro fuel enough
  rw [List.length_append] at enough ⊢
  obtain ⟨fuel, rfl⟩ : ∃ less, fuel = less + 1 := ⟨fuel - 1, by omega⟩
  obtain ⟨less, spent, skipped⟩ := passed (fuel + 1) (by omega)
  refine ⟨less, by omega, ?_⟩
  rw [ofText_append, List.append_assoc, skip_gap space, skipped]

theorem Passes.word {c : Char} (solid : isSpace c = false) (noBracket : c ≠ '[') (noBrace : c ≠ '\x7b')
    (read : ∀ fuel, skip.scalar fuel c (.ofText text ++ rest) = .ok rest) :
    Passes false open_ open_ (c :: text) rest :=
  .single (List.cons_ne_nil _ _) fun fuel _ => by
    rw [ofText_cons, List.cons_append]
    exact skip_scalar solid noBracket noBrace (read fuel)

theorem IsNumberText.passes (formed : IsNumberText text) (ends : EndsNumber rest) (open_ : List Bracket) :
    Passes false open_ open_ text rest := by
  rcases formed with unsigned | ⟨text, unsigned, rfl⟩
  · have read := skipNumber_read unsigned ends
    obtain ⟨_, fraction, exponent, ⟨all, c, digits, rfl, _⟩, _, _, rfl⟩ := unsigned
    refine .single (List.cons_ne_nil _ _) fun fuel _ => ?_
    rw [List.cons_append, List.cons_append, ofText_cons, List.cons_append] at read ⊢
    refine skip_scalar (solid_of_digit all.head) ?_ ?_ ((scalar_digit all.head fuel _).trans read)
    · rintro rfl
      cases all.head
    · rintro rfl
      cases all.head
  · refine .single (List.cons_ne_nil _ _) fun fuel _ => ?_
    rw [ofText_cons, List.cons_append]
    exact skip_scalar (by decide) (by decide) (by decide) (skipNumber_read unsigned ends)

theorem IsStringText.passes (formed : IsStringText text) (rest : Input) (open_ : List Bracket) :
    Passes false open_ open_ text rest := by
  obtain ⟨inside, rfl, skipped⟩ := skipString_read formed
  refine .single (List.cons_ne_nil _ _) fun fuel enough => ?_
  rw [ofText_cons, List.cons_append]
  exact skip_scalar (by decide) (by decide) (by decide) (skipped fuel rest enough)

end Passing

section Values
variable {text : List Char}

theorem IsValueText.starts (formed : IsValueText text) :
    ∃ c rest, text = c :: rest ∧ isSpace c = false ∧ c ≠ ']' := by
  cases formed with
  | null => exact ⟨_, _, rfl, by decide, by decide⟩
  | yes => exact ⟨_, _, rfl, by decide, by decide⟩
  | no => exact ⟨_, _, rfl, by decide, by decide⟩
  | number formed =>
      rcases formed with ⟨_, _, _, ⟨all, c, _, rfl, _⟩, _, _, rfl⟩ | ⟨_, _, rfl⟩
      · refine ⟨c, _, rfl, solid_of_digit all.head, ?_⟩
        rintro rfl
        cases all.head
      · exact ⟨_, _, rfl, by decide, by decide⟩
  | string formed =>
      obtain ⟨_, _, rfl⟩ := formed
      exact ⟨_, _, rfl, by decide, by decide⟩
  | emptyArray => exact ⟨_, _, rfl, by decide, by decide⟩
  | array => exact ⟨_, _, rfl, by decide, by decide⟩
  | object formed => cases formed <;> exact ⟨_, _, rfl, by decide, by decide⟩

theorem IsItemsText.ends (formed : IsItemsText text) (rest : Input) : EndsNumber (.ofText text ++ rest) := by
  cases formed with
  | close space => exact endsNumber_mark space (by decide) [] rest
  | item space =>
      rw [List.append_assoc, List.append_assoc, List.cons_append]
      exact endsNumber_mark space (by decide) _ rest

theorem IsMembersText.ends {members : List MemberText} (formed : IsMembersText members text) (rest : Input) :
    EndsNumber (.ofText text ++ rest) := by
  cases formed with
  | close space => exact endsNumber_mark space (by decide) [] rest
  | member space =>
      rw [List.append_assoc, List.append_assoc, List.cons_append]
      exact endsNumber_mark space (by decide) _ rest

mutual

theorem IsValueText.passes {text : List Char} : IsValueText text → ∀ (open_ : List Bracket) (rest : Input),
    (IsNumberText text → EndsNumber rest) → Passes false open_ open_ text rest
  | .null, open_, rest, _ => .word (by decide) (by decide) (by decide) fun _ => rfl
  | .yes, open_, rest, _ => .word (by decide) (by decide) (by decide) fun _ => rfl
  | .no, open_, rest, _ => .word (by decide) (by decide) (by decide) fun _ => rfl
  | .number formed, open_, rest, ends => formed.passes (ends formed) open_
  | .string formed, open_, rest, _ => formed.passes rest open_
  | .emptyArray space, open_, rest, _ => .single (List.cons_ne_nil _ _) fun fuel _ => by
      simp only [ofText_append, ofText_cons, ofText_nil, List.cons_append, List.append_assoc, List.nil_append]
      exact skip_emptyArray space
  | .array space first others, open_, rest, _ => by
      -- what follows an item is a comma or a bracket, so a number among the items is not cut short
      have passed := first.passes (.array :: open_) _ fun _ => others.ends rest
      have more := others.passes open_ rest
      obtain ⟨c, letters, rfl, solid, stays⟩ := first.starts
      refine .append (.step (List.cons_ne_nil _ _) (fun fuel _ => ?_) passed) more
      simp only [ofText_cons, List.cons_append]
      exact skip_array space solid stays
  | .object formed, open_, rest, _ => formed.passes open_ rest

theorem IsItemsText.passes {text : List Char} : IsItemsText text → ∀ (outer : List Bracket) (rest : Input),
    Passes true (.array :: outer) outer text rest
  | .close space, outer, rest => .single (by simp) fun fuel _ => by
      simp only [ofText_append, ofText_cons, ofText_nil, List.cons_append, List.append_assoc, List.nil_append]
      exact skip_closeArray space
  | @IsItemsText.item before after text more spaceBefore spaceAfter next others, outer, rest => by
      have passed := (next.passes (.array :: outer) _ fun _ => others.ends rest).gap spaceAfter
      have item : Passes true (.array :: outer) (.array :: outer) ((before ++ [',']) ++ (after ++ text))
          (.ofText more ++ rest) := by
        refine .step (by simp) (fun fuel _ => ?_) passed
        simp only [ofText_append, ofText_cons, ofText_nil, List.cons_append, List.append_assoc,
          List.nil_append]
        exact skip_item spaceBefore
      simpa using item.append (others.passes outer rest)

theorem IsObjectText.passes {members : List MemberText} {text : List Char} : IsObjectText members text →
    ∀ (outer : List Bracket) (rest : Input), Passes false outer outer text rest
  | .empty space, outer, rest => .single (List.cons_ne_nil _ _) fun fuel _ => by
      simp only [ofText_append, ofText_cons, ofText_nil, List.cons_append, List.append_assoc, List.nil_append]
      exact skip_emptyObject space
  | @IsObjectText.members gap _ _ _ _ space first others, outer, rest => by
      have member := first.passes (.object :: outer) _ (others.ends rest) ('\x7b' :: gap) [] noGap
        (List.cons_ne_nil _ _) fun fuel input behind named => by
          simp only [ofText_cons, List.cons_append]
          exact skip_object space named
      simpa using member.append (others.passes outer rest)

theorem IsMemberText.passes {m : MemberText} {text : List Char} : IsMemberText m text →
    ∀ (outer : List Bracket) (rest : Input), EndsNumber rest → ∀ {ended : Bool} {open_ : List Bracket}
      (front gap : List Char), IsGap gap → front ≠ [] →
      (∀ fuel input behind, skipKey fuel (Input.ofText gap ++ .char '"' :: input) = .ok behind →
        skip (fuel + 1) ended open_ (Input.ofText front ++ (Input.ofText gap ++ .char '"' :: input)) =
          skip fuel false outer behind) →
      Passes ended open_ outer (front ++ gap ++ text) rest
  | @IsMemberText.mk name before after text named spaceBefore spaceAfter contents, outer, rest, ends,
    ended, open_, front, gap, space, some_, step => by
      have passed := (contents.passes outer rest fun _ => ends).gap spaceAfter
      -- the name and its colon go in the step that finds them: the value is all that is left to skip
      have member : Passes ended open_ outer ((front ++ gap ++ name ++ before ++ [':']) ++
          (after ++ text)) rest := by
        refine .step (by simp) (fun fuel enough => ?_) passed
        simp only [List.length_append, List.length_cons] at enough
        have key : ∀ rest, skipKey fuel _ = .ok rest := skipKey_read space named spaceBefore (by omega)
        obtain ⟨inside, _, rfl⟩ := named
        simp only [ofText_append, ofText_cons, ofText_nil, List.cons_append, List.append_assoc,
          List.nil_append] at key ⊢
        exact step fuel _ _ (key _)
      simpa using member

theorem IsMembersText.passes {members : List MemberText} {text : List Char} : IsMembersText members text →
    ∀ (outer : List Bracket) (rest : Input), Passes true (.object :: outer) outer text rest
  | .close space, outer, rest => .single (by simp) fun fuel _ => by
      simp only [ofText_append, ofText_cons, ofText_nil, List.cons_append, List.append_assoc, List.nil_append]
      exact skip_closeObject space
  | @IsMembersText.member before after _ _ _ _ spaceBefore spaceAfter next others, outer, rest => by
      have member := next.passes (.object :: outer) _ (others.ends rest) (before ++ [',']) after spaceAfter
        (by simp) fun fuel input behind named => by
          simp only [ofText_append, ofText_cons, ofText_nil, List.cons_append, List.append_assoc,
            List.nil_append]
          exact skip_member spaceBefore named
      simpa using member.append (others.passes outer rest)

end

/-- Outside all brackets the skipping ends where the value ends. -/
theorem skip_read {text : List Char} {rest : Input} {fuel : Nat} (formed : IsValueText text)
    (ends : IsNumberText text → EndsNumber rest) (enough : text.length < fuel) :
    skip fuel false [] (.ofText text ++ rest) = .ok rest := by
  obtain ⟨less, spent, skipped⟩ := formed.passes [] rest ends fuel enough
  obtain ⟨less, rfl⟩ : ∃ least, less = least + 1 := ⟨less - 1, by omega⟩
  rw [skipped, skip_outside]

end Values

section Spellings
variable {text : List Char} {n : Number} {input rest : Input}

theorem Number.ReadAs.formed (read : n.ReadAs text) : IsNumberText text := by
  rcases read.number with made | ⟨more, rfl, made⟩
  · obtain ⟨unsigned, formed, taken⟩ := skipNumber_taken (number_skips made)
    rw [List.append_nil] at taken
    exact .inl (ofText_injective taken ▸ formed)
  · obtain ⟨unsigned, formed, taken⟩ := skipNumber_taken (number_skips made)
    rw [List.append_nil] at taken
    exact .inr ⟨unsigned, formed, by rw [ofText_injective taken]⟩

mutual

theorem Spells.formed {v : Value} {text : List Char} : Spells Number.ReadAs v text → IsValueText text
  | .null => .null
  | .yes => .yes
  | .no => .no
  | .number read => .number read.formed
  | .string spelled => .string spelled.formed
  | .emptyArray space => .emptyArray space
  | .array space first others => .array space first.formed others.formed
  | .emptyObject space => .object (.empty space)
  | .object space first others =>
    let ⟨_, member⟩ := first.formed
    let ⟨_, more⟩ := others.formed
    .object (.members space member more)

theorem SpellsItems.formed {vs : List Value} {text : List Char} :
    SpellsItems Number.ReadAs vs text → IsItemsText text
  | .close space => .close space
  | .item before after next others => .item before after next.formed others.formed

theorem SpellsMember.formed {m : String × Value} {text : List Char} : SpellsMember Number.ReadAs m text →
    ∃ member, IsMemberText member text
  | .mk named before after contents => ⟨_, .mk named.formed before after contents.formed⟩

theorem SpellsMembers.formed {ms : List (String × Value)} {text : List Char} :
    SpellsMembers Number.ReadAs ms text → ∃ members, IsMembersText members text
  | .close space => ⟨_, .close space⟩
  | .member before after next others =>
    let ⟨_, member⟩ := next.formed
    let ⟨_, more⟩ := others.formed
    ⟨_, .member before after member more⟩

end

theorem skip_number {fuel depth less : Nat} {v : Value} (formed : IsNumberText text)
    (read : value fuel depth (.ofText text ++ rest) = .ok (v, rest)) :
    skip (less + 2) false [] (.ofText text ++ rest) = .ok rest := by
  obtain ⟨fuel, rfl, _⟩ := value_ok read
  rcases formed with ⟨_, fraction, exponent, ⟨all, c, digits, rfl, _⟩, _, _, rfl⟩ | ⟨text, unsigned, rfl⟩
  · have digit := all.head
    rw [List.cons_append, List.cons_append, ofText_cons, List.cons_append] at read ⊢
    rw [value_digit digit] at read
    obtain ⟨⟨m, after⟩, made, same⟩ := map_ok read
    cases same
    rw [skip_scalar (solid_of_digit digit) ?_ ?_ ((scalar_digit digit _ _).trans (number_skips made))]
    · exact skip_outside _ _
    · rintro rfl
      cases digit
    · rintro rfl
      cases digit
  · rw [ofText_cons, List.cons_append] at read ⊢
    rw [value_minus] at read
    obtain ⟨⟨m, after⟩, made, same⟩ := map_ok read
    cases same
    have scalar : skip.scalar (less + 1) '-' (.ofText text ++ rest) = .ok rest := number_skips made
    rw [skip_scalar (by decide) (by decide) (by decide) scalar, skip_outside]

/-- Where the reader of values takes a value, the skipping ends in the same place. -/
theorem value_skips {fuel depth : Nat} {v : Value} (read : value fuel depth input = .ok (v, rest)) :
    skip (input.length + 1) false [] input = .ok rest := by
  obtain ⟨gap, text, space, spelled, rfl⟩ := (takes fuel).value read
  simp only [ofText_append, List.append_assoc, List.length_append, ofText_length] at read ⊢
  -- a number may end where more of it could follow, so there the reader's own end decides
  by_cases numeral : IsNumberText text
  · have positive := spelled.positive fun _ _ => id
    obtain ⟨less, enough⟩ : ∃ less, gap.length + (text.length + rest.length) + 1 = less + 2 :=
      ⟨_, Nat.eq_add_of_sub_eq (by omega) rfl⟩
    rw [value_gap space] at read
    rw [enough, skip_gap space]
    exact skip_number numeral read
  · exact (skip_gap space _ _).trans (skip_read spelled.formed (absurd · numeral) (by omega))

end Spellings

section Strings
variable {s : String} {text inside : List Char} {fuel : Nat} {rest after : Input}

/-- The text of a string says where the string ends and what it says. -/
theorem stringRest_iff (formed : IsStringText ('"' :: inside)) (enough : inside.length + 1 ≤ fuel) :
    stringRest fuel [] true (.ofText inside ++ rest) = .ok (s, after) ↔
      SpellsString s ('"' :: inside) ∧ after = rest := by
  constructor
  · intro read
    obtain ⟨text, spelled, same⟩ := string_taken read
    obtain ⟨_, opened, here⟩ := skipString_read formed
    obtain ⟨_, again, there⟩ := skipString_read spelled.formed
    cases opened
    cases again
    have ended := here (inside.length + text.length) rest (by simp)
    rw [same, there _ after (by simp)] at ended
    cases ended
    exact ⟨ofText_injective (List.append_cancel_right same) ▸ spelled, rfl⟩
  · rintro ⟨spelled, rfl⟩
    obtain ⟨_, opened, read⟩ := string_read spelled
    cases opened
    exact read fuel _ enough

end Strings

end AttestationService.Json

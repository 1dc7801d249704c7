import AttestationService.Proofs.Json.Spelling

/-!
The reader takes every spelling of a value off the front of its input, whatever follows, and returns the
value.
-/

namespace AttestationService.Json

/-- A value that stands in brackets of its own. -/
inductive Value.Bracketed : Value → Prop
  | array (items : List Value) : Value.Bracketed (.array items)
  | object (members : List (String × Value)) : Value.Bracketed (.object members)

section Tokens
variable {gap before after : List Char} {c : Char} {rest : Input}

theorem nextItem_close (space : IsGap gap) (first : Bool) (rest : Input) :
    nextItem first (.ofText gap ++ .char ']' :: rest) = .ok none := by
  unfold nextItem
  rw [skipSpace_before space (by decide)]
  rfl

theorem nextItem_first (space : IsGap gap) (solid : isSpace c = false) (stays : c ≠ ']')
    (rest : Input) :
    nextItem true (.ofText gap ++ .char c :: rest) = .ok (some (.char c :: rest)) := by
  unfold nextItem
  rw [skipSpace_before space solid]
  split
  · contradiction
  · rename_i same
    simp only [List.cons.injEq, Utf8.Piece.char.injEq] at same
    exact absurd same.1 stays
  · rename_i same
    rw [if_pos rfl, same]

theorem nextItem_comma (space : IsGap before) (later : IsGap after) (solid : isSpace c = false)
    (stays : c ≠ ']') (rest : Input) :
    nextItem false (.ofText before ++ .char ',' :: (Input.ofText after ++ .char c :: rest)) =
      .ok (some (.char c :: rest)) := by
  unfold nextItem
  rw [skipSpace_before space (by decide)]
  split
  · contradiction
  · rename_i same
    simp at same
  · rename_i same
    rw [List.cons.injEq] at same
    rw [if_neg (by decide), ← same.1, ← same.2, if_pos rfl, skipSpace_before later solid]
    split
    · contradiction
    · rename_i same
      simp only [List.cons.injEq, Utf8.Piece.char.injEq] at same
      exact absurd same.1 stays
    · rfl

theorem nextMember_close (space : IsGap gap) (first : Bool) (rest : Input) :
    nextMember first (.ofText gap ++ .char '\x7d' :: rest) = .ok none := by
  unfold nextMember
  rw [skipSpace_before space (by decide)]
  rfl

theorem nextMember_first (space : IsGap gap) (rest : Input) :
    nextMember true (.ofText gap ++ .char '"' :: rest) = .ok (some rest) := by
  unfold nextMember
  rw [skipSpace_before space (by decide)]
  simp

theorem nextMember_comma (space : IsGap before) (later : IsGap after) (rest : Input) :
    nextMember false (.ofText before ++ .char ',' :: (Input.ofText after ++ .char '"' :: rest)) =
      .ok (some rest) := by
  unfold nextMember
  rw [skipSpace_before space (by decide)]
  split
  · contradiction
  · rename_i same
    simp at same
  · rename_i same
    rw [List.cons.injEq] at same
    rw [if_neg (by decide), ← same.1, ← same.2, if_pos rfl, skipSpace_before later (by decide)]
    rfl

theorem afterBracket_gap (space : IsGap gap) (solid : isSpace c = false) (rest : Input) :
    afterBracket (.ofText gap ++ .char c :: rest) = rest := by
  rw [afterBracket, skipSpace_before space solid]
  rfl

theorem colon_gap (space : IsGap gap) (rest : Input) :
    colon (.ofText gap ++ .char ':' :: rest) = .ok rest := by
  unfold colon
  rw [skipSpace_before space (by decide)]
  rfl

theorem finish_gap {α : Type} (result : α) (space : IsGap gap) :
    finish (result, .ofText gap) = .ok result := by
  have skipped := skipSpace_gap space []
  rw [List.append_nil] at skipped
  unfold finish
  simp only [skipped]
  rfl

theorem endsNumber_space (space : isSpace c = true) (rest : Input) : EndsNumber (.char c :: rest) := by
  simp only [isSpace, Bool.or_eq_true, beq_iff_eq] at space
  rcases space with ((rfl | rfl) | rfl) | rfl <;> exact ⟨by decide, by decide, by decide, by decide⟩

theorem endsNumber_gap (space : IsGap gap) (ends : EndsNumber rest) :
    EndsNumber (.ofText gap ++ rest) := by
  cases gap with
  | nil => exact ends
  | cons c gap => exact endsNumber_space (space c List.mem_cons_self) _

theorem endsNumber_mark (space : IsGap gap) (mark : c ∈ [',', ']', '\x7d']) (more : List Char)
    (rest : Input) :
    EndsNumber (.ofText (gap ++ c :: more) ++ rest) := by
  rw [ofText_append, ofText_cons, List.append_assoc, List.cons_append]
  refine endsNumber_gap space ?_
  simp only [List.mem_cons, List.not_mem_nil, or_false] at mark
  rcases mark with rfl | rfl | rfl <;> exact ⟨by decide, by decide, by decide, by decide⟩

end Tokens

section Starts
variable {Numeral : Number → List Char → Prop} {text : List Char}

theorem spells_starts (numerals : ∀ n text, Numeral n text → n.ReadAs text) {v : Value}
    (spelled : Spells Numeral v text) :
    ∃ c rest, text = c :: rest ∧ isSpace c = false ∧ c ≠ ']' := by
  cases spelled with
  | null => exact ⟨_, _, rfl, by decide, by decide⟩
  | yes => exact ⟨_, _, rfl, by decide, by decide⟩
  | no => exact ⟨_, _, rfl, by decide, by decide⟩
  | number numeral =>
      obtain ⟨c, rest, same, start⟩ := (numerals _ _ numeral).starts
      refine ⟨c, rest, same, ?_, ?_⟩
      · rcases start with rfl | digit
        · decide
        · cases space : isSpace c with
          | false => rfl
          | true =>
              rw [(endsNumber_space space []).1] at digit
              cases digit
      · rintro rfl
        revert start
        decide
  | string written =>
      obtain ⟨inside, rfl, _⟩ := string_read written
      exact ⟨_, _, rfl, by decide, by decide⟩
  | emptyArray => exact ⟨_, _, rfl, by decide, by decide⟩
  | array => exact ⟨_, _, rfl, by decide, by decide⟩
  | emptyObject => exact ⟨_, _, rfl, by decide, by decide⟩
  | object => exact ⟨_, _, rfl, by decide, by decide⟩

theorem Spells.positive (numerals : ∀ n text, Numeral n text → n.ReadAs text) {v : Value}
    (spelled : Spells Numeral v text) : 1 ≤ text.length := by
  obtain ⟨c, rest, rfl, _⟩ := spells_starts numerals spelled
  exact Nat.le_add_left 1 rest.length

theorem items_endNumber {items : List Value} (spelled : SpellsItems Numeral items text) (rest : Input) :
    EndsNumber (.ofText text ++ rest) := by
  cases spelled with
  | close space => exact endsNumber_mark space (by decide) [] rest
  | item space =>
      rw [List.append_assoc, List.append_assoc, List.cons_append]
      exact endsNumber_mark space (by decide) _ rest

theorem members_endNumber {members : List (String × Value)}
    (spelled : SpellsMembers Numeral members text) (rest : Input) :
    EndsNumber (.ofText text ++ rest) := by
  cases spelled with
  | close space => exact endsNumber_mark space (by decide) [] rest
  | member space =>
      rw [List.append_assoc, List.append_assoc, List.cons_append]
      exact endsNumber_mark space (by decide) _ rest

end Starts

section Steps
variable {fuel depth : Nat} {rest after : Input} {v : Value}

theorem value_array (fuel depth : Nat) (rest : Input) :
    value (fuel + 1) (depth + 1) (.char '[' :: rest) = items fuel depth true [] rest := by
  unfold value
  rfl

theorem value_object (fuel depth : Nat) (rest : Input) :
    value (fuel + 1) (depth + 1) (.char '\x7b' :: rest) = members fuel depth true [] rest := by
  unfold value
  rfl

theorem value_string {s : String} (read : stringRest fuel [] true rest = .ok (s, after)) :
    value (fuel + 1) depth (.char '"' :: rest) = .ok (.string s, after) := by
  unfold value
  show (stringRest fuel [] true rest).map _ = _
  rw [read]
  rfl

theorem items_close {input : Input} (none : nextItem first input = .ok none) (done : List Value) :
    items (fuel + 1) depth first done input = .ok (.array done.reverse, afterBracket input) := by
  rw [items, none]

theorem items_next {input : Input} {first : Bool} (next : nextItem first input = .ok (some rest))
    (read : value fuel depth rest = .ok (v, after)) (done : List Value) :
    items (fuel + 1) depth first done input = items fuel depth false (v :: done) after := by
  rw [items, next]
  simp only
  rw [read]

theorem members_close {input : Input} {first : Bool} (none : nextMember first input = .ok none)
    (done : List (String × Value)) :
    members (fuel + 1) depth first done input = .ok (.object done.reverse, afterBracket input) := by
  rw [members, none]

theorem members_next {input name contents : Input} {first : Bool} {key : String}
    (next : nextMember first input = .ok (some rest))
    (named : stringRest fuel [] true rest = .ok (key, name)) (colon : colon name = .ok contents)
    (read : value fuel depth contents = .ok (v, after)) (done : List (String × Value)) :
    members (fuel + 1) depth first done input =
      members fuel depth false ((key, v) :: done) after := by
  rw [members, next]
  simp only
  rw [named]
  simp only
  rw [colon]
  simp only
  rw [read]

end Steps

/-- With this much fuel every spelling is read, if it is not too long and the value not too deep. -/
structure Reads (Numeral : Number → List Char → Prop) (fuel : Nat) : Prop where
  value : ∀ v text depth rest, Spells Numeral v text → 2 * text.length ≤ fuel → v.depth ≤ depth →
    EndsNumber rest → value fuel depth (.ofText text ++ rest) = .ok (v, rest)
  items : ∀ vs text done depth rest, SpellsItems Numeral vs text → 2 * text.length < fuel →
    itemsDepth vs ≤ depth →
      items fuel depth false done (.ofText text ++ rest) = .ok (.array (done.reverse ++ vs), rest)
  members : ∀ ms text done depth rest, SpellsMembers Numeral ms text → 2 * text.length < fuel →
    membersDepth ms ≤ depth →
      members fuel depth false done (.ofText text ++ rest) = .ok (.object (done.reverse ++ ms), rest)

section Reads
variable {Numeral : Number → List Char → Prop} {fuel depth : Nat} {rest : Input}

theorem member_read {m : String × Value} {text more : List Char} {input : Input} {first : Bool}
    (spelled : SpellsMember Numeral m text) (enough : 2 * text.length ≤ fuel)
    (next : ∀ inside, text = '"' :: inside →
      nextMember first input = .ok (some (.ofText inside ++ .ofText more ++ rest)))
    (read : ∀ contents, Spells Numeral m.2 contents → 2 * contents.length ≤ fuel →
      value fuel depth (.ofText contents ++ (.ofText more ++ rest)) = .ok (m.2, .ofText more ++ rest))
    (done : List (String × Value)) :
    members (fuel + 1) depth first done input =
      members fuel depth false (m :: done) (.ofText more ++ rest) := by
  cases spelled with
  | mk named spaceBefore spaceAfter contents =>
      rename_i key v name before after text
      obtain ⟨inside, rfl, readKey⟩ := string_read named
      simp only [List.length_append, List.length_cons, List.cons_append] at enough
      have here := next (inside ++ before ++ ':' :: after ++ text) (by simp)
      simp only [ofText_append, ofText_cons, List.append_assoc, List.cons_append] at here
      refine members_next here (readKey fuel _ (by simp only [List.length_cons]; omega))
        (colon_gap spaceBefore _) ?_ done
      rw [value_gap spaceAfter]
      exact read text contents (by omega)

/-- An array or an object ends with its own bracket, so anything may follow it. -/
theorem reads_bracketed (numerals : ∀ n text, Numeral n text → n.ReadAs text)
    (below : ∀ less < fuel, Reads Numeral less) {v : Value} {text : List Char} (brackets : v.Bracketed)
    (spelled : Spells Numeral v text) (enough : 2 * text.length ≤ fuel) (shallow : v.depth ≤ depth) :
    value fuel depth (.ofText text ++ rest) = .ok (v, rest) := by
  have positive : 1 ≤ text.length := spelled.positive numerals
  -- a bracket takes one unit of fuel, and so does the first item or member behind it
  obtain ⟨fuel, rfl⟩ : ∃ less, fuel = less + 2 := ⟨fuel - 2, by omega⟩
  have inner := below fuel (by omega)
  cases brackets with
  | array items =>
      obtain ⟨depth, rfl⟩ : ∃ less, depth = less + 1 := ⟨depth - 1, by simp [Value.depth] at shallow; omega⟩
      cases spelled with
      | emptyArray space =>
          simp only [ofText_append, ofText_cons, ofText_nil, List.cons_append, List.append_assoc,
            List.nil_append]
          rw [value_array, items_close (nextItem_close space true rest), afterBracket_gap space (by decide)]
          rfl
      | array space first others =>
          rename_i gap text more v items
          obtain ⟨c, tail, rfl, solid, stays⟩ := spells_starts numerals first
          simp only [Value.depth, itemsDepth] at shallow
          simp only [List.length_append, List.length_cons, List.cons_append] at enough
          have next := nextItem_first space solid stays (.ofText tail ++ (.ofText more ++ rest))
          have read := inner.value _ _ depth _ first (by simp only [List.length_cons]; omega) (by omega)
            (items_endNumber others rest)
          simp only [ofText_append, ofText_cons, List.cons_append, List.append_assoc] at next read ⊢
          rw [value_array, items_next next read]
          exact inner.items _ _ [v] depth rest others (by omega) (by omega)
  | object members =>
      obtain ⟨depth, rfl⟩ : ∃ less, depth = less + 1 := ⟨depth - 1, by simp [Value.depth] at shallow; omega⟩
      cases spelled with
      | emptyObject space =>
          simp only [ofText_append, ofText_cons, ofText_nil, List.cons_append, List.append_assoc,
            List.nil_append]
          rw [value_object, members_close (nextMember_close space true rest),
            afterBracket_gap space (by decide)]
          rfl
      | object space first others =>
          rename_i gap text more m members
          simp only [Value.depth, membersDepth] at shallow
          simp only [List.length_append, List.length_cons, List.cons_append] at enough
          simp only [ofText_append, ofText_cons, List.cons_append, List.append_assoc]
          rw [value_object, member_read first (by omega) ?_ ?_]
          · have some : 1 ≤ text.length := by
              cases first
              simp only [List.length_append, List.length_cons]
              omega
            exact inner.members _ _ [m] depth rest others (by omega) (by omega)
          · rintro inside rfl
            simp only [ofText_cons, List.cons_append, List.append_assoc]
            exact nextMember_first space _
          · intro contents spelled fits
            exact inner.value _ _ depth _ spelled fits (by omega) (members_endNumber others rest)

theorem reads_value (numerals : ∀ n text, Numeral n text → n.ReadAs text)
    (below : ∀ less < fuel, Reads Numeral less) {v : Value} {text : List Char}
    (spelled : Spells Numeral v text) (enough : 2 * text.length ≤ fuel) (shallow : v.depth ≤ depth)
    (ends : EndsNumber rest) : value fuel depth (.ofText text ++ rest) = .ok (v, rest) := by
  have positive : 1 ≤ text.length := spelled.positive numerals
  obtain ⟨less, rfl⟩ : ∃ less, fuel = less + 1 := ⟨fuel - 1, by omega⟩
  cases v with
  | null | bool b =>
      cases spelled <;> (unfold value; rfl)
  | number n =>
      cases spelled with
      | number numeral => exact (numerals _ _ numeral).read less depth rest ends
  | string s =>
      cases spelled with
      | string written =>
          obtain ⟨inside, rfl, read⟩ := string_read written
          exact value_string (read less rest (by simp only [List.length_cons] at enough ⊢; omega))
  | array items => exact reads_bracketed numerals below (.array items) spelled enough shallow
  | object members => exact reads_bracketed numerals below (.object members) spelled enough shallow

theorem reads_items (numerals : ∀ n text, Numeral n text → n.ReadAs text)
    (below : ∀ less < fuel, Reads Numeral less) {vs : List Value} {text : List Char}
    (spelled : SpellsItems Numeral vs text) (enough : 2 * text.length < fuel)
    (shallow : itemsDepth vs ≤ depth) (done : List Value) :
    items fuel depth false done (.ofText text ++ rest) =
      .ok (.array (done.reverse ++ vs), rest) := by
  obtain ⟨fuel, rfl⟩ : ∃ less, fuel = less + 1 := ⟨fuel - 1, by omega⟩
  have inner := below fuel (by omega)
  cases spelled with
  | close space =>
      simp only [ofText_append, ofText_cons, ofText_nil, List.append_assoc, List.cons_append,
        List.nil_append]
      rw [items_close (nextItem_close space false rest), afterBracket_gap space (by decide),
        List.append_nil]
  | item spaceBefore spaceAfter first others =>
      rename_i before after text more v items
      obtain ⟨c, tail, rfl, solid, stays⟩ := spells_starts numerals first
      simp only [itemsDepth] at shallow
      simp only [List.length_append, List.length_cons] at enough
      have next := nextItem_comma spaceBefore spaceAfter solid stays
        (.ofText tail ++ (.ofText more ++ rest))
      have read := inner.value _ _ depth _ first (by simp only [List.length_cons]; omega) (by omega)
        (items_endNumber others rest)
      simp only [ofText_append, ofText_cons, List.cons_append, List.append_assoc] at next read ⊢
      rw [items_next next read, inner.items _ _ (v :: done) depth rest others (by omega) (by omega),
        List.reverse_cons, List.append_assoc]
      rfl

theorem reads_members (below : ∀ less < fuel, Reads Numeral less) {ms : List (String × Value)}
    {text : List Char}
    (spelled : SpellsMembers Numeral ms text) (enough : 2 * text.length < fuel)
    (shallow : membersDepth ms ≤ depth) (done : List (String × Value)) :
    members fuel depth false done (.ofText text ++ rest) =
      .ok (.object (done.reverse ++ ms), rest) := by
  obtain ⟨fuel, rfl⟩ : ∃ less, fuel = less + 1 := ⟨fuel - 1, by omega⟩
  have inner := below fuel (by omega)
  cases spelled with
  | close space =>
      simp only [ofText_append, ofText_cons, ofText_nil, List.append_assoc, List.cons_append,
        List.nil_append]
      rw [members_close (nextMember_close space false rest), afterBracket_gap space (by decide),
        List.append_nil]
  | member spaceBefore spaceAfter first others =>
      rename_i before after text more m members
      simp only [membersDepth] at shallow
      simp only [List.length_append, List.length_cons] at enough
      simp only [ofText_append, ofText_cons, List.cons_append, List.append_assoc]
      rw [member_read first (by omega) ?_ ?_]
      · rw [inner.members _ _ (m :: done) depth rest others (by omega) (by omega),
          List.reverse_cons, List.append_assoc]
        rfl
      · rintro inside rfl
        simp only [ofText_cons, List.cons_append, List.append_assoc]
        exact nextMember_comma spaceBefore spaceAfter _
      · intro contents spelled fits
        exact inner.value _ _ depth _ spelled fits (by omega) (members_endNumber others rest)

theorem reads (numerals : ∀ n text, Numeral n text → n.ReadAs text) (fuel : Nat) :
    Reads Numeral fuel := by
  -- all three at once, since each part of the reader calls the others with less fuel
  induction fuel using Nat.strongRecOn with
  | ind fuel below =>
      refine ⟨?_, ?_, ?_⟩
      · exact fun v text depth rest spelled enough shallow ends =>
          reads_value numerals below spelled enough shallow ends
      · exact fun vs text done depth rest spelled enough shallow =>
          reads_items numerals below spelled enough shallow done
      · exact fun ms text done depth rest spelled enough shallow =>
          reads_members below spelled enough shallow done

end Reads

end AttestationService.Json

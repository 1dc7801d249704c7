import AttestationService.Proofs.Json.Documents
import AttestationService.Proofs.Json.Lexemes
import AttestationService.Proofs.Json.Taken

/-!
The reader accepts nothing but spellings: each part of it has taken a text of its kind off the front
of its input. So a text is a document exactly if it is a spelling with space around it, nested no
deeper than allowed.
-/

namespace AttestationService.Json

section Strings
variable {c : Char} {input rest : Input}

theorem skipSpace_taken (input : Input) : ∃ gap, IsGap gap ∧ input = .ofText gap ++ skipSpace input := by
  induction input with
  | nil => exact ⟨[], by simp [IsGap], rfl⟩
  | cons piece input ih =>
      cases piece with
      | stray octets => exact ⟨[], by simp [IsGap], rfl⟩
      | char c =>
          cases space : isSpace c with
          | false => exact ⟨[], by simp [IsGap], (skipSpace_stop space input).symm⟩
          | true =>
              obtain ⟨gap, all, same⟩ := ih
              refine ⟨c :: gap, List.forall_mem_cons.mpr ⟨space, all⟩, ?_⟩
              rw [skipSpace, if_pos space, ofText_cons, List.cons_append, ← same]

theorem word_taken {letters : List Char} (read : word letters input = .ok rest) :
    input = .ofText letters ++ rest := by
  induction letters generalizing input with
  | nil =>
      unfold word at read
      cases read
      rfl
  | cons l letters ih =>
      cases input with
      | nil => cases read
      | cons piece input =>
          cases piece with
          | stray octets => cases read
          | char c =>
              by_cases same : c = l
              · rw [word, if_pos same] at read
                rw [same, ih read]
                rfl
              · rw [word, if_neg same] at read
                cases read

theorem hexDigit_taken {n : Nat} (digit : hexQuad?.hexDigit? c = some n) : HexDigit c n := by
  have whole (k : Nat) (least : k ≤ c.toNat) : c = Char.ofNat (k + (c.toNat - k)) := by
    rw [Nat.add_sub_cancel' least, Char.ofNat_toNat]
  have bounds (low high : Char) (between : low ≤ c ∧ c ≤ high) :
      low.toNat ≤ c.toNat ∧ c.toNat ≤ high.toNat := ⟨Char.le_def.mp between.1, Char.le_def.mp between.2⟩
  unfold hexQuad?.hexDigit? at digit
  split at digit
  · rename_i between
    have range := bounds _ _ between
    simp only [Char.reduceToNat] at range
    obtain rfl := Option.some.inj digit
    have spelled := HexDigit.decimal (c.toNat - 48) (by omega)
    rwa [← whole 48 (by omega)] at spelled
  · split at digit
    · rename_i between
      have range := bounds _ _ between
      simp only [Char.reduceToNat] at range
      obtain rfl := Option.some.inj digit
      have spelled := HexDigit.upper (c.toNat - 55) (by omega) (by omega)
      rwa [← whole 55 (by omega)] at spelled
    · rw [Option.ite_none_right_eq_some, Option.some.injEq] at digit
      obtain ⟨between, rfl⟩ := digit
      have range := bounds _ _ between
      simp only [Char.reduceToNat] at range
      have spelled := HexDigit.lower (c.toNat - 87) (by omega) (by omega)
      rwa [← whole 87 (by omega)] at spelled

theorem hexQuad_taken {n : Nat} (read : hexQuad? input = some (n, rest)) :
    ∃ text, SpellsHex n text ∧ input = .ofText text ++ rest := by
  unfold hexQuad? at read
  split at read
  · rename_i a b c d after
    obtain ⟨i, first, read⟩ := Option.bind_eq_some_iff.mp read
    obtain ⟨j, second, read⟩ := Option.bind_eq_some_iff.mp read
    obtain ⟨k, third, read⟩ := Option.bind_eq_some_iff.mp read
    obtain ⟨l, fourth, read⟩ := Option.bind_eq_some_iff.mp read
    cases read
    exact ⟨[a, b, c, d], ⟨a, b, c, d, i, j, k, l, hexDigit_taken first, hexDigit_taken second,
      hexDigit_taken third, hexDigit_taken fourth, rfl, rfl⟩, rfl⟩
  · cases read

theorem trailingSurrogate_taken {high : Nat} (read : trailingSurrogate high input = .ok (c, rest)) :
    ∃ low text, SpellsHex low text ∧ (0xDC00 ≤ low ∧ low ≤ 0xDFFF) ∧
      c = Char.ofNat ((high - 0xD800) * 1024 + (low - 0xDC00) + 0x10000) ∧
      input = .ofText ('\\' :: 'u' :: text) ++ rest := by
  unfold trailingSurrogate at read
  split at read
  · cases read
  · cases read
  · rename_i after
    split at read
    · cases read
    · rename_i low left found
      obtain ⟨text, spelled, same⟩ := hexQuad_taken found
      split at read
      · rename_i isLow
        obtain ⟨rfl, rfl⟩ := Prod.mk.inj (Except.ok.inj read)
        exact ⟨low, text, spelled, isLow, rfl, by rw [same]; rfl⟩
      · cases read
  · cases read
  · cases read

theorem escape_taken (read : escape input = .ok (c, rest)) :
    ∃ letters, SpellsEscape c letters ∧ input = .ofText letters ++ rest := by
  unfold escape at read
  split at read
  · cases read
  · rename_i after
    split at read
    · cases read
    · rename_i n left found
      obtain ⟨text, spelled, same⟩ := hexQuad_taken found
      split at read
      · cases read
      · rename_i noLow
        split at read
        · rename_i isHigh
          -- a high surrogate is half of a pair
          obtain ⟨low, second, spelledLow, isLow, made, more⟩ := trailingSurrogate_taken read
          have written := SpellsEscape.pair spelled spelledLow isHigh isLow
          rw [← made] at written
          refine ⟨_, written, ?_⟩
          rw [same, more]
          simp
        · rename_i noHigh
          obtain ⟨rfl, rfl⟩ := Prod.mk.inj (Except.ok.inj read)
          have alone : n < 0xD800 ∨ 0xDFFF < n := by omega
          refine ⟨_, .unit spelled alone, ?_⟩
          rw [same]
          simp
  · rename_i letter after _
    split at read
    · rename_i d short
      cases read
      have known : (letter, c) ∈ escapeLetters := by
        unfold shortEscape? at short
        split at short <;> cases short <;> decide
      exact ⟨[letter], .letter known, rfl⟩
    · cases read
  · cases read

theorem stringRest_taken {fuel : Nat} {content : List Char} {sound : Bool} {s : String}
    (read : stringRest fuel content sound input = .ok (s, rest)) :
    sound = true ∧ ∃ cs inside, SpellsChars cs inside ∧ s = String.ofList (content.reverse ++ cs) ∧
      input = .ofText (inside ++ ['"']) ++ rest := by
  -- A string once found unsound is never read, so a stray octet contradicts the reading.
  induction fuel generalizing content sound input with
  | zero =>
      unfold stringRest at read
      split at read
      · cases read
      · cases read
      · contradiction
      · contradiction
  | succ fuel ih =>
      cases input with
      | nil => cases read
      | cons piece input =>
          cases piece with
          | stray octets =>
              obtain ⟨impossible, _⟩ := ih read
              cases impossible
          | char c =>
              rw [stringRest] at read
              split at read
              · rename_i quote
                split at read
                · rename_i isSound
                  cases read
                  refine ⟨isSound, [], [], .nil, by rw [List.append_nil], by rw [quote]; rfl⟩
                · cases read
              · rename_i noQuote
                split at read
                · rename_i backslash
                  split at read
                  · rename_i d after escaped
                    obtain ⟨letters, spelled, same⟩ := escape_taken escaped
                    obtain ⟨isSound, cs, inside, chars, rfl, more⟩ := ih read
                    refine ⟨isSound, d :: cs, _, .escaped spelled chars, by simp, ?_⟩
                    rw [backslash, same, more]
                    simp
                  · cases read
                · rename_i noBackslash
                  split at read
                  · cases read
                  · rename_i printable
                    obtain ⟨isSound, cs, inside, chars, rfl, more⟩ := ih read
                    refine ⟨isSound, c :: cs, _, .plain noQuote noBackslash printable chars, by simp, ?_⟩
                    rw [more]
                    rfl

theorem string_taken {fuel : Nat} {s : String} (read : stringRest fuel [] true input = .ok (s, rest)) :
    ∃ text, SpellsString s ('"' :: text) ∧ input = .ofText text ++ rest := by
  obtain ⟨_, cs, inside, chars, rfl, same⟩ := stringRest_taken read
  refine ⟨_, ⟨inside, ?_, rfl⟩, same⟩
  simpa using chars

end Strings

section Tokens
variable {input rest inner : Input} {first : Bool}

theorem colon_taken (read : colon input = .ok rest) :
    ∃ gap, IsGap gap ∧ input = .ofText (gap ++ [':']) ++ rest := by
  obtain ⟨gap, space, same⟩ := skipSpace_taken input
  unfold colon at read
  split at read
  · rename_i after found
    cases read
    refine ⟨gap, space, ?_⟩
    rw [same, found]
    simp
  · cases read
  · cases read

theorem nextItem_none (close : nextItem first input = .ok none) :
    ∃ gap, IsGap gap ∧ input = .ofText (gap ++ [']']) ++ afterBracket input := by
  obtain ⟨gap, space, same⟩ := skipSpace_taken input
  refine ⟨gap, space, ?_⟩
  unfold nextItem at close
  split at close
  · cases close
  · rename_i after found
    rw [found] at same
    rw [afterBracket, found, same]
    simp
  · rename_i piece after _ found
    split at close
    · cases close
    · split at close
      · split at close <;> cases close
      · cases close

theorem nextItem_opened (next : nextItem true input = .ok (some inner)) :
    ∃ gap, IsGap gap ∧ input = .ofText gap ++ inner := by
  obtain ⟨gap, space, same⟩ := skipSpace_taken input
  refine ⟨gap, space, ?_⟩
  unfold nextItem at next
  split at next
  · cases next
  · cases next
  · rename_i piece after _ found
    rw [if_pos rfl] at next
    cases next
    rw [← found]
    exact same

theorem nextItem_later (next : nextItem false input = .ok (some inner)) :
    ∃ before after, IsGap before ∧ IsGap after ∧ input = .ofText (before ++ ',' :: after) ++ inner := by
  obtain ⟨before, space, same⟩ := skipSpace_taken input
  unfold nextItem at next
  split at next
  · cases next
  · cases next
  · rename_i piece rest _ found
    rw [if_neg (by decide)] at next
    split at next
    · rename_i comma
      obtain ⟨after, later, more⟩ := skipSpace_taken rest
      split at next
      · cases next
      · cases next
      · cases next
        refine ⟨before, after, space, later, ?_⟩
        rw [same, found, comma]
        simpa using more
    · cases next

theorem nextMember_none (close : nextMember first input = .ok none) :
    ∃ gap, IsGap gap ∧ input = .ofText (gap ++ ['\x7d']) ++ afterBracket input := by
  obtain ⟨gap, space, same⟩ := skipSpace_taken input
  refine ⟨gap, space, ?_⟩
  unfold nextMember at close
  split at close
  · cases close
  · rename_i after found
    rw [found] at same
    rw [afterBracket, found, same]
    simp
  · rename_i piece after _ found
    split at close
    · split at close <;> cases close
    · split at close
      · split at close <;> cases close
      · cases close

theorem nextMember_opened (next : nextMember true input = .ok (some inner)) :
    ∃ gap, IsGap gap ∧ input = .ofText (gap ++ ['"']) ++ inner := by
  obtain ⟨gap, space, same⟩ := skipSpace_taken input
  refine ⟨gap, space, ?_⟩
  unfold nextMember at next
  split at next
  · cases next
  · cases next
  · rename_i piece after _ found
    rw [if_pos rfl] at next
    split at next
    · rename_i quote
      cases next
      rw [same, found, quote]
      simp
    · cases next

theorem nextMember_later (next : nextMember false input = .ok (some inner)) :
    ∃ before after, IsGap before ∧ IsGap after ∧
      input = .ofText (before ++ ',' :: after ++ ['"']) ++ inner := by
  obtain ⟨before, space, same⟩ := skipSpace_taken input
  unfold nextMember at next
  split at next
  · cases next
  · cases next
  · rename_i piece rest _ found
    rw [if_neg (by decide)] at next
    split at next
    · rename_i comma
      obtain ⟨after, later, more⟩ := skipSpace_taken rest
      split at next
      · cases next
      · rename_i quote
        cases next
        refine ⟨before, after, space, later, ?_⟩
        rw [same, found, comma, more, quote]
        simp
      · cases next
      · cases next
    · cases next

end Tokens

section Values
variable {fuel depth : Nat} {input rest : Input} {v : Value}

/-- Whatever is read with this much fuel is spelled by what was taken. -/
structure Takes (fuel : Nat) : Prop where
  value : ∀ {depth input v rest}, value fuel depth input = .ok (v, rest) →
    ∃ gap text, IsGap gap ∧ Spells Number.ReadAs v text ∧ input = .ofText (gap ++ text) ++ rest
  items : ∀ {depth done input v rest}, items fuel depth false done input = .ok (v, rest) →
    ∃ vs text, v = .array (done.reverse ++ vs) ∧ SpellsItems Number.ReadAs vs text ∧
      input = .ofText text ++ rest
  members : ∀ {depth done input v rest}, members fuel depth false done input = .ok (v, rest) →
    ∃ ms text, v = .object (done.reverse ++ ms) ∧ SpellsMembers Number.ReadAs ms text ∧
      input = .ofText text ++ rest

theorem member_taken {contents name after : Input} {key : String} {w : Value} (below : Takes fuel)
    (named : stringRest fuel [] true input = .ok (key, name)) (colon : colon name = .ok contents)
    (read : value fuel depth contents = .ok (w, after)) :
    ∃ text, SpellsMember Number.ReadAs (key, w) ('"' :: text) ∧ input = .ofText text ++ after := by
  obtain ⟨letters, spelled, same⟩ := string_taken named
  obtain ⟨before, space, sameColon⟩ := colon_taken colon
  obtain ⟨gap, text, later, written, sameValue⟩ := below.value read
  have member := SpellsMember.mk spelled space later written
  refine ⟨letters ++ before ++ ':' :: gap ++ text, by simpa using member, ?_⟩
  rw [same, sameColon, sameValue]
  simp

theorem array_taken (below : ∀ less < fuel, Takes less)
    (read : items fuel depth true [] input = .ok (v, rest)) :
    ∃ text, Spells Number.ReadAs v ('[' :: text) ∧ input = .ofText text ++ rest := by
  obtain ⟨less, rfl, ⟨close, rfl, rfl⟩ | ⟨inner, w, after, next, item, others⟩⟩ := items_ok read
  · obtain ⟨gap, space, same⟩ := nextItem_none close
    exact ⟨_, .emptyArray space, same⟩
  · obtain ⟨gap, space, same⟩ := nextItem_opened next
    obtain ⟨more, text, blank, spelled, sameItem⟩ := (below less (by omega)).value item
    obtain ⟨vs, tail, rfl, spelledTail, sameTail⟩ := (below less (by omega)).items others
    refine ⟨(gap ++ more) ++ text ++ tail, .array (space.append blank) spelled spelledTail, ?_⟩
    rw [same, sameItem, sameTail]
    simp

theorem object_taken (below : ∀ less < fuel, Takes less)
    (read : members fuel depth true [] input = .ok (v, rest)) :
    ∃ text, Spells Number.ReadAs v ('\x7b' :: text) ∧ input = .ofText text ++ rest := by
  obtain ⟨less, rfl, ⟨close, rfl, rfl⟩ | ⟨inner, key, name, contents, w, after, next, named, colon, item,
    others⟩⟩ := members_ok read
  · obtain ⟨gap, space, same⟩ := nextMember_none close
    exact ⟨_, .emptyObject space, same⟩
  · obtain ⟨gap, space, same⟩ := nextMember_opened next
    obtain ⟨text, spelled, sameMember⟩ := member_taken (below less (by omega)) named colon item
    obtain ⟨ms, tail, rfl, spelledTail, sameTail⟩ := (below less (by omega)).members others
    refine ⟨gap ++ ('"' :: text) ++ tail, .object space spelled spelledTail, ?_⟩
    rw [same, sameMember, sameTail]
    simp

theorem takes_items (below : ∀ less < fuel, Takes less) {done : List Value}
    (read : items fuel depth false done input = .ok (v, rest)) :
    ∃ vs text, v = .array (done.reverse ++ vs) ∧ SpellsItems Number.ReadAs vs text ∧
      input = .ofText text ++ rest := by
  obtain ⟨less, rfl, ⟨close, rfl, rfl⟩ | ⟨inner, w, after, next, item, others⟩⟩ := items_ok read
  · obtain ⟨gap, space, same⟩ := nextItem_none close
    exact ⟨[], _, by rw [List.append_nil], .close space, same⟩
  · obtain ⟨before, behind, space, later, same⟩ := nextItem_later next
    obtain ⟨more, text, blank, spelled, sameItem⟩ := (below less (by omega)).value item
    obtain ⟨vs, tail, rfl, spelledTail, sameTail⟩ := (below less (by omega)).items others
    refine ⟨w :: vs, before ++ ',' :: (behind ++ more) ++ text ++ tail, by simp,
      .item space (later.append blank) spelled spelledTail, ?_⟩
    rw [same, sameItem, sameTail]
    simp

theorem takes_members (below : ∀ less < fuel, Takes less) {done : List (String × Value)}
    (read : members fuel depth false done input = .ok (v, rest)) :
    ∃ ms text, v = .object (done.reverse ++ ms) ∧ SpellsMembers Number.ReadAs ms text ∧
      input = .ofText text ++ rest := by
  obtain ⟨less, rfl, ⟨close, rfl, rfl⟩ | ⟨inner, key, name, contents, w, after, next, named, colon, item,
    others⟩⟩ := members_ok read
  · obtain ⟨gap, space, same⟩ := nextMember_none close
    exact ⟨[], _, by rw [List.append_nil], .close space, same⟩
  · obtain ⟨before, behind, space, later, same⟩ := nextMember_later next
    obtain ⟨text, spelled, sameMember⟩ := member_taken (below less (by omega)) named colon item
    obtain ⟨ms, tail, rfl, spelledTail, sameTail⟩ := (below less (by omega)).members others
    refine ⟨(key, w) :: ms, before ++ ',' :: behind ++ ('"' :: text) ++ tail, by simp,
      .member space later spelled spelledTail, ?_⟩
    rw [same, sameMember, sameTail]
    simp

theorem takes_value (below : ∀ less < fuel, Takes less) (read : value fuel depth input = .ok (v, rest)) :
    ∃ gap text, IsGap gap ∧ Spells Number.ReadAs v text ∧ input = .ofText (gap ++ text) ++ rest := by
  obtain ⟨gap, space, same⟩ := skipSpace_taken input
  suffices taken : ∃ text, Spells Number.ReadAs v text ∧ skipSpace input = .ofText text ++ rest by
    obtain ⟨text, spelled, found⟩ := taken
    refine ⟨gap, text, space, spelled, ?_⟩
    rw [found] at same
    rw [same]
    simp
  -- the first character behind the gap says what kind of value it is
  unfold value at read
  split at read
  · cases read
  · cases read
  · cases read
  · rename_i fuel c after found
    rw [found]
    split at read
    · obtain ⟨left, letters, same⟩ := map_ok read
      cases same
      exact ⟨_, .null, by rw [word_taken letters]; rfl⟩
    · obtain ⟨left, letters, same⟩ := map_ok read
      cases same
      exact ⟨_, .yes, by rw [word_taken letters]; rfl⟩
    · obtain ⟨left, letters, same⟩ := map_ok read
      cases same
      exact ⟨_, .no, by rw [word_taken letters]; rfl⟩
    · obtain ⟨⟨n, left⟩, made, same⟩ := map_ok read
      cases same
      obtain ⟨c, text, _, _, taken, again⟩ := number_taken made
      exact ⟨_, .number (readAs_minus again), by rw [taken]; rfl⟩
    · obtain ⟨⟨s, left⟩, made, same⟩ := map_ok read
      cases same
      obtain ⟨text, spelled, taken⟩ := string_taken made
      exact ⟨_, .string spelled, by rw [taken]; rfl⟩
    · split at read
      · cases read
      · obtain ⟨text, spelled, taken⟩ := array_taken (fun less small => below less (by omega)) read
        exact ⟨_, spelled, by rw [taken]; rfl⟩
    · split at read
      · cases read
      · obtain ⟨text, spelled, taken⟩ := object_taken (fun less small => below less (by omega)) read
        exact ⟨_, spelled, by rw [taken]; rfl⟩
    · split at read
      · obtain ⟨⟨n, left⟩, made, same⟩ := map_ok read
        cases same
        obtain ⟨d, text, digit, _, taken, again⟩ := number_taken made
        exact ⟨_, .number (readAs_plain ⟨d, text, rfl, digit⟩ again), taken⟩
      · cases read

theorem takes (fuel : Nat) : Takes fuel := by
  induction fuel using Nat.strongRecOn with
  | ind fuel below =>
      exact ⟨takes_value below, takes_items below, takes_members below⟩

end Values

def IsDocument (v : Value) (text : List Char) : Prop :=
  v.depth ≤ maxDepth ∧ ∃ before core after, IsGap before ∧ Spells Number.ReadAs v core ∧ IsGap after ∧
    text = before ++ core ++ after

theorem finish_taken {α : Type} {result other : α}
    {rest : Input} (ended : finish (result, rest) = .ok other) :
    other = result ∧ ∃ gap, IsGap gap ∧ rest = .ofText gap := by
  obtain ⟨gap, space, same⟩ := skipSpace_taken rest
  unfold finish at ended
  simp only at ended
  split at ended
  · rename_i nothing
    rw [nothing, List.append_nil] at same
    exact ⟨(Except.ok.inj ended).symm, gap, space, same⟩
  · cases ended

theorem document_taken {input : Input} {v : Value} (read : document input = .ok v) :
    ∃ text, IsDocument v text ∧ input = .ofText text := by
  unfold document at read
  split at read
  · rename_i finished
    cases read
    obtain ⟨⟨w, rest⟩, taken, ended⟩ := bind_ok finished
    obtain ⟨rfl, after, later, rfl⟩ := finish_taken ended
    obtain ⟨before, core, space, spelled, same⟩ := (takes _).value taken
    refine ⟨before ++ core ++ after, ⟨((returns _).value taken).shallow, before, core, after, space, spelled,
      later, rfl⟩, ?_⟩
    rw [same, ← ofText_append]
  · cases read

/-- The reader returns a value for its documents and for nothing else. -/
theorem document_iff {input : Input} {v : Value} :
    document input = .ok v ↔ ∃ text, IsDocument v text ∧ input = .ofText text := by
  constructor
  · exact document_taken
  · rintro ⟨_, ⟨shallow, before, core, after, space, spelled, later, rfl⟩, rfl⟩
    exact document_spelled (fun _ _ => id) space spelled later shallow

end AttestationService.Json

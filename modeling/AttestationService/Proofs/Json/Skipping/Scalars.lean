import AttestationService.Json.Record
import AttestationService.Proofs.Json.Syntax

/-!
Skipping over numbers and strings. A number may be of any size and the escapes of a string need not
be characters, and where the reader of numbers accepts a text it ends where the skipping ends.
-/

namespace AttestationService.Json

section Digits
variable {input rest : Input}

theorem wholeDigits_skips (input : Input) (n dropped : Nat) :
    (wholeDigits n dropped input).2.2 = skipDigits input := by
  induction input generalizing n dropped with
  | nil => rfl
  | cons piece input ih =>
      by_cases stop : NoDigit (piece :: input)
      · rw [wholeDigits_stop stop, skipDigits_stop stop]
      · obtain ⟨c, d, rfl, found⟩ := digit_of_not stop
        obtain ⟨m, left, step⟩ := wholeDigits_digit found n dropped
        rw [step, ih, skipDigits, found, Option.isSome_some, if_pos rfl]

theorem fractionDigits_skips (input : Input) (n taken : Nat) :
    (fractionDigits n taken input).2.2 = skipDigits input := by
  induction input generalizing n taken with
  | nil => rfl
  | cons piece input ih =>
      by_cases stop : NoDigit (piece :: input)
      · rw [fractionDigits_stop stop, skipDigits_stop stop]
      · obtain ⟨c, d, rfl, found⟩ := digit_of_not stop
        rw [fractionDigits, skipDigits, found, Option.isSome_some, if_pos rfl]
        simp only
        split
        · exact ih _ _
        · rfl

/-- Where the exponent is too long, the reading stops early. -/
theorem exponentDigits_skips (input : Input) (n : Nat) :
    skipDigits (exponentDigits n input).2 = skipDigits input ∧
      ((exponentDigits n input).1.isSome → (exponentDigits n input).2 = skipDigits input) := by
  induction input generalizing n with
  | nil => exact ⟨rfl, fun _ => rfl⟩
  | cons piece input ih =>
      by_cases stop : NoDigit (piece :: input)
      · rw [exponentDigits_stop stop]
        exact ⟨rfl, fun _ => (skipDigits_stop stop).symm⟩
      · obtain ⟨c, d, rfl, found⟩ := digit_of_not stop
        rw [exponentDigits, skipDigits, found, Option.isSome_some, if_pos rfl]
        simp only
        split
        · exact ih _
        · exact ⟨rfl, fun some => absurd some Bool.false_ne_true⟩

end Digits

section Numbers
variable {negative : Bool} {natural dropped : Nat} {scale : Int} {n : Number} {input rest : Input}
  {text : List Char}

theorem skipExponent_eq (input : Input) : skipExponent input =
    match digit? (exponentSign input).2 with
    | some (_, rest) => .ok (skipDigits rest)
    | none => .error ⟨.badNumber, octetCount (exponentSign input).2 - 1⟩ := by
  cases input with
  | nil => rfl
  | cons piece rest =>
      cases piece with
      | stray octets => rfl
      | char c =>
          rw [skipExponent, exponentSign]
          by_cases plus : c = '+'
          · rewrite [if_pos (.inl plus), if_pos plus]
            rfl
          · by_cases minus : c = '-'
            · rewrite [if_pos (.inr minus), if_neg plus, if_pos minus]
              rfl
            · rewrite [if_neg (not_or.mpr ⟨plus, minus⟩), if_neg plus, if_neg minus]
              rfl

theorem exponentPart_skips (made : exponentPart negative natural scale input = .ok (n, rest)) :
    skipExponent input = .ok rest := by
  rw [exponentPart_eq] at made
  rw [skipExponent_eq]
  unfold exponentBody at made
  split at made
  · cases made
  · rename_i same
    split at made
    · cases made
    · rename_i d after found
      rw [found]
      obtain ⟨early, whole⟩ := exponentDigits_skips after d
      split at made
      · rename_i read
        rw [read] at whole
        obtain ⟨rfl, _⟩ := real_taken made
        exact congrArg Except.ok (whole rfl).symm
      · rename_i left read
        rw [read] at early
        by_cases large : natural ≠ 0 ∧ ¬ (exponentSign input).1 = true
        · rw [if_pos large] at made
          cases made
        · rw [if_neg large] at made
          cases made
          exact congrArg Except.ok early.symm

def skipFraction (input : Input) : Except Failure Input :=
  if (digit? input).isSome then
    match exponentMark? (skipDigits input) with
    | some rest => skipExponent rest
    | none => .ok (skipDigits input)
  else failNext .badNumber input

theorem fractionPart_skips (made : fractionPart negative natural dropped input = .ok (n, rest)) :
    skipFraction input = .ok rest := by
  cases first : digit? input with
  | none =>
      rw [fractionPart, first] at made
      simp only at made
      split at made <;> cases made
  | some taken =>
      obtain ⟨d, after⟩ := taken
      obtain ⟨c, rfl, found⟩ := digit_some first
      have digit := digit_of_digitOf found
      have skipped := fractionDigits_skips (.char c :: after) natural 0
      rw [skipFraction, first, Option.isSome_some, if_pos rfl, ← skipped]
      cases read : fractionDigits natural 0 (.char c :: after) with
      | mk m counted =>
          obtain ⟨count, left⟩ := counted
          simp only
          cases mark : exponentMark? left with
          | some inner =>
              rw [fractionPart_marked digit read mark] at made
              exact exponentPart_skips made
          | none =>
              rw [fractionPart_unmarked digit read mark] at made
              exact congrArg Except.ok (real_taken made).1

theorem skipTail_point (after : Input) : skipNumber.tail (.char '.' :: after) = skipFraction after := rfl

theorem tail_skips (made : number.tail negative natural dropped input = .ok (n, rest)) :
    skipNumber.tail input = .ok rest := by
  have closed (made : number.close negative natural dropped input = .ok (n, rest)) :
      Except.ok (ε := Failure) input = .ok rest := congrArg Except.ok (close_taken made).1
  unfold number.tail at made
  split at made
  · rename_i c after
    split at made
    · rename_i point
      rw [point, skipTail_point]
      exact fractionPart_skips made
    · rename_i noPoint
      unfold skipNumber.tail
      simp only
      rw [if_neg noPoint]
      split at made
      · rename_i letter
        rw [if_pos letter]
        exact exponentPart_skips made
      · rename_i noLetter
        rw [if_neg noLetter]
        exact closed made
  · rename_i other
    unfold skipNumber.tail
    split
    · exact absurd rfl (other _ _)
    · exact closed made

theorem number_skips (made : number negative input = .ok (n, rest)) : skipNumber input = .ok rest := by
  cases input with
  | nil => cases made
  | cons piece more =>
      cases first : digit? (piece :: more) with
      | none =>
          simp only [number, first] at made
          cases made
      | some taken =>
          obtain ⟨d, after⟩ := taken
          cases d with
          | zero =>
              simp only [number, first] at made
              simp only [skipNumber, first]
              split at made
              · cases made
              · rename_i alone
                rw [if_neg alone]
                exact tail_skips made
          | succ d =>
              simp only [number, first] at made
              simp only [skipNumber, first]
              rw [← wholeDigits_skips after (d + 1) 0]
              exact tail_skips made

end Numbers

section Numerals
variable {digits text : List Char} {input rest : Input}

theorem digit_first {c : Char} (all : AllDigits (c :: digits)) (rest : Input) :
    digit? (.ofText (c :: digits) ++ rest) = some (c.toNat - '0'.toNat, .ofText digits ++ rest) := by
  rw [ofText_cons, List.cons_append]
  exact digit_read all.head _

theorem skipExponent_read {sign : List Char} (signed : sign ∈ [[], ['+'], ['-']]) (all : AllDigits digits)
    (some_ : digits ≠ []) (stop : NoDigit rest) :
    skipExponent (.ofText (sign ++ digits) ++ rest) = .ok rest := by
  obtain ⟨c, digits, rfl⟩ := List.exists_cons_of_ne_nil some_
  have behind : (exponentSign (.ofText (sign ++ c :: digits) ++ rest)).2 = .ofText (c :: digits) ++ rest := by
    have noPlus : ¬ c = '+' := by rintro rfl; cases all.head
    have noMinus : ¬ c = '-' := by rintro rfl; cases all.head
    simp only [List.mem_cons, List.not_mem_nil, or_false] at signed
    rcases signed with rfl | rfl | rfl
    · rw [List.nil_append, ofText_cons, List.cons_append, exponentSign, if_neg noPlus, if_neg noMinus]
    · rfl
    · rfl
  rw [skipExponent_eq, behind, digit_first all]
  exact congrArg Except.ok (skipDigits_read all.tail stop)

theorem skipFraction_read (all : AllDigits digits) (some_ : digits ≠ []) {exponent : List Char}
    (formed : IsExponent exponent) (ends : EndsNumber rest) :
    skipFraction (.ofText digits ++ (.ofText exponent ++ rest)) = .ok rest := by
  obtain ⟨c, more, rfl⟩ := List.exists_cons_of_ne_nil some_
  rw [skipFraction, digit_first all, Option.isSome_some, if_pos rfl]
  rcases formed with rfl | ⟨letter, sign, power, known, signed, allPower, some_, rfl⟩
  · rw [ofText_nil, List.nil_append, skipDigits_read all ends.noDigit, exponentMark_none ends]
  · have stop : NoDigit (.ofText (letter :: (sign ++ power)) ++ rest) := by
      rcases known with rfl | rfl <;> rfl
    have mark : exponentMark? (.ofText (letter :: (sign ++ power)) ++ rest) =
        some (.ofText (sign ++ power) ++ rest) := if_pos known
    rw [skipDigits_read all stop, mark]
    exact skipExponent_read signed allPower some_ ends.noDigit

theorem skipTail_read {fraction exponent : List Char} (part : IsFraction fraction)
    (formed : IsExponent exponent)
    (ends : EndsNumber rest) :
    skipNumber.tail (.ofText fraction ++ (.ofText exponent ++ rest)) = .ok rest := by
  rcases part with rfl | ⟨digits, all, some_, rfl⟩
  · rw [ofText_nil, List.nil_append]
    rcases formed with rfl | ⟨letter, sign, power, known, signed, allPower, some_, rfl⟩
    · rw [ofText_nil, List.nil_append]
      unfold skipNumber.tail
      split
      · rw [if_neg ends.2.1, if_neg (by rintro (e | e); exacts [ends.2.2.1 e, ends.2.2.2 e])]
      · rfl
    · have noPoint : ¬ letter = '.' := by rcases known with rfl | rfl <;> decide
      rw [ofText_cons, List.cons_append]
      unfold skipNumber.tail
      simp only
      rw [if_neg noPoint, if_pos known]
      exact skipExponent_read signed allPower some_ ends.noDigit
  · rw [ofText_cons, List.cons_append, skipTail_point]
    exact skipFraction_read all some_ formed ends

theorem skipNumber_decimal (decimal : IsDecimal digits) (stop : NoDigit rest) :
    skipNumber (.ofText digits ++ rest) = skipNumber.tail rest := by
  obtain ⟨all, c, more, rfl, first⟩ := decimal
  unfold skipNumber
  rw [digit_first all]
  split
  · contradiction
  · -- a zero in front stands alone
    rename_i zero
    rw [Option.some.injEq, Prod.mk.injEq] at zero
    obtain ⟨zero, rfl⟩ := zero
    obtain rfl := first.resolve_left (not_not_intro (zero_of_digit all.head zero))
    rw [ofText_nil, List.nil_append, digit_none stop]
    rfl
  · rename_i same
    rw [Option.some.injEq, Prod.mk.injEq] at same
    obtain ⟨rfl, rfl⟩ := same
    rw [skipDigits_read all.tail stop]

theorem skipNumber_read (formed : IsUnsigned text) (ends : EndsNumber rest) :
    skipNumber (.ofText text ++ rest) = .ok rest := by
  obtain ⟨whole, fraction, exponent, decimal, part, power, rfl⟩ := formed
  have stop : NoDigit (.ofText fraction ++ (.ofText exponent ++ rest)) := by
    rcases part with rfl | ⟨_, _, _, rfl⟩
    · rcases power with rfl | ⟨letter, _, _, known, _, _, _, rfl⟩
      · exact ends.noDigit
      · rcases known with rfl | rfl <;> rfl
    · rfl
  rw [ofText_append, ofText_append, List.append_assoc, List.append_assoc, skipNumber_decimal decimal stop]
  exact skipTail_read part power ends

theorem skipExponent_taken (made : skipExponent input = .ok rest) : ∃ sign digits,
    sign ∈ [[], ['+'], ['-']] ∧ AllDigits digits ∧ digits ≠ [] ∧
      input = .ofText (sign ++ digits) ++ rest := by
  have signed : ∃ sign, sign ∈ [[], ['+'], ['-']] ∧ input = .ofText sign ++ (exponentSign input).2 := by
    unfold exponentSign
    split
    · split
      · rename_i plus
        exact ⟨['+'], by decide, by rw [plus]; rfl⟩
      · split
        · rename_i minus
          exact ⟨['-'], by decide, by rw [minus]; rfl⟩
        · exact ⟨[], by decide, rfl⟩
    · exact ⟨[], by decide, rfl⟩
  obtain ⟨sign, known, same⟩ := signed
  rw [skipExponent_eq] at made
  split at made
  · rename_i d after found
    cases made
    obtain ⟨c, first, digit⟩ := digit_some found
    obtain ⟨digits, all, taken⟩ := skipDigits_taken after
    refine ⟨sign, c :: digits, known, all.cons digit, List.cons_ne_nil _ _, ?_⟩
    rw [ofText_append, List.append_assoc, ofText_cons, List.cons_append, ← taken, ← first]
    exact same
  · cases made

theorem exponent_taken {letter : Char} (known : letter = 'e' ∨ letter = 'E')
    (made : skipExponent input = .ok rest) :
    ∃ exponent, IsExponent exponent ∧ .char letter :: input = Input.ofText exponent ++ rest := by
  obtain ⟨sign, digits, signed, all, some_, same⟩ := skipExponent_taken made
  refine ⟨letter :: (sign ++ digits), .inr ⟨letter, sign, digits, known, signed, all, some_, rfl⟩, ?_⟩
  rw [ofText_cons, List.cons_append, ← same]

theorem skipFraction_taken (made : skipFraction input = .ok rest) : ∃ digits exponent,
    AllDigits digits ∧ digits ≠ [] ∧ IsExponent exponent ∧
      input = .ofText digits ++ (.ofText exponent ++ rest) := by
  unfold skipFraction at made
  split at made
  · rename_i some_
    obtain ⟨⟨d, after⟩, found⟩ := Option.isSome_iff_exists.mp some_
    obtain ⟨c, same, digit⟩ := digit_some found
    obtain ⟨digits, all, taken⟩ := skipDigits_taken after
    have skipped : skipDigits input = skipDigits after := by
      rw [same, skipDigits, digit, Option.isSome_some, if_pos rfl]
    have whole : input = .ofText (c :: digits) ++ skipDigits input := by
      rw [skipped, ofText_cons, List.cons_append, ← taken]
      exact same
    split at made
    · rename_i inner mark
      obtain ⟨letter, known, marked, _⟩ := exponentMark_some mark
      obtain ⟨exponent, formed, power⟩ := exponent_taken known made
      exact ⟨c :: digits, exponent, all.cons digit, List.cons_ne_nil _ _, formed,
        by rw [← power, ← marked]; exact whole⟩
    · cases made
      exact ⟨c :: digits, [], all.cons digit, List.cons_ne_nil _ _, .inl rfl, whole⟩
  · cases made

theorem skipTail_taken (made : skipNumber.tail input = .ok rest) : ∃ fraction exponent,
    IsFraction fraction ∧ IsExponent exponent ∧ input = .ofText fraction ++ (.ofText exponent ++ rest) := by
  have nothing (same : input = rest) : ∃ fraction exponent,
      IsFraction fraction ∧ IsExponent exponent ∧ input = .ofText fraction ++ (.ofText exponent ++ rest) :=
    ⟨[], [], .inl rfl, .inl rfl, same⟩
  unfold skipNumber.tail at made
  split at made
  · rename_i c after
    by_cases point : c = '.'
    · subst point
      obtain ⟨digits, exponent, all, some_, formed, same⟩ := skipFraction_taken made
      exact ⟨'.' :: digits, exponent, .inr ⟨digits, all, some_, rfl⟩, formed, by rw [same]; rfl⟩
    · rw [if_neg point] at made
      split at made
      · rename_i known
        obtain ⟨exponent, formed, same⟩ := exponent_taken known made
        exact ⟨[], exponent, .inl rfl, formed, same⟩
      · exact nothing (Except.ok.inj made)
  · exact nothing (Except.ok.inj made)

theorem skipNumber_taken (made : skipNumber input = .ok rest) :
    ∃ text, IsUnsigned text ∧ input = .ofText text ++ rest := by
  have with_ {digits : List Char} {after : Input} (decimal : IsDecimal digits)
      (tail : skipNumber.tail after = .ok rest) (same : input = .ofText digits ++ after) :
      ∃ text, IsUnsigned text ∧ input = .ofText text ++ rest := by
    obtain ⟨fraction, exponent, part, formed, more⟩ := skipTail_taken tail
    refine ⟨_, ⟨digits, fraction, exponent, decimal, part, formed, rfl⟩, ?_⟩
    rw [same, more]
    simp
  unfold skipNumber at made
  split at made
  · cases made
  · rename_i after found
    obtain ⟨c, same, digit⟩ := digit_some found
    have alone : IsDecimal [c] := ⟨noDigits.cons digit, c, [], rfl, .inr rfl⟩
    split at made
    · cases made
    · exact with_ alone made same
  · rename_i d after nonzero found
    obtain ⟨c, same, digit⟩ := digit_some found
    obtain ⟨digits, all, taken⟩ := skipDigits_taken after
    have noZero : c ≠ '0' := by
      rintro rfl
      exact nonzero (Option.some.inj digit).symm
    refine with_ ⟨all.cons digit, c, digits, rfl, .inl noZero⟩ made ?_
    rw [same, ofText_cons, List.cons_append, ← taken]

end Numerals

section Strings
variable {inside text : List Char} {input rest : Input}

theorem skipString_plain {c : Char} (noQuote : c ≠ '"') (noBackslash : c ≠ '\\') (printable : ¬ c < ' ')
    (fuel : Nat) (rest : Input) : skipString (fuel + 1) (.char c :: rest) = skipString fuel rest := by
  conv => lhs; unfold skipString
  simp only [if_neg noQuote, if_neg noBackslash, if_neg printable]

theorem skipString_letter {l : Char} (noUnit : l ≠ 'u') (known : (shortEscape? l).isSome) (fuel : Nat)
    (rest : Input) : skipString (fuel + 1) (.char '\\' :: .char l :: rest) = skipString fuel rest := by
  rw [skipString.eq_def]
  simp only [Char.reduceEq, if_false, if_true]
  exact if_pos known

theorem skipString_unit {n : Nat} {digits : List Char} (spelled : SpellsHex n digits) (fuel : Nat)
    (rest : Input) :
    skipString (fuel + 1) (.char '\\' :: .char 'u' :: (Input.ofText digits ++ rest)) =
      skipString fuel rest := by
  rw [skipString.eq_def]
  simp only [Char.reduceEq, if_false, if_true]
  rw [hexQuad_read spelled]

theorem skipString_chars (formed : IsCharsText inside) {fuel : Nat} (enough : inside.length < fuel)
    (rest : Input) :
    skipString fuel (.ofText inside ++ .char '"' :: rest) = .ok rest := by
  induction formed generalizing fuel with
  | nil =>
      obtain ⟨fuel, rfl⟩ : ∃ less, fuel = less + 1 := ⟨fuel - 1, by omega⟩
      rw [ofText_nil, List.nil_append, skipString.eq_def]
      rfl
  | plain noQuote noBackslash printable _ ih =>
      obtain ⟨fuel, rfl⟩ : ∃ less, fuel = less + 1 := ⟨fuel - 1, by omega⟩
      rw [ofText_cons, List.cons_append, skipString_plain noQuote noBackslash printable]
      exact ih (by simpa using enough)
  | letter known _ ih =>
      obtain ⟨fuel, rfl⟩ : ∃ less, fuel = less + 1 := ⟨fuel - 1, by omega⟩
      have letters : ∀ pair ∈ escapeLetters, pair.1 ≠ 'u' ∧ (shortEscape? pair.1).isSome := by decide
      obtain ⟨noUnit, short⟩ := letters _ known
      simp only [List.length_cons] at enough
      simp only [ofText_cons, List.cons_append]
      rw [skipString_letter noUnit short]
      exact ih (by omega)
  | unit spelled _ ih =>
      obtain ⟨fuel, rfl⟩ : ∃ less, fuel = less + 1 := ⟨fuel - 1, by omega⟩
      simp only [List.cons_append, List.length_cons, List.length_append] at enough
      simp only [ofText_cons, ofText_append, List.cons_append, List.append_assoc]
      rw [skipString_unit spelled]
      exact ih (by omega)

theorem skipString_read (formed : IsStringText text) : ∃ inside, text = '"' :: inside ∧
    ∀ fuel rest, text.length ≤ fuel + 1 → skipString fuel (.ofText inside ++ rest) = .ok rest := by
  obtain ⟨inside, chars, rfl⟩ := formed
  refine ⟨inside ++ ['"'], rfl, fun fuel rest enough => ?_⟩
  simp only [List.cons_append, List.length_cons, List.length_append, List.length_nil] at enough
  rw [ofText_append, List.append_assoc]
  exact skipString_chars chars (by omega) rest

end Strings

end AttestationService.Json

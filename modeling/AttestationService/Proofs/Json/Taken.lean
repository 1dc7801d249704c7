import AttestationService.Proofs.Json.Results

/-!
Numbers as the reader takes them off its input. Whatever else ends the number might follow, the same
text would be taken and the same number be read.
-/

namespace AttestationService.Json

theorem ofText_injective : Function.Injective Input.ofText :=
  List.map_injective_iff.mpr fun _ _ same => Utf8.Piece.char.inj same

section Digits
variable {c : Char} {d : Nat} {text : List Char} {input rest other : Input}

theorem digit_of_digitOf (found : digitOf? c = some d) : c.isDigit = true := by
  rw [digitOf?, Option.ite_none_right_eq_some] at found
  simpa [Char.isDigit, Char.le_def] using found.1

theorem digit_some (found : digit? input = some (d, rest)) :
    ∃ c, input = .char c :: rest ∧ digitOf? c = some d := by
  unfold digit? at found
  split at found
  · obtain ⟨e, digit, same⟩ := Option.map_eq_some_iff.mp found
    cases same
    exact ⟨_, rfl, digit⟩
  · cases found

theorem noDigit_of_none (none : digit? input = none) : NoDigit input := by
  unfold NoDigit
  split
  · simpa [digit?] using none
  · trivial

theorem digit_of_not {piece : Utf8.Piece} (some_ : ¬ NoDigit (piece :: input)) :
    ∃ c d, piece = .char c ∧ digitOf? c = some d := by
  cases piece with
  | stray octets => exact absurd trivial some_
  | char c =>
      obtain ⟨d, found⟩ := Option.ne_none_iff_exists'.mp some_
      exact ⟨c, d, rfl, found⟩

/-- Only the first character of what was taken decides, if anything was. -/
theorem NoDigit.instead (stop : NoDigit (.ofText text ++ rest)) (also : NoDigit other) :
    NoDigit (.ofText text ++ other) := by
  cases text with
  | nil => exact also
  | cons c text => exact stop

theorem noDigits : AllDigits [] := nofun

theorem AllDigits.cons (all : AllDigits text) (found : digitOf? c = some d) : AllDigits (c :: text) :=
  List.forall_mem_cons.mpr ⟨digit_of_digitOf found, all⟩

theorem skipDigits_taken (input : Input) :
    ∃ digits, AllDigits digits ∧ input = .ofText digits ++ skipDigits input := by
  induction input with
  | nil => exact ⟨[], noDigits, rfl⟩
  | cons piece input ih =>
      by_cases stop : NoDigit (piece :: input)
      · exact ⟨[], noDigits, (skipDigits_stop stop).symm⟩
      · obtain ⟨c, d, rfl, found⟩ := digit_of_not stop
        obtain ⟨digits, all, same⟩ := ih
        refine ⟨c :: digits, all.cons found, ?_⟩
        rw [skipDigits, found, Option.isSome_some, if_pos rfl, ofText_cons, List.cons_append, ← same]

theorem wholeDigits_digit (found : digitOf? c = some d) (n dropped : Nat) :
    ∃ m left, ∀ rest, wholeDigits n dropped (.char c :: rest) = wholeDigits m left rest := by
  by_cases fits : dropped = 0 ∧ n * 10 + d ≤ maxNatural
  · refine ⟨n * 10 + d, 0, fun rest => ?_⟩
    rw [wholeDigits, found]
    simp only
    rw [if_pos fits]
  · refine ⟨n, dropped + 1, fun rest => ?_⟩
    rw [wholeDigits, found]
    simp only
    rw [if_neg fits]

theorem wholeDigits_taken {n dropped m left : Nat}
    (read : wholeDigits n dropped input = (m, left, rest)) :
    NoDigit rest ∧ ∃ text, AllDigits text ∧ input = .ofText text ++ rest ∧
      ∀ other, NoDigit other → wholeDigits n dropped (.ofText text ++ other) = (m, left, other) := by
  induction input generalizing n dropped with
  | nil =>
      cases read
      exact ⟨trivial, [], noDigits, rfl, fun other stop => wholeDigits_stop stop _ _⟩
  | cons piece input ih =>
      by_cases stop : NoDigit (piece :: input)
      · rw [wholeDigits_stop stop] at read
        cases read
        exact ⟨stop, [], noDigits, rfl, fun other stop => wholeDigits_stop stop _ _⟩
      · obtain ⟨c, d, rfl, found⟩ := digit_of_not stop
        obtain ⟨k, more, step⟩ := wholeDigits_digit found n dropped
        rw [step] at read
        obtain ⟨stop, text, all, same, again⟩ := ih read
        refine ⟨stop, c :: text, all.cons found, by rw [ofText_cons, List.cons_append, ← same], ?_⟩
        intro other ends
        rw [ofText_cons, List.cons_append, step]
        exact again other ends

theorem fractionDigits_taken {n taken m count : Nat}
    (read : fractionDigits n taken input = (m, count, rest)) :
    ∃ text, AllDigits text ∧ input = .ofText text ++ rest ∧ (text = [] → NoDigit input) ∧
      ∀ other, NoDigit other → fractionDigits n taken (.ofText text ++ other) = (m, count, other) := by
  induction input generalizing n taken with
  | nil =>
      cases read
      exact ⟨[], noDigits, rfl, fun _ => trivial, fun other stop => fractionDigits_stop stop _ _⟩
  | cons piece input ih =>
      by_cases stop : NoDigit (piece :: input)
      · rw [fractionDigits_stop stop] at read
        cases read
        exact ⟨[], noDigits, rfl, fun _ => stop, fun other stop => fractionDigits_stop stop _ _⟩
      · obtain ⟨c, d, rfl, found⟩ := digit_of_not stop
        rw [fractionDigits, found] at read
        simp only at read
        by_cases fits : n * 10 + d ≤ maxNatural
        · rw [if_pos fits] at read
          obtain ⟨text, all, same, _, again⟩ := ih read
          refine ⟨c :: text, all.cons found, by rw [ofText_cons, List.cons_append, ← same],
            fun empty => absurd empty (List.cons_ne_nil _ _), ?_⟩
          intro other ends
          rw [ofText_cons, List.cons_append, fractionDigits, found]
          simp only
          rw [if_pos fits]
          exact again other ends
        · rw [if_neg fits] at read
          cases read
          -- the digits that no longer fit are skipped over
          obtain ⟨digits, all, same⟩ := skipDigits_taken input
          refine ⟨c :: digits, all.cons found, by rw [ofText_cons, List.cons_append, ← same],
            fun empty => absurd empty (List.cons_ne_nil _ _), ?_⟩
          intro other ends
          rw [ofText_cons, List.cons_append, fractionDigits, found]
          simp only
          rw [if_neg fits, skipDigits_read all ends]

/-- Where the exponent is too long, the reading has stopped and anything may follow. -/
theorem exponentDigits_taken {n : Nat} {exponent : Option Nat}
    (read : exponentDigits n input = (exponent, rest)) :
    ∃ text, AllDigits text ∧ input = .ofText text ++ rest ∧ ∀ other, exponent = none ∨ NoDigit other →
      exponentDigits n (.ofText text ++ other) = (exponent, other) := by
  induction input generalizing n with
  | nil =>
      cases read
      exact ⟨[], noDigits, rfl, fun other ends => exponentDigits_stop (ends.resolve_left nofun) n⟩
  | cons piece input ih =>
      by_cases stop : NoDigit (piece :: input)
      · rw [exponentDigits_stop stop] at read
        cases read
        exact ⟨[], noDigits, rfl, fun other ends => exponentDigits_stop (ends.resolve_left nofun) _⟩
      · obtain ⟨c, d, rfl, found⟩ := digit_of_not stop
        rw [exponentDigits, found] at read
        simp only at read
        by_cases fits : n * 10 + d ≤ 0x7FFFFFFF
        · rw [if_pos fits] at read
          obtain ⟨text, all, same, again⟩ := ih read
          refine ⟨c :: text, all.cons found, by rw [ofText_cons, List.cons_append, ← same], ?_⟩
          intro other ends
          rw [ofText_cons, List.cons_append, exponentDigits, found]
          simp only
          rw [if_pos fits]
          exact again other ends
        · rw [if_neg fits] at read
          cases read
          refine ⟨[c], noDigits.cons found, rfl, fun other _ => ?_⟩
          rw [ofText_cons, List.cons_append, exponentDigits, found]
          simp only
          rw [if_neg fits]
          rfl

end Digits

def AllNumeric (text : List Char) : Prop := ∀ c ∈ text, c.isDigit = true ∨ c ∈ ['-', '+', '.', 'e', 'E']

theorem AllDigits.numeric {digits : List Char} (all : AllDigits digits) : AllNumeric digits :=
  fun c member => .inl (all c member)

theorem AllNumeric.mark {c : Char} {text : List Char} (all : AllNumeric text)
    (known : c ∈ ['-', '+', '.', 'e', 'E']) : AllNumeric (c :: text) :=
  List.forall_mem_cons.mpr ⟨.inr known, all⟩

theorem AllNumeric.digit {c : Char} {text : List Char} (all : AllNumeric text) (digit : c.isDigit = true) :
    AllNumeric (c :: text) :=
  List.forall_mem_cons.mpr ⟨.inl digit, all⟩

theorem AllNumeric.append {text more : List Char} (all : AllNumeric text) (also : AllNumeric more) :
    AllNumeric (text ++ more) :=
  fun _ member => (List.mem_append.mp member).elim (all _) (also _)

/-- A reader took a number off its input, and takes the same one whatever else ends it. -/
structure TakesNumber (read : Input → Except Failure (Number × Input)) (n : Number) (input rest : Input)
    (text : List Char) : Prop where
  numeric : AllNumeric text
  taken : input = .ofText text ++ rest
  again : ∀ other, EndsNumber other → read (.ofText text ++ other) = .ok (n, other)

section Numbers
variable {negative down : Bool} {natural dropped : Nat} {scale : Int} {n : Number} {input rest : Input}

theorem real_taken (made : real negative natural scale input = .ok (n, rest)) :
    input = rest ∧ ∀ other, real negative natural scale other = .ok (n, other) := by
  unfold real at made
  split at made
  · rename_i x found
    cases made
    exact ⟨rfl, real_read found⟩
  · cases made

theorem whole_taken (made : whole negative natural input = .ok (n, rest)) :
    input = rest ∧ ∀ other, whole negative natural other = .ok (n, other) := by
  by_cases plain : ¬ negative = true
  · have read (other : Input) : whole negative natural other = .ok (.integer natural, other) := if_pos plain
    rw [read] at made
    cases made
    exact ⟨rfl, read⟩
  · by_cases edge : natural = 0 ∨ 0x8000000000000000 < natural
    · cases found : Binary64.ofRatio? true natural 1 with
      | none =>
          rw [whole, if_neg plain, if_pos edge, found] at made
          cases made
      | some x =>
          have read (other : Input) : whole negative natural other = .ok (.real x, other) := by
            rw [whole, if_neg plain, if_pos edge, found]
          rw [read] at made
          cases made
          exact ⟨rfl, read⟩
    · have read (other : Input) : whole negative natural other =
          .ok (.integer (-(natural : Int)), other) := by
        rw [whole, if_neg plain, if_neg edge]
      rw [read] at made
      cases made
      exact ⟨rfl, read⟩

theorem close_taken (made : number.close negative natural dropped input = .ok (n, rest)) :
    input = rest ∧ ∀ other, number.close negative natural dropped other = .ok (n, other) := by
  by_cases none : dropped = 0
  · simp only [number.close, if_pos none] at made ⊢
    exact whole_taken made
  · simp only [number.close, if_neg none] at made ⊢
    exact real_taken made

def exponentSign (input : Input) : Bool × Input :=
  match input with
  | .char c :: rest => if c = '+' then (false, rest) else if c = '-' then (true, rest) else (false, input)
  | _ => (false, input)

def exponentBody (negative : Bool) (natural : Nat) (scale : Int) (down : Bool) (input : Input) :
    Except Failure (Number × Input) :=
  match input with
  | [] => failHere .endInValue []
  | piece :: after =>
    match digit? input with
    | none => .error ⟨.badNumber, octetCount (piece :: after) - 1⟩
    | some (d, after) =>
      match exponentDigits d after with
      | (some exponent, rest) =>
        real negative natural (if down then scale - exponent else scale + exponent) rest
      | (none, rest) =>
        if natural ≠ 0 ∧ ¬down then failHere .numberTooLarge rest
        else .ok (.real (Binary64.zero negative), skipDigits rest)

theorem exponentPart_eq (negative : Bool) (natural : Nat) (scale : Int) (input : Input) :
    exponentPart negative natural scale input =
      exponentBody negative natural scale (exponentSign input).1 (exponentSign input).2 := rfl

theorem exponentSign_taken (input : Input) :
    ∃ sign, AllNumeric sign ∧ input = Input.ofText sign ++ (exponentSign input).2 ∧
      ∀ other : Input, (∃ c more, other = .char c :: more ∧ c.isDigit = true) →
        exponentSign (Input.ofText sign ++ other) = ((exponentSign input).1, other) := by
  have plain : ∀ other, (∃ c more, other = .char c :: more ∧ c.isDigit = true) →
      exponentSign other = (false, other) := by
    rintro other ⟨c, more, rfl, digit⟩
    have noPlus : ¬ c = '+' := by rintro rfl; cases digit
    have noMinus : ¬ c = '-' := by rintro rfl; cases digit
    rw [exponentSign, if_neg noPlus, if_neg noMinus]
  unfold exponentSign
  split
  · rename_i c rest
    split
    · rename_i plus
      subst plus
      exact ⟨['+'], noDigits.numeric.mark (by decide), rfl, fun other _ => rfl⟩
    · split
      · rename_i minus
        subst minus
        exact ⟨['-'], noDigits.numeric.mark (by decide), rfl, fun other _ => rfl⟩
      · exact ⟨[], noDigits.numeric, rfl, plain⟩
  · exact ⟨[], noDigits.numeric, rfl, plain⟩

theorem exponentBody_taken (made : exponentBody negative natural scale down input = .ok (n, rest)) :
    ∃ c digits, c.isDigit = true ∧
      TakesNumber (exponentBody negative natural scale down) n input rest (c :: digits) := by
  unfold exponentBody at made
  split at made
  · cases made
  · split at made
    · cases made
    · rename_i d after found
      obtain ⟨c, same, digit⟩ := digit_some found
      have isDigit := digit_of_digitOf digit
      split at made
      · rename_i exponent left read
        obtain ⟨digits, all, taken, again⟩ := exponentDigits_taken read
        obtain ⟨rfl, remade⟩ := real_taken made
        refine ⟨c, digits, isDigit, all.numeric.digit isDigit, ?_, fun other ends => ?_⟩
        · rw [same, taken]
          rfl
        · rw [ofText_cons, List.cons_append, exponentBody, digit_read isDigit]
          simp only
          rw [digitOf_digit isDigit, Option.some.injEq] at digit
          rw [digit, again other (.inr ends.noDigit)]
          exact remade other
      · rename_i left read
        -- an exponent too large to hold: an error upwards, a zero downwards; its other digits are skipped
        obtain ⟨digits, before, taken, again⟩ := exponentDigits_taken read
        obtain ⟨skipped, all, left_eq⟩ := skipDigits_taken left
        by_cases large : natural ≠ 0 ∧ ¬ down = true
        · rw [if_pos large] at made
          cases made
        · rw [if_neg large] at made
          cases made
          refine ⟨c, digits ++ skipped, isDigit, (before.append all).numeric.digit isDigit, ?_,
            fun other ends => ?_⟩
          · rw [same, taken, left_eq]
            simp [← left_eq]
          · rw [ofText_cons, List.cons_append, exponentBody, digit_read isDigit]
            simp only
            rw [digitOf_digit isDigit, Option.some.injEq] at digit
            rw [digit, ofText_append, List.append_assoc, again _ (.inl rfl)]
            simp only
            rw [if_neg large, skipDigits_read all ends.noDigit]

theorem exponentPart_taken (made : exponentPart negative natural scale input = .ok (n, rest)) :
    ∃ text, TakesNumber (exponentPart negative natural scale) n input rest text := by
  rw [exponentPart_eq] at made
  obtain ⟨sign, known, signed, resign⟩ := exponentSign_taken input
  obtain ⟨c, digits, isDigit, all, taken, again⟩ := exponentBody_taken made
  refine ⟨sign ++ c :: digits, known.append all, ?_, fun other ends => ?_⟩
  · rw [ofText_append, List.append_assoc, ← taken]
    exact signed
  · rw [exponentPart_eq, ofText_append, List.append_assoc, resign (Input.ofText (c :: digits) ++ other)
      ⟨c, _, rfl, isDigit⟩]
    exact again other ends

theorem exponentMark_none (ends : EndsNumber rest) : exponentMark? rest = none := by
  unfold exponentMark?
  split
  · rename_i c after
    rw [if_neg (by rintro (e | e); exacts [ends.2.2.1 e, ends.2.2.2 e])]
  · rfl

theorem exponentMark_some {after : Input} (mark : exponentMark? input = some after) :
    ∃ c, (c = 'e' ∨ c = 'E') ∧ input = .char c :: after ∧
      ∀ other, exponentMark? (.char c :: other) = some other := by
  unfold exponentMark? at mark
  split at mark
  · rename_i c rest
    rw [Option.ite_none_right_eq_some, Option.some.injEq] at mark
    obtain ⟨letter, rfl⟩ := mark
    exact ⟨c, letter, rfl, fun other => if_pos letter⟩
  · cases mark

section Fraction
variable {c : Char} {d m count : Nat} {digits left inner : Input}

theorem fractionPart_marked (digit : c.isDigit = true)
    (read : fractionDigits natural 0 (.char c :: digits) = (m, count, left))
    (mark : exponentMark? left = some inner) : fractionPart negative natural dropped (.char c :: digits) =
      exponentPart negative m ((dropped : Int) - count) inner := by
  rw [fractionPart, digit_read digit]
  simp only [read, mark]

theorem fractionPart_unmarked (digit : c.isDigit = true)
    (read : fractionDigits natural 0 (.char c :: digits) = (m, count, left))
    (unmarked : exponentMark? left = none) :
    fractionPart negative natural dropped (.char c :: digits) =
      real negative m ((dropped : Int) - count) left := by
  rw [fractionPart, digit_read digit]
  simp only [read, unmarked]

theorem fractionDigits_first (found : digitOf? c = some d)
    (read : fractionDigits natural 0 (.char c :: digits) = (m, count, left)) :
    ∃ text, AllDigits (c :: text) ∧ digits = Input.ofText text ++ left ∧ ∀ other, NoDigit other →
      fractionDigits natural 0 (.char c :: (Input.ofText text ++ other)) = (m, count, other) := by
  obtain ⟨text, all, taken, nothing, again⟩ := fractionDigits_taken read
  cases text with
  | nil =>
      have none : digitOf? c = none := nothing rfl
      rw [none] at found
      cases found
  | cons e text =>
      rw [ofText_cons, List.cons_append] at taken
      obtain ⟨first, rest⟩ := List.cons.inj taken
      cases first
      exact ⟨text, all, rest, again⟩

theorem fractionPart_taken (made : fractionPart negative natural dropped input = .ok (n, rest)) :
    ∃ text, TakesNumber (fractionPart negative natural dropped) n input rest text := by
  cases first : digit? input with
  | none =>
      rw [fractionPart, first] at made
      simp only at made
      split at made
      · cases made
      · cases made
  | some taken =>
      obtain ⟨d, after⟩ := taken
      obtain ⟨c, rfl, found⟩ := digit_some first
      have digit := digit_of_digitOf found
      cases read : fractionDigits natural 0 (.char c :: after) with
      | mk m counted =>
          obtain ⟨count, left⟩ := counted
          obtain ⟨text, all, rfl, again⟩ := fractionDigits_first found read
          cases mark : exponentMark? left with
          | some inner =>
              rw [fractionPart_marked digit read mark] at made
              obtain ⟨e, letter, rfl, remark⟩ := exponentMark_some mark
              obtain ⟨more, numeric, moreTaken, moreAgain⟩ := exponentPart_taken made
              have known : e ∈ ['-', '+', '.', 'e', 'E'] := by rcases letter with rfl | rfl <;> decide
              refine ⟨c :: text ++ e :: more, all.numeric.append (numeric.mark known),
                ?_, fun other ends => ?_⟩
              · rw [moreTaken]
                simp
              · have stop : NoDigit (.char e :: (Input.ofText more ++ other)) := by
                  rcases letter with rfl | rfl <;> rfl
                have whole : Input.ofText (c :: text ++ e :: more) ++ other =
                    .char c :: (Input.ofText text ++ .char e :: (Input.ofText more ++ other)) := by simp
                rw [whole, fractionPart_marked digit (again _ stop) (remark _)]
                exact moreAgain other ends
          | none =>
              rw [fractionPart_unmarked digit read mark] at made
              obtain ⟨rfl, remade⟩ := real_taken made
              refine ⟨c :: text, all.numeric, rfl, fun other ends => ?_⟩
              rw [ofText_cons, List.cons_append, fractionPart_unmarked digit (again other ends.noDigit)
                (exponentMark_none ends)]
              exact remade other

end Fraction

theorem tail_ends (ends : EndsNumber rest) :
    number.tail negative natural dropped rest = number.close negative natural dropped rest := by
  unfold number.tail
  split
  · rename_i c after
    rw [if_neg ends.2.1, if_neg (by rintro (e | e); exacts [ends.2.2.1 e, ends.2.2.2 e])]
  · rfl

theorem tail_taken (made : number.tail negative natural dropped input = .ok (n, rest)) :
    ∃ text, TakesNumber (number.tail negative natural dropped) n input rest text := by
  have closed (made : number.close negative natural dropped input = .ok (n, rest)) :
      ∃ text, TakesNumber (number.tail negative natural dropped) n input rest text := by
    obtain ⟨rfl, again⟩ := close_taken made
    exact ⟨[], noDigits.numeric, rfl, fun other ends => (tail_ends ends).trans (again other)⟩
  unfold number.tail at made
  split at made
  · rename_i c after
    split at made
    · rename_i point
      obtain ⟨text, numeric, taken, again⟩ := fractionPart_taken made
      refine ⟨c :: text, numeric.mark (by rw [point]; decide), by rw [taken]; rfl, fun other ends => ?_⟩
      rw [ofText_cons, List.cons_append, number.tail, if_pos point]
      exact again other ends
    · rename_i noPoint
      split at made
      · rename_i letter
        obtain ⟨text, numeric, taken, again⟩ := exponentPart_taken made
        have known : c ∈ ['-', '+', '.', 'e', 'E'] := by rcases letter with rfl | rfl <;> decide
        refine ⟨c :: text, numeric.mark known, by rw [taken]; rfl, fun other ends => ?_⟩
        rw [ofText_cons, List.cons_append, number.tail, if_neg noPoint, if_pos letter]
        exact again other ends
      · exact closed made
  · exact closed made

theorem number_taken (made : number negative input = .ok (n, rest)) :
    ∃ c text, c.isDigit = true ∧ TakesNumber (number negative) n input rest (c :: text) := by
  unfold number at made
  split at made
  · cases made
  · split at made
    · cases made
    · rename_i after found
      obtain ⟨c, same, digit⟩ := digit_some found
      have isDigit := digit_of_digitOf digit
      rw [digitOf_digit isDigit, Option.some.injEq] at digit
      split at made
      · cases made
      · rename_i alone
        -- a leading zero stands alone, here and in front of any other rest
        obtain ⟨text, numeric, taken, again⟩ := tail_taken made
        refine ⟨c, text, isDigit, numeric.digit isDigit, by rw [same, taken]; rfl, fun other ends => ?_⟩
        have alone := noDigit_of_none (by simpa using alone)
        rw [taken] at alone
        have stop : NoDigit (.ofText text ++ other) := alone.instead ends.noDigit
        rw [ofText_cons, List.cons_append, number, digit_read isDigit, digit]
        simp only
        rw [digit_none stop]
        exact again other ends
    · rename_i d after nonzero found
      obtain ⟨c, same, digit⟩ := digit_some found
      have isDigit := digit_of_digitOf digit
      cases read : wholeDigits d 0 after with
      | mk m counted =>
          obtain ⟨left, more⟩ := counted
          rw [read] at made
          simp only at made
          obtain ⟨stop, digits, all, digitsTaken, digitsAgain⟩ := wholeDigits_taken read
          obtain ⟨text, numeric, taken, again⟩ := tail_taken made
          refine ⟨c, digits ++ text, isDigit, (all.numeric.append numeric).digit isDigit, ?_,
            fun other ends => ?_⟩
          · rw [same, digitsTaken, taken]
            simp
          · have stops : NoDigit (.ofText text ++ other) := (taken ▸ stop).instead ends.noDigit
            rw [ofText_cons, List.cons_append, number, digit_read isDigit]
            rw [digitOf_digit isDigit, Option.some.injEq] at digit
            rw [digit]
            split
            · contradiction
            · rename_i zero
              rw [Option.some.injEq, Prod.mk.injEq] at zero
              exact absurd zero.1 nonzero
            · rename_i again_
              rw [Option.some.injEq, Prod.mk.injEq] at again_
              obtain ⟨rfl, rfl⟩ := again_
              rw [ofText_append, List.append_assoc, digitsAgain _ stops]
              exact again other ends

/-- A text that is read as a number goes through the reader of numbers, behind its minus sign if it
has one. -/
theorem Number.ReadAs.number {text : List Char} (read : n.ReadAs text) :
    number false (.ofText text) = .ok (n, []) ∨
      ∃ more, text = '-' :: more ∧ number true (.ofText more) = .ok (n, []) := by
  obtain ⟨c, more, rfl, start⟩ := read.starts
  have whole := read.read 0 0 [] trivial
  rw [List.append_nil, ofText_cons] at whole
  rcases start with rfl | digit
  · rw [value_minus] at whole
    obtain ⟨⟨m, rest⟩, made, same⟩ := map_ok whole
    cases same
    exact .inr ⟨more, rfl, made⟩
  · obtain ⟨d, found⟩ := Option.isSome_iff_exists.mp digit
    rw [value_digit (digit_of_digitOf found)] at whole
    obtain ⟨⟨m, rest⟩, made, same⟩ := map_ok whole
    cases same
    exact .inl made

theorem Number.ReadAs.numeric {text : List Char} (read : n.ReadAs text) : AllNumeric text := by
  rcases read.number with made | ⟨more, rfl, made⟩
  · obtain ⟨_, digits, _, all, taken, _⟩ := number_taken made
    rw [List.append_nil] at taken
    exact ofText_injective taken ▸ all
  · obtain ⟨_, digits, _, all, taken, _⟩ := number_taken made
    rw [List.append_nil] at taken
    rw [ofText_injective taken]
    exact all.mark (by decide)

end Numbers

end AttestationService.Json

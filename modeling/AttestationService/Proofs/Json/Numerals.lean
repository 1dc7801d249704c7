import AttestationService.Json.Writer
import AttestationService.Proofs.Json.Reals
import AttestationService.Proofs.Json.Spelling
import AttestationService.Proofs.Number.Shortest

/-!
Numerals. Whatever number the reader returns, its text is a numeral that can be read again: an integer
comes back as itself, a real as some real.
-/

namespace AttestationService.Json

def AllDigits (text : List Char) : Prop := ∀ c ∈ text, c.isDigit = true

def NoDigit : Input → Prop
  | .char c :: _ => digitOf? c = none
  | _ => True

theorem EndsNumber.noDigit {rest : Input} (ends : EndsNumber rest) : NoDigit rest := by
  unfold NoDigit
  split
  · exact ends.1
  · trivial

section Digits
variable {c : Char} {digits more : List Char} {rest : Input}

theorem AllDigits.head (all : AllDigits (c :: digits)) : c.isDigit = true := all c List.mem_cons_self

theorem AllDigits.tail (all : AllDigits (c :: digits)) : AllDigits digits :=
  fun other member => all other (List.mem_cons_of_mem c member)

theorem AllDigits.append (all : AllDigits digits) (also : AllDigits more) : AllDigits (digits ++ more) :=
  fun _ member => (List.mem_append.mp member).elim (all _) (also _)

theorem AllDigits.replicate (n : Nat) : AllDigits (List.replicate n '0') := fun _ member => by
  rw [List.eq_of_mem_replicate member]
  rfl

theorem digitOf_digit (digit : c.isDigit = true) : digitOf? c = some (c.toNat - '0'.toNat) := by
  have bounds : '0' ≤ c ∧ c ≤ '9' := by simpa [Char.isDigit, Char.le_def] using digit
  rw [digitOf?, if_pos bounds]

theorem digitOf_le {d : Nat} (digit : digitOf? c = some d) : d ≤ 9 := by
  rw [digitOf?, Option.ite_none_right_eq_some] at digit
  obtain ⟨⟨_, high⟩, same⟩ := digit
  rw [Option.some.injEq] at same
  have code : c.toNat ≤ '9'.toNat := Char.le_def.mp high
  simp only [Char.reduceToNat] at code same
  omega

theorem zero_of_digit (digit : c.isDigit = true) (zero : c.toNat - '0'.toNat = 0) : c = '0' := by
  have low : '0'.toNat ≤ c.toNat := by
    have bounds : '0' ≤ c ∧ c ≤ '9' := by simpa [Char.isDigit, Char.le_def] using digit
    exact Char.le_def.mp bounds.1
  exact Char.toNat_inj.mp (by omega)

theorem digit_read (digit : c.isDigit = true) (rest : Input) :
    digit? (.char c :: rest) = some (c.toNat - '0'.toNat, rest) := by
  rw [digit?, digitOf_digit digit]
  rfl

section Stop
variable (stop : NoDigit rest)
include stop

theorem digit_none : digit? rest = none := by
  unfold digit?
  split
  · rename_i c rest
    rw [show digitOf? c = none from stop]
    rfl
  · rfl

theorem wholeDigits_stop (n dropped : Nat) : wholeDigits n dropped rest = (n, dropped, rest) := by
  unfold wholeDigits
  split
  · rename_i c rest
    rw [show digitOf? c = none from stop]
  · rfl

theorem skipDigits_stop : skipDigits rest = rest := by
  unfold skipDigits
  split
  · rename_i c rest
    rw [show digitOf? c = none from stop]
    rfl
  · rfl

theorem fractionDigits_stop (n taken : Nat) : fractionDigits n taken rest = (n, taken, rest) := by
  unfold fractionDigits
  split
  · rename_i c rest
    rw [show digitOf? c = none from stop]
  · rfl

theorem exponentDigits_stop (n : Nat) : exponentDigits n rest = (some n, rest) := by
  unfold exponentDigits
  split
  · rename_i c rest
    rw [show digitOf? c = none from stop]
  · rfl

end Stop

theorem le_ofDigitChars (digits : List Char) (n : Nat) : n ≤ Nat.ofDigitChars 10 digits n := by
  rw [Nat.ofDigitChars_eq_ofDigitChars_zero]
  have power : 0 < 10 ^ digits.length := by positivity
  nlinarith

theorem ofDigitChars_lt (all : AllDigits digits) :
    Nat.ofDigitChars 10 digits 0 < 10 ^ digits.length := by
  induction digits with
  | nil => decide
  | cons c digits ih =>
      have rest := ih all.tail
      have digit := digitOf_le (digitOf_digit all.head)
      rw [Nat.ofDigitChars_cons, Nat.ofDigitChars_eq_ofDigitChars_zero, List.length_cons, Nat.pow_succ]
      simp only [Char.reduceToNat] at digit ⊢
      nlinarith

theorem wholeDigits_read (all : AllDigits digits) {n : Nat}
    (fits : Nat.ofDigitChars 10 digits n ≤ maxNatural) (stop : NoDigit rest) :
    wholeDigits n 0 (.ofText digits ++ rest) = (Nat.ofDigitChars 10 digits n, 0, rest) := by
  induction digits generalizing n with
  | nil => exact wholeDigits_stop stop n 0
  | cons c digits ih =>
      rw [Nat.ofDigitChars_cons] at fits ⊢
      have below := (le_ofDigitChars digits _).trans fits
      rw [ofText_cons, List.cons_append, wholeDigits, digitOf_digit all.head]
      simp only [true_and]
      rw [Nat.mul_comm, if_pos below]
      exact ih all.tail fits

theorem skipDigits_read (all : AllDigits digits) (stop : NoDigit rest) :
    skipDigits (.ofText digits ++ rest) = rest := by
  induction digits with
  | nil => exact skipDigits_stop stop
  | cons c digits ih =>
      rw [ofText_cons, List.cons_append, skipDigits, digitOf_digit all.head]
      exact ih all.tail

/-- What counts of digits that spell `whole`: `natural`, the number of those `taken` up. The digits that
are `left` only make the number larger. -/
structure Kept (whole length natural taken left : Nat) : Prop where
  length : taken + left = length
  few : natural ≤ maxNatural
  below : natural * 10 ^ left ≤ whole
  exact : whole ≤ maxNatural → natural = whole ∧ left = 0

theorem fractionDigits_read (all : AllDigits digits) {n : Nat} (small : n ≤ maxNatural)
    (before : Nat) : ∃ natural taken left,
      Kept (Nat.ofDigitChars 10 digits n) digits.length natural taken left ∧
      ∀ rest, NoDigit rest → fractionDigits n before (.ofText digits ++ rest) =
        (natural, before + taken, rest) := by
  induction digits generalizing n before with
  | nil => exact ⟨n, 0, 0, ⟨rfl, small, by simp, fun _ => ⟨rfl, rfl⟩⟩,
      fun rest stop => fractionDigits_stop stop n before⟩
  | cons c digits ih =>
      have others := all.tail
      have first := digitOf_digit all.head
      rw [Nat.ofDigitChars_cons]
      by_cases fits : 10 * n + (c.toNat - '0'.toNat) ≤ maxNatural
      · obtain ⟨natural, taken, left, kept, read⟩ := ih others fits (before + 1)
        have length : taken + 1 + left = digits.length + 1 := by rw [← kept.length]; omega
        refine ⟨natural, taken + 1, left, ⟨length, kept.few, kept.below, kept.exact⟩,
          fun rest stop => ?_⟩
        rw [ofText_cons, List.cons_append, fractionDigits, first]
        simp only
        rw [Nat.mul_comm n 10, if_pos fits, read rest stop, Nat.add_assoc, Nat.add_comm taken 1]
      · -- the digits from here on do not count
        refine ⟨n, 0, digits.length + 1, ⟨by simp, small, ?_, ?_⟩, fun rest stop => ?_⟩
        · rw [Nat.ofDigitChars_eq_ofDigitChars_zero, Nat.pow_succ]
          have power : 0 < 10 ^ digits.length := by positivity
          nlinarith
        · intro whole
          exact absurd ((le_ofDigitChars digits _).trans whole) fits
        · rw [ofText_cons, List.cons_append, fractionDigits, first]
          simp only
          rw [Nat.mul_comm n 10, if_neg fits, skipDigits_read others stop]
          rfl

theorem exponentDigits_read (all : AllDigits digits) {n : Nat} (small : n ≤ 0x7FFFFFFF)
    (stop : NoDigit rest) :
    (Nat.ofDigitChars 10 digits n ≤ 0x7FFFFFFF ∧
      exponentDigits n (.ofText digits ++ rest) = (some (Nat.ofDigitChars 10 digits n), rest)) ∨
    (0x7FFFFFFF < Nat.ofDigitChars 10 digits n ∧ ∃ after,
      exponentDigits n (.ofText digits ++ rest) = (none, after) ∧ skipDigits after = rest) := by
  induction digits generalizing n with
  | nil => exact .inl ⟨small, exponentDigits_stop stop n⟩
  | cons c digits ih =>
      have others := all.tail
      rw [Nat.ofDigitChars_cons, ofText_cons, List.cons_append, exponentDigits,
        digitOf_digit all.head]
      simp only
      rw [Nat.mul_comm n 10]
      by_cases fits : 10 * n + (c.toNat - '0'.toNat) ≤ 0x7FFFFFFF
      · rw [if_pos fits]
        exact ih others fits
      · rw [if_neg fits]
        have above := le_ofDigitChars digits (10 * n + (c.toNat - '0'.toNat))
        exact .inr ⟨by omega, _, rfl, skipDigits_read others stop⟩

end Digits

section Parts
variable {negative : Bool} {natural : Nat} {scale : Int} {c : Char} {digits : List Char} {rest : Input}

theorem real_read {y : Binary64} (made : realOf? negative natural scale = some y) (rest : Input) :
    real negative natural scale rest = .ok (.real y, rest) := by
  rw [real, made]

theorem exponentPart_up (all : AllDigits (c :: digits))
    (fits : Nat.ofDigitChars 10 (c :: digits) 0 ≤ 0x7FFFFFFF) (stop : NoDigit rest) :
    exponentPart negative natural scale (.char '+' :: (Input.ofText (c :: digits) ++ rest)) =
      real negative natural (scale + Nat.ofDigitChars 10 (c :: digits) 0) rest := by
  have digit := all.head
  have few : c.toNat - '0'.toNat ≤ 0x7FFFFFFF := (digitOf_le (digitOf_digit digit)).trans (by decide)
  have others := all.tail
  rw [Nat.ofDigitChars_cons, Nat.mul_zero, Nat.zero_add] at fits ⊢
  unfold exponentPart
  rw [ofText_cons, List.cons_append]
  simp only [if_true, digit_read digit]
  rcases exponentDigits_read others few stop with ⟨_, read⟩ | ⟨long, _⟩
  · rw [read]
    rfl
  · omega

/-- A negative exponent that is too long makes the number zero. -/
theorem exponentPart_down (all : AllDigits (c :: digits)) (stop : NoDigit rest) :
    exponentPart negative natural scale (.char '-' :: (Input.ofText (c :: digits) ++ rest)) =
      if Nat.ofDigitChars 10 (c :: digits) 0 ≤ 0x7FFFFFFF then
        real negative natural (scale - Nat.ofDigitChars 10 (c :: digits) 0) rest
      else .ok (.real (Binary64.zero negative), rest) := by
  have digit := all.head
  have few : c.toNat - '0'.toNat ≤ 0x7FFFFFFF := (digitOf_le (digitOf_digit digit)).trans (by decide)
  have others := all.tail
  have minus : ¬ '-' = '+' := by decide
  rw [Nat.ofDigitChars_cons, Nat.mul_zero, Nat.zero_add]
  unfold exponentPart
  rw [ofText_cons, List.cons_append]
  simp only [if_neg minus, if_true, digit_read digit]
  rcases exponentDigits_read others few stop with ⟨fits, read⟩ | ⟨long, after, read, skipped⟩
  · rw [read, if_pos fits]
  · rw [read, if_neg (by omega)]
    simp only [not_true_eq_false, and_false, if_false]
    rw [skipped]

def fractionEnd (negative : Bool) (natural : Nat) (scale : Int) (rest : Input) :
    Except Failure (Number × Input) :=
  match exponentMark? rest with
  | some rest => exponentPart negative natural scale rest
  | none => real negative natural scale rest

theorem fractionPart_read (negative : Bool) (all : AllDigits (c :: digits))
    (small : natural ≤ maxNatural) :
    ∃ more taken left,
      Kept (Nat.ofDigitChars 10 (c :: digits) natural) (digits.length + 1) more taken left ∧
      ∀ rest, NoDigit rest →
        fractionPart negative natural 0 (.ofText (c :: digits) ++ rest) =
          fractionEnd negative more (-taken) rest := by
  obtain ⟨more, taken, left, kept, read⟩ := fractionDigits_read all small 0
  refine ⟨more, taken, left, kept, fun rest stop => ?_⟩
  have here := read rest stop
  unfold fractionPart
  rw [ofText_cons, List.cons_append] at here ⊢
  rw [digit_read all.head]
  simp only
  rw [here]
  simp only [Nat.zero_add, Nat.cast_zero, zero_sub]
  rfl

theorem tail_close (ends : EndsNumber rest) :
    number.tail negative natural 0 rest = whole negative natural rest := by
  unfold number.tail
  split
  · rename_i c after
    rw [if_neg ends.2.1, if_neg (by rintro (e | e); exacts [ends.2.2.1 e, ends.2.2.2 e])]
    rfl
  · rfl

theorem number_read (all : AllDigits (c :: digits)) (first : c ≠ '0' ∨ digits = [])
    (fits : Nat.ofDigitChars 10 (c :: digits) 0 ≤ maxNatural) (stop : NoDigit rest) :
    number negative (.ofText (c :: digits) ++ rest) =
      number.tail negative (Nat.ofDigitChars 10 (c :: digits) 0) 0 rest := by
  rw [Nat.ofDigitChars_cons, Nat.mul_zero, Nat.zero_add] at fits ⊢
  have digit := all.head
  have others := all.tail
  rw [ofText_cons, List.cons_append]
  unfold number
  simp only
  rw [digit_read digit]
  split
  · contradiction
  · -- a zero in front stands alone
    rename_i zero
    rw [Option.some.injEq, Prod.mk.injEq] at zero
    obtain ⟨zero, rfl⟩ := zero
    obtain rfl := first.resolve_left (not_not_intro (zero_of_digit digit zero))
    rw [ofText_nil, List.nil_append, digit_none stop, zero]
    rfl
  · rename_i same
    rw [Option.some.injEq, Prod.mk.injEq] at same
    obtain ⟨rfl, rfl⟩ := same
    rw [wholeDigits_read others fits stop]

end Parts

section Texts
variable {n : Number} {text : List Char}

theorem solid_of_digit {c : Char} (digit : c.isDigit = true) : isSpace c = false := by
  cases space : isSpace c with
  | false => rfl
  | true =>
      simp only [isSpace, Bool.or_eq_true, beq_iff_eq] at space
      rcases space with ((rfl | rfl) | rfl) | rfl <;> cases digit

theorem value_digit {c : Char} (digit : c.isDigit = true) (fuel depth : Nat) (rest : Input) :
    value (fuel + 1) depth (.char c :: rest) =
      (number false (.char c :: rest)).map fun (n, rest) => (.number n, rest) := by
  unfold value
  rw [skipSpace_stop (solid_of_digit digit)]
  simp only
  split
  iterate 7 cases digit
  rw [digitOf_digit digit]
  rfl

theorem value_minus (fuel depth : Nat) (rest : Input) :
    value (fuel + 1) depth (.char '-' :: rest) = (number true rest).map fun (n, rest) =>
      (.number n, rest) := by
  unfold value
  rfl

theorem readAs_plain (starts : ∃ c rest, text = c :: rest ∧ c.isDigit = true)
    (read : ∀ rest, EndsNumber rest → number false (.ofText text ++ rest) = .ok (n, rest)) :
    n.ReadAs text := by
  obtain ⟨c, digits, rfl, digit⟩ := starts
  refine ⟨⟨c, digits, rfl, .inr (by rw [digitOf_digit digit]; rfl)⟩, fun fuel depth rest ends => ?_⟩
  have here := read rest ends
  rw [ofText_cons, List.cons_append] at here ⊢
  rw [value_digit digit, here]
  rfl

theorem readAs_minus
    (read : ∀ rest, EndsNumber rest → number true (.ofText text ++ rest) = .ok (n, rest)) :
    n.ReadAs ('-' :: text) := by
  refine ⟨⟨'-', text, rfl, .inl rfl⟩, fun fuel depth rest ends => ?_⟩
  rw [ofText_cons, List.cons_append, value_minus, read rest ends]
  rfl

end Texts

section Integers

theorem toDigits_all (n : Nat) : AllDigits (Nat.toDigits 10 n) := fun _ member =>
  Nat.isDigit_of_mem_toDigits (by decide) (by decide) member

theorem toDigits_cons (n : Nat) : ∃ c digits, Nat.toDigits 10 n = c :: digits ∧
    (c ≠ '0' ∨ digits = []) ∧ (0 < n → c ≠ '0') := by
  induction n using Nat.strongRecOn with
  | ind n ih =>
      by_cases small : n < 10
      · have chars : ∀ n < 10, 0 < n → Nat.digitChar n ≠ '0' := by decide
        exact ⟨_, _, Nat.toDigits_of_lt_base small, .inr rfl, chars n small⟩
      · obtain ⟨c, digits, same, _, nonzero⟩ := ih (n / 10) (by omega)
        rw [Nat.toDigits_of_base_le (by decide) (by omega), same]
        exact ⟨c, _, rfl, .inl (nonzero (by omega)), fun _ => nonzero (by omega)⟩

theorem number_natural {n : Nat} (small : n ≤ maxNatural) {rest : Input} (ends : EndsNumber rest)
    (negative : Bool) :
    number negative (.ofText (Nat.toDigits 10 n) ++ rest) = whole negative n rest := by
  have all := toDigits_all n
  have same := Nat.ofDigitChars_ten_toDigits (n := n)
  obtain ⟨c, digits, text, first, _⟩ := toDigits_cons n
  rw [text] at all same ⊢
  rw [number_read all first (by omega) ends.noDigit, same, tail_close ends]

/-- An integer of 64 bits, signed or unsigned, is read as it was written. -/
theorem integer_readAs {n : Int} (low : -2 ^ 63 ≤ n) (high : n < 2 ^ 64) :
    (Number.integer n).ReadAs (numberText (.integer n)) := by
  have starts (k : Nat) : ∃ c rest, Nat.toDigits 10 k = c :: rest ∧ c.isDigit = true := by
    obtain ⟨c, digits, text, _⟩ := toDigits_cons k
    exact ⟨c, digits, text, toDigits_all k c (text ▸ List.mem_cons_self)⟩
  rw [numberText, Int.toString_eq_repr, Int.repr_eq_if]
  split
  · rename_i up
    rw [Nat.toList_repr]
    refine readAs_plain (starts _) fun rest ends => ?_
    rw [number_natural (by unfold maxNatural; omega) ends, whole, if_pos (by decide),
      Int.toNat_of_nonneg up]
  · rename_i down
    rw [String.toList_append, Nat.toList_repr]
    show Number.ReadAs _ ('-' :: Nat.toDigits 10 (-n).toNat)
    refine readAs_minus fun rest ends => ?_
    rw [number_natural (by unfold maxNatural; omega) ends, whole, if_neg (by decide),
      if_neg (by omega), Int.toNat_of_nonneg (by omega), Int.neg_neg]

end Integers

end AttestationService.Json

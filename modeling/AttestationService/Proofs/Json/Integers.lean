import AttestationService.Proofs.Json.Results

/-!
Integers as a document may spell them: without a needless zero in front, without a fraction or an exponent,
and without a minus sign before zero. Each integer has one such spelling, the one in which it is written.
-/

namespace AttestationService.Json

def IsDecimal (digits : List Char) : Prop :=
  AllDigits digits ∧ ∃ c rest, digits = c :: rest ∧ (c ≠ '0' ∨ rest = [])

inductive SpellsInteger : Number → List Char → Prop where
  | natural {digits : List Char} (decimal : IsDecimal digits) :
      SpellsInteger (.integer (Nat.ofDigitChars 10 digits 0)) digits
  | negative {digits : List Char} (decimal : IsDecimal digits)
      (nonzero : Nat.ofDigitChars 10 digits 0 ≠ 0) :
      SpellsInteger (.integer (-(Nat.ofDigitChars 10 digits 0 : Int))) ('-' :: digits)

def Number.Whole (n : Number) : Prop := ∃ k : Int, n = .integer k ∧ -2 ^ 63 ≤ k ∧ k < 2 ^ 64

def AllWhole (numbers : List Number) : Prop := ∀ n ∈ numbers, n.Whole

theorem AllWhole.proper {numbers : List Number} (whole : AllWhole numbers) : AllProper numbers := by
  intro n member
  obtain ⟨k, rfl, low, high⟩ := whole n member
  exact ⟨low, high⟩

section Digits
variable {c : Char} {digits : List Char}

theorem digitChar_digit (digit : c.isDigit = true) : Nat.digitChar (c.toNat - '0'.toNat) = c := by
  have bounds : '0' ≤ c ∧ c ≤ '9' := by simpa [Char.isDigit, Char.le_def] using digit
  have low : '0'.toNat ≤ c.toNat := Char.le_def.mp bounds.1
  have high : c.toNat ≤ '9'.toNat := Char.le_def.mp bounds.2
  have chars : ∀ n < 10, (Nat.digitChar n).toNat = n + '0'.toNat := by decide
  apply Char.toNat_inj.mp
  rw [chars _ (by simp only [Char.reduceToNat] at low high ⊢; omega)]
  exact Nat.sub_add_cancel low

theorem ofDigitChars_pos (all : AllDigits (c :: digits)) (first : c ≠ '0') :
    0 < Nat.ofDigitChars 10 (c :: digits) 0 := by
  have positive : c.toNat - '0'.toNat ≠ 0 := fun zero => first (zero_of_digit all.head zero)
  rw [Nat.ofDigitChars_cons]
  have grows := le_ofDigitChars digits (10 * 0 + (c.toNat - '0'.toNat))
  omega

theorem toDigits_ofDigitChars (all : AllDigits (c :: digits)) (first : c ≠ '0' ∨ digits = []) :
    Nat.toDigits 10 (Nat.ofDigitChars 10 (c :: digits) 0) = c :: digits := by
  -- from the last digit, as the digits of a number are made
  induction digits using List.reverseRecOn with
  | nil =>
      have digit := digitOf_le (digitOf_digit all.head)
      simp only [Nat.ofDigitChars_cons, Nat.ofDigitChars_nil, Nat.mul_zero, Nat.zero_add]
      rw [Nat.toDigits_of_lt_base (by omega), digitChar_digit all.head]
  | append_singleton front last ih =>
      have nonzero : c ≠ '0' := first.resolve_right (by simp)
      have inFront : AllDigits (c :: front) := fun d member => all d (by
        rcases List.mem_cons.mp member with rfl | later <;> simp [*])
      have digit : last.isDigit = true := all last (by simp)
      have small := digitOf_le (digitOf_digit digit)
      have some_ := ofDigitChars_pos inFront nonzero
      rw [← List.cons_append, Nat.ofDigitChars_append, Nat.ofDigitChars_cons, Nat.ofDigitChars_nil,
        ← Nat.toDigits_append_toDigits (by decide) some_ (by omega), ih inFront (.inl nonzero),
        Nat.toDigits_of_lt_base (by omega), digitChar_digit digit]

theorem IsDecimal.toDigits {digits : List Char} (decimal : IsDecimal digits) :
    Nat.toDigits 10 (Nat.ofDigitChars 10 digits 0) = digits := by
  obtain ⟨all, c, rest, rfl, first⟩ := decimal
  exact toDigits_ofDigitChars all first

theorem toDigits_isDecimal (n : Nat) : IsDecimal (Nat.toDigits 10 n) := by
  obtain ⟨c, digits, same, first, _⟩ := toDigits_cons n
  exact ⟨toDigits_all n, c, digits, same, first⟩

end Digits

section Integers
variable {n : Number} {text : List Char} {k : Int}

theorem numberText_natural (k : Nat) : numberText (.integer k) = Nat.toDigits 10 k := by
  rw [numberText, Int.toString_eq_repr, Int.repr_eq_if, if_pos (Int.natCast_nonneg k), Int.toNat_natCast,
    Nat.toList_repr]

theorem numberText_negative {k : Nat} (nonzero : k ≠ 0) :
    numberText (.integer (-(k : Int))) = '-' :: Nat.toDigits 10 k := by
  rw [numberText, Int.toString_eq_repr, Int.repr_eq_if, if_neg (by omega), String.toList_append,
    Int.neg_neg, Int.toNat_natCast, Nat.toList_repr]
  rfl

/-- However an integer is spelled, it is spelled as it is written. -/
theorem SpellsInteger.text_eq (spelled : SpellsInteger n text) : text = numberText n := by
  cases spelled with
  | natural decimal => rw [numberText_natural, decimal.toDigits]
  | negative decimal nonzero => rw [numberText_negative nonzero, decimal.toDigits]

theorem integer_spells (k : Int) : SpellsInteger (.integer k) (numberText (.integer k)) := by
  have same (n : Nat) : Nat.ofDigitChars 10 (Nat.toDigits 10 n) 0 = n := Nat.ofDigitChars_ten_toDigits
  rcases Int.eq_nat_or_neg k with ⟨n, rfl | rfl⟩
  · have spelled := SpellsInteger.natural (toDigits_isDecimal n)
    rwa [same, ← numberText_natural] at spelled
  · by_cases zero : n = 0
    · subst zero
      exact .natural (toDigits_isDecimal 0)
    · have spelled := SpellsInteger.negative (toDigits_isDecimal n) (by rwa [same])
      rwa [same, ← numberText_negative zero] at spelled

theorem Number.Whole.readAs (whole : n.Whole) : n.ReadAs (numberText n) := by
  obtain ⟨k, rfl, low, high⟩ := whole
  exact integer_readAs low high

end Integers

end AttestationService.Json

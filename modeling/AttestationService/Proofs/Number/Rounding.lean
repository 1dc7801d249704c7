import AttestationService.Number.Binary64
import Mathlib.Algebra.Order.Field.Power
import Mathlib.Data.Rat.Cast.Order
import Mathlib.Tactic.FieldSimp
import Mathlib.Tactic.Linarith
import Mathlib.Tactic.NormNum
import Mathlib.Tactic.Positivity
import Mathlib.Tactic.Ring

/-!
Rounding to a double, over the rationals. A quotient is too large only from halfway past the largest
double on, and what it is rounded to exceeds it by half a unit in the last place at most.
-/

namespace AttestationService.Binary64

/-- What a double has to be to be one: its mantissa has 53 bits, and it is not too large. -/
structure Proper (x : Binary64) : Prop where
  mantissa : x.mantissa < 2 ^ 53
  exponent : x.exponent ≤ 971

def magnitude (x : Binary64) : ℚ := x.mantissa * 2 ^ x.exponent

/-- Halfway from the largest double to the power of two after it. -/
def limit : ℚ := (2 ^ 53 - 1 / 2) * 2 ^ (971 : ℤ)

theorem zero_proper (negative : Bool) : (zero negative).Proper :=
  ⟨show 0 < 2 ^ 53 by decide, show (-1074 : ℤ) ≤ 971 by decide⟩

theorem magnitude_zero (negative : Bool) : (zero negative).magnitude = 0 := by
  simp [magnitude, zero]

theorem magnitude_nonneg (x : Binary64) : 0 ≤ x.magnitude := by
  unfold magnitude
  positivity

theorem ratio_magnitude (x : Binary64) : 0 < x.ratio.2 ∧ (x.ratio.1 : ℚ) / x.ratio.2 = x.magnitude := by
  unfold ratio magnitude
  split
  · rename_i whole
    refine ⟨Nat.one_pos, ?_⟩
    lift x.exponent to ℕ using whole with e
    simp
  · rename_i fraction
    obtain ⟨e, same⟩ : ∃ e : ℕ, x.exponent = -e := ⟨(-x.exponent).toNat, by omega⟩
    simp only [same, neg_neg, Int.toNat_natCast, Nat.pow_eq]
    refine ⟨by positivity, ?_⟩
    rw [zpow_neg, zpow_natCast]
    push_cast
    rfl

section Quotient
variable {num den : ℕ}

theorem scaled_spec (num : ℕ) (positive : 0 < den) (e : ℤ) :
    0 < (scaled num den e).2 ∧
      ((scaled num den e).1 : ℚ) / (scaled num den e).2 = num / den / 2 ^ e := by
  have below : (0 : ℚ) < den := by exact_mod_cast positive
  unfold scaled
  split
  · rename_i whole
    lift e to ℕ using whole
    simp only [Int.toNat_natCast, Nat.pow_eq, zpow_natCast]
    refine ⟨by positivity, ?_⟩
    push_cast
    field_simp
  · rename_i fraction
    obtain ⟨e, rfl⟩ : ∃ k : ℕ, e = -k := ⟨(-e).toNat, by omega⟩
    simp only [neg_neg, Int.toNat_natCast, Nat.pow_eq]
    refine ⟨positive, ?_⟩
    rw [zpow_neg, zpow_natCast]
    push_cast
    field_simp

theorem roundHalfEven_le (a : ℕ) {b : ℕ} (positive : 0 < b) :
    (roundHalfEven a b : ℚ) ≤ a / b + 1 / 2 ∧ a / b ≤ roundHalfEven a b := by
  have below : (0 : ℚ) < b := by exact_mod_cast positive
  have parts : a / b * b + a % b = a := Nat.div_add_mod' a b
  have rounded : 2 * (roundHalfEven a b * b) ≤ 2 * a + b := by
    unfold roundHalfEven
    simp only
    split
    · omega
    · split
      · rw [Nat.add_mul, Nat.one_mul]
        omega
      · have step : (a / b) % 2 * b ≤ b := by
          rw [← Nat.one_mul b]
          exact Nat.mul_le_mul (by omega) (by omega)
        rw [Nat.add_mul]
        omega
  constructor
  · rw [div_add_div _ _ below.ne' two_ne_zero, le_div_iff₀ (by positivity)]
    have cast : ((2 * (roundHalfEven a b * b) : ℕ) : ℚ) ≤ ((2 * a + b : ℕ) : ℚ) := by
      exact_mod_cast rounded
    push_cast at cast
    linarith
  · unfold roundHalfEven
    simp only
    split
    · exact Nat.le_refl _
    · split <;> omega

theorem roundHalfEven_lt {a b n : ℕ} (less : a / b < n) : roundHalfEven a b ≤ n := by
  unfold roundHalfEven
  simp only
  split
  · omega
  · split <;> omega

theorem log2_bounds {n : ℕ} (positive : 0 < n) :
    (2 : ℚ) ^ (n.log2 : ℤ) ≤ n ∧ (n : ℚ) < 2 ^ ((n.log2 : ℤ) + 1) := by
  rw [zpow_natCast, show (n.log2 : ℤ) + 1 = ((n.log2 + 1 : ℕ) : ℤ) by push_cast; ring, zpow_natCast]
  exact ⟨by exact_mod_cast Nat.log2_self_le (by omega), by exact_mod_cast Nat.lt_log2_self⟩

theorem quotient_bounds (some : 0 < num) (positive : 0 < den) :
    (2 : ℚ) ^ ((num.log2 : ℤ) - den.log2 - 1) < num / den ∧
      (num : ℚ) / den < 2 ^ ((num.log2 : ℤ) - den.log2 + 1) := by
  obtain ⟨numLow, numHigh⟩ := log2_bounds some
  obtain ⟨denLow, denHigh⟩ := log2_bounds positive
  have below : (0 : ℚ) < den := by exact_mod_cast positive
  constructor
  · rw [lt_div_iff₀ below]
    calc (2 : ℚ) ^ ((num.log2 : ℤ) - den.log2 - 1) * den
        < 2 ^ ((num.log2 : ℤ) - den.log2 - 1) * 2 ^ ((den.log2 : ℤ) + 1) := by gcongr
      _ = 2 ^ (num.log2 : ℤ) := by
        rw [← zpow_add₀ two_ne_zero]
        congr 1
        ring
      _ ≤ num := numLow
  · rw [div_lt_iff₀ below]
    calc (num : ℚ) < 2 ^ ((num.log2 : ℤ) + 1) := numHigh
      _ = 2 ^ ((num.log2 : ℤ) - den.log2 + 1) * 2 ^ (den.log2 : ℤ) := by
        rw [← zpow_add₀ two_ne_zero]
        congr 1
        ring
      _ ≤ 2 ^ ((num.log2 : ℤ) - den.log2 + 1) * den := by gcongr

theorem floor_lt_iff (positive : 0 < den) (e : ℤ) :
    (scaled num den e).1 / (scaled num den e).2 < 2 ^ 53 ↔ (num : ℚ) / den < 2 ^ (53 : ℤ) * 2 ^ e := by
  obtain ⟨below, same⟩ := scaled_spec num positive e
  have belowCast : (0 : ℚ) < (scaled num den e).2 := by exact_mod_cast below
  rw [Nat.div_lt_iff_lt_mul below, ← div_lt_iff₀ (by positivity : (0 : ℚ) < 2 ^ e), ← same,
    div_lt_iff₀ belowCast]
  norm_cast

/-- The exponent leaves a mantissa of 53 bits, or of fewer where it is the least. -/
theorem exponentFor_spec (some : 0 < num) (positive : 0 < den) :
    (num : ℚ) / den < 2 ^ (53 : ℤ) * 2 ^ exponentFor num den ∧
      (exponentFor num den = -1074 ∨
        2 ^ (52 : ℤ) * 2 ^ exponentFor num den ≤ (num : ℚ) / den) := by
  obtain ⟨low, high⟩ := quotient_bounds some positive
  unfold exponentFor
  generalize guessed : max ((num.log2 : ℤ) - den.log2 - 53) (-1074) = guess
  simp only
  -- the difference of the logarithms leaves open whether the quotient has 53 bits or 54
  by_cases fits : (scaled num den guess).1 / (scaled num den guess).2 < 0x20000000000000
  · rw [if_pos fits]
    refine ⟨(floor_lt_iff positive guess).mp fits, ?_⟩
    by_cases least : guess = -1074
    · exact .inl least
    · right
      rw [← zpow_add₀ two_ne_zero, show (52 : ℤ) + guess = (num.log2 : ℤ) - den.log2 - 1 by omega]
      exact low.le
  · rw [if_neg fits]
    have reaches := not_lt.mp (mt (floor_lt_iff positive guess).mpr fits)
    constructor
    · refine high.trans_le ?_
      rw [← zpow_add₀ two_ne_zero]
      exact zpow_le_zpow_right₀ one_le_two (by omega)
    · right
      rw [← zpow_add₀ two_ne_zero] at reaches ⊢
      rwa [show (52 : ℤ) + (guess + 1) = 53 + guess by ring]

def mantissaFor (num den : ℕ) : ℕ :=
  roundHalfEven (scaled num den (exponentFor num den)).1 (scaled num den (exponentFor num den)).2

theorem mantissaFor_full (positive : 0 < den)
    (full : 2 ^ (52 : ℤ) * 2 ^ exponentFor num den ≤ (num : ℚ) / den) :
    2 ^ 52 ≤ mantissaFor num den := by
  obtain ⟨below, same⟩ := scaled_spec num positive (exponentFor num den)
  have belowCast : (0 : ℚ) < (scaled num den (exponentFor num den)).2 := by exact_mod_cast below
  refine le_trans ?_ (roundHalfEven_le _ below).2
  rw [Nat.le_div_iff_mul_le below]
  rw [← le_div_iff₀ (by positivity), ← same, le_div_iff₀ belowCast] at full
  exact_mod_cast full

section Rounded
variable (some_ : 0 < num) (positive : 0 < den)
include some_ positive

theorem mantissaFor_le : mantissaFor num den ≤ 2 ^ 53 :=
  roundHalfEven_lt ((floor_lt_iff positive _).mpr (exponentFor_spec some_ positive).1)

theorem mantissaFor_value : (mantissaFor num den : ℚ) * 2 ^ exponentFor num den ≤
    num / den + 2 ^ exponentFor num den / 2 := by
  obtain ⟨below, same⟩ := scaled_spec num positive (exponentFor num den)
  have rounded := (roundHalfEven_le (scaled num den (exponentFor num den)).1 below).1
  rw [same] at rounded
  have unit : (0 : ℚ) < 2 ^ exponentFor num den := by positivity
  calc (mantissaFor num den : ℚ) * 2 ^ exponentFor num den
      ≤ (num / den / 2 ^ exponentFor num den + 1 / 2) * 2 ^ exponentFor num den := by
        gcongr
        exact rounded
    _ = num / den + 2 ^ exponentFor num den / 2 := by field_simp

theorem exponentFor_normal (one : 1 ≤ (num : ℚ) / den) : -53 < exponentFor num den := by
  have reaches : (2 : ℚ) ^ (0 : ℤ) < 2 ^ (53 + exponentFor num den) := by
    rw [zpow_add₀ two_ne_zero, zpow_zero]
    exact one.trans_lt (exponentFor_spec some_ positive).1
  have exponents := (zpow_lt_zpow_iff_right₀ one_lt_two).mp reaches
  omega

theorem exponentFor_full (one : 1 ≤ (num : ℚ) / den) :
    2 ^ (52 : ℤ) * 2 ^ exponentFor num den ≤ (num : ℚ) / den := by
  have normal := exponentFor_normal some_ positive one
  exact (exponentFor_spec some_ positive).2.resolve_left (by omega)

theorem ofRatio_rounded (negative : Bool) : ∃ (m : ℕ) (e : ℤ),
    ofRatio? negative num den = (if 971 < e then none else some ⟨negative, m, e⟩) ∧
      m < 2 ^ 53 ∧ (m : ℚ) * 2 ^ e = mantissaFor num den * 2 ^ exponentFor num den ∧
      (971 < e → limit ≤ (num : ℚ) / den) := by
  have opened : ofRatio? negative num den =
      if mantissaFor num den = 0x20000000000000 then
        if 971 < exponentFor num den + 1 then none
        else some ⟨negative, 0x10000000000000, exponentFor num den + 1⟩
      else if 971 < exponentFor num den then none
      else some ⟨negative, mantissaFor num den, exponentFor num den⟩ := by
    rw [ofRatio?, if_neg (by omega)]
    unfold mantissaFor
    simp only
    split <;> rfl
  have unit : (0 : ℚ) < 2 ^ exponentFor num den := by positivity
  by_cases carries : mantissaFor num den = 0x20000000000000
  · -- rounded up to the next power of two, which has the same value one exponent higher
    rw [if_pos carries] at opened
    refine ⟨_, _, opened, by decide, ?_, fun past => ?_⟩
    · rw [carries, zpow_add_one₀ two_ne_zero]
      push_cast
      ring
    · have value := mantissaFor_value some_ positive
      rw [carries] at value
      have far : (2 : ℚ) ^ (971 : ℤ) ≤ 2 ^ exponentFor num den :=
        zpow_le_zpow_right₀ one_le_two (by omega)
      push_cast at value
      unfold limit
      linarith
  · rw [if_neg carries] at opened
    have most := mantissaFor_le some_ positive
    refine ⟨_, _, opened, lt_of_le_of_ne most carries, rfl, fun past => ?_⟩
    -- without a carry the exponent is past the last one by itself, so 972 at least
    rcases (exponentFor_spec some_ positive).2 with least | full
    · omega
    · have far : (2 : ℚ) ^ (972 : ℤ) ≤ 2 ^ exponentFor num den :=
        zpow_le_zpow_right₀ one_le_two (by omega)
      refine le_trans ?_ full
      have unit : (0 : ℚ) < 2 ^ (971 : ℤ) := by positivity
      calc limit ≤ 2 ^ (52 : ℤ) * 2 ^ (972 : ℤ) := by
            rw [limit, show (972 : ℤ) = 971 + 1 by norm_num, zpow_add_one₀ two_ne_zero]
            generalize (2 : ℚ) ^ (971 : ℤ) = step at unit
            linarith
        _ ≤ 2 ^ (52 : ℤ) * 2 ^ exponentFor num den := by gcongr

end Rounded

theorem ofRatio_exists (negative : Bool) (num den : ℕ) (small : (num : ℚ) / den < limit) :
    ∃ x, ofRatio? negative num den = some x := by
  by_cases nothing : num = 0 ∨ den = 0
  · exact ⟨_, if_pos nothing⟩
  · obtain ⟨m, e, opened, _, _, past⟩ :=
      ofRatio_rounded (by omega : 0 < num) (by omega : 0 < den) negative
    rw [if_neg (fun far => absurd (past far) (not_le.mpr small))] at opened
    exact ⟨_, opened⟩

variable {negative : Bool} {x : Binary64}

theorem ofRatio_proper (rounded : ofRatio? negative num den = some x) : x.Proper := by
  by_cases nothing : num = 0 ∨ den = 0
  · rw [ofRatio?, if_pos nothing, Option.some.injEq] at rounded
    rw [← rounded]
    exact zero_proper negative
  · obtain ⟨m, e, opened, mantissa, _, _⟩ :=
      ofRatio_rounded (by omega : 0 < num) (by omega : 0 < den) negative
    rw [opened, Option.ite_none_left_eq_some] at rounded
    obtain ⟨exponent, same⟩ := rounded
    cases same
    exact ⟨mantissa, not_lt.mp exponent⟩

section One
variable (rounded : ofRatio? negative num den = some x) (one : 1 ≤ (num : ℚ) / den)
include rounded one

theorem ofRatio_magnitude :
    x.magnitude = mantissaFor num den * 2 ^ exponentFor num den ∧ 0 < num ∧ 0 < den := by
  have nonzero : ¬ (num = 0 ∨ den = 0) := by
    rintro (rfl | rfl) <;> norm_num at one
  have some_ : 0 < num := by omega
  have positive : 0 < den := by omega
  obtain ⟨m, e, opened, _, same, _⟩ := ofRatio_rounded some_ positive negative
  rw [opened, Option.ite_none_left_eq_some] at rounded
  obtain ⟨_, found⟩ := rounded
  cases found
  exact ⟨same, some_, positive⟩

/-- The rounding is off by half a unit in the last place at most. -/
theorem ofRatio_le : x.magnitude ≤ num / den * (1 + 1 / 2 ^ 53) := by
  obtain ⟨same, some_, positive⟩ := ofRatio_magnitude rounded one
  have value := mantissaFor_value some_ positive
  have full := exponentFor_full some_ positive one
  rw [show (52 : ℤ) = ((52 : ℕ) : ℤ) by norm_num, zpow_natCast] at full
  rw [same]
  linarith

theorem one_le_ofRatio : 1 ≤ x.magnitude := by
  obtain ⟨same, some_, positive⟩ := ofRatio_magnitude rounded one
  have normal := exponentFor_normal some_ positive one
  have full := mantissaFor_full positive (exponentFor_full some_ positive one)
  rw [same]
  calc (1 : ℚ) = 2 ^ (52 : ℤ) * 2 ^ (-52 : ℤ) := by norm_num
    _ ≤ 2 ^ (52 : ℤ) * 2 ^ exponentFor num den := by
      gcongr
      · exact one_le_two
      · omega
    _ ≤ mantissaFor num den * 2 ^ exponentFor num den := by
      gcongr
      exact_mod_cast full

end One

end Quotient

section Operations
variable {x y z : Binary64}

theorem Proper.lt_limit (proper : x.Proper) : x.magnitude < limit := by
  have mantissa : (x.mantissa : ℚ) ≤ 2 ^ 53 - 1 := by
    have most : x.mantissa + 1 ≤ 2 ^ 53 := proper.mantissa
    have cast : (x.mantissa : ℚ) + 1 ≤ 2 ^ 53 := by exact_mod_cast most
    linarith
  calc x.magnitude ≤ (2 ^ 53 - 1) * 2 ^ x.exponent := by
        unfold magnitude
        gcongr
    _ ≤ (2 ^ 53 - 1) * 2 ^ (971 : ℤ) := by
        have step : (2 : ℚ) ^ x.exponent ≤ 2 ^ (971 : ℤ) :=
          zpow_le_zpow_right₀ one_le_two proper.exponent
        exact mul_le_mul_of_nonneg_left step (by norm_num)
    _ < limit := by
        unfold limit
        gcongr
        norm_num

theorem mul_quotient (x y : Binary64) :
    ((x.ratio.1 * y.ratio.1 : ℕ) : ℚ) / (x.ratio.2 * y.ratio.2 : ℕ) = x.magnitude * y.magnitude := by
  rw [← (ratio_magnitude x).2, ← (ratio_magnitude y).2]
  push_cast
  rw [div_mul_div_comm]

theorem div_quotient (x y : Binary64) :
    ((x.ratio.1 * y.ratio.2 : ℕ) : ℚ) / (x.ratio.2 * y.ratio.1 : ℕ) = x.magnitude / y.magnitude := by
  rw [← (ratio_magnitude x).2, ← (ratio_magnitude y).2]
  push_cast
  rw [div_div_div_eq]

theorem mul_exists (small : x.magnitude * y.magnitude < limit) : ∃ z, x.mul? y = some z := by
  rw [← mul_quotient] at small
  exact ofRatio_exists _ _ _ small

theorem div_exists (small : x.magnitude / y.magnitude < limit) : ∃ z, x.div? y = some z := by
  rw [← div_quotient] at small
  exact ofRatio_exists _ _ _ small

theorem mul_proper (product : x.mul? y = some z) : z.Proper := ofRatio_proper product

theorem div_proper (quotient : x.div? y = some z) : z.Proper := ofRatio_proper quotient

theorem div_exists_of_one_le (proper : x.Proper) (one : 1 ≤ y.magnitude) : ∃ z, x.div? y = some z :=
  div_exists ((div_le_self (magnitude_nonneg x) one).trans_lt proper.lt_limit)

end Operations

end AttestationService.Binary64

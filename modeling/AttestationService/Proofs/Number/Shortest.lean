import AttestationService.Number.Shortest
import AttestationService.Proofs.Number.Rounding

/-!
The decimal that a double is printed as. It lies between the halfway points to the double's neighbours,
so it is positive if the double is not zero, and not far above it.
-/

namespace AttestationService.Binary64

def Decimal.value (d : Decimal) : ℚ := d.digits * 10 ^ d.exponent

def upper (x : Binary64) : ℚ := (x.mantissa + 1 / 2) * 2 ^ x.exponent

theorem compareDecimal_iff (a : ℕ) {b : ℕ} (positive : 0 < b) (d : Decimal) :
    (compareDecimal a b d = .lt ↔ (a : ℚ) / b < d.value) ∧
      (compareDecimal a b d = .gt ↔ d.value < (a : ℚ) / b) := by
  have below : (0 : ℚ) < b := by exact_mod_cast positive
  unfold compareDecimal Decimal.value
  split
  · rename_i whole
    obtain ⟨k, same⟩ : ∃ k : ℕ, d.exponent = k := ⟨d.exponent.toNat, by omega⟩
    rw [Nat.compare_eq_lt, Nat.compare_eq_gt, div_lt_iff₀ below, lt_div_iff₀ below, same, zpow_natCast,
      Int.toNat_natCast, Nat.pow_eq]
    exact ⟨by exact_mod_cast Iff.rfl, by exact_mod_cast Iff.rfl⟩
  · rename_i fraction
    obtain ⟨k, same⟩ : ∃ k : ℕ, d.exponent = -k := ⟨(-d.exponent).toNat, by omega⟩
    have power : (0 : ℚ) < 10 ^ k := by positivity
    rw [Nat.compare_eq_lt, Nat.compare_eq_gt, same, zpow_neg, zpow_natCast, neg_neg, Int.toNat_natCast,
      Nat.pow_eq, ← div_eq_mul_inv, div_lt_div_iff₀ below power, div_lt_div_iff₀ power below]
    exact ⟨by exact_mod_cast Iff.rfl, by exact_mod_cast Iff.rfl⟩

theorem compareDecimal_eq {a b : ℕ} (positive : 0 < b) {d : Decimal}
    (equal : compareDecimal a b d = .eq) : (a : ℚ) / b = d.value := by
  obtain ⟨less, greater⟩ := compareDecimal_iff a positive d
  rw [equal] at less greater
  exact le_antisymm (not_lt.mp fun above => by cases greater.mpr above)
    (not_lt.mp fun below => by cases less.mpr below)

theorem contains_bounds {i : Interval} (positive : 0 < i.den) (ordered : i.low ≤ i.high) {d : Decimal}
    (inside : i.contains d = true) :
    (i.low : ℚ) / i.den ≤ d.value ∧ d.value ≤ (i.high : ℚ) / i.den := by
  have across : (i.low : ℚ) / i.den ≤ i.high / i.den := by gcongr
  obtain ⟨lowLess, _⟩ := compareDecimal_iff i.low positive d
  obtain ⟨_, highGreater⟩ := compareDecimal_iff i.high positive d
  unfold Interval.contains at inside
  split at inside
  · rename_i low high
    exact ⟨(lowLess.mp low).le, (highGreater.mp high).le⟩
  · rename_i low
    rw [← compareDecimal_eq positive low]
    exact ⟨le_refl _, across⟩
  · rename_i high _
    rw [← compareDecimal_eq positive high]
    exact ⟨across, le_refl _⟩
  · cases inside

section Shortest
variable {x : Binary64}

theorem interval_spec (some_ : 0 < x.mantissa) : 0 < x.interval.den ∧ 0 < x.interval.low ∧
    x.interval.low ≤ x.interval.high ∧ (x.interval.high : ℚ) / x.interval.den = x.upper := by
  unfold upper
  by_cases whole : 0 ≤ x.exponent
  · obtain ⟨k, same⟩ : ∃ k : ℕ, x.exponent = k := ⟨x.exponent.toNat, by omega⟩
    have unit : 0 < 2 ^ k := by positivity
    have least : 2 ^ k ≤ x.mantissa * 2 ^ k := Nat.le_mul_of_pos_left _ some_
    simp only [interval, ratio, if_pos whole, Nat.pow_eq]
    rw [same, Int.toNat_natCast]
    refine ⟨by decide, ?_, ?_, ?_⟩
    · split <;> omega
    · split <;> omega
    · rw [zpow_natCast]
      push_cast
      ring
  · obtain ⟨k, same⟩ : ∃ k : ℕ, x.exponent = -k := ⟨(-x.exponent).toNat, by omega⟩
    simp only [interval, ratio, if_neg whole, Nat.pow_eq]
    refine ⟨by positivity, ?_, ?_, ?_⟩
    · split <;> omega
    · split <;> omega
    · rw [same, neg_neg, Int.toNat_natCast, zpow_neg, zpow_natCast]
      push_cast
      field_simp
      ring

theorem withDigits_inside {point : ℤ} {count : ℕ} {d : Decimal}
    (found : x.withDigits? point count = some d) : x.interval.contains d = true := by
  unfold withDigits? at found
  simp only at found
  split at found
  · rename_i low high
    rw [Option.some.injEq] at found
    rw [← found]
    split
    · exact low
    · exact high
  · rename_i low _
    cases found
    exact low
  · rename_i _ high
    cases found
    exact high
  · cases found

theorem stripped_spec (d : Decimal) (fuel : ℕ) :
    (d.stripped fuel).value = d.value ∧ (0 < d.digits → 0 < (d.stripped fuel).digits) := by
  induction fuel generalizing d with
  | zero => exact ⟨rfl, id⟩
  | succ fuel ih =>
      rw [Decimal.stripped]
      split
      · rename_i zeros
        obtain ⟨same, kept⟩ := ih ⟨d.digits / 10, d.exponent + 1⟩
        refine ⟨same.trans ?_, fun _ => kept (show 0 < d.digits / 10 by omega)⟩
        have exact_ : d.digits = d.digits / 10 * 10 := by omega
        have cast : (d.digits : ℚ) = (d.digits / 10 : ℕ) * 10 := by exact_mod_cast exact_
        unfold Decimal.value
        simp only
        rw [zpow_add_one₀ (by norm_num), cast]
        ring
      · exact ⟨rfl, id⟩

/-- The printed decimal is zero for want of a better one, or positive and not above halfway to the
next double. -/
theorem shortest_spec (some_ : 0 < x.mantissa) : x.shortest = ⟨0, 0⟩ ∨
    0 < x.shortest.digits ∧ x.shortest.value ≤ x.upper := by
  unfold shortest
  simp only
  split
  · rename_i d found
    right
    obtain ⟨n, _, here⟩ := List.exists_of_findSome?_eq_some found
    obtain ⟨den, low, ordered, high⟩ := interval_spec some_
    obtain ⟨above, below⟩ := contains_bounds den ordered (withDigits_inside here)
    obtain ⟨same, kept⟩ := stripped_spec d 20
    rw [same, ← high]
    refine ⟨kept ?_, below⟩
    have positive : 0 < d.value := lt_of_lt_of_le (by positivity) above
    by_contra nothing
    rw [Decimal.value, Nat.eq_zero_of_not_pos nothing] at positive
    simp at positive
  · exact .inl rfl

end Shortest

end AttestationService.Binary64

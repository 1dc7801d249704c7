import AttestationService.Json.Reader
import AttestationService.Proofs.Number.Rounding

/-!
Reals as the reader makes them, from a natural number of 64 bits and a power of ten. Every one of them
is a double; without a positive power there always is one, and with a positive power at least if the
decimal is two and a half units below the power of two after the largest double.
-/

namespace AttestationService.Json

open Binary64 (Proper limit)

/-- So much below the limit that two roundings do not reach it. -/
def safe : ℚ := (2 ^ 53 - 5 / 2) * 2 ^ (971 : ℤ)

theorem lt_limit {n : ℕ} (less : 2 * n < (2 ^ 54 - 1) * 2 ^ 971) : (n : ℚ) < limit := by
  have top : ((2 ^ 971 : ℕ) : ℚ) = 2 ^ (971 : ℤ) := Nat.cast_pow 2 971
  generalize 2 ^ 971 = power at less top
  rw [limit, ← top]
  have cast : ((2 * n : ℕ) : ℚ) < ((2 ^ 54 - 1) * power : ℕ) := Nat.cast_lt.mpr less
  push_cast at cast
  linarith

section Powers
variable {n : ℕ} {x : Binary64}

theorem powerOfTen_exists (few : n ≤ 308) : ∃ x, powerOfTen n = some x := by
  apply Binary64.ofRatio_exists
  rw [Nat.cast_one, div_one]
  apply lt_limit
  calc 2 * 10 ^ n ≤ 2 * 10 ^ 308 := Nat.mul_le_mul_left 2 (Nat.pow_le_pow_right (by decide) few)
    _ < (2 ^ 54 - 1) * 2 ^ 971 := by decide +kernel

theorem powerOfTen_bounds (power : powerOfTen n = some x) :
    1 ≤ x.magnitude ∧ x.magnitude ≤ 10 ^ n * (1 + 1 / 2 ^ 53) := by
  have same : ((Nat.pow 10 n : ℕ) : ℚ) / (1 : ℕ) = 10 ^ n := by
    rw [Nat.pow_eq, Nat.cast_one, div_one]
    push_cast
    rfl
  have one : 1 ≤ ((Nat.pow 10 n : ℕ) : ℚ) / (1 : ℕ) := by
    rw [same]
    exact one_le_pow₀ (by norm_num)
  have above := Binary64.ofRatio_le power one
  rw [same] at above
  exact ⟨Binary64.one_le_ofRatio power one, above⟩

theorem natural_exists (few : n ≤ maxNatural) : ∃ x, Binary64.ofNat? n = some x ∧ x.Proper ∧
    x.magnitude ≤ n * (1 + 1 / 2 ^ 53) := by
  obtain ⟨x, made⟩ : ∃ x, Binary64.ofNat? n = some x := by
    apply Binary64.ofRatio_exists
    rw [Nat.cast_one, div_one]
    apply lt_limit
    calc 2 * n ≤ 2 * maxNatural := Nat.mul_le_mul_left 2 few
      _ < (2 ^ 54 - 1) * 2 ^ 971 := by decide +kernel
  refine ⟨x, made, Binary64.ofRatio_proper made, ?_⟩
  rcases Nat.eq_zero_or_pos n with rfl | positive
  · have zero : Binary64.ofNat? 0 = some (Binary64.zero false) := rfl
    rw [zero, Option.some.injEq] at made
    rw [← made, Binary64.magnitude_zero]
    norm_num
  · have one : 1 ≤ (n : ℚ) / (1 : ℕ) := by
      rw [Nat.cast_one, div_one]
      exact_mod_cast positive
    simpa using Binary64.ofRatio_le made one

end Powers

section Scaling
variable {x : Binary64} {e : ℤ}

theorem tenth_exists {n : ℕ} (proper : x.Proper) (few : n ≤ 308) :
    ∃ y, (powerOfTen n).bind x.div? = some y ∧ y.Proper := by
  obtain ⟨p, power⟩ := powerOfTen_exists few
  obtain ⟨y, quotient⟩ := Binary64.div_exists_of_one_le proper (powerOfTen_bounds power).1
  exact ⟨y, by rw [power]; exact quotient, Binary64.div_proper quotient⟩

theorem scaleDown_proper (large : Option Binary64) (fuel : ℕ) (proper : x.Proper) :
    (scaleDown large fuel x e).1.Proper := by
  induction fuel generalizing x e with
  | zero => exact proper
  | succ fuel ih =>
      rw [scaleDown]
      split
      · exact proper
      · split
        · rename_i y quotient
          obtain ⟨p, _, divided⟩ := Option.bind_eq_some_iff.mp quotient
          exact ih (Binary64.div_proper divided)
        · exact proper

theorem scaleDown_spec (fuel : ℕ) (proper : x.Proper) (enough : -e ≤ fuel) (down : e < 0) :
    (scaleDown (powerOfTen 308) fuel x e).2 < 0 ∧
      ((scaleDown (powerOfTen 308) fuel x e).1.isZero = true ∨
        -308 ≤ (scaleDown (powerOfTen 308) fuel x e).2) := by
  induction fuel generalizing x e with
  | zero => exact ⟨down, .inr (show -308 ≤ e by omega)⟩
  | succ fuel ih =>
      rw [scaleDown]
      by_cases done : x.isZero = true ∨ -308 ≤ e
      · rw [if_pos done]
        exact ⟨down, done⟩
      · rw [if_neg done]
        obtain ⟨y, quotient, smaller⟩ := tenth_exists proper (Nat.le_refl 308)
        rw [quotient]
        have low : ¬ -308 ≤ e := fun high => done (.inr high)
        exact ih smaller (by omega) (by omega)

theorem scaleDown_up (large : Option Binary64) (up : 0 ≤ e) :
    scaleDown large (-e).toNat x e = (x, e) := by
  rw [show (-e).toNat = 0 by omega, scaleDown]

end Scaling

def timesPower (x : Binary64) (e : ℤ) : Option Binary64 :=
  if x.isZero then some x
  else if 308 < e then none
  else if 0 ≤ e then (powerOfTen e.toNat).bind x.mul?
  else (powerOfTen (-e).toNat).bind x.div?

section Reals
variable {negative : Bool} {natural : ℕ} {scale : ℤ} {x y : Binary64}

theorem realOf_eq (negative : Bool) (natural : ℕ) (scale : ℤ) : realOf? negative natural scale =
    (Binary64.ofNat? natural).bind fun x =>
      let scaled := scaleDown (powerOfTen 308) (-scale).toNat x scale
      (timesPower scaled.1 scaled.2).map fun y => if negative then y.neg else y := by
  unfold realOf? timesPower
  cases Binary64.ofNat? natural with
  | none => rfl
  | some x =>
      simp only [Option.bind_eq_bind, Option.bind_some, Option.pure_def, Option.map_eq_bind]
      generalize scaleDown (powerOfTen 308) (-scale).toNat x scale = scaled
      split
      · rfl
      · split
        · rfl
        · split <;> rfl

theorem timesPower_proper {e : ℤ} (proper : x.Proper) (made : timesPower x e = some y) :
    y.Proper := by
  unfold timesPower at made
  split at made
  · cases made
    exact proper
  · split at made
    · cases made
    · split at made
      · obtain ⟨p, _, product⟩ := Option.bind_eq_some_iff.mp made
        exact Binary64.mul_proper product
      · obtain ⟨p, _, quotient⟩ := Option.bind_eq_some_iff.mp made
        exact Binary64.div_proper quotient

theorem realOf_proper (made : realOf? negative natural scale = some y) : y.Proper := by
  rw [realOf_eq] at made
  obtain ⟨x, whole, rest⟩ := Option.bind_eq_some_iff.mp made
  obtain ⟨z, product, rfl⟩ := Option.map_eq_some_iff.mp rest
  have proper := timesPower_proper (scaleDown_proper _ _ (Binary64.ofRatio_proper whole)) product
  split
  · exact ⟨proper.mantissa, proper.exponent⟩
  · exact proper

/-- A decimal that is safe can be read, if its digits fit into 64 bits. -/
theorem realOf_up (few : natural ≤ maxNatural) (up : 0 ≤ scale) (small : scale ≤ 308)
    (below : natural * 10 ^ scale ≤ safe) : ∃ y, realOf? negative natural scale = some y := by
  obtain ⟨x, made, _, above⟩ := natural_exists few
  rw [realOf_eq, made, Option.bind_some, scaleDown_up _ up]
  suffices there : ∃ y, timesPower x scale = some y by
    obtain ⟨y, product⟩ := there
    exact ⟨_, Option.map_eq_some_iff.mpr ⟨y, product, rfl⟩⟩
  unfold timesPower
  rw [if_neg (by omega : ¬ 308 < scale), if_pos up]
  split
  · exact ⟨_, rfl⟩
  · lift scale to ℕ using up
    obtain ⟨p, power⟩ := powerOfTen_exists (n := scale) (by omega)
    obtain ⟨_, powerAbove⟩ := powerOfTen_bounds power
    rw [Int.toNat_natCast, power]
    apply Binary64.mul_exists
    have product : x.magnitude * p.magnitude ≤
        natural * (1 + 1 / 2 ^ 53) * (10 ^ scale * (1 + 1 / 2 ^ 53)) :=
      mul_le_mul above powerAbove p.magnitude_nonneg (by positivity)
    rw [zpow_natCast] at below
    have step : (0 : ℚ) < 2 ^ (971 : ℤ) := by positivity
    unfold safe at below
    unfold limit
    -- two units of the last place are more than what both roundings can add
    generalize (2 : ℚ) ^ (971 : ℤ) = top at below step ⊢
    generalize (10 : ℚ) ^ scale = power at below product
    calc x.magnitude * p.magnitude
        ≤ natural * power * (1 + 1 / 2 ^ 53) ^ 2 := by linarith
      _ ≤ (2 ^ 53 - 5 / 2) * top * (1 + 1 / 2 ^ 53) ^ 2 := by gcongr
      _ < (2 ^ 53 - 1 / 2) * top := by linarith

theorem realOf_down (few : natural ≤ maxNatural) (down : scale < 0) :
    ∃ y, realOf? negative natural scale = some y := by
  obtain ⟨x, made, proper, _⟩ := natural_exists few
  obtain ⟨still, reached⟩ := scaleDown_spec (-scale).toNat proper (by omega) down
  have scaled : (scaleDown (powerOfTen 308) (-scale).toNat x scale).1.Proper :=
    scaleDown_proper _ _ proper
  rw [realOf_eq, made, Option.bind_some]
  generalize scaleDown (powerOfTen 308) (-scale).toNat x scale = result at scaled still reached ⊢
  obtain ⟨z, e⟩ := result
  suffices there : ∃ y, timesPower z e = some y by
    obtain ⟨y, quotient⟩ := there
    exact ⟨_, Option.map_eq_some_iff.mpr ⟨y, quotient, rfl⟩⟩
  unfold timesPower
  simp only at still reached
  rw [if_neg (by omega : ¬ 308 < e), if_neg (by omega : ¬ 0 ≤ e)]
  split
  · exact ⟨_, rfl⟩
  · rename_i nonzero
    have near := reached.resolve_left nonzero
    obtain ⟨y, quotient, _⟩ := tenth_exists scaled (n := (-e).toNat) (by omega)
    exact ⟨y, quotient⟩

end Reals

end AttestationService.Json

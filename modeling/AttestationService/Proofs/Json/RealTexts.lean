import AttestationService.Proofs.Json.Numerals

/-!
The texts of reals. The reader takes each of them for some real again: the digits before the point fit
into 64 bits, and the exponent leads past the range for none of them. The two largest doubles come
closest to it and are worked out.
-/

namespace AttestationService.Json

open Binary64 (Proper limit)

section Scales
variable {negative : Bool} {natural : Nat} {scale : Int}

theorem realOf_flat (few : natural ≤ maxNatural) (flat : scale ≤ 0) :
    ∃ y, realOf? negative natural scale = some y := by
  rcases flat.lt_or_eq with down | rfl
  · exact realOf_down few down
  · refine realOf_up few (le_refl 0) (by decide) ?_
    have cast : (natural : ℚ) ≤ 2 ^ (64 : ℕ) := by
      have most : natural ≤ 2 ^ 64 := few.trans (by decide)
      exact_mod_cast most
    have powers : (2 : ℚ) ^ (64 : ℤ) ≤ 2 ^ (971 : ℤ) := zpow_le_zpow_right₀ one_le_two (by decide)
    rw [show (64 : ℤ) = ((64 : ℕ) : ℤ) from rfl, zpow_natCast] at powers
    rw [zpow_zero, mul_one, safe]
    generalize (2 : ℚ) ^ (971 : ℤ) = top at powers
    linarith

variable {d : Binary64.Decimal} {length more taken left : Nat}

theorem kept_real (kept : Kept d.digits length more taken left) (high : d.exponent + length ≤ 308)
    (below : d.value ≤ safe) : ∃ y, realOf? negative more (d.exponent + length - taken) = some y := by
  have scaled : d.exponent + length - taken = d.exponent + left := by
    rw [← kept.length]
    push_cast
    ring
  by_cases flat : d.exponent + length - taken ≤ 0
  · exact realOf_flat kept.few flat
  · refine realOf_up kept.few (by omega) (by omega) (le_trans ?_ below)
    have fewer : ((more * 10 ^ left : ℕ) : ℚ) ≤ d.digits := Nat.cast_le.mpr kept.below
    push_cast at fewer
    calc (more : ℚ) * 10 ^ (d.exponent + length - taken)
        = more * 10 ^ left * 10 ^ d.exponent := by
          rw [scaled, zpow_add₀ (by norm_num), zpow_natCast]
          ring
      _ ≤ d.digits * 10 ^ d.exponent := by gcongr

end Scales

/-- Under either sign the text is read as a real. -/
structure ReadsReal (text : List Char) : Prop where
  starts : ∃ c rest, text = c :: rest ∧ c.isDigit = true
  read : ∀ negative, ∃ y : Binary64, ∀ rest, EndsNumber rest →
    number negative (.ofText text ++ rest) = .ok (.real y, rest)

theorem ReadsReal.readAs {text : List Char} (reads : ReadsReal text) (negative : Bool) :
    ∃ y, (Number.real y).ReadAs ((if negative then ['-'] else []) ++ text) := by
  obtain ⟨y, read⟩ := reads.read negative
  cases negative with
  | false => exact ⟨y, readAs_plain reads.starts read⟩
  | true => exact ⟨y, readAs_minus read⟩

section Forms
variable {negative : Bool} {natural : Nat} {c f p : Char} {digits decimals power : List Char}

theorem tail_point (after : Input) :
    number.tail negative natural 0 (.char '.' :: after) = fractionPart negative natural 0 after := by
  unfold number.tail
  rfl

theorem tail_exponent (after : Input) :
    number.tail negative natural 0 (.char 'e' :: after) = exponentPart negative natural 0 after := by
  unfold number.tail
  rfl

theorem number_fraction (negative : Bool) (all : AllDigits (c :: digits))
    (first : c ≠ '0' ∨ digits = [])
    (fits : Nat.ofDigitChars 10 (c :: digits) 0 ≤ maxNatural) (fraction : AllDigits (f :: decimals)) :
    ∃ more taken left,
      Kept (Nat.ofDigitChars 10 (c :: digits ++ f :: decimals) 0) (decimals.length + 1) more taken left ∧
      ∀ rest, NoDigit rest →
        number negative (.ofText (c :: digits ++ '.' :: f :: decimals) ++ rest) =
          fractionEnd negative more (-taken) rest := by
  obtain ⟨more, taken, left, kept, read⟩ := fractionPart_read negative fraction fits
  rw [← Nat.ofDigitChars_append] at kept
  refine ⟨more, taken, left, kept, fun rest stop => ?_⟩
  have point : NoDigit (.char '.' :: (Input.ofText (f :: decimals) ++ rest)) :=
    show digitOf? '.' = none by decide
  rw [ofText_append, ofText_cons '.', List.append_assoc, List.cons_append,
    number_read all first fits point, tail_point, read rest stop]

theorem readsReal_point (all : AllDigits (c :: digits)) (first : c ≠ '0' ∨ digits = [])
    (short : digits.length < 19) (fraction : AllDigits decimals) (some_ : decimals ≠ []) :
    ReadsReal (c :: digits ++ '.' :: decimals) := by
  obtain ⟨f, decimals, rfl⟩ := List.exists_cons_of_ne_nil some_
  have fits : Nat.ofDigitChars 10 (c :: digits) 0 ≤ maxNatural :=
    calc Nat.ofDigitChars 10 (c :: digits) 0 ≤ 10 ^ (digits.length + 1) := (ofDigitChars_lt all).le
      _ ≤ 10 ^ 19 := Nat.pow_le_pow_right (by decide) (by omega)
      _ ≤ maxNatural := by decide
  refine ⟨⟨c, _, rfl, all.head⟩, fun negative => ?_⟩
  obtain ⟨more, taken, left, kept, read⟩ := number_fraction negative all first fits fraction
  obtain ⟨y, made⟩ : ∃ y, realOf? negative more (-taken) = some y := realOf_flat kept.few (by omega)
  refine ⟨y, fun rest ends => ?_⟩
  have noMark : exponentMark? rest = none := by
    unfold exponentMark?
    split
    · exact if_neg (by rintro (e | e); exacts [ends.2.2.1 e, ends.2.2.2 e])
    · rfl
  rw [read rest ends.noDigit, fractionEnd, noMark]
  exact real_read made rest

def pointed : List Char → List Char
  | c :: f :: decimals => c :: '.' :: f :: decimals
  | digits => digits

theorem pointed_starts (c : Char) (digits : List Char) : ∃ rest, pointed (c :: digits) = c :: rest := by
  cases digits with
  | nil => exact ⟨_, rfl⟩
  | cons f decimals => exact ⟨_, rfl⟩

theorem pointed_read (negative : Bool) (all : AllDigits (c :: digits)) : ∃ more taken left,
    Kept (Nat.ofDigitChars 10 (c :: digits) 0) digits.length more taken left ∧
    ∀ rest, number negative (Input.ofText (pointed (c :: digits)) ++ .char 'e' :: rest) =
      exponentPart negative more (-taken) rest := by
  have one : AllDigits [c] := fun other member => all other (by
    rw [List.mem_singleton] at member
    exact member ▸ List.mem_cons_self)
  have fits : Nat.ofDigitChars 10 [c] 0 ≤ maxNatural :=
    (ofDigitChars_lt one).le.trans (show 10 ^ 1 ≤ maxNatural by decide)
  have stop (rest : Input) : NoDigit (.char 'e' :: rest) := show digitOf? 'e' = none by decide
  cases digits with
  | nil =>
      refine ⟨Nat.ofDigitChars 10 [c] 0, 0, 0, ⟨rfl, fits, by simp, fun _ => ⟨rfl, rfl⟩⟩, fun rest => ?_⟩
      show number negative (Input.ofText [c] ++ .char 'e' :: rest) = _
      rw [number_read one (.inr rfl) fits (stop rest), tail_exponent]
      rfl
  | cons f decimals =>
      obtain ⟨more, taken, left, kept, read⟩ :=
        number_fraction negative one (.inr rfl) fits all.tail
      exact ⟨more, taken, left, kept, fun rest => read (.char 'e' :: rest) (stop rest)⟩

theorem readsReal_down (all : AllDigits (c :: digits)) (below : AllDigits (p :: power)) :
    ReadsReal (pointed (c :: digits) ++ 'e' :: '-' :: p :: power) := by
  obtain ⟨rest, same⟩ := pointed_starts c digits
  refine ⟨⟨c, _, by rw [same]; rfl, all.head⟩, fun negative => ?_⟩
  obtain ⟨more, taken, left, kept, read⟩ := pointed_read negative all
  simp only [ofText_append, ofText_cons 'e', ofText_cons '-', List.append_assoc, List.cons_append, read]
  by_cases fits : Nat.ofDigitChars 10 (p :: power) 0 ≤ 0x7FFFFFFF
  · obtain ⟨y, made⟩ : ∃ y, realOf? negative more
        (-taken - Nat.ofDigitChars 10 (p :: power) 0) = some y := realOf_flat kept.few (by omega)
    refine ⟨y, fun rest ends => ?_⟩
    rw [exponentPart_down below ends.noDigit, if_pos fits, real_read made]
  · refine ⟨Binary64.zero negative, fun rest ends => ?_⟩
    rw [exponentPart_down below ends.noDigit, if_neg fits]

theorem readsReal_up (all : AllDigits (c :: digits)) (above : AllDigits (p :: power))
    (small : Nat.ofDigitChars 10 (p :: power) 0 ≤ 0x7FFFFFFF)
    (made : ∀ more taken left negative,
      Kept (Nat.ofDigitChars 10 (c :: digits) 0) digits.length more taken left →
        ∃ y, realOf? negative more (Nat.ofDigitChars 10 (p :: power) 0 - taken) = some y) :
    ReadsReal (pointed (c :: digits) ++ 'e' :: '+' :: p :: power) := by
  obtain ⟨rest, same⟩ := pointed_starts c digits
  refine ⟨⟨c, _, by rw [same]; rfl, all.head⟩, fun negative => ?_⟩
  obtain ⟨more, taken, left, kept, read⟩ := pointed_read negative all
  obtain ⟨y, made⟩ := made more taken left negative kept
  refine ⟨y, fun rest ends => ?_⟩
  simp only [ofText_append, ofText_cons 'e', ofText_cons '+', List.append_assoc, List.cons_append, read]
  rw [exponentPart_up above small ends.noDigit, neg_add_eq_sub, real_read made]

end Forms

section Doubles
variable {x : Binary64}

/-- Halfway to the next double is safe, but for the two largest doubles. -/
theorem upper_safe (proper : x.Proper) :
    x.upper ≤ safe ∨ x.exponent = 971 ∧ (x.mantissa = 2 ^ 53 - 1 ∨ x.mantissa = 2 ^ 53 - 2) := by
  have mantissa : (x.mantissa : ℚ) + 1 ≤ 2 ^ 53 := by
    have most : x.mantissa + 1 ≤ 2 ^ 53 := proper.mantissa
    exact_mod_cast most
  unfold Binary64.upper safe
  rcases proper.exponent.lt_or_eq with lower | top
  · -- with a smaller exponent there is half of the room left
    left
    have half : (2 : ℚ) ^ x.exponent ≤ 2 ^ (971 : ℤ) / 2 := by
      calc (2 : ℚ) ^ x.exponent ≤ 2 ^ (971 - 1 : ℤ) := zpow_le_zpow_right₀ one_le_two (by omega)
        _ = 2 ^ (971 : ℤ) / 2 := zpow_sub_one₀ two_ne_zero 971
    have positive : (0 : ℚ) < 2 ^ (971 : ℤ) := by positivity
    generalize (2 : ℚ) ^ (971 : ℤ) = top at half positive ⊢
    calc ((x.mantissa : ℚ) + 1 / 2) * 2 ^ x.exponent ≤ 2 ^ 53 * (top / 2) := by
          gcongr
          linarith
      _ ≤ (2 ^ 53 - 5 / 2) * top := by linarith
  · -- with the largest exponent safety begins at the third mantissa from above
    by_cases largest : x.mantissa = 2 ^ 53 - 1 ∨ x.mantissa = 2 ^ 53 - 2
    · exact .inr ⟨top, largest⟩
    · left
      have fewer : x.mantissa + 3 ≤ 2 ^ 53 := by
        have most := proper.mantissa
        omega
      have cast : (x.mantissa : ℚ) + 3 ≤ 2 ^ 53 := by exact_mod_cast fewer
      rw [top]
      gcongr
      linarith

theorem upper_lt (proper : x.Proper) : x.upper < 10 ^ (309 : ℤ) := by
  have mantissa : (x.mantissa : ℚ) + 1 ≤ 2 ^ 53 := by
    have most : x.mantissa + 1 ≤ 2 ^ 53 := proper.mantissa
    exact_mod_cast most
  have powers : (2 : ℚ) ^ (53 : ℤ) * 2 ^ (971 : ℤ) < 10 ^ (309 : ℤ) := by
    have naturals : 2 ^ 53 * 2 ^ 971 < 10 ^ 309 := by decide +kernel
    exact_mod_cast naturals
  calc x.upper ≤ 2 ^ (53 : ℤ) * 2 ^ (971 : ℤ) := by
        unfold Binary64.upper
        gcongr
        · rw [show (53 : ℤ) = ((53 : ℕ) : ℤ) from rfl, zpow_natCast]
          linarith
        · exact one_le_two
        · exact proper.exponent
    _ < 10 ^ (309 : ℤ) := powers

def decimalText (d : Binary64.Decimal) : List Char :=
  let (digits, exponent) := d.scientific
  if -5 ≤ exponent ∧ exponent ≤ 15 then
    let (whole, fraction) := Binary64.positional digits exponent
    whole ++ '.' :: (if fraction.isEmpty then ['0'] else fraction)
  else pointed digits ++ 'e' :: (if exponent < 0 then '-' else '+') :: Nat.toDigits 10 exponent.natAbs

theorem realText_eq (x : Binary64) : realText x = (if x.negative then ['-'] else []) ++
    if x.isZero then ['0', '.', '0'] else decimalText x.shortest := by
  obtain ⟨c, digits, text, _⟩ := toDigits_cons x.shortest.digits
  unfold realText decimalText Binary64.Decimal.scientific
  rw [text]
  simp only
  split
  · rfl
  · split
    · rw [List.append_assoc]
    · have natural (n : ℕ) : (toString n).toList = Nat.toDigits 10 n := Nat.toList_repr
      rw [natural]
      generalize x.shortest.exponent + ((c :: digits).length : Int) - 1 = e
      by_cases below : e < 0 <;> cases digits <;> simp [pointed, below]

theorem readsReal_zero : ReadsReal ['0', '.', '0'] := by
  have zero : ReadsReal (['0'] ++ '.' :: ['0']) :=
    readsReal_point (AllDigits.replicate 1) (.inr rfl) (by decide) (AllDigits.replicate 1) (by decide)
  exact zero

theorem positional_reads {c : Char} {digits : List Char} (all : AllDigits (c :: digits))
    (nonzero : c ≠ '0') {e : Int} (small : e ≤ 15) :
    ReadsReal ((Binary64.positional (c :: digits) e).1 ++ '.' ::
      (if (Binary64.positional (c :: digits) e).2.isEmpty then ['0']
        else (Binary64.positional (c :: digits) e).2)) := by
  unfold Binary64.positional
  by_cases below : e < 0
  · rw [if_pos below, if_neg (by simp)]
    exact readsReal_point (AllDigits.replicate 1) (.inr rfl) (by decide)
      ((AllDigits.replicate _).append all) (by simp)
  · rw [if_neg below]
    have whole : AllDigits (c :: (digits.take e.toNat ++
        List.replicate (e.toNat + 1 - (digits.length + 1)) '0')) := by
      have kept : AllDigits (c :: digits.take e.toNat) := fun other member =>
        all other (List.mem_of_mem_take (i := e.toNat + 1) member)
      exact kept.append (AllDigits.replicate _)
    have short : (digits.take e.toNat ++
        List.replicate (e.toNat + 1 - (digits.length + 1)) '0').length < 19 := by
      simp only [List.length_append, List.length_take, List.length_replicate]
      omega
    refine readsReal_point whole (.inl nonzero) short ?_ ?_
    · split
      · exact AllDigits.replicate 1
      · exact fun other member => all other (List.mem_of_mem_drop member)
    · split
      · decide
      · rename_i some_
        exact fun none => some_ (by rw [none]; rfl)

theorem decimal_reads {d : Binary64.Decimal} (positive : 0 < d.digits)
    (made : ∀ length, (Nat.toDigits 10 d.digits).length = length + 1 → d.exponent + length ≤ 308 ∧
      ∀ more taken left negative, Kept d.digits length more taken left →
        ∃ y, realOf? negative more (d.exponent + length - taken) = some y) :
    ReadsReal (decimalText d) := by
  have all := toDigits_all d.digits
  have whole := Nat.ofDigitChars_ten_toDigits (n := d.digits)
  obtain ⟨c, digits, text, _, nonzero⟩ := toDigits_cons d.digits
  rw [text] at all whole made
  obtain ⟨high, made⟩ := made digits.length rfl
  have scale : d.exponent + ((c :: digits).length : ℕ) - 1 = d.exponent + digits.length := by
    rw [List.length_cons]
    omega
  unfold decimalText Binary64.Decimal.scientific
  simp only [text, scale]
  split
  · rename_i middle
    exact positional_reads all (nonzero positive) middle.2
  · -- the exponent is written without its sign, and read as it was
    have power := toDigits_all (d.exponent + digits.length).natAbs
    have exponent := Nat.ofDigitChars_ten_toDigits (n := (d.exponent + digits.length).natAbs)
    obtain ⟨p, powers, spelled, _⟩ := toDigits_cons (d.exponent + digits.length).natAbs
    rw [spelled] at power exponent ⊢
    split
    · exact readsReal_down all power
    · refine readsReal_up all power (by omega) fun more taken left negative kept => ?_
      rw [whole] at kept
      obtain ⟨y, here⟩ := made more taken left negative kept
      refine ⟨y, ?_⟩
      rw [exponent, Int.natCast_natAbs, abs_of_nonneg (by omega)]
      exact here

theorem shortest_high {x : Binary64} (proper : x.Proper) (positive : 0 < x.shortest.digits)
    (below : x.shortest.value ≤ x.upper) {length : ℕ}
    (digits : (Nat.toDigits 10 x.shortest.digits).length = length + 1) :
    x.shortest.exponent + length ≤ 308 := by
  have least : 10 ^ length ≤ x.shortest.digits := by
    rcases Nat.eq_zero_or_pos length with rfl | some_
    · exact positive
    · by_contra fewer
      have short := (Nat.length_toDigits_le_iff (b := 10) (by decide) some_).mpr (Nat.not_le.mp fewer)
      omega
  have cast : (10 : ℚ) ^ length ≤ x.shortest.digits := by exact_mod_cast least
  have reaches : (10 : ℚ) ^ (x.shortest.exponent + length) < 10 ^ (309 : ℤ) :=
    calc (10 : ℚ) ^ (x.shortest.exponent + length)
        = 10 ^ length * 10 ^ x.shortest.exponent := by
          rw [zpow_add₀ (by norm_num), zpow_natCast, mul_comm]
      _ ≤ x.shortest.value := by
          unfold Binary64.Decimal.value
          gcongr
      _ ≤ x.upper := below
      _ < 10 ^ (309 : ℤ) := upper_lt proper
  have exponents := (zpow_lt_zpow_iff_right₀ (by norm_num)).mp reaches
  omega

theorem exact_made {d : Binary64.Decimal} {length : ℕ}
    (few : d.digits ≤ maxNatural) (made : ∀ negative, (realOf? negative d.digits d.exponent).isSome = true) :
    ∀ more taken left negative, Kept d.digits length more taken left →
      ∃ y, realOf? negative more (d.exponent + length - taken) = some y := by
  intro more taken left negative kept
  obtain ⟨rfl, rfl⟩ := kept.exact few
  have taken : (taken : Int) = length := by
    have all := kept.length
    omega
  rw [taken, add_sub_cancel_right]
  exact Option.isSome_iff_exists.mp (made negative)

theorem largest_made {x : Binary64} (top : x.exponent = 971)
    (largest : x.mantissa = 2 ^ 53 - 1 ∨ x.mantissa = 2 ^ 53 - 2) :
    x.shortest.digits ≤ maxNatural ∧
      ∀ negative, (realOf? negative x.shortest.digits x.shortest.exponent).isSome = true := by
  have unsigned (sign : Bool) (m : ℕ) (e : ℤ) :
      (⟨sign, m, e⟩ : Binary64).shortest = (⟨false, m, e⟩ : Binary64).shortest := rfl
  obtain ⟨sign, mantissa, exponent⟩ := x
  obtain rfl : exponent = 971 := top
  rcases largest with (rfl : mantissa = _) | (rfl : mantissa = _)
  · have printed : (⟨false, 2 ^ 53 - 1, 971⟩ : Binary64).shortest = ⟨17976931348623157, 292⟩ := by
      decide +kernel
    rw [unsigned, printed]
    exact ⟨by decide, by decide +kernel⟩
  · have printed : (⟨false, 2 ^ 53 - 2, 971⟩ : Binary64).shortest = ⟨17976931348623155, 292⟩ := by
      decide +kernel
    rw [unsigned, printed]
    exact ⟨by decide, by decide +kernel⟩

/-- The text of every double is read as some double. -/
theorem real_readAs {x : Binary64} (proper : x.Proper) : ∃ y, (Number.real y).ReadAs (realText x) := by
  rw [realText_eq]
  refine ReadsReal.readAs ?_ x.negative
  by_cases zero : x.isZero
  · rw [if_pos zero]
    exact readsReal_zero
  · rw [if_neg zero]
    have some_ : 0 < x.mantissa := Nat.pos_of_ne_zero fun none => zero (by simp [Binary64.isZero, none])
    rcases Binary64.shortest_spec some_ with missing | ⟨positive, below⟩
    · rw [missing]
      exact readsReal_zero
    · refine decimal_reads positive fun length digits => ⟨shortest_high proper positive below digits, ?_⟩
      rcases upper_safe proper with safe | ⟨top, largest⟩
      · exact fun more taken left negative kept =>
          kept_real kept (shortest_high proper positive below digits) (below.trans safe)
      · -- two roundings might pass the range here, so the digits are multiplied out
        obtain ⟨few, made⟩ := largest_made top largest
        exact exact_made few made

end Doubles

end AttestationService.Json

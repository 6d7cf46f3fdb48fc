import Mathlib.Tactic.Ring
import Mathlib.Tactic.Linarith
import Narrative.Number.Binary64

/-!
Whole numbers as floating-point numbers. A whole number of up to 64 bits is rounded to 53 binary
digits, and what that means is said here without reference to how it is done: the result is the
nearest multiple of the place of the last digit, and of two as near the even one. Main statements:
this is the number that `Binary64.ofInt` gives, rounding keeps the order of numbers, and only
numbers from 2 ^ 53 on are ever rounded to the same.
-/

set_option autoImplicit false

namespace Narrative

/-- A number rounded to a multiple of `2 ^ scale`, at which it has 53 binary digits, or fewer if it
is not rounded at all. -/
structure RoundedAt (scale : Nat) (exact rounded : Int) : Prop where
  range : exact.natAbs < 2 ^ (53 + scale)
  filled : scale = 0 ∨ 2 ^ (52 + scale) ≤ exact.natAbs
  multiple : ((2 ^ scale : Nat) : Int) ∣ rounded
  near : 2 * (exact - rounded).natAbs ≤ 2 ^ scale
  /-- Of two multiples as near, the one whose last digit is even. -/
  even : 2 * (exact - rounded).natAbs = 2 ^ scale → ((2 ^ (scale + 1) : Nat) : Int) ∣ rounded

/-- A number rounded to 53 binary digits. -/
def RoundsTo (exact rounded : Int) : Prop := ∃ scale, RoundedAt scale exact rounded

/-! ### The order of rounded numbers -/

namespace RoundedAt

variable {scale other : Nat} {exact rounded second result : Int}

theorem neg (rounds : RoundedAt scale exact rounded) : RoundedAt scale (-exact) (-rounded) where
  range := by simpa using rounds.range
  filled := by simpa using rounds.filled
  multiple := (Int.dvd_neg).2 rounds.multiple
  near := by
    have near := rounds.near
    omega
  even tie := by
    apply (Int.dvd_neg).2
    apply rounds.even
    omega

/-- A number is not rounded past a multiple of the place of its last digit. -/
theorem le_of_le (rounds : RoundedAt scale exact rounded) {mark : Int}
    (multiple : ((2 ^ scale : Nat) : Int) ∣ mark) (le : mark ≤ exact) : mark ≤ rounded := by
  by_contra less
  have apart : ((2 ^ scale : Nat) : Int) ≤ mark - rounded :=
    Int.le_of_dvd (by omega) (Int.dvd_sub multiple rounds.multiple)
  have positive : 0 < 2 ^ scale := Nat.two_pow_pos scale
  have near := rounds.near
  omega

theorem ge_of_ge (rounds : RoundedAt scale exact rounded) {mark : Int}
    (multiple : ((2 ^ scale : Nat) : Int) ∣ mark) (le : exact ≤ mark) : rounded ≤ mark := by
  have mirrored := rounds.neg.le_of_le ((Int.dvd_neg).2 multiple) (Int.neg_le_neg le)
  omega

/-- The place of the last digit grows with the size of the number. -/
theorem scale_le (rounds : RoundedAt scale exact rounded)
    (roundsToo : RoundedAt other second result) (le : exact.natAbs ≤ second.natAbs) : scale ≤ other := by
  rcases rounds.filled with rfl | filled
  · exact Nat.zero_le other
  · by_contra less
    have bound : 2 ^ (53 + other) ≤ 2 ^ (52 + scale) :=
      Nat.pow_le_pow_right (by decide) (by omega)
    have range := roundsToo.range
    omega

theorem le_of_lt_of_scale_lt (rounds : RoundedAt scale exact rounded)
    (roundsToo : RoundedAt other second result) (less : exact < second) (scales : scale < other) :
    rounded ≤ result := by
  -- The second number is beyond a power of two that the first one has not reached.
  have filled : 2 ^ (52 + other) ≤ second.natAbs := roundsToo.filled.resolve_left (by omega)
  have bound : 2 ^ (53 + scale) ≤ 2 ^ (52 + other) :=
    Nat.pow_le_pow_right (by decide) (by omega)
  have range := rounds.range
  have low : rounded ≤ ((2 ^ (53 + scale) : Nat) : Int) := by
    refine rounds.ge_of_ge (Int.natCast_dvd_natCast.2 ?_) (by omega)
    exact Nat.pow_dvd_pow 2 (by omega)
  have high : ((2 ^ (52 + other) : Nat) : Int) ≤ result := by
    refine roundsToo.le_of_le (Int.natCast_dvd_natCast.2 ?_) (by omega)
    exact Nat.pow_dvd_pow 2 (by omega)
  omega

theorem le_of_lt_of_scale_eq (rounds : RoundedAt scale exact rounded)
    (roundsToo : RoundedAt scale second result) (less : exact < second) : rounded ≤ result := by
  by_contra greater
  have apart : ((2 ^ scale : Nat) : Int) ≤ rounded - result :=
    Int.le_of_dvd (by omega) (Int.dvd_sub rounds.multiple roundsToo.multiple)
  have near := rounds.near
  have nearToo := roundsToo.near
  omega

theorem le_of_lt (rounds : RoundedAt scale exact rounded)
    (roundsToo : RoundedAt other second result) (less : exact < second) : rounded ≤ result := by
  rcases Nat.lt_trichotomy scale other with smaller | rfl | larger
  · exact rounds.le_of_lt_of_scale_lt roundsToo less smaller
  · exact rounds.le_of_lt_of_scale_eq roundsToo less
  · have mirrored := roundsToo.neg.le_of_lt_of_scale_lt rounds.neg (Int.neg_lt_neg less) larger
    omega

/-- A number is rounded in one way. -/
theorem unique (rounds : RoundedAt scale exact rounded)
    (roundsToo : RoundedAt other exact result) : rounded = result := by
  obtain rfl : scale = other :=
    Nat.le_antisymm (rounds.scale_le roundsToo (Nat.le_refl _))
      (roundsToo.scale_le rounds (Nat.le_refl _))
  have near := rounds.near
  have nearToo := roundsToo.near
  by_contra different
  -- Two results are a whole step apart, each half a step from the number, so both are even.
  have apart : 2 ^ scale ≤ (rounded - result).natAbs := by
    have divides := Int.natAbs_dvd_natAbs.2 (Int.dvd_sub rounds.multiple roundsToo.multiple)
    rw [Int.natAbs_natCast] at divides
    exact Nat.le_of_dvd (by omega) divides
  have wide : 2 ^ (scale + 1) ≤ (rounded - result).natAbs := by
    have divides := Int.natAbs_dvd_natAbs.2
      (Int.dvd_sub (rounds.even (by omega)) (roundsToo.even (by omega)))
    rw [Int.natAbs_natCast] at divides
    exact Nat.le_of_dvd (by omega) divides
  have positive : 0 < 2 ^ scale := Nat.two_pow_pos scale
  rw [Nat.pow_succ] at wide
  omega

end RoundedAt

namespace RoundsTo

variable {exact rounded second result : Int}

/-- Rounding keeps the order. -/
theorem le (rounds : RoundsTo exact rounded) (roundsToo : RoundsTo second result)
    (ordered : exact ≤ second) : rounded ≤ result := by
  obtain ⟨scale, rounds⟩ := rounds
  obtain ⟨other, roundsToo⟩ := roundsToo
  rcases Int.lt_or_eq_of_le ordered with less | rfl
  · exact rounds.le_of_lt roundsToo less
  · exact Int.le_of_eq (rounds.unique roundsToo)

theorem unique (rounds : RoundsTo exact rounded) (roundsToo : RoundsTo exact result) :
    rounded = result :=
  Int.le_antisymm (rounds.le roundsToo (Int.le_refl _)) (roundsToo.le rounds (Int.le_refl _))

/-- Numbers of at most 53 binary digits stay as they are. -/
theorem eq_of_small (rounds : RoundsTo exact rounded) (small : exact.natAbs < 2 ^ 53) :
    rounded = exact := by
  obtain ⟨scale, rounds⟩ := rounds
  have whole : scale = 0 := by
    rcases rounds.filled with whole | filled
    · exact whole
    · by_contra more
      have bound : 2 ^ 53 ≤ 2 ^ (52 + scale) := Nat.pow_le_pow_right (by decide) (by omega)
      omega
  subst whole
  have near := rounds.near
  omega

theorem two_pow : RoundsTo (2 ^ 53) (2 ^ 53) :=
  ⟨1, by decide, by decide, by decide, by decide, by decide⟩

theorem neg_two_pow : RoundsTo (-2 ^ 53) (-2 ^ 53) :=
  ⟨1, by decide, by decide, by decide, by decide, by decide⟩

/-- A number of at most 53 binary digits is not what another number is rounded to. -/
theorem eq_of_small_of_eq (rounds : RoundsTo exact rounded) (roundsToo : RoundsTo second rounded)
    (small : exact.natAbs < 2 ^ 53) : exact = second := by
  obtain rfl := rounds.eq_of_small small
  by_cases smallToo : second.natAbs < 2 ^ 53
  · exact roundsToo.eq_of_small smallToo
  · rcases Int.le_total 0 second with positive | negative
    · have beyond := two_pow.le roundsToo (by omega)
      omega
    · have beyond := roundsToo.le neg_two_pow (by omega)
      omega

end RoundsTo

/-! ### Division to the nearest -/

theorem divideToEven_mul_right (numerator denominator : Nat) {factor : Nat}
    (positive : 0 < factor) :
    divideToEven (numerator * factor) (denominator * factor) =
      divideToEven numerator denominator := by
  have scaled (a b : Nat) : 2 * (a * factor) < b * factor ↔ 2 * a < b := by
    rw [← Nat.mul_assoc, Nat.mul_lt_mul_right positive]
  have scaledToo (a b : Nat) : b * factor < 2 * (a * factor) ↔ b < 2 * a := by
    rw [← Nat.mul_assoc, Nat.mul_lt_mul_right positive]
  simp only [divideToEven, Nat.mul_div_mul_right _ _ positive, Nat.mul_mod_mul_right, scaled,
    scaledToo]

theorem divideToEven_mul_self (quotient : Nat) {denominator : Nat} (positive : 0 < denominator) :
    divideToEven (quotient * denominator) denominator = quotient := by
  simp [divideToEven, Nat.mul_div_cancel _ positive, positive]

/-- The quotient is the one below or the one above. -/
theorem divideToEven_bounds (numerator denominator : Nat) :
    numerator / denominator ≤ divideToEven numerator denominator ∧
      divideToEven numerator denominator ≤ numerator / denominator + 1 := by
  simp only [divideToEven]
  split_ifs <;> omega

/-- The quotient is the nearest, and even if there are two. -/
theorem divideToEven_near (numerator : Nat) {denominator : Nat} (positive : 0 < denominator) :
    let nearest := divideToEven numerator denominator * denominator
    let error := ((numerator : Int) - (nearest : Nat)).natAbs
    2 * error ≤ denominator ∧
      (2 * error = denominator → divideToEven numerator denominator % 2 = 0) := by
  have split := Nat.div_add_mod numerator denominator
  have bound := Nat.mod_lt numerator positive
  have above : (numerator / denominator + 1) * denominator =
      denominator * (numerator / denominator) + denominator := by ring
  have below : numerator / denominator * denominator = denominator * (numerator / denominator) :=
    Nat.mul_comm _ _
  simp only [divideToEven]
  split_ifs
  · rw [below]
    omega
  · rw [above]
    omega
  · rw [below]
    omega
  · rw [above]
    omega

/-! ### Whole numbers as magnitudes -/

namespace Magnitude

theorem ofParts?_of_valid {significand scale : Nat} (valid : IsMagnitude significand scale) :
    ofParts? significand scale = some ⟨significand, scale, valid⟩ := dif_pos valid

section

variable {number place : Nat}

theorem log2_mul_two_pow (nonzero : number ≠ 0) :
    (number * 2 ^ place).log2 = number.log2 + place := by
  have product : number * 2 ^ place ≠ 0 :=
    Nat.mul_ne_zero nonzero (Nat.ne_of_gt (Nat.two_pow_pos place))
  rw [Nat.log2_eq_iff product, Nat.pow_add, Nat.add_right_comm, Nat.pow_add]
  have positive := Nat.two_pow_pos place
  exact ⟨Nat.mul_le_mul_right _ (Nat.log2_self_le nonzero),
    (Nat.mul_lt_mul_right positive).2 Nat.lt_log2_self⟩

/-- The significand of a whole number, given in units of a small place. -/
theorem significand_bounds (nonzero : number ≠ 0) (wide : 52 ≤ place) :
    let significand := divideToEven (number * 2 ^ place) (2 ^ (number.log2 + place - 52))
    2 ^ 52 ≤ significand ∧ significand ≤ 2 ^ 53 := by
  have log : (number * 2 ^ place).log2 = number.log2 + place := log2_mul_two_pow nonzero
  have product : number * 2 ^ place ≠ 0 :=
    Nat.mul_ne_zero nonzero (Nat.ne_of_gt (Nat.two_pow_pos place))
  have low : 2 ^ 52 ≤ number * 2 ^ place / 2 ^ (number.log2 + place - 52) := by
    rw [Nat.le_div_iff_mul_le (Nat.two_pow_pos _), ← Nat.pow_add, Nat.add_sub_cancel' (by omega),
      ← log]
    exact Nat.log2_self_le product
  have high : number * 2 ^ place / 2 ^ (number.log2 + place - 52) < 2 ^ 53 := by
    rw [Nat.div_lt_iff_lt_mul (Nat.two_pow_pos _), ← Nat.pow_add,
      show 53 + (number.log2 + place - 52) = number.log2 + place + 1 by omega, ← log]
    exact Nat.lt_log2_self
  obtain ⟨below, above⟩ := divideToEven_bounds (number * 2 ^ place)
    (2 ^ (number.log2 + place - 52))
  omega

/-- Rounding at the place of the last of 53 digits is the same in all units. -/
theorem significand_mul (wide : 52 ≤ place) :
    divideToEven (number * 2 ^ place) (2 ^ (number.log2 + place - 52)) *
        2 ^ (number.log2 + place - 52) =
      divideToEven number (2 ^ (number.log2 - 52)) * 2 ^ (number.log2 - 52) * 2 ^ place := by
  by_cases short : number.log2 ≤ 52
  · have steps : 2 ^ place = 2 ^ (52 - number.log2) * 2 ^ (number.log2 + place - 52) := by
      rw [← Nat.pow_add]
      congr 1
      omega
    have whole : divideToEven number 1 = number := by
      simpa using divideToEven_mul_self number Nat.one_pos
    rw [Nat.sub_eq_zero_of_le short, Nat.pow_zero, whole, Nat.mul_one, steps, ← Nat.mul_assoc,
      divideToEven_mul_self _ (Nat.two_pow_pos _)]
  · have steps : 2 ^ (number.log2 + place - 52) = 2 ^ (number.log2 - 52) * 2 ^ place := by
      rw [← Nat.pow_add]
      congr 1
      omega
    rw [steps, divideToEven_mul_right _ _ (Nat.two_pow_pos place), Nat.mul_assoc]

/-- A whole number in units of a small place is rounded to 53 binary digits. -/
theorem ofUnits?_mul_two_pow (nonzero : number ≠ 0) (wide : 52 ≤ place)
    (finite : number.log2 + place ≤ 2000) :
    ∃ magnitude, ofUnits? (number * 2 ^ place) 1 = some magnitude ∧
      magnitude.units =
        divideToEven number (2 ^ (number.log2 - 52)) * 2 ^ (number.log2 - 52) * 2 ^ place := by
  obtain ⟨low, high⟩ := significand_bounds nonzero wide
  have product := @significand_mul number place wide
  have scale : number.log2 + place + 1 - 53 = number.log2 + place - 52 := by omega
  unfold ofUnits?
  simp only [Nat.div_one, log2_mul_two_pow nonzero, Nat.one_mul, scale]
  split
  · next full =>
    have valid : IsMagnitude (2 ^ 52) (number.log2 + place - 52 + 1) :=
      ⟨by decide, by omega, Or.inr (Nat.le_refl _)⟩
    refine ⟨_, ofParts?_of_valid valid, ?_⟩
    rw [← product, full, units, Nat.pow_succ 2 (number.log2 + place - 52), Nat.mul_comm (2 ^ _) 2,
      ← Nat.mul_assoc]
    rfl
  · next partly =>
    exact ⟨_, ofParts?_of_valid ⟨by omega, by omega, Or.inr low⟩, product⟩

end

/-- The unit is a small place, and no more than that is needed of it. -/
theorem exists_unitsPerOne : ∃ place, 52 ≤ place ∧ place ≤ 1900 ∧ unitsPerOne = 2 ^ place :=
  ⟨1074, by decide, by decide, unitsPerOne.eq_1⟩

/-- A natural number as a magnitude is its rounded form. -/
theorem exists_ofRatio?_one {number : Nat} (range : number ≤ 2 ^ 63) :
    ∃ magnitude rounded, ofRatio? number 1 = some magnitude ∧
      magnitude.units = rounded * unitsPerOne ∧ RoundsTo number rounded := by
  by_cases nonzero : number = 0
  · subst nonzero
    refine ⟨⟨0, 0, by decide⟩, 0, ?_, ?_, 0, by decide, by decide, by decide, by decide, by decide⟩
    · rw [ofRatio?, Nat.zero_mul]
      rfl
    · rw [units, Nat.zero_mul, Nat.zero_mul]
  · have log : number.log2 ≤ 63 := by
      rw [← Nat.lt_succ_iff, Nat.log2_lt nonzero]
      omega
    obtain ⟨place, wide, small, unit⟩ := exists_unitsPerOne
    obtain ⟨magnitude, found, units⟩ := ofUnits?_mul_two_pow nonzero wide (by omega)
    rw [ofRatio?, unit]
    refine ⟨magnitude, _, found, units, number.log2 - 52, ?_⟩
    obtain ⟨near, even⟩ := divideToEven_near number (Nat.two_pow_pos (number.log2 - 52))
    refine ⟨?_, ?_, ?_, near, fun tie => ?_⟩
    · have bound : number < 2 ^ (number.log2 + 1) := Nat.lt_log2_self
      have wider : 2 ^ (number.log2 + 1) ≤ 2 ^ (53 + (number.log2 - 52)) :=
        Nat.pow_le_pow_right (by decide) (by omega)
      rw [Int.natAbs_natCast]
      omega
    · rw [Int.natAbs_natCast]
      by_cases short : number.log2 ≤ 52
      · exact Or.inl (Nat.sub_eq_zero_of_le short)
      · right
        rw [Nat.add_sub_cancel' (by omega)]
        exact Nat.log2_self_le nonzero
    · exact Int.natCast_dvd_natCast.2 (Nat.dvd_mul_left _ _)
    · rw [Nat.pow_succ, Nat.mul_comm (2 ^ _) 2]
      exact Int.natCast_dvd_natCast.2
        (Nat.mul_dvd_mul (Nat.dvd_of_mod_eq_zero (even tie)) (Nat.dvd_refl _))

end Magnitude

theorem RoundsTo.neg {exact rounded : Int} (rounds : RoundsTo exact rounded) :
    RoundsTo (-exact) (-rounded) := by
  obtain ⟨scale, rounds⟩ := rounds
  exact ⟨scale, rounds.neg⟩

theorem Binary64.place?_finite (negative : Bool) (magnitude : Magnitude) :
    (finite negative magnitude).place? =
      some (if negative then -(magnitude.units : Int) else magnitude.units) := rfl

/-- The floating-point number nearest to a whole number of 64 bits has the place of the number
rounded to 53 binary digits. -/
theorem Binary64.exists_place?_ofInt {number : Int} (range : number.natAbs ≤ 2 ^ 63) :
    ∃ rounded : Int, RoundsTo number rounded ∧
      (ofInt number).place? = some (rounded * Magnitude.unitsPerOne) := by
  obtain ⟨magnitude, rounded, found, units, rounds⟩ := Magnitude.exists_ofRatio?_one range
  rw [ofInt, found, ofMagnitude, place?_finite, units]
  generalize Magnitude.unitsPerOne = unit
  by_cases negative : number < 0
  · refine ⟨-rounded, ?_, ?_⟩
    · have mirrored := rounds.neg
      rwa [Int.ofNat_natAbs_of_nonpos (Int.le_of_lt negative), Int.neg_neg] at mirrored
    · rw [decide_eq_true negative, if_pos rfl, Int.natCast_mul, Int.neg_mul]
  · refine ⟨rounded, ?_, ?_⟩
    · rwa [Int.natAbs_of_nonneg (by omega)] at rounds
    · rw [decide_eq_false negative, if_neg Bool.false_ne_true, Int.natCast_mul]

end Narrative

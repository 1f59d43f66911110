import Mathlib.Data.Nat.Cast.Field
import StreamTable.Proofs.BinaryFloat.Rounding

/-!
# Shortest decimals

A decimal that a float covers is rounded to it (`Decimal.toBinary_of_covers`): the bounds by which
very large and very small decimals are told from the others are wide enough.

The search for the shortest decimal goes through grids, and every decimal that it gives is covered
by the float.  So the shortest decimal of a float is rounded back to the float
(`FiniteFloat.toBinary_shortest`).
-/

namespace StreamTable

/-! ### Decimals as rationals -/

namespace Decimal

variable {d : Decimal}

/-- The magnitude. -/
def magnitude (d : Decimal) : ℚ := d.coefficient * 10 ^ d.exponent

theorem ratio_pos (d : Decimal) : 0 < d.ratio.2 := by
  unfold ratio
  split
  · exact Nat.one_pos
  · exact Nat.pow_pos (by decide)

theorem ratio_eq (d : Decimal) : (d.ratio.1 : ℚ) / d.ratio.2 = d.magnitude :=
  ratio_eq_mul_zpow d.coefficient 10 d.exponent

/-- The number is below the power of ten at its point. -/
theorem magnitude_lt : d.magnitude < 10 ^ d.point := by
  have digits : d.coefficient < 10 ^ d.digits.length :=
    (Nat.length_toDigits_le_iff (by decide) Nat.length_toDigits_pos).1 le_rfl
  have digits : (d.coefficient : ℚ) < 10 ^ d.digits.length := by exact_mod_cast digits
  rw [magnitude, point, zpow_add₀ (by norm_num), zpow_natCast, mul_comm]
  gcongr

theorem le_magnitude (h : d.coefficient ≠ 0) : (10 : ℚ) ^ (d.point - 1) ≤ d.magnitude := by
  obtain ⟨n, hn⟩ : ∃ n, d.digits.length = n + 1 :=
    Nat.exists_eq_succ_of_ne_zero (List.length_pos_iff.2 Nat.toDigits_ne_nil).ne'
  have digits : 10 ^ n ≤ d.coefficient := by
    rcases Nat.eq_zero_or_pos n with rfl | pos
    · exact Nat.one_le_iff_ne_zero.2 h
    · by_contra! lt
      have := (Nat.length_toDigits_le_iff (by decide) pos).2 lt
      rw [digits] at hn
      omega
  have digits : (10 : ℚ) ^ n ≤ d.coefficient := by exact_mod_cast digits
  have shift : d.point - 1 = d.exponent + n := by
    rw [point, hn]
    omega
  rw [magnitude, shift, zpow_add₀ (by norm_num), zpow_natCast, mul_comm]
  gcongr

end Decimal

/-! ### Rounding decimals -/

/-- The range of the format reaches beyond one on both sides. -/
structure Format.Regular (f : Format) : Prop where
  precision : 0 < f.precision
  minExponent : f.minExponent ≤ 2
  maxExponent : 0 ≤ f.maxExponent + f.precision

theorem Format.regular_double : Format.double.Regular := by
  constructor <;> decide

namespace Decimal

variable {f : Format} {x : FiniteFloat f} {d : Decimal}

theorem two_zpow_le {k : ℤ} (h : 0 ≤ k) : (2 : ℚ) ^ k ≤ 10 ^ k :=
  zpow_le_zpow_left₀ h (by norm_num) (by norm_num)

theorem ten_zpow_le {k : ℤ} (h : k ≤ 0) : (10 : ℚ) ^ k ≤ 2 ^ k := by
  have inverse : (10 : ℚ) ^ k = (10 ^ (-k))⁻¹ ∧ (2 : ℚ) ^ k = (2 ^ (-k))⁻¹ := by
    simp
  rw [inverse.1, inverse.2]
  exact inv_anti₀ (by positivity) (two_zpow_le (by omega))

/-- A decimal is rounded to the float of its sign that covers it. -/
theorem toBinary_of_covers (r : f.Regular) (hx : x.significand ≠ 0)
    (sign : d.negative = x.negative) (h : x.Covers d.magnitude) : d.toBinary f = .finite x := by
  have low := (FiniteFloat.le_lowerMidpoint hx).trans h.lower
  have high := h.upper.trans_lt FiniteFloat.upperMidpoint_lt
  have hc : d.coefficient ≠ 0 := by
    intro zero
    have : (0 : ℚ) < 2 ^ (f.minExponent - 1) := by positivity
    rw [magnitude, zero, Nat.cast_zero, zero_mul] at low
    linarith
  have inRange : ¬ f.maxExponent + (f.precision : ℤ) < d.point := by
    -- Beyond the range the decimal would be above the upper midpoint.
    intro beyond
    have small : (2 : ℚ) ^ (x.exponent + f.precision) ≤ 10 ^ (d.point - 1) :=
      calc (2 : ℚ) ^ (x.exponent + f.precision) ≤ 2 ^ (f.maxExponent + f.precision) :=
            zpow_le_zpow_right₀ one_le_two (by have := x.canonical.2.2.1; omega)
        _ ≤ 10 ^ (f.maxExponent + f.precision) := two_zpow_le r.maxExponent
        _ ≤ 10 ^ (d.point - 1) := zpow_le_zpow_right₀ (by norm_num) (by omega)
    have := le_magnitude hc
    linarith
  have noZero : ¬ d.point < f.minExponent - 1 := by
    -- Below the range it would be below the lower midpoint.
    intro below
    have large : (10 : ℚ) ^ d.point ≤ 2 ^ (f.minExponent - 1) :=
      calc (10 : ℚ) ^ d.point ≤ 10 ^ (f.minExponent - 2) :=
            zpow_le_zpow_right₀ (by norm_num) (by omega)
        _ ≤ 2 ^ (f.minExponent - 2) := ten_zpow_le (by have := r.minExponent; omega)
        _ ≤ 2 ^ (f.minExponent - 1) := zpow_le_zpow_right₀ one_le_two (by omega)
    have := d.magnitude_lt
    linarith
  have covers : x.Covers ((d.ratio.1 : ℚ) / d.ratio.2) := by
    rw [ratio_eq]
    exact h
  rw [toBinary, if_neg hc, if_neg inRange, if_neg noZero, sign]
  exact BinaryFloat.ofRatio_of_covers r.precision hx d.ratio_pos covers

end Decimal

/-! ### Grids -/

namespace FiniteFloat

variable {f : Format} {x : FiniteFloat f}

theorem pow_toNat_div {b : ℚ} (hb : b ≠ 0) (k : ℤ) : b ^ k.toNat / b ^ (-k).toNat = b ^ k := by
  rw [← zpow_natCast, ← zpow_natCast, ← zpow_sub₀ hb]
  congr 1
  omega

theorem unit_pos (k : ℤ) : 0 < (x.onGrid k).unit :=
  Nat.mul_pos (Nat.two_pow_pos _) (Nat.pow_pos (by decide))

/-- The numerator `a` measures the rational `q` on the grid. -/
def Measures (x : FiniteFloat f) (k : ℤ) (a : ℕ) (q : ℚ) : Prop :=
  (a : ℚ) * 10 ^ k = q * (x.onGrid k).unit

namespace Measures

variable {k : ℤ} {a b c : ℕ} {q r : ℚ}

/-- Numerators on the same grid are in the order of the rationals that they measure. -/
theorem le_iff_le (ha : x.Measures k a q) (hb : x.Measures k b r) : a ≤ b ↔ q ≤ r := by
  have unit : (0 : ℚ) < (x.onGrid k).unit := by exact_mod_cast unit_pos k
  have power : (0 : ℚ) < 10 ^ k := by positivity
  rw [← Nat.cast_le (α := ℚ), ← mul_le_mul_iff_left₀ power, ha, hb, mul_le_mul_iff_left₀ unit]

/-- A point of the grid measures the decimal at it. -/
theorem point (x : FiniteFloat f) (k : ℤ) (c : ℕ) :
    x.Measures k (c * (x.onGrid k).unit) (c * 10 ^ k) := by
  rw [Measures, Nat.cast_mul, mul_right_comm]

theorem le_iff (h : x.Measures k a q) : a ≤ c * (x.onGrid k).unit ↔ q ≤ c * 10 ^ k :=
  h.le_iff_le (point x k c)

theorem ge_iff (h : x.Measures k a q) : c * (x.onGrid k).unit ≤ a ↔ c * 10 ^ k ≤ q :=
  (point x k c).le_iff_le h

end Measures

/-- A multiple of a quarter of the last binary digit on a grid. -/
theorem measures_mul (a : ℕ) (k : ℤ) :
    x.Measures k (a * (Nat.pow 2 (x.exponent - 2).toNat * Nat.pow 10 (-k).toNat))
      (a * 2 ^ (x.exponent - 2)) := by
  have unit : ((x.onGrid k).unit : ℚ) = 2 ^ (-(x.exponent - 2)).toNat * 10 ^ k.toNat := by
    rw [onGrid]
    push_cast [Nat.pow_eq]
    rfl
  rw [Measures, unit, ← pow_toNat_div two_ne_zero (x.exponent - 2),
    ← pow_toNat_div (b := 10) (by norm_num) k]
  push_cast [Nat.pow_eq]
  field_simp

theorem measures_low (hx : x.significand ≠ 0) (k : ℤ) :
    x.Measures k (x.onGrid k).low x.lowerMidpoint := by
  have gap : x.gapBelow ≤ 4 * x.significand := by
    have := x.gapBelow_le
    omega
  have low := measures_mul (x := x) (4 * x.significand - x.gapBelow) k
  rwa [Nat.cast_sub gap, Nat.cast_mul] at low

theorem measures_high (k : ℤ) : x.Measures k (x.onGrid k).high x.upperMidpoint := by
  have high := measures_mul (x := x) (4 * x.significand + 2) k
  rwa [Nat.cast_add, Nat.cast_mul] at high

theorem measures_value (k : ℤ) : x.Measures k (x.onGrid k).value x.magnitude := by
  have value := measures_mul (x := x) (4 * x.significand) k
  have unit : ((4 * x.significand : ℕ) : ℚ) * 2 ^ (x.exponent - 2) = x.magnitude := by
    rw [magnitude, unit_eq]
    push_cast
    ring
  rwa [unit] at value

/-- The points of a grid that read back are covered. -/
theorem covers_of_readsBack (hx : x.significand ≠ 0) {c : ℕ} {k : ℤ}
    (h : (x.onGrid k).readsBack (x.significand % 2 == 0) c = true) : x.Covers (c * 10 ^ k) := by
  have low := measures_low hx k
  have high := x.measures_high k
  unfold OnGrid.readsBack at h
  split at h
  · next even =>
    have even : x.significand % 2 = 0 := by simpa using even
    obtain ⟨above, below⟩ : _ ∧ _ := by simpa using h
    exact ⟨low.le_iff.1 above, high.ge_iff.1 below, fun odd => by omega⟩
  · obtain ⟨above, below⟩ : _ ∧ _ := by simpa using h
    have above := not_le.1 fun le => absurd (low.ge_iff.2 le) (not_le.2 above)
    have below := not_le.1 fun le => absurd (high.le_iff.2 le) (not_le.2 below)
    exact ⟨above.le, below.le, fun _ => ⟨above, below⟩⟩

/-- The nearest integer that is accepted is one that reads back. -/
theorem readsBack_of_nearest? {g : OnGrid} {closed : Bool} {tie : TieRule} {c : ℕ}
    (h : g.nearest? closed tie = some c) : g.readsBack closed c = true := by
  -- Whichever of the two neighbours is taken was tested before, also if both are accepted and the
  -- tie is broken.
  unfold OnGrid.nearest? at h
  generalize g.value / g.unit = b at h
  simp only at h
  split at h
  · cases h
  · next below _ =>
    cases h
    exact below
  · next _ above =>
    cases h
    exact above
  · next below above =>
    split at h
    · cases h
      exact below
    · split at h
      · cases h
        exact above
      · cases tie with
        | up =>
          cases h
          exact above
        | even =>
          have even := Option.some.inj h
          rcases Nat.mod_two_eq_zero_or_one b with zero | one
          · rw [zero] at even
            exact even ▸ below
          · rw [one] at even
            exact even ▸ above

/-! ### The search -/

theorem unit_dvd_value : (x.onGrid x.finestGrid).unit ∣ (x.onGrid x.finestGrid).value := by
  have grid : x.finestGrid ≤ 0 := min_le_right _ _
  have places : (-(x.exponent - 2)).toNat ≤ 2 + (-x.finestGrid).toNat := by
    rw [finestGrid]
    omega
  have unit : (x.onGrid x.finestGrid).unit = 2 ^ (-(x.exponent - 2)).toNat := by
    rw [onGrid, Int.toNat_of_nonpos grid]
    exact Nat.mul_one _
  have value : (x.onGrid x.finestGrid).value =
      4 * 10 ^ (-x.finestGrid).toNat * (x.significand * 2 ^ (x.exponent - 2).toNat) := by
    simp only [onGrid, Nat.pow_eq]
    ring
  have five : 2 ^ (-x.finestGrid).toNat ∣ 10 ^ (-x.finestGrid).toNat :=
    pow_dvd_pow_of_dvd (by decide) _
  rw [unit, value]
  -- The unit is a power of two, and the places after the point bring enough factors of two.
  refine Dvd.dvd.mul_right ?_ _
  calc 2 ^ (-(x.exponent - 2)).toNat ∣ 2 ^ (2 + (-x.finestGrid).toNat) := pow_dvd_pow 2 places
    _ = 4 * 2 ^ (-x.finestGrid).toNat := pow_add 2 2 _
    _ ∣ 4 * 10 ^ (-x.finestGrid).toNat := Nat.mul_dvd_mul_left 4 five

/-- On the finest grid the float itself is a point. -/
theorem finestGrid_eq :
    (((x.onGrid x.finestGrid).value / (x.onGrid x.finestGrid).unit : ℕ) : ℚ) * 10 ^ x.finestGrid =
      x.magnitude := by
  have unit : ((x.onGrid x.finestGrid).unit : ℚ) ≠ 0 := by exact_mod_cast (unit_pos _).ne'
  have measured := x.measures_value x.finestGrid
  rw [Measures] at measured
  rw [Nat.cast_div unit_dvd_value unit, div_mul_eq_mul_div, measured, mul_div_cancel_right₀ _ unit]

/-- The digits that are found are read back as the float. -/
theorem shortestFrom_spec (hx : x.significand ≠ 0) (tie : TieRule) (n : ℕ) :
    (x.shortestFrom tie n).negative = x.negative ∧
      x.Covers (x.shortestFrom tie n).magnitude := by
  induction n with
  | zero =>
    refine ⟨rfl, ?_⟩
    rw [shortestFrom, Decimal.magnitude, finestGrid_eq]
    exact covers_magnitude
  | succ n ih =>
    rw [shortestFrom]
    split
    · next c hc => exact ⟨rfl, covers_of_readsBack hx (readsBack_of_nearest? hc)⟩
    · exact ih

/-- The shortest decimal of a float is rounded back to the float. -/
theorem toBinary_shortest (r : f.Regular) (x : FiniteFloat f) (tie : TieRule) :
    (x.shortest tie).toBinary f = .finite x := by
  unfold shortest
  by_cases hx : x.significand = 0
  · have zero : x.isZero = true := by simpa [isZero] using hx
    rw [if_pos zero, eq_zero_of_significand hx]
    rfl
  · have nonzero : ¬ x.isZero = true := by simpa [isZero] using hx
    rw [if_neg nonzero]
    obtain ⟨sign, covers⟩ := shortestFrom_spec hx tie (x.decimalBound - x.finestGrid).toNat
    exact Decimal.toBinary_of_covers r hx sign covers

end FiniteFloat

end StreamTable

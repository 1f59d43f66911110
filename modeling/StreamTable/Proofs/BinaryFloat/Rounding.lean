import Mathlib.Algebra.Order.Field.Power
import Mathlib.Algebra.Order.Ring.Unbundled.Rat
import Mathlib.Data.Rat.Defs
import Mathlib.Tactic.FieldSimp
import Mathlib.Tactic.Linarith
import Mathlib.Tactic.Positivity
import Mathlib.Tactic.Ring
import StreamTable.Decimal.Shortest

/-!
# Rounding to nearest

`FiniteFloat.Covers x q` says that the rational `q` lies between the midpoints to the neighbours of
`x`, ends included if the significand of `x` is even.

Rounding is to nearest: the ratios that a float covers are rounded to it
(`BinaryFloat.ofRatio_of_covers`).  So a float that is moved to a wider format and back is the same
float (`BinaryFloat.convert_convert`).
-/

namespace StreamTable

/-! ### Rounding to an integer -/

/-- The integer is at most a half away, and less than a half if it is odd. -/
theorem roundHalfEven_of_near {n d m : ℕ} (hd : 0 < d) (lower : 2 * (m * d) ≤ 2 * n + d)
    (upper : 2 * n ≤ 2 * (m * d) + d)
    (odd : m % 2 = 1 → 2 * (m * d) < 2 * n + d ∧ 2 * n < 2 * (m * d) + d) :
    roundHalfEven n d = m := by
  have hr : n % d < d := Nat.mod_lt n hd
  have hn : n / d * d + n % d = n := Nat.div_add_mod' n d
  unfold roundHalfEven
  generalize n / d = q at hn ⊢
  generalize n % d = r at hr hn ⊢
  -- The integer is the floor of the quotient or the next one: any other is more than a half away.
  have below : q < m + 1 := by
    by_contra! h
    have := Nat.mul_le_mul_right d h
    rw [Nat.add_mul] at this
    omega
  have above : m < q + 2 := by
    by_contra! h
    have := Nat.mul_le_mul_right d h
    rw [Nat.add_mul] at this
    omega
  rcases Nat.lt_or_eq_of_le (Nat.le_of_lt_succ below) with lt | rfl
  · -- The integer is the one above the quotient, so the remainder is at least a half.
    obtain rfl : m = q + 1 := by omega
    rw [Nat.add_mul] at lower odd upper
    simp only
    split
    · omega
    · split
      · rfl
      · omega
  · simp only
    split
    · rfl
    · split
      · omega
      · omega

/-- An integer is what a quotient is rounded to if it is at most one half away, and at a half if it
is even. -/
theorem roundHalfEven_eq {n d m : ℕ} (hd : 0 < d) (lower : (m : ℚ) - 1 / 2 ≤ n / d)
    (upper : (n : ℚ) / d ≤ m + 1 / 2)
    (odd : m % 2 = 1 → (m : ℚ) - 1 / 2 < n / d ∧ (n : ℚ) / d < m + 1 / 2) :
    roundHalfEven n d = m := by
  have hd' : (0 : ℚ) < d := by exact_mod_cast hd
  rw [le_div_iff₀ hd'] at lower
  rw [div_le_iff₀ hd'] at upper
  refine roundHalfEven_of_near hd ?_ ?_ fun hm => ?_
  · have : 2 * ((m : ℚ) * d) ≤ 2 * n + d := by linarith
    exact_mod_cast this
  · have : 2 * (n : ℚ) ≤ 2 * (m * d) + d := by linarith
    exact_mod_cast this
  · obtain ⟨lower, upper⟩ := odd hm
    rw [lt_div_iff₀ hd'] at lower
    rw [div_lt_iff₀ hd'] at upper
    have below : 2 * ((m : ℚ) * d) < 2 * n + d := by linarith
    have above : 2 * (n : ℚ) < 2 * (m * d) + d := by linarith
    exact ⟨by exact_mod_cast below, by exact_mod_cast above⟩

/-! ### Scaling -/

theorem zpow_of_nonneg (b : ℚ) {k : ℤ} (h : 0 ≤ k) : b ^ k = b ^ k.toNat := by
  rw [← zpow_natCast, Int.toNat_of_nonneg h]

theorem zpow_of_neg (b : ℚ) {k : ℤ} (h : ¬ 0 ≤ k) : b ^ k = (b ^ (-k).toNat)⁻¹ := by
  rw [← zpow_natCast, Int.toNat_of_nonneg (by omega), zpow_neg, inv_inv]

/-- A number that is scaled by a power is a ratio, in which a negative power stands below. -/
theorem ratio_eq_mul_zpow (m b : ℕ) (e : ℤ) :
    let r := if 0 ≤ e then (m * Nat.pow b e.toNat, 1) else (m, Nat.pow b (-e).toNat)
    (r.1 : ℚ) / r.2 = m * (b : ℚ) ^ e := by
  by_cases h : 0 ≤ e
  · simp only [h, if_true, Nat.pow_eq, Nat.cast_mul, Nat.cast_pow, Nat.cast_one, div_one]
    rw [zpow_of_nonneg b h]
  · simp only [h, if_false, Nat.pow_eq, Nat.cast_pow]
    rw [zpow_of_neg b h, div_eq_mul_inv]

variable {n d : ℕ}

theorem scaleRatio_pos (hd : 0 < d) (e : ℤ) : 0 < (scaleRatio n d e).2 := by
  unfold scaleRatio
  split
  · exact Nat.mul_pos hd (Nat.two_pow_pos _)
  · exact hd

theorem scaleRatio_eq (e : ℤ) :
    ((scaleRatio n d e).1 : ℚ) / (scaleRatio n d e).2 = n / d / 2 ^ e := by
  unfold scaleRatio
  split
  · next h =>
    rw [zpow_of_nonneg 2 h, div_div]
    push_cast [Nat.pow_eq]
    rfl
  · next h =>
    rw [zpow_of_neg 2 h, div_inv_eq_mul]
    push_cast [Nat.pow_eq]
    ring

/-- The leading binary digit of a ratio. -/
theorem leadingExponent_spec (hn : 0 < n) (hd : 0 < d) :
    (2 : ℚ) ^ leadingExponent n d ≤ n / d ∧ (n : ℚ) / d < 2 ^ (leadingExponent n d + 1) := by
  have hd' : (0 : ℚ) < d := by exact_mod_cast hd
  have n_low : (2 : ℚ) ^ (n.log2 : ℤ) ≤ n := by exact_mod_cast Nat.log2_self_le hn.ne'
  have n_high : (n : ℚ) < 2 ^ ((n.log2 : ℤ) + 1) := by exact_mod_cast Nat.lt_log2_self
  have d_low : (2 : ℚ) ^ (d.log2 : ℤ) ≤ d := by exact_mod_cast Nat.log2_self_le hd.ne'
  have d_high : (d : ℚ) < 2 ^ ((d.log2 : ℤ) + 1) := by exact_mod_cast Nat.lt_log2_self
  -- The difference of the two leading exponents is right, or too great by one.
  set g : ℤ := (n.log2 : ℤ) - d.log2 with hg
  have below : (2 : ℚ) ^ (g - 1) ≤ n / d := by
    rw [le_div_iff₀ hd']
    calc (2 : ℚ) ^ (g - 1) * d ≤ 2 ^ (g - 1) * 2 ^ ((d.log2 : ℤ) + 1) := by gcongr
      _ = 2 ^ (n.log2 : ℤ) := by
        rw [← zpow_add₀ two_ne_zero]
        congr 1
        omega
      _ ≤ n := n_low
  have above : (n : ℚ) / d < 2 ^ (g + 1) := by
    rw [div_lt_iff₀ hd']
    calc (n : ℚ) < 2 ^ ((n.log2 : ℤ) + 1) := n_high
      _ = 2 ^ (g + 1) * 2 ^ (d.log2 : ℤ) := by
        rw [← zpow_add₀ two_ne_zero]
        congr 1
        omega
      _ ≤ 2 ^ (g + 1) * d := by gcongr
  have scaled : (scaleRatio n d g).1 < (scaleRatio n d g).2 ↔ (n : ℚ) / d < 2 ^ g := by
    have pos : (0 : ℚ) < (scaleRatio n d g).2 := by exact_mod_cast scaleRatio_pos hd g
    rw [← Nat.cast_lt (α := ℚ), ← div_lt_one pos, scaleRatio_eq, div_lt_one (by positivity)]
  rw [leadingExponent, ← hg]
  split
  · next h =>
    rw [sub_add_cancel]
    exact ⟨below, scaled.1 h⟩
  · next h => exact ⟨not_lt.1 fun lt => h (scaled.2 lt), above⟩

/-- The exponent of the leading digit lies between powers of two that the ratio lies between. -/
theorem leadingExponent_lt (hn : 0 < n) (hd : 0 < d) {k : ℤ} (h : (n : ℚ) / d < 2 ^ k) :
    leadingExponent n d < k :=
  (zpow_lt_zpow_iff_right₀ one_lt_two).1 ((leadingExponent_spec hn hd).1.trans_lt h)

/-- The leading exponent is the greatest one whose power is not above the number. -/
theorem le_leadingExponent (hn : 0 < n) (hd : 0 < d) {k : ℤ} (h : (2 : ℚ) ^ k ≤ n / d) :
    k ≤ leadingExponent n d := by
  have := (zpow_lt_zpow_iff_right₀ one_lt_two).1 (h.trans_lt (leadingExponent_spec hn hd).2)
  omega

/-! ### What a float covers -/

namespace FiniteFloat

variable {f : Format} (x : FiniteFloat f)

/-- The magnitude. -/
def magnitude : ℚ := x.significand * 2 ^ x.exponent

/-- The midpoint between the magnitude and the one below it. -/
def lowerMidpoint : ℚ := (4 * x.significand - x.gapBelow) * 2 ^ (x.exponent - 2)

/-- The midpoint between the magnitude and the one above it. -/
def upperMidpoint : ℚ := (4 * x.significand + 2) * 2 ^ (x.exponent - 2)

/-- The magnitude `q` lies between the midpoints; the ends are included if the significand is
even. -/
structure Covers (q : ℚ) : Prop where
  lower : x.lowerMidpoint ≤ q
  upper : q ≤ x.upperMidpoint
  odd : x.significand % 2 = 1 → x.lowerMidpoint < q ∧ q < x.upperMidpoint

theorem gapBelow_pos : 0 < x.gapBelow := by
  unfold gapBelow
  split <;> decide

theorem gapBelow_le : x.gapBelow ≤ 2 := by
  unfold gapBelow
  split <;> decide

theorem ratio_pos : 0 < x.ratio.2 := by
  unfold ratio
  split
  · exact Nat.one_pos
  · exact Nat.two_pow_pos _

theorem ratio_eq : (x.ratio.1 : ℚ) / x.ratio.2 = x.magnitude :=
  ratio_eq_mul_zpow x.significand 2 x.exponent

/-- Four quarters of the unit make a unit. -/
theorem unit_eq : (2 : ℚ) ^ x.exponent = 4 * 2 ^ (x.exponent - 2) := by
  have four : (4 : ℚ) = 2 ^ (2 : ℤ) := by norm_num
  rw [four, ← zpow_add₀ two_ne_zero]
  congr 1
  omega

variable {x}

/-- A float covers its own magnitude. -/
theorem covers_magnitude : x.Covers x.magnitude := by
  have unit : (0 : ℚ) < 2 ^ (x.exponent - 2) := by positivity
  have gap : (0 : ℚ) < x.gapBelow := by exact_mod_cast x.gapBelow_pos
  have low : x.lowerMidpoint < x.magnitude := by
    rw [lowerMidpoint, magnitude, unit_eq]
    nlinarith
  have high : x.magnitude < x.upperMidpoint := by
    rw [upperMidpoint, magnitude, unit_eq]
    nlinarith
  exact ⟨low.le, high.le, fun _ => ⟨low, high⟩⟩

theorem significand_pos (h : x.significand ≠ 0) : (1 : ℚ) ≤ x.significand := by
  exact_mod_cast Nat.one_le_iff_ne_zero.2 h

/-- The midpoints lie in the range of the format. -/
theorem upperMidpoint_lt : x.upperMidpoint < 2 ^ (x.exponent + f.precision) := by
  have unit : (0 : ℚ) < 2 ^ (x.exponent - 2) := by positivity
  have bound : (x.significand : ℚ) + 1 ≤ 2 ^ f.precision := by
    exact_mod_cast Nat.succ_le_of_lt x.canonical.1
  calc x.upperMidpoint < 4 * 2 ^ f.precision * 2 ^ (x.exponent - 2) := by
        rw [upperMidpoint]
        gcongr
        linarith
    _ = 2 ^ (x.exponent + f.precision) := by
        rw [zpow_add₀ two_ne_zero, unit_eq, zpow_natCast]
        ring

theorem le_lowerMidpoint (h : x.significand ≠ 0) :
    (2 : ℚ) ^ (f.minExponent - 1) ≤ x.lowerMidpoint := by
  have gap : (x.gapBelow : ℚ) ≤ 2 := by exact_mod_cast x.gapBelow_le
  have one := significand_pos h
  calc (2 : ℚ) ^ (f.minExponent - 1) ≤ 2 ^ (x.exponent - 1) :=
        zpow_le_zpow_right₀ one_le_two (by have := x.canonical.2.1; omega)
    _ = 2 * 2 ^ (x.exponent - 2) := by
        rw [← zpow_one_add₀ two_ne_zero]
        congr 1
        omega
    _ ≤ x.lowerMidpoint := by
        rw [lowerMidpoint]
        gcongr
        linarith

/-- Only the least normal significand covers magnitudes below its own power of two. -/
theorem significand_of_lt {q : ℚ} (h : x.Covers q) (normal : f.minExponent < x.exponent)
    (hq : q < 2 ^ (x.exponent + (f.precision - 1 : ℕ))) :
    x.significand = 2 ^ (f.precision - 1) ∧ x.gapBelow = 1 := by
  have least : 2 ^ (f.precision - 1) ≤ x.significand :=
    x.canonical.2.2.2.resolve_left (by omega)
  have eq : x.significand = 2 ^ (f.precision - 1) := by
    by_contra ne
    have greater : (2 ^ (f.precision - 1) : ℚ) + 1 ≤ x.significand := by
      exact_mod_cast Nat.succ_le_of_lt (Nat.lt_of_le_of_ne least (Ne.symm ne))
    have gap : (x.gapBelow : ℚ) ≤ 2 := by exact_mod_cast x.gapBelow_le
    have beyond : (2 : ℚ) ^ (x.exponent + (f.precision - 1 : ℕ)) ≤ x.lowerMidpoint := by
      rw [lowerMidpoint, zpow_add₀ two_ne_zero, zpow_natCast, unit_eq, mul_right_comm]
      gcongr
      linarith
    exact absurd (h.lower.trans_lt hq) (not_lt.2 beyond)
  exact ⟨eq, if_pos ⟨eq, normal⟩⟩

end FiniteFloat

namespace BinaryFloat

variable {f : Format} {x : FiniteFloat f}

theorem ofParts_eq : ofParts f x.negative x.significand x.exponent = .finite x :=
  dif_pos x.canonical

/-- What a ratio is rounded to, when its exponent and its significand are known. -/
theorem ofRatio_eq (negative : Bool) (hn : n ≠ 0) {e : ℤ} {m : ℕ}
    (he : max f.minExponent (leadingExponent n d - ((f.precision : ℤ) - 1)) = e)
    (hm : roundHalfEven (scaleRatio n d e).1 (scaleRatio n d e).2 = m) :
    ofRatio f negative n d =
      if m = 2 ^ f.precision then ofParts f negative (2 ^ (f.precision - 1)) (e + 1)
      else ofParts f negative m e := by
  simp only [ofRatio, if_neg hn, he, hm]
  rfl

/-- A ratio is rounded to the float that covers it. -/
theorem ofRatio_of_covers (hp : 0 < f.precision) (hx : x.significand ≠ 0) (hd : 0 < d)
    (h : x.Covers ((n : ℚ) / d)) : ofRatio f x.negative n d = .finite x := by
  -- A ratio of zero lies below the least midpoint.
  have hn : 0 < n := by
    rcases Nat.eq_zero_or_pos n with rfl | hn
    · have low := (FiniteFloat.le_lowerMidpoint hx).trans h.lower
      have : (0 : ℚ) < 2 ^ (f.minExponent - 1) := by positivity
      simp at low
      linarith
    · exact hn
  have upper := h.upper.trans_lt FiniteFloat.upperMidpoint_lt
  by_cases carry : f.minExponent < x.exponent ∧
      (n : ℚ) / d < 2 ^ (x.exponent + (f.precision - 1 : ℕ))
  · -- The ratio is below the least normal significand, and is rounded up to the next power of two.
    obtain ⟨normal, hq⟩ := carry
    obtain ⟨significand, gap⟩ := FiniteFloat.significand_of_lt h normal hq
    -- In units of the exponent below, the significand has to come out as the next power of two.
    have half : (2 : ℚ) ^ (x.exponent - 1) = 2 * 2 ^ (x.exponent - 2) := by
      rw [← zpow_one_add₀ two_ne_zero]
      congr 1
      omega
    have whole : ((2 ^ f.precision : ℕ) : ℚ) = 2 * 2 ^ (f.precision - 1) := by
      rw [← pow_succ', Nat.sub_add_cancel hp]
      push_cast
      rfl
    have low : (4 * 2 ^ (f.precision - 1) - 1) * (2 : ℚ) ^ (x.exponent - 2) ≤ n / d := by
      simpa [FiniteFloat.lowerMidpoint, significand, gap] using h.lower
    have least : (2 : ℚ) ^ (x.exponent - 1 + (f.precision - 1 : ℕ)) ≤ n / d := by
      have one : (1 : ℚ) ≤ 2 ^ (f.precision - 1) := one_le_pow₀ one_le_two
      refine le_trans ?_ low
      rw [zpow_add₀ two_ne_zero, zpow_natCast, half, mul_right_comm]
      gcongr
      linarith
    have he : max f.minExponent (leadingExponent n d - ((f.precision : ℤ) - 1)) =
        x.exponent - 1 := by
      have above := leadingExponent_lt hn hd hq
      have below := le_leadingExponent hn hd least
      omega
    have hm : roundHalfEven (scaleRatio n d (x.exponent - 1)).1
        (scaleRatio n d (x.exponent - 1)).2 = 2 ^ f.precision := by
      have even : 2 ^ f.precision % 2 = 0 := Nat.two_pow_mod_two_eq_zero.2 hp
      refine roundHalfEven_eq (scaleRatio_pos hd _) ?_ ?_ fun odd => by omega
      · rw [scaleRatio_eq, le_div_iff₀ (by positivity), whole, half]
        linarith
      · rw [zpow_add₀ two_ne_zero, zpow_natCast, FiniteFloat.unit_eq] at hq
        rw [scaleRatio_eq, div_le_iff₀ (by positivity), whole, half]
        nlinarith
    rw [ofRatio_eq _ hn.ne' he hm, if_pos rfl, sub_add_cancel, ← significand]
    exact ofParts_eq
  · -- The leading digit of the ratio is that of the float, or the exponent is the least one.
    have he : max f.minExponent (leadingExponent n d - ((f.precision : ℤ) - 1)) = x.exponent := by
      have above := leadingExponent_lt hn hd upper
      have range := x.canonical.2.1
      by_cases normal : f.minExponent < x.exponent
      · have below := le_leadingExponent hn hd (not_lt.1 fun lt => carry ⟨normal, lt⟩)
        omega
      · omega
    have hm : roundHalfEven (scaleRatio n d x.exponent).1 (scaleRatio n d x.exponent).2 =
        x.significand := by
      have unit : (0 : ℚ) < 2 ^ (x.exponent - 2) := by positivity
      have gap : (x.gapBelow : ℚ) ≤ 2 := by exact_mod_cast x.gapBelow_le
      have low : (x.significand - 1 / 2 : ℚ) * 2 ^ x.exponent ≤ x.lowerMidpoint := by
        rw [FiniteFloat.lowerMidpoint, FiniteFloat.unit_eq]
        nlinarith
      have high : x.upperMidpoint = (x.significand + 1 / 2 : ℚ) * 2 ^ x.exponent := by
        rw [FiniteFloat.upperMidpoint, FiniteFloat.unit_eq]
        ring
      have scale : (0 : ℚ) < 2 ^ x.exponent := by positivity
      refine roundHalfEven_eq (scaleRatio_pos hd _) ?_ ?_ fun odd => ?_
      · rw [scaleRatio_eq, le_div_iff₀ scale]
        exact low.trans h.lower
      · rw [scaleRatio_eq, div_le_iff₀ scale, ← high]
        exact h.upper
      · rw [scaleRatio_eq, lt_div_iff₀ scale, div_lt_iff₀ scale, ← high]
        exact ⟨low.trans_lt (h.odd odd).1, (h.odd odd).2⟩
    have bounded : x.significand ≠ 2 ^ f.precision := Nat.ne_of_lt x.canonical.1
    rw [ofRatio_eq _ hn.ne' he hm, if_neg bounded]
    exact ofParts_eq

end BinaryFloat

/-! ### Wider formats -/

/-- Every number of the format `f` is one of the format `g`. -/
structure Format.Widens (f g : Format) : Prop where
  precision : f.precision ≤ g.precision
  minExponent : g.minExponent + g.precision ≤ f.minExponent + 1
  maxExponent : f.maxExponent ≤ g.maxExponent
  pos : 0 < f.precision

theorem Format.widens_single_double : Format.Widens .single .double := by
  constructor <;> decide

namespace FiniteFloat

variable {f g : Format} {x : FiniteFloat f}

/-- A zero is the zero of its sign. -/
theorem eq_zero_of_significand (h : x.significand = 0) : x = .zero x.negative := by
  obtain ⟨s, m, e, canonical⟩ := x
  obtain rfl : m = 0 := h
  have least : e = f.minExponent := by
    refine canonical.2.2.2.resolve_right fun normal => ?_
    exact absurd normal (Nat.not_le.2 (Nat.two_pow_pos _))
  subst least
  rfl

/-- A number of a format is a number of every wider one. -/
theorem exists_widened (w : Format.Widens f g) (h : x.significand ≠ 0) :
    ∃ y : FiniteFloat g, y.negative = x.negative ∧ y.significand ≠ 0 ∧
      y.magnitude = x.magnitude := by
  obtain ⟨hm, hmin, hmax, _⟩ := x.canonical
  have hlog : x.significand.log2 < f.precision := (Nat.log2_lt h).2 hm
  have hp := w.precision
  -- The significand is shifted until its leading digit is that of the wider format.
  obtain ⟨j, hj⟩ : ∃ j, x.significand.log2 + j = g.precision - 1 :=
    ⟨g.precision - 1 - x.significand.log2, by omega⟩
  have low : 2 ^ (g.precision - 1) ≤ x.significand * 2 ^ j := by
    rw [← hj, Nat.pow_add]
    exact Nat.mul_le_mul_right _ (Nat.log2_self_le h)
  have high : x.significand * 2 ^ j < 2 ^ g.precision := by
    have total : g.precision = x.significand.log2 + 1 + j := by omega
    rw [total, Nat.pow_add]
    exact Nat.mul_lt_mul_of_pos_right Nat.lt_log2_self (Nat.two_pow_pos j)
  have canonical : g.Canonical (x.significand * 2 ^ j) (x.exponent - j) := by
    have := w.minExponent
    have := w.maxExponent
    exact ⟨high, by omega, by omega, .inr low⟩
  refine ⟨⟨x.negative, x.significand * 2 ^ j, x.exponent - j, canonical⟩, rfl, ?_, ?_⟩
  · exact Nat.mul_ne_zero h (Nat.two_pow_pos j).ne'
  · have cancel : (2 : ℚ) ^ j * 2 ^ (x.exponent - j) = 2 ^ x.exponent := by
      rw [← zpow_natCast, ← zpow_add₀ two_ne_zero]
      congr 1
      omega
    rw [magnitude, magnitude]
    push_cast
    rw [mul_assoc, cancel]

end FiniteFloat

namespace BinaryFloat

variable {f g : Format} {x : FiniteFloat f}

/-- A float is converted to the float of its sign and magnitude. -/
theorem convert_of_magnitude {y : FiniteFloat g} (hp : 0 < g.precision)
    (hy : y.significand ≠ 0) (sign : y.negative = x.negative)
    (same : y.magnitude = x.magnitude) : convert g (.finite x) = .finite y := by
  have covers : y.Covers ((x.ratio.1 : ℚ) / x.ratio.2) := by
    rw [x.ratio_eq, ← same]
    exact FiniteFloat.covers_magnitude
  rw [convert, ← sign]
  exact ofRatio_of_covers hp hy x.ratio_pos covers

theorem convert_zero (negative : Bool) :
    convert g (.finite (.zero negative : FiniteFloat f)) = .finite (.zero negative) := by
  have ratio : (FiniteFloat.zero negative : FiniteFloat f).ratio.1 = 0 := by
    rw [FiniteFloat.ratio]
    split <;> simp [FiniteFloat.zero]
  rw [convert, ratio]
  rfl

/-- A finite float stays finite in a wider format, and moved back it is the same. -/
theorem convert_convert (w : Format.Widens f g) (x : FiniteFloat f) :
    ∃ y : FiniteFloat g, convert g (.finite x) = .finite y ∧ convert f (.finite y) = .finite x := by
  by_cases h : x.significand = 0
  · rw [FiniteFloat.eq_zero_of_significand h]
    exact ⟨_, convert_zero _, convert_zero _⟩
  · obtain ⟨y, sign, hy, same⟩ := FiniteFloat.exists_widened w h
    exact ⟨y, convert_of_magnitude (w.pos.trans_le w.precision) hy sign same,
      convert_of_magnitude w.pos h sign.symm same.symm⟩

end BinaryFloat

end StreamTable

import Mathlib.Algebra.Order.Ring.Int
import Mathlib.Order.Compare
import Mathlib.Tactic.Ring
import Permit.Number.Binary64

/-!
What becomes of an integer that is taken for a floating-point number: the integer of 53
significant bits nearest to it.

* `nearest_closest`, `significant_nearest`: no integer of 53 significant bits is nearer;
* `nearest_mono`: the order of integers is never turned round, but two of them may meet;
* `nearest_of_le`, `natAbs_nearest_sub_le`: up to `2 ^ 53` nothing changes, and up to `2 ^ 64`
  nothing changes by more than 1024;
* `Binary64.denotes_ofInt?`, `Binary64.lt_eq`: the floating-point number near an integer has that
  value, and such numbers are compared by their values.
-/
namespace Permit.Number

/-! ### Rounding a quotient -/

section Rounding

variable {num num' den q : Nat}

theorem div_le_roundDiv (num den : Nat) : num / den ≤ roundDiv num den := by
  simp only [roundDiv]
  split
  · exact Nat.le_refl _
  · split <;> omega

theorem roundDiv_le_div_add_one (num den : Nat) : roundDiv num den ≤ num / den + 1 := by
  simp only [roundDiv]
  split
  · omega
  · split <;> omega

theorem roundDiv_mono (h : num ≤ num') : roundDiv num den ≤ roundDiv num' den := by
  have quotients : num / den ≤ num' / den := Nat.div_le_div_right h
  rcases Nat.lt_or_eq_of_le quotients with lower | same
  · have := roundDiv_le_div_add_one num den
    have := div_le_roundDiv num' den
    omega
  · -- under one quotient the remainders decide
    have rests : num % den ≤ num' % den := by
      have whole := Nat.div_add_mod num den
      have whole' := Nat.div_add_mod num' den
      rw [same] at whole
      omega
    simp only [roundDiv, same]
    split_ifs <;> omega

theorem le_roundDiv (positive : 0 < den) (h : den * q ≤ num) : q ≤ roundDiv num den := by
  have whole := roundDiv_mul q den positive
  rw [Nat.mul_comm] at whole
  exact whole ▸ roundDiv_mono h

theorem roundDiv_le (positive : 0 < den) (h : num ≤ den * q) : roundDiv num den ≤ q := by
  have whole := roundDiv_mul q den positive
  rw [Nat.mul_comm] at whole
  exact whole ▸ roundDiv_mono h

/-- No multiple of the denominator is nearer to the numerator. -/
theorem roundDiv_closest (positive : 0 < den) (num q : Nat) :
    ((den * roundDiv num den : Nat) - num : Int).natAbs ≤ ((den * q : Nat) - num : Int).natAbs := by
  have above := two_mul_roundDiv_le num den positive
  have below := le_two_mul_roundDiv num den positive
  rcases Nat.lt_trichotomy q (roundDiv num den) with lower | rfl | higher
  · have apart := Nat.mul_le_mul_left den lower
    rw [Nat.mul_succ] at apart
    omega
  · exact Nat.le_refl _
  · have apart := Nat.mul_le_mul_left den higher
    rw [Nat.mul_succ] at apart
    omega

end Rounding

/-! ### Integers of 53 significant bits -/

/-- An integer of 53 significant bits. -/
def Significant (m : Int) : Prop :=
  ∃ digits shift : Nat, digits ≤ 2 ^ 53 ∧ m.natAbs = 2 ^ shift * digits

/-- How far neighbours of 53 significant bits lie apart. -/
def spacing (n : Nat) : Nat := 2 ^ (n.log2 - 52)

/-- The number of 53 significant bits nearest to a natural number, a tie going to the even one. -/
def nearestNat (n : Nat) : Nat := spacing n * roundDiv n (spacing n)

/-- The integer of 53 significant bits nearest to an integer. -/
def nearest (n : Int) : Int :=
  if n < 0 then -(nearestNat n.natAbs : Int) else nearestNat n.natAbs

variable {a b n : Nat}

theorem spacing_pos (n : Nat) : 0 < spacing n := Nat.two_pow_pos _

/-- A power of two that is not below the spacing is a multiple of it. -/
theorem spacing_mul {k : Nat} (h : n.log2 - 52 ≤ k) :
    spacing n * 2 ^ (k - (n.log2 - 52)) = 2 ^ k := by
  rw [spacing, ← Nat.pow_add, Nat.add_sub_cancel' h]

theorem two_pow_log2_le_nearestNat (some : n ≠ 0) : 2 ^ n.log2 ≤ nearestNat n := by
  have power := spacing_mul (n := n) (k := n.log2) (Nat.sub_le _ _)
  have low := Nat.log2_self_le some
  rw [← power] at low
  exact power ▸ Nat.mul_le_mul_left _ (le_roundDiv (spacing_pos n) low)

theorem nearestNat_le_two_pow (n : Nat) : nearestNat n ≤ 2 ^ (n.log2 + 1) := by
  have power := spacing_mul (n := n) (k := n.log2 + 1) (by omega)
  have high := (Nat.lt_log2_self (n := n)).le
  rw [← power] at high
  exact power ▸ Nat.mul_le_mul_left _ (roundDiv_le (spacing_pos n) high)

theorem nearestNat_mono (h : a ≤ b) : nearestNat a ≤ nearestNat b := by
  by_cases none : a = 0
  · rw [none]
    exact Nat.zero_le _
  have some : b ≠ 0 := by omega
  have binades : a.log2 ≤ b.log2 :=
    (Nat.le_log2 some).mpr ((Nat.log2_self_le none).trans h)
  rcases Nat.lt_or_eq_of_le binades with lower | same
  · calc nearestNat a ≤ 2 ^ (a.log2 + 1) := nearestNat_le_two_pow a
      _ ≤ 2 ^ b.log2 := Nat.pow_le_pow_right (by decide) lower
      _ ≤ nearestNat b := two_pow_log2_le_nearestNat some
  · rw [nearestNat, nearestNat, spacing, spacing, same]
    exact Nat.mul_le_mul_left _ (roundDiv_mono h)

theorem nearestNat_of_le (h : n ≤ 2 ^ 53) : nearestNat n = n := by
  rcases Nat.lt_or_eq_of_le h with small | rfl
  · have binade : n.log2 - 52 = 0 := by
      by_cases none : n = 0
      · rw [none]
        decide
      · have := (Nat.log2_lt none).mpr small
        omega
    have whole := roundDiv_mul n 1 Nat.one_pos
    rw [Nat.mul_one] at whole
    rw [nearestNat, spacing, binade, Nat.pow_zero, Nat.one_mul, whole]
  · decide +kernel

theorem nearestNat_closest {m : Nat} (significant : Significant m) (n : Nat) :
    ((nearestNat n : Int) - n).natAbs ≤ ((m : Int) - n).natAbs := by
  obtain ⟨digits, shift, few, value⟩ := significant
  rw [Int.natAbs_natCast] at value
  by_cases none : n = 0
  · rw [none, nearestNat_of_le (by decide)]
    exact Nat.zero_le _
  by_cases coarse : n.log2 - 52 ≤ shift
  · -- a multiple of the spacing
    have multiple : m = spacing n * (2 ^ (shift - (n.log2 - 52)) * digits) := by
      rw [value, ← Nat.mul_assoc, spacing_mul coarse]
    rw [multiple]
    exact roundDiv_closest (spacing_pos n) n _
  · -- below the power of two that the number begins with, which is a multiple of the spacing
    have power := spacing_mul (n := n) (k := n.log2) (Nat.sub_le _ _)
    have low := Nat.log2_self_le none
    have below : m ≤ 2 ^ n.log2 := by
      calc m = 2 ^ shift * digits := value
        _ ≤ 2 ^ shift * 2 ^ 53 := Nat.mul_le_mul_left _ few
        _ = 2 ^ (shift + 53) := (Nat.pow_add ..).symm
        _ ≤ 2 ^ n.log2 := Nat.pow_le_pow_right (by decide) (by omega)
    have closest := roundDiv_closest (spacing_pos n) n (2 ^ (n.log2 - (n.log2 - 52)))
    rw [power] at closest
    rw [nearestNat]
    omega

theorem significant_nearestNat (n : Nat) : Significant (nearestNat n) := by
  refine ⟨roundDiv n (spacing n), n.log2 - 52, ?_, by rw [Int.natAbs_natCast]; rfl⟩
  refine roundDiv_le (spacing_pos n) ?_
  calc n ≤ 2 ^ (n.log2 + 1) := Nat.lt_log2_self.le
    _ ≤ 2 ^ (n.log2 - 52 + 53) := Nat.pow_le_pow_right (by decide) (by omega)
    _ = spacing n * 2 ^ 53 := Nat.pow_add ..

theorem natAbs_nearestNat_sub_le (h : n ≤ 2 ^ 64) : ((nearestNat n : Int) - n).natAbs ≤ 1024 := by
  rcases Nat.lt_or_eq_of_le h with small | rfl
  · have fine : spacing n ≤ 2 ^ 11 := by
      refine Nat.pow_le_pow_right (by decide) ?_
      by_cases none : n = 0
      · rw [none]
        decide
      · have := (Nat.log2_lt none).mpr small
        omega
    have above := two_mul_roundDiv_le n (spacing n) (spacing_pos n)
    have below := le_two_mul_roundDiv n (spacing n) (spacing_pos n)
    rw [← nearestNat] at above below
    omega
  · decide +kernel

variable {m k : Int}

theorem nearest_signed (negative : Bool) (n : Nat) :
    nearest (if negative then -(n : Int) else n) =
      if negative then -(nearestNat n : Int) else nearestNat n := by
  by_cases none : n = 0
  · subst none
    cases negative <;> decide +kernel
  · cases negative
    · simp [nearest]
    · simp [nearest, none]

/-- **Order.** Of two integers, the nearest to the lower one is not the higher. -/
theorem nearest_mono (h : m ≤ k) : nearest m ≤ nearest k := by
  unfold nearest
  split <;> split
  · have := nearestNat_mono (a := k.natAbs) (b := m.natAbs) (by omega)
    omega
  · omega
  · omega
  · have := nearestNat_mono (a := m.natAbs) (b := k.natAbs) (by omega)
    omega

theorem lt_of_nearest_lt (h : nearest m < nearest k) : m < k :=
  Int.not_le.mp fun other => absurd (nearest_mono other) (Int.not_le.mpr h)

theorem nearest_of_le (h : m.natAbs ≤ 2 ^ 53) : nearest m = m := by
  rw [nearest, nearestNat_of_le h]
  split <;> omega

theorem significant_nearest (m : Int) : Significant (nearest m) := by
  obtain ⟨digits, shift, few, value⟩ := significant_nearestNat m.natAbs
  refine ⟨digits, shift, few, ?_⟩
  rw [← value, nearest]
  split <;> omega

/-- **Nearness.** No integer of 53 significant bits is nearer. -/
theorem nearest_closest (significant : Significant k) (m : Int) :
    (nearest m - m).natAbs ≤ (k - m).natAbs := by
  obtain ⟨digits, shift, few, value⟩ := significant
  have unsigned : Significant k.natAbs := ⟨digits, shift, few, Int.natAbs_natCast _ ▸ value⟩
  have own := nearestNat_closest unsigned m.natAbs
  have zero := nearestNat_closest ⟨0, 0, by decide, rfl⟩ m.natAbs
  unfold nearest
  split <;> omega

theorem natAbs_nearest_sub_le (h : m.natAbs ≤ 2 ^ 64) : (nearest m - m).natAbs ≤ 1024 := by
  have := natAbs_nearestNat_sub_le h
  unfold nearest
  split <;> omega

namespace Binary64

/-! ### Floating-point numbers near integers -/

def Denotes (x : Binary64) (value : Int) : Prop :=
  ∃ negative mantissa exponent, x = .finite negative mantissa exponent ∧
    (ratio negative mantissa exponent).1 = value * (ratio negative mantissa exponent).2

theorem scaled_natCast (num den k : Nat) : scaled num den (k : Int) = (num * 2 ^ k, den) := rfl

theorem scaled_neg_natCast (num den k : Nat) :
    scaled num den (-(k : Int)) = (num, den * 2 ^ k) := by
  cases k with
  | zero => simp [scaled]
  | succ k => rfl

theorem ratio_den_pos (negative : Bool) (mantissa : Nat) (exponent : Int) :
    0 < (ratio negative mantissa exponent).2 := by
  cases exponent with
  | ofNat k => exact Nat.one_pos
  | negSucc k => simp [ratio, scaled]

theorem denotes_finite {negative : Bool} {mantissa value : Nat} {exponent : Int}
    (h : (scaled mantissa 1 exponent).1 = value * (scaled mantissa 1 exponent).2) :
    Denotes (.finite negative mantissa exponent) (if negative then -(value : Int) else value) := by
  refine ⟨negative, mantissa, exponent, rfl, ?_⟩
  simp only [ratio, h]
  cases negative <;> simp

variable {x y : Binary64} {v w : Int}

/-- Numbers that denote integers are compared as these are. -/
theorem compare?_eq (h : x.Denotes v) (h' : y.Denotes w) : compare? x y = some (compare v w) := by
  obtain ⟨s, d, e, rfl, left⟩ := h
  obtain ⟨s', d', e', rfl, right⟩ := h'
  have positive : (0 : Int) < (ratio s d e).2 * (ratio s' d' e').2 :=
    mul_pos (by exact_mod_cast ratio_den_pos s d e) (by exact_mod_cast ratio_den_pos s' d' e')
  have crossed : w * (ratio s' d' e').2 * (ratio s d e).2 =
      w * ((ratio s d e).2 * (ratio s' d' e').2) := by
    rw [mul_assoc, mul_comm ((ratio s' d' e').2 : Int)]
  rw [compare?, compareRatio, left, right, mul_assoc, crossed]
  rcases lt_trichotomy v w with less | rfl | more
  · rw [compare_lt_iff_lt.mpr less, compare_lt_iff_lt.mpr (mul_lt_mul_of_pos_right less positive)]
  · rw [compare_eq_iff_eq.mpr rfl, compare_eq_iff_eq.mpr rfl]
  · rw [compare_gt_iff_gt.mpr more, compare_gt_iff_gt.mpr (mul_lt_mul_of_pos_right more positive)]

theorem lt_eq (h : x.Denotes v) (h' : y.Denotes w) : x.lt y = decide (v < w) := by
  rw [lt, compare?_eq h h', Bool.eq_iff_iff]
  simp [compare_lt_iff_lt]

theorem mantissaBound_eq : mantissaBound = 2 ^ 53 := by decide

variable {d : Nat}

/-- The exponent of a natural number is that of its leading bit less 52. -/
theorem exponentFor_natural (some : d ≠ 0) : exponentFor d 1 = (d.log2 : Int) - 52 := by
  have one : (1 : Nat).log2 = 0 := by decide
  have low := Nat.log2_self_le some
  have full : ¬ (scaled d 1 (-((d.log2 : Int) - 53))).1 / (scaled d 1 (-((d.log2 : Int) - 53))).2 <
      mantissaBound := by
    rw [mantissaBound_eq, Nat.not_lt]
    by_cases large : 53 ≤ d.log2
    · have exponent : -((d.log2 : Int) - 53) = -((d.log2 - 53 : Nat) : Int) := by omega
      rw [exponent, scaled_neg_natCast, Nat.one_mul, Nat.le_div_iff_mul_le (Nat.two_pow_pos _),
        ← Nat.pow_add, Nat.add_sub_cancel' large]
      exact low
    · have exponent : -((d.log2 : Int) - 53) = ((53 - d.log2 : Nat) : Int) := by omega
      rw [exponent, scaled_natCast, Nat.div_one]
      calc 2 ^ 53 = 2 ^ d.log2 * 2 ^ (53 - d.log2) := by
            rw [← Nat.pow_add, Nat.add_sub_cancel' (by omega)]
        _ ≤ d * 2 ^ (53 - d.log2) := Nat.mul_le_mul_right _ low
  simp only [exponentFor, one, Nat.cast_zero, sub_zero, full, if_false]
  rw [leastExponent]
  omega

/-- From 53 bits on the mantissa is rounded, and may be carried into the next power of two. -/
theorem denotes_ofRatio_large (negative : Bool) (large : 52 ≤ d.log2) (fits : d.log2 < 1023) :
    Denotes (ofRatio negative d 1) (if negative then -(nearestNat d : Int) else nearestNat d) := by
  have some : d ≠ 0 := by
    rintro rfl
    exact absurd large (by decide)
  have exponent : (d.log2 : Int) - 52 = ((d.log2 - 52 : Nat) : Int) := by omega
  simp only [ofRatio, some, if_false, exponentFor_natural some, exponent, scaled_neg_natCast,
    Nat.one_mul]
  by_cases carried : roundDiv d (2 ^ (d.log2 - 52)) = mantissaBound
  · have next : ((d.log2 - 52 : Nat) : Int) + 1 = ((d.log2 - 52 + 1 : Nat) : Int) := by omega
    have finite : ¬ greatestExponent < ((d.log2 - 52 + 1 : Nat) : Int) := by
      rw [greatestExponent]
      omega
    have full : leastFull = 2 ^ 52 := by decide
    simp only [carried, if_true, next, finite, if_false]
    refine denotes_finite ?_
    rw [scaled_natCast, nearestNat, spacing, carried, mantissaBound_eq, full]
    ring
  · have finite : ¬ greatestExponent < ((d.log2 - 52 : Nat) : Int) := by
      rw [greatestExponent]
      omega
    simp only [carried, if_false, finite]
    refine denotes_finite ?_
    rw [scaled_natCast, nearestNat, spacing, Nat.mul_one, Nat.mul_comm]

/-- Below 53 bits nothing is lost. -/
theorem denotes_ofRatio_small (negative : Bool) (some : d ≠ 0) (small : d.log2 < 52) :
    Denotes (ofRatio negative d 1) (if negative then -(nearestNat d : Int) else nearestNat d) := by
  have exponent : (d.log2 : Int) - 52 = -((52 - d.log2 : Nat) : Int) := by omega
  have high := Nat.lt_log2_self (n := d)
  have short : d * 2 ^ (52 - d.log2) < mantissaBound := by
    calc d * 2 ^ (52 - d.log2) < 2 ^ (d.log2 + 1) * 2 ^ (52 - d.log2) :=
          Nat.mul_lt_mul_of_pos_right high (Nat.two_pow_pos _)
      _ = 2 ^ 53 := by
          rw [← Nat.pow_add]
          congr 1
          omega
      _ = mantissaBound := mantissaBound_eq.symm
  have whole := roundDiv_mul (d * 2 ^ (52 - d.log2)) 1 Nat.one_pos
  rw [Nat.mul_one] at whole
  have finite : ¬ greatestExponent < -((52 - d.log2 : Nat) : Int) := by
    rw [greatestExponent]
    omega
  have exact : nearestNat d = d :=
    nearestNat_of_le (high.le.trans (Nat.pow_le_pow_right (by decide) (by omega)))
  simp only [ofRatio, some, if_false, exponentFor_natural some, exponent, neg_neg, scaled_natCast,
    whole, short.ne, finite]
  refine denotes_finite ?_
  rw [scaled_neg_natCast, exact, Nat.one_mul]

/-- **The number near a natural one.** It denotes the nearest number of 53 significant bits. -/
theorem denotes_ofRatio (negative : Bool) (fits : d.log2 < 1023) :
    Denotes (ofRatio negative d 1) (if negative then -(nearestNat d : Int) else nearestNat d) := by
  by_cases none : d = 0
  · subst none
    exact denotes_finite (by decide +kernel)
  · rcases Nat.lt_or_ge d.log2 52 with small | large
    · exact denotes_ofRatio_small negative none small
    · exact denotes_ofRatio_large negative large fits

theorem denotes_ofInt? {n : Int} (fits : n.natAbs.log2 < 1023) :
    ∃ x, ofInt? n = some x ∧ x.Denotes (nearest n) := by
  have near : (ofRatio (n < 0) n.natAbs 1).Denotes (nearest n) := by
    simpa [nearest] using denotes_ofRatio (decide (n < 0)) fits
  refine ⟨ofRatio (n < 0) n.natAbs 1, ?_, near⟩
  obtain ⟨s, m, e, found, _⟩ := near
  rw [ofInt?, found]

end Binary64

end Permit.Number

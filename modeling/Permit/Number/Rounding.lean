namespace Permit.Number

/-- The whole number nearest to `num / den`; of two that are equally near, the even one. -/
def roundDiv (num den : Nat) : Nat :=
  let quotient := num / den
  let rest := num % den
  if 2 * rest < den then quotient
  else if den < 2 * rest then quotient + 1
  else quotient + quotient % 2

theorem roundDiv_mul (n den : Nat) (h : 0 < den) : roundDiv (n * den) den = n := by
  simp [roundDiv, Nat.mul_div_cancel n h, Nat.mul_mod_left, h]

theorem two_mul_roundDiv_le (num den : Nat) (h : 0 < den) :
    2 * (den * roundDiv num den) ≤ 2 * num + den := by
  have split := Nat.div_add_mod num den
  have small := Nat.mod_lt num h
  have parity : num / den % 2 ≤ 1 := by omega
  have one : den * (num / den + 1) = den * (num / den) + den := by rw [Nat.mul_add, Nat.mul_one]
  simp only [roundDiv]
  split
  · omega
  · split
    · rw [one]; omega
    · have : den * (num / den + num / den % 2) ≤ den * (num / den) + den := by
        rw [← one]; exact Nat.mul_le_mul_left den (by omega)
      omega

theorem le_two_mul_roundDiv (num den : Nat) (h : 0 < den) :
    2 * num ≤ 2 * (den * roundDiv num den) + den := by
  have split := Nat.div_add_mod num den
  have small := Nat.mod_lt num h
  have one : den * (num / den + 1) = den * (num / den) + den := by rw [Nat.mul_add, Nat.mul_one]
  simp only [roundDiv]
  split
  · omega
  · split
    · rw [one]; omega
    · have : den * (num / den) ≤ den * (num / den + num / den % 2) :=
        Nat.mul_le_mul_left den (by omega)
      omega

end Permit.Number

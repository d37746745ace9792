import Permit.Constraint.Check
import Permit.Proofs.Number.Integer

/-!
Integers and the rules about order. A value and a bound are both taken for floating-point
numbers before they are compared, so of two integers it is the nearest ones of 53 significant
bits that are compared.

* `above_passes`, `below_passes`: what the two rules say of integers;
* `number_of_integer`: an integer that is not too large passes as a number;
* `bounds_compare_nearest`: hence nothing passes that is out of order, and what is in order
  passes unless two neighbours beyond `2 ^ 53` have become one number (`above_refuses_next`).
-/
namespace Permit.Constraint

open Number

inductive StandsFor : Value → Int → Prop where
  | int (n : Int) : StandsFor (.int n) n
  | text {s : String} {n : Int} : integerOf? s = some n → StandsFor (.text s) n

variable {v : Value} {n k : Int} {arg : String}

theorem log2_lt_of_le {d : Nat} (small : d ≤ 2 ^ 64) : d.log2 < 400 := by
  by_cases none : d = 0
  · rw [none]
    decide
  · have below : d < 2 ^ 65 := by omega
    have := (Nat.log2_lt none).mpr below
    omega

theorem number?_of_standsFor (value : StandsFor v n) (small : n.natAbs ≤ 2 ^ 64) :
    ∃ x, number? v = .ok (some x) ∧ x.Denotes (nearest n) := by
  have fits := log2_lt_of_le small
  cases value with
  | int =>
    obtain ⟨x, near, denotes⟩ := Binary64.denotes_ofInt? (n := n) (by omega)
    exact ⟨x, by rw [number?, near], denotes⟩
  | text numeral =>
    obtain ⟨x, read, denotes⟩ := denotes_readFloat? numeral fits
    exact ⟨x, by rw [number?, read], denotes⟩

theorem numericArg_of_integerOf? (rule : String) (bound : integerOf? arg = some k)
    (small : k.natAbs ≤ 2 ^ 64) :
    ∃ y, numericArg rule [arg] = .ok y ∧ y.Denotes (nearest k) := by
  obtain ⟨y, read, denotes⟩ := denotes_readFloat? bound (log2_lt_of_le small)
  exact ⟨y, by simp only [numericArg, read], denotes⟩

section Order

variable (value : StandsFor v n) (bound : integerOf? arg = some k) (small : n.natAbs ≤ 2 ^ 64)
  (small' : k.natAbs ≤ 2 ^ 64)

include value bound small small'

/-- A comparison of an integer with a bound is one of the nearest numbers. -/
theorem checkNumber_eq (rule : String) {holds : Binary64 → Binary64 → Bool} :
    ∃ x y : Binary64, checkNumber rule holds [arg] v = .ok (holds x y) ∧
      x.Denotes (nearest n) ∧ y.Denotes (nearest k) := by
  obtain ⟨x, number, left⟩ := number?_of_standsFor value small
  obtain ⟨y, given, right⟩ := numericArg_of_integerOf? rule bound small'
  refine ⟨x, y, ?_, left, right⟩
  simp only [checkNumber, number, given, bind, Except.bind, pure, Except.pure]

theorem above_passes : Check.above.passes [arg] v = .ok (decide (nearest k < nearest n)) := by
  obtain ⟨x, y, compared, left, right⟩ := checkNumber_eq value bound small small' Check.above.name
  rw [Check.passes, compared, Binary64.lt_eq right left]

theorem below_passes : Check.below.passes [arg] v = .ok (decide (nearest n < nearest k)) := by
  obtain ⟨x, y, compared, left, right⟩ := checkNumber_eq value bound small small' Check.below.name
  rw [Check.passes, compared, Binary64.lt_eq left right]

end Order

/-- What passes as an integer passes as a number, if it is no integer that is too large. -/
theorem number_of_integer {args args' : List String}
    (integer : Check.integer.passes args v = .ok true)
    (small : ∀ m, v = .int m → m.natAbs ≤ 2 ^ 64) : Check.number.passes args' v = .ok true := by
  have numeral : isInteger v = true := Except.ok.inj integer
  have number : ∃ x, number? v = .ok (some x) := by
    cases v with
    | int m =>
      obtain ⟨x, found, _⟩ := number?_of_standsFor (.int m) (small m rfl)
      exact ⟨x, found⟩
    | float x => exact ⟨x, rfl⟩
    | text s =>
      obtain ⟨m, whole⟩ := exists_integerOf? numeral
      obtain ⟨_, _, _, read⟩ := readFloat?_of_integerOf? whole
      exact ⟨_, by rw [number?, read]⟩
    | _ => cases numeral
  obtain ⟨x, number⟩ := number
  simp [Check.passes, number, bind, Except.bind, pure, Except.pure]

/-- Where two integers are far apart or small, the nearest numbers are in the same order. -/
theorem nearest_lt_iff (small : n.natAbs ≤ 2 ^ 64) (small' : k.natAbs ≤ 2 ^ 64)
    (apart : n.natAbs ≤ 2 ^ 53 ∧ k.natAbs ≤ 2 ^ 53 ∨ 2048 < (n - k).natAbs) :
    nearest k < nearest n ↔ k < n := by
  rcases apart with ⟨exact, exact'⟩ | apart
  · rw [nearest_of_le exact, nearest_of_le exact']
  · have off := natAbs_nearest_sub_le small
    have off' := natAbs_nearest_sub_le small'
    omega

/-- **Order among integers.** For integers of up to 64 bits, written as such or in decimal
digits, the rules about order say which of the nearest numbers of 53 significant bits is the
higher one. So no value passes that is out of order, and of two integers that are both within
53 bits, or more than 2048 apart, just those pass that are in order. What passes as an integer
passes as a number. -/
theorem bounds_compare_nearest (value : StandsFor v n) (bound : integerOf? arg = some k)
    (small : n.natAbs ≤ 2 ^ 64) (small' : k.natAbs ≤ 2 ^ 64) :
    Check.above.passes [arg] v = .ok (decide (nearest k < nearest n)) ∧
      Check.below.passes [arg] v = .ok (decide (nearest n < nearest k)) ∧
      (nearest k < nearest n → k < n) ∧ (nearest n < nearest k → n < k) ∧
      (n.natAbs ≤ 2 ^ 53 ∧ k.natAbs ≤ 2 ^ 53 ∨ 2048 < (n - k).natAbs →
        (nearest k < nearest n ↔ k < n) ∧ (nearest n < nearest k ↔ n < k)) ∧
      ∀ (w : Value) (args args' : List String), Check.integer.passes args w = .ok true →
        (∀ m, w = .int m → m.natAbs ≤ 2 ^ 64) → Check.number.passes args' w = .ok true := by
  refine ⟨above_passes value bound small small', below_passes value bound small small',
    lt_of_nearest_lt, lt_of_nearest_lt, fun apart => ⟨?_, ?_⟩,
    fun w args args' => number_of_integer⟩
  · exact nearest_lt_iff small small' apart
  · have apart' : k.natAbs ≤ 2 ^ 53 ∧ n.natAbs ≤ 2 ^ 53 ∨ 2048 < (k - n).natAbs :=
      apart.imp And.symm fun far => by omega
    exact nearest_lt_iff small' small apart'

/-- A bound with a sign, and a text with blanks around an integer that is higher by 2049. -/
theorem bounds_compare_nearest_far :
    let v : Value := .text " 9223372036854777857 "
    let arg := "+9223372036854775808"
    StandsFor v 9223372036854777857 ∧ integerOf? arg = some 9223372036854775808 ∧
      Check.above.passes [arg] v = .ok true ∧ Check.below.passes [arg] v = .ok false := by
  intro v arg
  have value : StandsFor v 9223372036854777857 := .text (by decide +kernel)
  have bound : integerOf? arg = some 9223372036854775808 := by decide +kernel
  obtain ⟨above, below, _, _, order, _⟩ :=
    bounds_compare_nearest value bound (by decide) (by decide)
  obtain ⟨higher, lower⟩ := order (.inr (by decide))
  rw [above, below]
  refine ⟨value, bound, ?_, ?_⟩
  · simp [higher]
  · simp [lower]

/-- The integer after `2 ^ 53`: it is higher, and does not pass. -/
theorem above_refuses_next :
    (9007199254740992 : Int) < 9007199254740993 ∧
      StandsFor (.int 9007199254740993) 9007199254740993 ∧
      integerOf? "9007199254740992" = some 9007199254740992 ∧
      Check.above.passes ["9007199254740992"] (.int 9007199254740993) = .ok false := by
  have bound : integerOf? "9007199254740992" = some 9007199254740992 := by decide +kernel
  have same : ¬ nearest 9007199254740992 < nearest 9007199254740993 := by decide +kernel
  refine ⟨by decide, .int _, bound, ?_⟩
  rw [above_passes (.int 9007199254740993) bound (by decide) (by decide), decide_eq_false same]

end Permit.Constraint

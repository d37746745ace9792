import Mathlib.Data.Nat.Log
import Permit.Proofs.Log.Grammar
import Permit.Proofs.Number.Nearest

namespace Permit

namespace Number

/-! ### The digits of a number -/

theorem dropZeros_ne_zero {fuel n : Nat} (nonzero : n ≠ 0) : Decimal.dropZeros fuel n ≠ 0 := by
  induction fuel generalizing n with
  | zero => exact nonzero
  | succ fuel ih =>
    rw [Decimal.dropZeros]
    split
    next zero =>
      simp only [Bool.and_eq_true, decide_eq_true_eq] at zero
      exact ih (by omega)
    next => exact nonzero

theorem normalize_digits {digits count : Nat} {lead : Int} (nonzero : digits ≠ 0) :
    (Decimal.normalize digits count lead).digits ≠ 0 := by
  rw [Decimal.normalize]
  split
  · exact Nat.one_ne_zero
  · exact dropZeros_ne_zero nonzero

theorem scaled_den_pos {num den : Nat} (positive : 0 < den) (shift : Int) :
    0 < (Binary64.scaled num den shift).2 := by
  cases shift with
  | ofNat k => exact positive
  | negSucc k => exact Nat.mul_pos positive (Nat.pow_pos (by decide))

theorem shifted_den_pos {num den : Nat} (positive : 0 < den) (power : Int) :
    0 < (Decimal.shifted num den power).2 := by
  cases power with
  | ofNat k => exact positive
  | negSucc k => exact Nat.mul_pos positive (Nat.pow_pos (by decide))

theorem shifted_zero (den : Nat) (power : Int) : (Decimal.shifted 0 den power).1 = 0 := by
  cases power with
  | ofNat k => exact Nat.zero_mul _
  | negSucc k => rfl

/-- Nothing that rounds to a positive number is zero. -/
theorem not_has_zero {mantissa : Nat} (nonzero : mantissa ≠ 0) (exponent : Int) {den : Nat}
    (positive : 0 < den) : (Decimal.neighbourhood mantissa exponent).has 0 den = false := by
  have unit : 0 < (Binary64.scaled 1 4 exponent).1 := by
    cases exponent with
    | ofNat k => exact Nat.mul_pos Nat.one_pos (Nat.pow_pos (by decide))
    | negSucc k => exact Nat.one_pos
  have low : 0 < (Decimal.neighbourhood mantissa exponent).low := by
    refine Nat.mul_pos unit ?_
    split <;> omega
  have above : 0 < (Decimal.neighbourhood mantissa exponent).low * den := Nat.mul_pos low positive
  rw [Decimal.Neighbourhood.has, Nat.zero_mul]
  split <;> simp only [Bool.and_eq_false_iff, decide_eq_false_iff_not] <;> left <;> omega

theorem onGrid_ne_zero {mantissa : Nat} (nonzero : mantissa ≠ 0) {exponent : Int} {num den : Nat}
    {lead : Int} {count digits : Nat}
    (found : Decimal.onGrid (Decimal.neighbourhood mantissa exponent) num den lead count =
      .some digits) : digits ≠ 0 := by
  have below_ne_zero {n : Nat} {power : Int}
      (has : (Decimal.neighbourhood mantissa exponent).has (Decimal.shifted n 1 power).1
        (Decimal.shifted n 1 power).2 = true) : n ≠ 0 := by
    rintro rfl
    rw [shifted_zero, not_has_zero nonzero exponent (shifted_den_pos Nat.one_pos power)] at has
    cases has
  simp only [Decimal.onGrid] at found
  split at found
  next has _ =>
    cases found
    have least := Nat.pos_of_ne_zero (below_ne_zero has)
    exact (Nat.lt_of_lt_of_le least (div_le_roundDiv _ _)).ne'
  next has _ =>
    cases found
    exact below_ne_zero has
  next =>
    cases found
    exact Nat.succ_ne_zero _
  next => cases found

theorem shortestFrom_digits {mantissa : Nat} (nonzero : mantissa ≠ 0) (exponent : Int)
    (num den : Nat) (lead : Int) (fuel count : Nat) :
    let found :=
      Decimal.shortestFrom (Decimal.neighbourhood mantissa exponent) num den lead fuel count
    found.digits ≠ 0 ∨ num / den = 0 ∧ found.lead = lead := by
  induction fuel generalizing count with
  | zero =>
    -- The grids were too coarse: what is left is the whole part, which may be zero.
    by_cases none : num / den = 0
    · have other : 0 ≠ Nat.pow 10 count := (Nat.pow_pos (by decide)).ne
      rw [Decimal.shortestFrom, none, Decimal.normalize, if_neg other]
      exact .inr ⟨rfl, rfl⟩
    · exact .inl (normalize_digits none)
  | succ fuel ih =>
    rw [Decimal.shortestFrom]
    split
    next found => exact .inl (normalize_digits (onGrid_ne_zero nonzero found))
    next => exact ih (count + 1)

theorem leadOf_le_zero {num den : Nat} (less : num < den) : Decimal.leadOf num den ≤ 0 := by
  have logs : num.log2 ≤ den.log2 := by
    rw [Nat.log2_eq_log_two, Nat.log2_eq_log_two]
    exact Nat.log_mono_right less.le
  have estimate : ((num.log2 : Int) - den.log2) * 30103 / 100000 ≤ 0 :=
    Int.ediv_nonpos_of_nonpos_of_neg (by omega) (by decide)
  simp only [Decimal.leadOf]
  generalize ((num.log2 : Int) - den.log2) * 30103 / 100000 = estimate at estimate ⊢
  -- The estimate is corrected upwards by one at most, and not at all where it is zero.
  rcases Int.lt_or_eq_of_le estimate with below | rfl
  · split
    · omega
    · split <;> omega
  · have unshifted : (Decimal.shifted num den (-0)).1 < (Decimal.shifted num den (-0)).2 := by
      simpa [Decimal.shifted] using less
    rw [if_pos unshifted]
    decide

/-- The fewest digits of a number are not zero, or stand after the point. -/
theorem shortest_digits {mantissa : Nat} (nonzero : mantissa ≠ 0) (exponent : Int) :
    (Decimal.shortest mantissa exponent).digits ≠ 0 ∨
      (Decimal.shortest mantissa exponent).lead ≤ 0 := by
  simp only [Decimal.shortest]
  refine (shortestFrom_digits nonzero exponent _ _ _ 17 1).imp id ?_
  rintro ⟨none, lead⟩
  rw [lead]
  refine leadOf_le_zero ?_
  exact (Nat.div_eq_zero_iff.mp none).resolve_left (scaled_den_pos Nat.one_pos exponent).ne'

end Number

namespace Log.Json

open Number

/-! ### Digits as text -/

theorem toList_pushn (c : Char) (n : Nat) : ("".pushn c n).toList = List.replicate n c := by
  induction n with
  | zero => rfl
  | succ n ih =>
    have step : "".pushn c (n + 1) = ("".pushn c n).push c := rfl
    rw [step, String.toList_push, ih, List.replicate_succ']

theorem toList_padLeft (fill : Char) (width : Nat) (s : String) :
    (Text.padLeft fill width s).toList =
      List.replicate (width - s.length) fill ++ s.toList := by
  rw [Text.padLeft, String.toList_append, toList_pushn]

theorem digits_zero : Digits ['0'] := ⟨List.cons_ne_nil _ _, List.forall_mem_singleton.mpr rfl⟩

theorem digits_natText (n : Nat) : Digits (natText n).toList := by
  rw [natText, String.toList_ofList]
  exact ⟨Nat.toDigits_ne_nil,
    fun c inside => Nat.isDigit_of_mem_toDigits (by decide) (by decide) inside⟩

theorem natText_length_pos (n : Nat) : 0 < (natText n).length := by
  rw [← String.length_toList]
  exact List.length_pos_iff.mpr (digits_natText n).1

theorem Digits.append_left {t u : List Char} (h : Digits u) (all : ∀ c ∈ t, c.isDigit = true) :
    Digits (t ++ u) :=
  ⟨by simp [h.1], fun c inside => (List.mem_append.mp inside).elim (all c) (h.2 c)⟩

theorem Digits.append_right {t u : List Char} (h : Digits t) (all : ∀ c ∈ u, c.isDigit = true) :
    Digits (t ++ u) :=
  ⟨by simp [h.1], fun c inside => (List.mem_append.mp inside).elim (h.2 c) (all c)⟩

theorem head?_toDigits {n : Nat} (positive : n ≠ 0) : (Nat.toDigits 10 n).head? ≠ some '0' := by
  have first : ∀ d < 10, d ≠ 0 → Nat.digitChar d ≠ '0' := by decide
  induction n using Nat.strongRecOn with
  | ind n ih =>
    rw [Nat.toDigits_eq_if (by decide)]
    split
    next small => simpa using first n small positive
    next large =>
      rw [List.head?_append_of_ne_nil _ Nat.toDigits_ne_nil]
      exact ih (n / 10) (by omega) (by omega)

theorem whole_natText (n : Nat) : Whole (natText n).toList := by
  by_cases zero : n = 0
  · subst zero
    exact .inl rfl
  · refine .inr ⟨digits_natText n, ?_⟩
    rw [natText, String.toList_ofList]
    exact head?_toDigits zero

theorem numeral_whole {sign whole : List Char} (signed : sign = [] ∨ sign = ['-'])
    (h : Whole whole) : Numeral (sign ++ whole) :=
  ⟨sign, whole, [], [], signed, h, .inl rfl, .inl rfl, by simp⟩

theorem numeral_intText (n : Int) : Numeral (intText n).toList := by
  rw [intText, String.toList_append]
  refine numeral_whole ?_ (whole_natText n.natAbs)
  split
  · exact .inr rfl
  · exact .inl rfl

/-! ### Floating-point numbers -/

theorem all_replicate_zero (n : Nat) : ∀ c ∈ List.replicate n '0', c.isDigit = true := by
  intro c inside
  rw [List.eq_of_mem_replicate inside]
  rfl

theorem exponent_exponentText (e : Int) : Exponent (exponentText 'e' e).toList := by
  refine .inr ⟨'e', if e < 0 then ['-'] else ['+'], (Text.padLeft '0' 2 (natText e.natAbs)).toList,
    .inl rfl, ?_, ?_, ?_⟩
  · split
    · exact .inr (.inr rfl)
    · exact .inr (.inl rfl)
  · rw [toList_padLeft]
    exact (digits_natText _).append_left (all_replicate_zero _)
  · rw [exponentText, String.toList_append, String.toList_append]
    split <;> rfl

/-- A whole number, and a fraction if there is one. -/
def Positional (t : List Char) : Prop :=
  ∃ whole fraction, Whole whole ∧ Fraction fraction ∧ t = whole ++ fraction

theorem positional_pointed {digits : String} {count : Nat} (h : Whole digits.toList)
    (positive : 0 < count) (longer : count < digits.length) :
    Positional (pointed digits count).toList := by
  have longer : count < digits.toList.length := by rwa [String.length_toList]
  have all := h.digits.2
  have first : digits.toList.head? ≠ some '0' := by
    rcases h with zero | ⟨_, first⟩
    · rw [zero] at longer
      simp only [List.length_singleton] at longer
      omega
    · exact first
  refine ⟨digits.toList.take count, '.' :: digits.toList.drop count, .inr ⟨⟨?_, ?_⟩, ?_⟩,
    .inr ⟨digits.toList.drop count, ⟨?_, ?_⟩, rfl⟩, ?_⟩
  · rw [← List.length_pos_iff, List.length_take]
    omega
  · exact fun c inside => all c (List.mem_of_mem_take inside)
  · rwa [List.head?_take, if_neg positive.ne']
  · rw [← List.length_pos_iff, List.length_drop]
    omega
  · exact fun c inside => all c (List.mem_of_mem_drop inside)
  · rw [pointed, String.toList_append, String.toList_append, String.toList_ofList,
      String.toList_ofList, String.toList_ofList, List.append_assoc]
    rfl

theorem positional_filled {n zeroes : Nat} (h : n ≠ 0 ∨ zeroes = 0) :
    Positional (natText n ++ zeros zeroes ++ ".0").toList := by
  refine ⟨(natText n).toList ++ List.replicate zeroes '0', ['.', '0'], ?_,
    .inr ⟨['0'], digits_zero, rfl⟩, ?_⟩
  · rcases h with nonzero | rfl
    · refine .inr ⟨(digits_natText n).append_right (all_replicate_zero zeroes), ?_⟩
      rw [List.head?_append_of_ne_nil _ (digits_natText n).1, natText, String.toList_ofList]
      exact head?_toDigits nonzero
    · rw [List.replicate_zero, List.append_nil]
      exact whole_natText n
  · rw [String.toList_append, String.toList_append, zeros, toList_pushn]
    rfl

theorem numeral_of_positional {sign t u : List Char} (signed : sign = [] ∨ sign = ['-'])
    (h : Positional t) (raised : Exponent u) : Numeral (sign ++ (t ++ u)) := by
  obtain ⟨whole, fraction, counted, parted, rfl⟩ := h
  exact ⟨sign, whole, fraction, u, signed, counted, parted, raised, by simp⟩

/-- A decimal numeral is one of JSON, whatever its layout. -/
theorem numeral_decimal (style : NumberStyle) {sign : List Char} (signed : sign = [] ∨ sign = ['-'])
    {d : Decimal} (h : d.digits ≠ 0 ∨ d.lead ≤ 0) : Numeral (sign ++ (d.text style).toList) := by
  have whole := whole_natText d.digits
  have unraised : Exponent [] := .inl rfl
  rw [Decimal.text]
  split
  · rw [← List.append_nil (String.toList _)]
    refine numeral_of_positional signed ?_ unraised
    split
    next k lead =>
      refine ⟨['0'], '.' :: ((zeros k).toList ++ (natText d.digits).toList), .inl rfl,
        .inr ⟨_, ?_, rfl⟩, ?_⟩
      · rw [zeros, toList_pushn]
        exact (digits_natText _).append_left (all_replicate_zero k)
      · rw [String.toList_append, String.toList_append]
        rfl
    next k lead =>
      split
      next fits =>
        -- Zeros follow digits that are not zero; if the digits are zero, none follow.
        refine positional_filled (h.imp id fun low => ?_)
        have single : k = 0 := by
          rw [lead] at low
          exact Nat.le_zero.mp (Int.ofNat_le.mp low)
        have filled := natText_length_pos d.digits
        omega
      next longer => exact positional_pointed whole (Nat.succ_pos k) (by omega)
  · rw [String.toList_append]
    refine numeral_of_positional signed ?_ (exponent_exponentText _)
    split
    next single => exact ⟨_, [], whole, .inl rfl, (List.append_nil _).symm⟩
    next several =>
      refine positional_pointed whole Nat.one_pos ?_
      have filled := natText_length_pos d.digits
      omega

theorem number_finite (s : Bool) (m : Nat) (e : Int) :
    number (.finite s m e) = (Binary64.finite s m e).text := rfl

theorem numeral_number (s : Bool) (m : Nat) (e : Int) :
    Numeral (number (.finite s m e)).toList := by
  have signed : (if s then "-" else "").toList = [] ∨ (if s then "-" else "").toList = ['-'] := by
    cases s
    · exact .inl rfl
    · exact .inr rfl
  rw [number_finite, Binary64.text, String.toList_append]
  by_cases zero : m = 0
  · rw [if_pos zero]
    exact ⟨_, ['0'], ['.', '0'], [], signed, .inl rfl, .inr ⟨['0'], digits_zero, rfl⟩, .inl rfl,
      by simp⟩
  · rw [if_neg zero]
    exact numeral_decimal _ signed (shortest_digits zero e)

end Log.Json
end Permit

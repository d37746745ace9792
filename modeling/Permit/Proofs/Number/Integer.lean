import Permit.Proofs.Number.Nearest
import Permit.Proofs.Text.Trimming

namespace Permit.Number

open Text Binary64

def integerOf? (s : String) : Option Int :=
  let (negative, digits) := signOf (trimChars s.toList)
  if digits.isEmpty || !digits.all isDecimal then none
  else
    let n := digitsValue (digits.map asciiDigit)
    some (if negative then -(n : Int) else n)

variable {s : String} {n : Int} {c prev : Char} {cs digits : List Char} {negative : Bool}

/-! ### Digits -/

theorem isAsciiDigit_asciiDigit (decimal : isDecimal c = true) :
    isAsciiDigit (asciiDigit c) = true := by
  have figures : ∀ d < 10, isAsciiDigit (Char.ofNat (48 + d)) = true := by decide
  obtain ⟨d, value⟩ := Option.isSome_iff_exists.mp decimal
  have small : d < 10 := by
    simp only [decimalDigit?] at value
    split at value
    · split at value
      next inside =>
        simp only [Bool.and_eq_true, decide_eq_true_eq] at inside
        simp only [Option.some.injEq] at value
        omega
      next => cases value
    · obtain ⟨start, found, rfl⟩ := Option.map_eq_some_iff.mp value
      have inside := List.find?_some found
      simp only [Bool.and_eq_true, decide_eq_true_eq] at inside
      omega
  rw [asciiDigit, value]
  exact figures d small

theorem ne_of_isAsciiDigit {mark : Char} (digit : isAsciiDigit c = true)
    (other : isAsciiDigit mark = false) : c ≠ mark := by
  rintro rfl
  rw [digit] at other
  cases other

theorem toLower_of_isAsciiDigit (digit : isAsciiDigit c = true) : c.toLower = c := by
  simp only [isAsciiDigit, Bool.and_eq_true, decide_eq_true_eq, Char.le_def] at digit
  have high := UInt32.le_iff_toNat_le.mp digit.2
  refine dif_neg ?_
  rintro ⟨low, _⟩
  have low := UInt32.le_iff_toNat_le.mp low
  have nine : '9'.val.toNat = 57 := rfl
  have big : 'A'.val.toNat = 65 := rfl
  omega

theorem dropUnderscores_of_not_mem (free : '_' ∉ cs) (before : prev ≠ '_') :
    dropUnderscores prev cs = some cs := by
  induction cs generalizing prev with
  | nil => rw [dropUnderscores, if_neg before]
  | cons c rest ih =>
    have other : c ≠ '_' := fun same => free (same ▸ List.mem_cons_self ..)
    have rest := ih (fun inside => free (List.mem_cons_of_mem _ inside)) other
    simp [dropUnderscores, other, before, rest]

theorem signOf_unsigned (minus : '-' ∉ cs) (plus : '+' ∉ cs) : signOf cs = (false, cs) := by
  unfold signOf
  split
  next => exact absurd (List.mem_cons_self ..) minus
  next => exact absurd (List.mem_cons_self ..) plus
  next => rfl

/-! ### Reading -/

theorem readUnsigned_digits (some : digits ≠ []) (all : ∀ c ∈ digits, isAsciiDigit c = true) :
    readUnsigned negative digits = .some (ofDigits negative (digitsValue digits) 0) := by
  have whole := List.takeWhile_eq_self_iff.mpr all
  have rest := List.dropWhile_eq_nil_iff.mpr all
  have filled : digits.isEmpty = false := by simpa using some
  simp [readUnsigned, whole, rest, filled, readExponent]

theorem readFloatChars_digits (sign : signOf cs = (negative, digits)) (some : digits ≠ [])
    (decimal : ∀ c ∈ digits, isDecimal c = true) :
    readFloatChars cs =
      .some (ofDigits negative (digitsValue (digits.map asciiDigit)) 0) := by
  have figures : ∀ c ∈ digits.map asciiDigit, isAsciiDigit c = true :=
    List.forall_mem_map.mpr fun c inside => isAsciiDigit_asciiDigit (decimal c inside)
  have filled : digits.map asciiDigit ≠ [] := by simpa using some
  have free {mark : Char} (other : isAsciiDigit mark = false) : mark ∉ digits.map asciiDigit :=
    fun inside => ne_of_isAsciiDigit (figures _ inside) other rfl
  have clean : '_' ∉ digits.map asciiDigit := free (by decide)
  -- the sign is no digit and stays where it is
  have signed : '_' ∉ cs.map asciiDigit ∧
      signOf (cs.map asciiDigit) = (negative, digits.map asciiDigit) := by
    unfold signOf at sign
    split at sign <;> cases sign
    · have minus : asciiDigit '-' = '-' := by decide +kernel
      rw [List.map_cons, minus]
      exact ⟨by simpa using clean, rfl⟩
    · have plus : asciiDigit '+' = '+' := by decide +kernel
      rw [List.map_cons, plus]
      exact ⟨by simpa using clean, rfl⟩
    · exact ⟨clean, signOf_unsigned (free (by decide)) (free (by decide))⟩
  have lower : (digits.map asciiDigit).map Char.toLower = digits.map asciiDigit :=
    (List.map_congr_left fun c inside => toLower_of_isAsciiDigit (figures c inside)).trans
      (List.map_id _)
  have word (text : String) (mark : Char) (begins : mark ∈ text.toList)
      (other : isAsciiDigit mark = false) : String.ofList (digits.map asciiDigit) ≠ text := by
    rintro rfl
    rw [String.toList_ofList] at begins
    exact free other begins
  rw [readFloatChars, dropUnderscores_of_not_mem signed.1 (by decide)]
  simp only [bind, Option.bind, signed.2, lower]
  split
  next same => exact absurd same (word "inf" 'i' (by decide) (by decide))
  next same => exact absurd same (word "infinity" 'i' (by decide) (by decide))
  next same => exact absurd same (word "nan" 'n' (by decide) (by decide))
  next => exact readUnsigned_digits filled figures

theorem readFloat?_of_integerOf? (h : integerOf? s = some n) :
    ∃ (negative : Bool) (d : Nat), n = (if negative then -(d : Int) else d) ∧
      readFloat? s = some (ofDigits negative d 0) := by
  simp only [integerOf?] at h
  split at h
  next => cases h
  next good =>
    obtain ⟨filled, decimal⟩ : (signOf (trimChars s.toList)).2 ≠ [] ∧
        ∀ c ∈ (signOf (trimChars s.toList)).2, isDecimal c = true := by simpa using good
    exact ⟨_, _, (Option.some.inj h).symm, readFloatChars_digits rfl filled decimal⟩

/-- Digits that are not too many are read as the number near them. -/
theorem denotes_ofDigits (negative : Bool) {d : Nat} (fits : d.log2 < 400) :
    Denotes (ofDigits negative d 0) (if negative then -(nearestNat d : Int) else nearestNat d) := by
  by_cases none : d = 0
  · have zero := denotes_ofRatio negative (d := 0) (by decide)
    simpa [none, ofDigits, ofRatio] using zero
  · have short : (natText d).length ≤ 400 := by
      rw [← String.length_toList, natText, String.toList_ofList,
        Nat.length_toDigits_le_iff (by decide) (by decide)]
      calc d < 2 ^ (d.log2 + 1) := Nat.lt_log2_self
        _ ≤ 10 ^ (d.log2 + 1) := Nat.pow_le_pow_left (by decide) _
        _ ≤ 10 ^ 400 := Nat.pow_le_pow_right (by decide) fits
    have low : ¬ ((0 : Int) + (natText d).length < -400) := by omega
    have high : ¬ (400 < (0 : Int) + (natText d).length) := by omega
    have shifted : Decimal.shifted d 1 0 = (d, 1) := by simp [Decimal.shifted]
    simp only [ofDigits, none, low, high, shifted, decide_false, Bool.or_self, if_false,
      Bool.false_eq_true]
    exact denotes_ofRatio negative (by omega)

theorem denotes_readFloat? (h : integerOf? s = some n) (fits : n.natAbs.log2 < 400) :
    ∃ x, readFloat? s = some x ∧ x.Denotes (nearest n) := by
  obtain ⟨negative, d, rfl, read⟩ := readFloat?_of_integerOf? h
  refine ⟨_, read, ?_⟩
  have same : (if negative then -(d : Int) else d).natAbs = d := by cases negative <;> simp
  rw [same] at fits
  rw [nearest_signed]
  exact denotes_ofDigits negative fits

/-! ### Which texts stand for integers -/

theorem exists_integerOf? (h : isIntegerNumeral s = true) : ∃ n, integerOf? s = some n := by
  rw [isIntegerNumeral] at h
  have sign : ∃ negative digits, signOf (trimChars s.toList) = (negative, digits) ∧
      digits ≠ [] ∧ digits.all isDecimal = true := by
    split at h
    next rest chars => exact ⟨true, rest, by rw [chars]; rfl, by simpa using h⟩
    next =>
      generalize trimChars s.toList = cs at h ⊢
      have digits : cs ≠ [] ∧ cs.all isDecimal = true := by simpa using h
      have free (mark : Char) (plain : isDecimal mark = false) : mark ∉ cs := by
        intro inside
        rw [List.all_eq_true.mp digits.2 mark inside] at plain
        cases plain
      exact ⟨false, cs, signOf_unsigned (free '-' (by decide +kernel))
        (free '+' (by decide +kernel)), digits⟩
  obtain ⟨negative, digits, sign, filled, decimal⟩ := sign
  simp [integerOf?, sign, filled, decimal]

theorem isBlank_of_mem_natText {d : Nat} (h : c ∈ (natText d).toList) : isBlank c = false := by
  obtain ⟨low, high⟩ := digit_of_mem_natText h
  have apart : ∀ range ∈ blankRanges, range.2 < 48 ∨ 57 < range.1 := by decide
  rw [Bool.eq_false_iff, isBlank, Ne, inRanges_iff]
  rintro ⟨range, inside, above, below⟩
  have := apart range inside
  omega

theorem integerOf?_intText (n : Int) : integerOf? (intText n) = some n := by
  have filled : (natText n.natAbs).toList.isEmpty = false := by
    simpa using natText_ne_empty n.natAbs
  have decimal : (natText n.natAbs).toList.all isDecimal = true :=
    List.all_eq_true.mpr fun c inside => isDecimal_of_mem_natText inside
  have free (mark : Char) (plain : mark.toNat < 48) : mark ∉ (natText n.natAbs).toList := by
    intro inside
    have := digit_of_mem_natText inside
    omega
  have solid : ∀ c ∈ (intText n).toList, isBlank c = false := by
    intro c inside
    rw [intText, String.toList_append] at inside
    rcases List.mem_append.mp inside with sign | digit
    · split at sign
      · obtain rfl : c = '-' := by simpa using sign
        decide
      · cases sign
    · exact isBlank_of_mem_natText digit
  have trimmed : trimChars (intText n).toList = (intText n).toList :=
    trimChars_flush ⟨fun c first => solid c (List.mem_of_mem_head? first),
      fun c last => solid c (List.mem_of_getLast? last)⟩
  have sign : signOf (intText n).toList = (decide (n < 0), (natText n.natAbs).toList) := by
    by_cases below : n < 0
    · simp [intText, below, signOf]
    · simp [intText, below, signOf_unsigned (free '-' (by decide)) (free '+' (by decide))]
  simp only [integerOf?, trimmed, sign, filled, decimal, map_asciiDigit_natText,
    digitsValue_natText, Bool.not_true, Bool.or_self, Bool.false_eq_true, if_false,
    decide_eq_true_eq, Option.some.injEq]
  split <;> omega

end Permit.Number

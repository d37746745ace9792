import Permit.Grant.Basic
import Permit.Proofs.Constraint.Resolution

/-!
Segments that select one element of a sequence. The compiler takes a segment of decimal
digits for one, resolving a pattern reads it as a number, and a grant is looked up under the
numeral of the position. `index_agreement` says where the three agree: on the numerals of
positions, and on whatever has a character that is no digit. A numeral may have zeros in
front or digits of another script; it is then a selector that resolves to an element, but no
element has a grant under it (`index_leading_zero`).
-/
namespace Permit

namespace Path

/-- Decimal digits of any script, at least one. -/
def IsNumeral (s : String) : Prop := s ≠ "" ∧ ∀ c ∈ s.toList, Text.isDecimal c = true

instance (s : String) : Decidable (IsNumeral s) :=
  decidable_of_iff (s ≠ "" ∧ s.toList.all Text.isDecimal = true)
    (and_congr_right fun _ => List.all_eq_true)

variable {s : String}

theorem isNumeral_natText (i : Nat) : IsNumeral (Number.natText i) :=
  ⟨Number.natText_ne_empty i, fun _ member => Number.isDecimal_of_mem_natText member⟩

/-- An index is a numeral, with a line break after it or not. -/
theorem isIndex_iff : isIndex s = true ↔ IsNumeral s ∨ ∃ t, IsNumeral t ∧ s = t ++ "\n" := by
  have parts : s.toList.takeWhile Text.isDecimal ++ s.toList.dropWhile Text.isDecimal = s.toList :=
    List.takeWhile_append_dropWhile
  simp only [isIndex, Bool.and_eq_true, Bool.or_eq_true, beq_iff_eq, Bool.not_eq_true',
    List.isEmpty_eq_false_iff]
  constructor
  · rintro ⟨some, rest | rest⟩
    · rw [rest, List.append_nil] at parts
      refine .inl ⟨fun empty => some ?_, List.takeWhile_eq_self_iff.mp parts⟩
      rw [empty]
      rfl
    · rw [rest] at parts
      refine .inr ⟨String.ofList (s.toList.takeWhile Text.isDecimal), ⟨?_, ?_⟩, ?_⟩
      · simpa [String.ofList_eq_empty_iff] using some
      · intro c member
        rw [String.toList_ofList] at member
        exact List.mem_takeWhile_imp member
      · apply String.toList_injective
        rw [String.toList_append, String.toList_ofList]
        exact parts.symm
  · rintro (⟨some, digits⟩ | ⟨t, ⟨some, digits⟩, rfl⟩)
    · rw [List.takeWhile_eq_self_iff.mpr digits, List.dropWhile_eq_nil_iff.mpr digits]
      exact ⟨by simpa using some, .inl rfl⟩
    · have breaks : ("\n" : String).toList = ['\n'] := rfl
      rw [String.toList_append, breaks, List.takeWhile_append_of_pos digits,
        List.dropWhile_append_of_pos digits]
      exact ⟨by simp [some], .inr rfl⟩

end Path

namespace Number

def numeralValue (s : String) : Nat := digitsValue (s.toList.map asciiDigit)

theorem numeralValue_natText (i : Nat) : numeralValue (natText i) = i := by
  rw [numeralValue, map_asciiDigit_natText, digitsValue_natText]

theorem readPosition_numeral {s : String} (numeral : Path.IsNumeral s)
    (short : s.length ≤ digitLimit) : readPosition s = .ok (numeralValue s) := by
  have run := List.takeWhile_eq_self_iff.mpr numeral.2
  have room : ¬ digitLimit < s.toList.length := by
    rw [String.length_toList]
    exact Nat.not_lt.mpr short
  simp only [readPosition, run, room, if_false, if_true, numeralValue]

end Number

namespace Grant

variable {g g' rule : Grant} {s : String}

/-- A grant for the numeral of a position is the one of the element there. -/
theorem element?_natText (i : Nat) (found : Keyed.find? g.children (Number.natText i) = some rule) :
    g.element? i = some rule := by
  rw [element?, Number.intText_natCast, found]

/-- An element has nothing to do with a grant under another numeral. -/
theorem element?_congr (named : s ≠ Path.wildcard)
    (same : ∀ key, key ≠ s → Keyed.find? g'.children key = Keyed.find? g.children key) {i : Nat}
    (other : s ≠ Number.natText i) : g'.element? i = g.element? i := by
  rw [element?, element?, Number.intText_natCast, same _ other.symm, same _ named.symm]

end Grant

namespace Constraint

variable {s : String} {x : Value} {items : List Value}

theorem step?_sequence (sequence : x.items? = some items) :
    step? s (some x) =
      if !s.isEmpty && s.toList.all Text.isDigit then
        match Number.readPosition s with
        | .ok n => .ok items[n]?
        | .error fault => .error (.numeral fault)
      else .ok none := by
  cases x <;> cases sequence <;> rfl

theorem step?_numeral (sequence : x.items? = some items) (numeral : Path.IsNumeral s)
    (short : s.length ≤ Number.digitLimit) :
    step? s (some x) = .ok items[Number.numeralValue s]? := by
  have digits : (!s.isEmpty && s.toList.all Text.isDigit) = true :=
    allDigits_iff.mpr ⟨numeral.1, fun c member => isDigit_of_isDecimal (numeral.2 c member)⟩
  rw [step?_sequence sequence, if_pos digits, Number.readPosition_numeral numeral short]

theorem step?_name (sequence : x.items? = some items)
    (name : s = "" ∨ ∃ c ∈ s.toList, Text.isDigit c = false) : step? s (some x) = .ok none := by
  have other : ¬ (!s.isEmpty && s.toList.all Text.isDigit) = true := by
    rw [allDigits_iff]
    rintro ⟨some, digits⟩
    rcases name with empty | ⟨c, member, plain⟩
    · exact some empty
    · exact absurd (digits c member) (by simp [plain])
  rw [step?_sequence sequence, if_neg other]

theorem follow_of_step? {path : String} {found : Option Value} (named : s ≠ Path.wildcard)
    (step : step? s (some x) = .ok found) :
    follow s ⟨path, some x⟩ = .ok [⟨extend path s, found⟩] := by
  rw [follow, if_neg named]
  exact Outcome.bind_eq_ok_iff.mpr ⟨found, step, rfl⟩

/-- A segment is a pattern of its own. -/
theorem fields_of_step? {found : Option Value} (named : s ≠ Path.wildcard)
    (free : Path.DotFree s) (step : step? s (some x) = .ok found) :
    fields x s = .ok [⟨s, found⟩] := by
  have single : Path.segments s = [s] := by
    have joined : Path.ofSegments [s] = s := by simp [Path.ofSegments, Text.join, Text.joinChars]
    have split := Path.segments_ofSegments (List.cons_ne_nil s [])
      (List.forall_mem_singleton.mpr free)
    rwa [joined] at split
  rw [fields, single]
  simp only [followAll, List.mapM_cons, List.mapM_nil, follow_of_step? named step]
  rfl

/-- **Indexes.** A segment that is not `*`, unless a line break follows digits in it, is a
selector just if it is a numeral. A numeral that can be read resolves in a sequence to the
element at the position it denotes, if there is one, and what has a character that is no
digit resolves to nothing. The numeral of a position denotes it, and only under that numeral
does a grant apply to the element there. -/
theorem index_agreement (named : s ≠ Path.wildcard) (free : Path.DotFree s)
    (sequence : x.items? = some items) :
    ((∀ t, Path.IsNumeral t → s ≠ t ++ "\n") → (Path.isSelector s = true ↔ Path.IsNumeral s)) ∧
      (Path.IsNumeral s → s.length ≤ Number.digitLimit →
        fields x s = .ok [⟨s, items[Number.numeralValue s]?⟩] ∧ ∀ path,
          follow s ⟨path, some x⟩ = .ok [⟨extend path s, items[Number.numeralValue s]?⟩]) ∧
      ((s = "" ∨ ∃ c ∈ s.toList, Text.isDigit c = false) →
        fields x s = .ok [⟨s, none⟩] ∧ ∀ path,
          follow s ⟨path, some x⟩ = .ok [⟨extend path s, none⟩]) ∧
      (∀ i, s = Number.natText i → Path.IsNumeral s ∧ Number.numeralValue s = i ∧
        ∀ g rule : Grant, Keyed.find? g.children s = some rule → g.element? i = some rule) ∧
      ∀ i : Nat, s ≠ Number.natText i → ∀ g g' : Grant,
        (∀ key, key ≠ s → Keyed.find? g'.children key = Keyed.find? g.children key) →
        g'.element? i = g.element? i := by
  refine ⟨fun plain => ?_, fun numeral short => ?_, fun name => ?_, ?_, ?_⟩
  · have other : (s == Path.wildcard) = false := beq_eq_false_iff_ne.mpr named
    rw [Path.isSelector, other, Bool.false_or, Path.isIndex_iff]
    refine or_iff_left ?_
    rintro ⟨t, numeral, same⟩
    exact plain t numeral same
  · have step := step?_numeral sequence numeral short
    exact ⟨fields_of_step? named free step, fun _ => follow_of_step? named step⟩
  · have step := step?_name sequence name
    exact ⟨fields_of_step? named free step, fun _ => follow_of_step? named step⟩
  · rintro i rfl
    exact ⟨Path.isNumeral_natText i, Number.numeralValue_natText i,
      fun _ _ found => Grant.element?_natText i found⟩
  · intro i other g g' same
    exact Grant.element?_congr named same other

/-- The last of three elements. -/
theorem index_agreement_two :
    "2" ≠ Path.wildcard ∧ (Value.list [.int 7, .int 8, .int 9]).items? =
        some [.int 7, .int 8, .int 9] ∧
      Path.isSelector "2" = true ∧
      fields (.list [.int 7, .int 8, .int 9]) "2" = .ok [⟨"2", some (.int 9)⟩] ∧
      ∀ rule : Grant, (Grant.node .elements [("2", rule)]).element? 2 = some rule := by
  have numeral : Path.IsNumeral "2" := by decide +kernel
  have named : "2" ≠ Path.wildcard := by decide
  have plain : ∀ t, Path.IsNumeral t → "2" ≠ t ++ "\n" := by
    intro t _ same
    have last := congrArg (fun s => s.toList.getLast?) same
    have breaks : ("\n" : String).toList = ['\n'] := rfl
    simp only [String.toList_append, breaks, List.getLast?_concat] at last
    exact absurd last (by decide)
  have free : Path.DotFree "2" := by decide +kernel
  have value : Number.numeralValue "2" = 2 := by decide +kernel
  have digits : "2" = Number.natText 2 := by decide +kernel
  obtain ⟨selector, resolves, _, granted, _⟩ :=
    @index_agreement "2" (.list [.int 7, .int 8, .int 9]) [.int 7, .int 8, .int 9] named free rfl
  refine ⟨named, rfl, (selector plain).mpr numeral, ?_, fun rule => ?_⟩
  · refine (resolves numeral (by decide +kernel)).1.trans ?_
    rw [value]
    rfl
  · exact (granted 2 digits).2.2 _ rule rfl

/-- A zero in front: the segment is a selector, though not the numeral of any position, and
it resolves to an element to which no grant under it applies. -/
theorem index_leading_zero :
    Path.isSelector "01" = true ∧ (∀ i, "01" ≠ Number.natText i) ∧
      fields (.list [.int 7, .int 8]) "01" = .ok [⟨"01", some (.int 8)⟩] ∧
      ∀ (rule : Grant) (i : Nat), (Grant.node .elements [("01", rule)]).element? i = none := by
  have other : ∀ i, "01" ≠ Number.natText i := by
    intro i same
    have value := congrArg Number.numeralValue same
    rw [Number.numeralValue_natText] at value
    rw [← value] at same
    exact absurd same (by decide +kernel)
  refine ⟨by decide +kernel, other, rfl, fun rule i => ?_⟩
  have wild : "01" ≠ Path.wildcard := by decide
  simp [Grant.element?, Grant.children, Number.intText_natCast, Keyed.find?, other i, wild]

end Constraint
end Permit

import Mathlib.Data.List.TakeWhile
import Permit.Number.Numeral
import Permit.Path.Basic

namespace Permit

namespace Text

theorem splitChars_of_not_mem {sep : Char} {cs : List Char} (h : sep ∉ cs) :
    splitChars sep cs = [cs] := by
  induction cs with
  | nil => rfl
  | cons c rest ih =>
    have other : c ≠ sep := fun e => h (e ▸ List.mem_cons_self ..)
    have free : sep ∉ rest := fun m => h (List.mem_cons_of_mem _ m)
    simp only [splitChars, other, if_false, ih free, consPiece]

theorem splitChars_append {sep : Char} {piece : List Char} (h : sep ∉ piece) (rest : List Char) :
    splitChars sep (piece ++ sep :: rest) = piece :: splitChars sep rest := by
  induction piece with
  | nil => simp [splitChars]
  | cons c cs ih =>
    have other : c ≠ sep := fun e => h (e ▸ List.mem_cons_self ..)
    have free : sep ∉ cs := fun m => h (List.mem_cons_of_mem _ m)
    simp only [List.cons_append, splitChars, other, if_false, ih free, consPiece]

theorem splitChars_joinChars {sep : Char} {pieces : List (List Char)} (h : pieces ≠ [])
    (free : ∀ piece ∈ pieces, sep ∉ piece) : splitChars sep (joinChars sep pieces) = pieces := by
  induction pieces with
  | nil => exact absurd rfl h
  | cons piece rest ih =>
    have head := free piece (List.mem_cons_self ..)
    cases rest with
    | nil => exact splitChars_of_not_mem head
    | cons next others =>
      rw [joinChars, splitChars_append head,
        ih (by simp) fun p m => free p (List.mem_cons_of_mem _ m)]
      exact fun e => List.cons_ne_nil _ _ e

theorem split_join {sep : Char} {pieces : List String} (h : pieces ≠ [])
    (free : ∀ piece ∈ pieces, sep ∉ piece.toList) : split sep (join sep pieces) = pieces := by
  have some : pieces.map String.toList ≠ [] := by simpa using h
  rw [split, join, String.toList_ofList, splitChars_joinChars some (List.forall_mem_map.mpr free),
    List.map_map]
  exact (List.map_congr_left fun s _ => String.ofList_toList).trans (List.map_id _)

end Text

namespace Path

/-- A segment that can stand between dots. -/
def DotFree (segment : String) : Prop := '.' ∉ segment.toList

instance (segment : String) : Decidable (DotFree segment) :=
  inferInstanceAs (Decidable ('.' ∉ segment.toList))

theorem dotFree_of_mem_segments {path segment : String} (h : segment ∈ segments path) :
    DotFree segment := by
  obtain ⟨piece, member, rfl⟩ := List.mem_map.mp h
  simpa [DotFree] using Text.not_mem_of_mem_split '.' path.toList piece member

theorem segments_ofSegments {place : List String} (h : place ≠ [])
    (free : ∀ segment ∈ place, DotFree segment) : segments (ofSegments place) = place :=
  Text.split_join h free

theorem ofSegments_inj {place other : List String} (h : place ≠ []) (h' : other ≠ [])
    (free : ∀ segment ∈ place, DotFree segment) (free' : ∀ segment ∈ other, DotFree segment)
    (same : ofSegments place = ofSegments other) : place = other := by
  rw [← segments_ofSegments h free, ← segments_ofSegments h' free', same]

theorem ofSegments_segments (path : String) : ofSegments (segments path) = path := by
  have texts : (segments path).map String.toList = Text.splitChars '.' path.toList := by
    simp only [segments, Text.split, List.map_map]
    exact (List.map_congr_left fun cs _ => String.toList_ofList).trans (List.map_id _)
  rw [ofSegments, Text.join, texts, Text.join_split, String.ofList_toList]

theorem ofSegments_ne_empty {first : String} {rest : List String}
    (filled : "" ∉ first :: rest) : ofSegments (first :: rest) ≠ "" := by
  have some : first.toList ≠ [] := by
    intro none
    exact filled (String.toList_eq_nil_iff.mp none ▸ List.mem_cons_self ..)
  intro empty
  have chars := congrArg String.toList empty
  rw [ofSegments, Text.join, String.toList_ofList, List.map_cons] at chars
  cases rest with
  | nil => exact some chars
  | cons next others =>
    have whole : first.toList ++ '.' :: Text.joinChars '.' ((next :: others).map String.toList) =
        [] := chars
    exact some (List.append_eq_nil_iff.mp whole).1

theorem intercalate_dot (place : List String) : ".".intercalate place = ofSegments place := by
  have chars (pieces : List (List Char)) :
      ['.'].intercalate pieces = Text.joinChars '.' pieces := by
    induction pieces with
    | nil => rfl
    | cons piece rest ih =>
      cases rest with
      | nil => simp [Text.joinChars]
      | cons next more => rw [List.intercalate_cons_cons, ih]; simp [Text.joinChars]
  rw [← String.toList_inj, String.toList_intercalate, ofSegments, Text.join, ← chars,
    String.toList_ofList, String.toList_ofList]

theorem ofSegments_append {place : List String} (h : place ≠ []) (segment : String) :
    ofSegments (place ++ [segment]) = ofSegments place ++ "." ++ segment := by
  have chars : ∀ pieces : List (List Char), pieces ≠ [] → ∀ last : List Char,
      Text.joinChars '.' (pieces ++ [last]) = Text.joinChars '.' pieces ++ '.' :: last := by
    intro pieces
    induction pieces with
    | nil => intro absent; exact absurd rfl absent
    | cons piece rest ih =>
      intro _ last
      cases rest with
      | nil => rfl
      | cons next others =>
        have := ih (by simp) last
        simp only [List.cons_append] at this ⊢
        simp only [Text.joinChars, this, List.append_assoc, List.cons_append]
  apply String.toList_injective
  simp only [ofSegments, Text.join, List.map_append, List.map_cons, List.map_nil,
    String.toList_ofList, String.toList_append]
  rw [chars _ (by simpa using h)]
  simp

end Path

namespace Number

theorem digit_of_mem_natText {n : Nat} {c : Char} (h : c ∈ (natText n).toList) :
    48 ≤ c.toNat ∧ c.toNat ≤ 57 := by
  rw [natText, String.toList_ofList] at h
  have digit := Nat.isDigit_of_mem_toDigits (by decide) (by decide) h
  simp only [Char.isDigit, Bool.and_eq_true, decide_eq_true_eq] at digit
  exact ⟨UInt32.le_iff_toNat_le.mp digit.1, UInt32.le_iff_toNat_le.mp digit.2⟩

theorem decimalDigit?_of_mem_natText {n : Nat} {c : Char} (h : c ∈ (natText n).toList) :
    Text.decimalDigit? c = some (c.toNat - 48) := by
  obtain ⟨low, high⟩ := digit_of_mem_natText h
  have ascii : c.toNat < 128 := by omega
  simp [Text.decimalDigit?, ascii, low, high]

theorem isDecimal_of_mem_natText {n : Nat} {c : Char} (h : c ∈ (natText n).toList) :
    Text.isDecimal c = true := by
  rw [Text.isDecimal, decimalDigit?_of_mem_natText h]
  rfl

theorem natText_ne_empty (n : Nat) : natText n ≠ "" := by
  intro h
  have digits : (natText n).toList = Nat.toDigits 10 n := String.toList_ofList
  rw [h] at digits
  exact Nat.toDigits_ne_nil digits.symm

theorem asciiDigit_of_mem_natText {n : Nat} {c : Char} (h : c ∈ (natText n).toList) :
    asciiDigit c = c := by
  obtain ⟨low, _⟩ := digit_of_mem_natText h
  rw [asciiDigit, decimalDigit?_of_mem_natText h]
  change Char.ofNat (48 + (c.toNat - 48)) = c
  rw [Nat.add_sub_cancel' low, Char.ofNat_toNat]

theorem map_asciiDigit_natText (n : Nat) :
    (natText n).toList.map asciiDigit = (natText n).toList :=
  (List.map_congr_left fun _ member => asciiDigit_of_mem_natText member).trans (List.map_id _)

theorem digitsValue_natText (n : Nat) : digitsValue (natText n).toList = n := by
  rw [natText, String.toList_ofList]
  exact Nat.ofDigitChars_ten_toDigits

theorem natText_inj {m n : Nat} (h : natText m = natText n) : m = n := by
  rw [← digitsValue_natText m, ← digitsValue_natText n, h]

theorem intText_natCast (n : Nat) : intText n = natText n := by
  have nonneg : ¬ ((n : Int) < 0) := by omega
  simp [intText, nonneg]

theorem dotFree_natText (n : Nat) : Path.DotFree (natText n) := by
  intro h
  have := digit_of_mem_natText h
  revert this
  decide

theorem natText_ne_wildcard (n : Nat) : natText n ≠ Path.wildcard := by
  intro h
  have star : '*' ∈ (natText n).toList := by rw [h]; decide
  have := digit_of_mem_natText star
  revert this
  decide

/-- A position is read from its own numeral, if the numeral is not too long to be read. -/
theorem eq_of_readPosition_natText {m n : Nat} (h : readPosition (natText m) = .ok n) : n = m := by
  have run : (natText m).toList.takeWhile Text.isDecimal = (natText m).toList :=
    List.takeWhile_eq_self_iff.mpr fun c member => isDecimal_of_mem_natText member
  simp only [readPosition, run, map_asciiDigit_natText, digitsValue_natText, if_true] at h
  split at h
  · cases h
  · exact (Except.ok.inj h).symm

end Number

namespace Path

theorem isIndex_natText (n : Nat) : isIndex (Number.natText n) = true := by
  have decimal : ∀ c ∈ (Number.natText n).toList, Text.isDecimal c = true :=
    fun c member => Number.isDecimal_of_mem_natText member
  have run := List.takeWhile_eq_self_iff.mpr decimal
  have rest := List.dropWhile_eq_nil_iff.mpr decimal
  simp [isIndex, run, rest, Number.natText_ne_empty]

theorem isSelector_natText (n : Nat) : isSelector (Number.natText n) = true := by
  rw [isSelector, isIndex_natText, Bool.or_true]

theorem isSelector_wildcard : isSelector wildcard = true := by
  simp [isSelector]

end Path
end Permit

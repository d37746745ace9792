namespace Permit.Text

/-- Whether a code point lies in one of the closed ranges. -/
def inRanges (ranges : List (Nat × Nat)) (point : Nat) : Bool :=
  ranges.any fun r => r.1 ≤ point && point ≤ r.2

theorem inRanges_iff (ranges : List (Nat × Nat)) (point : Nat) :
    inRanges ranges point = true ↔ ∃ r ∈ ranges, r.1 ≤ point ∧ point ≤ r.2 := by
  simp [inRanges]

end Permit.Text

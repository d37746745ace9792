import Permit.Proofs.Path.Segments

namespace Permit.Path

structure WellFormed (limit : Int) (parts : List String) : Prop where
  filled : "" ∉ parts
  short : (parts.length : Int) ≤ limit
  named : parts.head?.any isSelector = false
  flat : hasNestedSelectors parts = false

theorem flat_beginning {start parts : List String} (begins : start <+: parts)
    (flat : hasNestedSelectors parts = false) : hasNestedSelectors start = false := by
  obtain ⟨rest, rfl⟩ := begins
  induction start with
  | nil => rfl
  | cons first more ih =>
    cases more with
    | nil => rfl
    | cons second others =>
      simp only [List.cons_append, hasNestedSelectors, Bool.or_eq_false_iff] at flat ⊢
      exact ⟨flat.1, ih flat.2⟩

theorem WellFormed.beginning {limit : Int} {start parts : List String}
    (h : WellFormed limit parts) (some : start ≠ []) (begins : start <+: parts) :
    WellFormed limit start := by
  refine ⟨fun inside => h.filled (begins.subset inside), ?_, ?_, flat_beginning begins h.flat⟩
  · have shorter := begins.length_le
    have room := h.short
    omega
  · have named := h.named
    obtain ⟨rest, rfl⟩ := begins
    cases start with
    | nil => exact absurd rfl some
    | cons first more => exact named

theorem segments_ne_nil (path : String) : segments path ≠ [] := by
  have pieces := Text.splitChars_ne_nil '.' path.toList
  simpa [segments, Text.split] using pieces

theorem readText_eq_ok_iff {limit : Int} {path : String} {parts : List String} :
    readText limit path = .ok parts ↔ parts = segments path ∧ WellFormed limit parts := by
  constructor
  · intro h
    simp only [readText] at h
    split at h
    · cases h
    split at h
    · cases h
    split at h
    · cases h
    split at h
    · cases h
    split at h
    · cases h
    rename_i filled short named flat
    obtain rfl : segments path = parts := Except.ok.inj h
    exact ⟨rfl, by simpa using filled, by omega, by simpa using named, by simpa using flat⟩
  · rintro ⟨rfl, filled, short, named, flat⟩
    have some : path ≠ "" := by
      rintro rfl
      exact filled (by decide)
    have room : ¬ limit < ((segments path).length : Int) := by omega
    simp [readText, some, filled, room, named, flat]

/-- Of a path whose segments all have characters, the first thing to be wrong is its length. -/
theorem readText_tooLong {limit : Int} {path : String} (filled : "" ∉ segments path)
    (long : limit < (segments path).length) :
    readText limit path = .error (.tooLong path (segments path).length limit) := by
  have some : path ≠ "" := by
    rintro rfl
    exact filled (by decide)
  simp [readText, some, filled, long]

theorem WellFormed.under {limit limit' : Int} {parts : List String} (h : WellFormed limit parts)
    (fits : (parts.length : Int) ≤ limit') : WellFormed limit' parts :=
  ⟨h.filled, fits, h.named, h.flat⟩

theorem read_eq_ok_iff {limit : Int} {given : Value} {parts : List String} :
    read limit given = .ok parts ↔
      ∃ path, given = .text path ∧ parts = segments path ∧ WellFormed limit parts := by
  cases given with
  | text path =>
    rw [read, readText_eq_ok_iff]
    constructor
    · exact fun h => ⟨path, rfl, h⟩
    · rintro ⟨_, same, h⟩
      cases same
      exact h
  | _ =>
    constructor
    · intro h; cases h
    · rintro ⟨_, same, _⟩; cases same

end Permit.Path

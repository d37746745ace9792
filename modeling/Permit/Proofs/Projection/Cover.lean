import Permit.Proofs.Projection.Shown

namespace Permit.Shown

structure Covers (kept paths : List (List String)) : Prop where
  subset : ∀ path ∈ kept, path ∈ paths
  longer : ∀ path ∈ paths, ∃ long ∈ kept, path <+: long

variable {kept paths : List (List String)}

theorem Covers.isEmpty_eq (h : Covers kept paths) : kept.isEmpty = paths.isEmpty := by
  cases paths with
  | nil =>
    cases kept with
    | nil => rfl
    | cons path _ => cases h.subset path (List.mem_cons_self ..)
  | cons path _ =>
    obtain ⟨long, inside, _⟩ := h.longer path (List.mem_cons_self ..)
    cases kept with
    | nil => cases inside
    | cons _ _ => rfl

/-- A test of first segments finds one among the paths that are kept if it finds any. -/
theorem Covers.any_head_eq (h : Covers kept paths) (test : String → Bool) :
    (kept.any fun path => path.head?.any test) = paths.any fun path => path.head?.any test := by
  rw [Bool.eq_iff_iff, List.any_eq_true, List.any_eq_true]
  constructor
  · rintro ⟨path, inside, found⟩
    exact ⟨path, h.subset path inside, found⟩
  · rintro ⟨path, inside, found⟩
    obtain ⟨long, there, rest, rfl⟩ := h.longer path inside
    cases path with
    | nil => cases found
    | cons first more => exact ⟨_, there, found⟩

theorem Covers.names_eq (h : Covers kept paths) : names kept = names paths := h.any_head_eq _

theorem Covers.selects_eq (h : Covers kept paths) : selects kept = selects paths := h.any_head_eq _

theorem Covers.under (h : Covers kept paths) (key : String) :
    Covers (under kept key) (under paths key) := by
  constructor
  · intro rest inside
    exact mem_under.mpr (h.subset _ (mem_under.mp inside))
  · intro rest inside
    obtain ⟨long, there, more, rfl⟩ := h.longer _ (mem_under.mp inside)
    exact ⟨rest ++ more, mem_under.mpr there, List.prefix_append ..⟩

theorem Covers.atPosition (h : Covers kept paths) (index : Nat) :
    Covers (atPosition kept index) (atPosition paths index) := by
  constructor
  · intro rest inside
    rw [mem_atPosition] at inside ⊢
    obtain ⟨first, lead, there⟩ := inside
    exact ⟨first, lead, h.subset _ there⟩
  · intro rest inside
    obtain ⟨first, lead, there⟩ := mem_atPosition.mp inside
    obtain ⟨long, kept, more, rfl⟩ := h.longer _ there
    exact ⟨rest ++ more, mem_atPosition.mpr ⟨first, lead, kept⟩, List.prefix_append ..⟩

mutual

theorem value_covers : ∀ {kept paths : List (List String)} (v : Value), Covers kept paths →
    value kept v = value paths v
  | kept, paths, .map entries, h => by
    simp only [value, h.names_eq, h.selects_eq, ofEntries_covers entries h]
  | kept, paths, .list items, h => by
    simp only [value, h.names_eq, h.selects_eq, ofItems_covers items h]
  | kept, paths, .tuple items, h => by
    simp only [value, h.names_eq, h.selects_eq, ofItems_covers items h]
  | kept, paths, .null, h | kept, paths, .bool _, h | kept, paths, .int _, h
  | kept, paths, .float _, h | kept, paths, .text _, h | kept, paths, .bytes _, h
  | kept, paths, .object .., h | kept, paths, .renderable .., h
  | kept, paths, .incomparable .., h => by
    simp only [value, h.names_eq, h.selects_eq]

theorem ofEntries_covers : ∀ {kept paths : List (List String)} (entries : List (Value × Value)),
    Covers kept paths → ofEntries kept entries = ofEntries paths entries
  | _, _, [], _ => rfl
  | kept, paths, (key, v) :: rest, h => by
    have others := ofEntries_covers rest h
    rcases key.other_or_text with other | ⟨name, rfl⟩
    · rw [ofEntries_other kept other, ofEntries_other paths other, others]
    · rw [ofEntries_text, ofEntries_text, others, (h.under name).isEmpty_eq,
        value_covers v (h.under name)]

theorem ofItems_covers : ∀ {kept paths : List (List String)} {index : Nat} (items : List Value),
    Covers kept paths → ofItems kept index items = ofItems paths index items
  | _, _, _, [], _ => rfl
  | kept, paths, index, v :: rest, h => by
    simp only [ofItems, (h.atPosition index).isEmpty_eq, value_covers v (h.atPosition index),
      @ofItems_covers kept paths (index + 1) rest h]

end

/-- **The longest paths decide.** Paths show of a value what any of them that cover the
others show. -/
theorem whole_covers (h : Covers kept paths) (v : Value) : whole kept v = whole paths v := by
  rw [whole, whole, h.isEmpty_eq, value_covers v h]

end Permit.Shown

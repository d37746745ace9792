import Permit.Proofs.Path.Segments

namespace Permit

namespace Text

def Blank (cs : List Char) : Prop := ∀ c ∈ cs, isBlank c = true

def FlushRight (cs : List Char) : Prop := ∀ c ∈ cs.getLast?, isBlank c = false

structure Flush (cs : List Char) : Prop where
  left : ∀ c ∈ cs.head?, isBlank c = false
  right : FlushRight cs

instance (cs : List Char) : Decidable (Blank cs) :=
  decidable_of_iff (cs.all isBlank = true) List.all_eq_true

theorem all_not_isBlank (outer : Option Char) :
    outer.all (!isBlank ·) = true ↔ ∀ c ∈ outer, isBlank c = false := by
  cases outer <;> simp

instance (cs : List Char) : Decidable (FlushRight cs) :=
  decidable_of_iff (cs.getLast?.all (!isBlank ·) = true) (all_not_isBlank _)

instance (cs : List Char) : Decidable (Flush cs) :=
  decidable_of_iff (cs.head?.all (!isBlank ·) = true ∧ FlushRight cs)
    ⟨fun h => ⟨(all_not_isBlank _).mp h.1, h.2⟩, fun h => ⟨(all_not_isBlank _).mpr h.left, h.right⟩⟩

variable {sep : Char} {cs before after : List Char}

theorem trimLeft_blank (blank : Blank before) (rest : List Char) :
    trimLeft (before ++ rest) = trimLeft rest := by
  induction before with
  | nil => rfl
  | cons c cs ih =>
    have first : isBlank c = true := blank c (List.mem_cons_self ..)
    have others : Blank cs := fun d inside => blank d (List.mem_cons_of_mem _ inside)
    rw [← ih others, trimLeft, List.cons_append, List.dropWhile_cons, if_pos first]
    rfl

theorem trimLeft_eq_self (h : ∀ c ∈ cs.head?, isBlank c = false) : trimLeft cs = cs := by
  cases cs with
  | nil => rfl
  | cons c rest =>
    have first : isBlank c = false := h c rfl
    rw [trimLeft, List.dropWhile_cons, first]
    rfl

def trimRight (cs : List Char) : List Char := (trimLeft cs.reverse).reverse

theorem trimRight_append_blank (flush : FlushRight cs) (blank : Blank after) :
    trimRight (cs ++ after) = cs := by
  have blank' : Blank after.reverse := fun c inside => blank c (List.mem_reverse.mp inside)
  have last : ∀ c ∈ cs.reverse.head?, isBlank c = false := by
    rw [List.head?_reverse]
    exact flush
  rw [trimRight, List.reverse_append, trimLeft_blank blank', trimLeft_eq_self last,
    List.reverse_reverse]

theorem trimChars_blanks (flush : Flush cs) (blank : Blank before) (blank' : Blank after) :
    trimChars (before ++ cs ++ after) = cs := by
  rw [trimChars, List.append_assoc, trimLeft_blank blank]
  cases cs with
  | nil =>
    have none : trimLeft (after ++ []) = [] := trimLeft_blank blank' []
    rw [List.append_nil] at none
    rw [List.nil_append, none]
    rfl
  | cons c rest =>
    have whole : trimLeft (c :: rest ++ after) = c :: rest ++ after :=
      trimLeft_eq_self fun d first => flush.left d first
    rw [whole]
    exact trimRight_append_blank flush.right blank'

theorem trimChars_flush (flush : Flush cs) : trimChars cs = cs := by
  have none : Blank [] := fun c inside => by cases inside
  simpa using trimChars_blanks flush none none

theorem trimChars_blank (blank : Blank cs) : trimChars cs = [] := by
  have flush : Flush [] := by decide
  have none : Blank [] := fun c inside => by cases inside
  simpa using trimChars_blanks flush blank none

theorem cutChars_append_left (free : sep ∉ before) (cs : List Char) :
    cutChars sep (before ++ cs) = (before ++ (cutChars sep cs).1, (cutChars sep cs).2) := by
  induction before with
  | nil => rfl
  | cons c rest ih =>
    have other : c ≠ sep := fun e => free (e ▸ List.mem_cons_self ..)
    have free : sep ∉ rest := fun m => free (List.mem_cons_of_mem _ m)
    simp only [List.cons_append, cutChars, other, if_false, ih free]

theorem cutChars_of_not_mem (h : sep ∉ cs) : cutChars sep cs = (cs, none) := by
  simpa [cutChars] using cutChars_append_left h []

theorem cutChars_append (h : sep ∉ cs) (rest : List Char) :
    cutChars sep (cs ++ sep :: rest) = (cs, some rest) := by
  simp [cutChars_append_left h, cutChars]

/-- Where a joined text ends, one of the pieces does, or the separator stands. -/
theorem flushRight_joinChars (solid : isBlank sep = false) {pieces : List (List Char)}
    (flush : ∀ piece ∈ pieces, FlushRight piece) : FlushRight (joinChars sep pieces) := by
  induction pieces with
  | nil => exact fun c last => by cases last
  | cons piece rest ih =>
    have own := flush piece (List.mem_cons_self ..)
    have others := ih fun p inside => flush p (List.mem_cons_of_mem _ inside)
    cases rest with
    | nil => exact own
    | cons next more =>
      intro c last
      rw [joinChars, List.getLast?_append, List.getLast?_cons] at last
      · cases found : (joinChars sep (next :: more)).getLast? with
        | none =>
          rw [found] at last
          cases last
          exact solid
        | some d =>
          rw [found] at last
          cases last
          exact others _ found
      · exact fun none => List.cons_ne_nil _ _ none

theorem mem_joinChars {pieces : List (List Char)} {c : Char} (h : c ∈ joinChars sep pieces) :
    c = sep ∨ ∃ piece ∈ pieces, c ∈ piece := by
  induction pieces with
  | nil => cases h
  | cons piece rest ih =>
    cases rest with
    | nil => exact .inr ⟨piece, List.mem_cons_self .., h⟩
    | cons next more =>
      rw [joinChars] at h
      · rcases List.mem_append.mp h with own | h
        · exact .inr ⟨piece, List.mem_cons_self .., own⟩
        · rcases List.mem_cons.mp h with same | h
          · exact .inl same
          · rcases ih h with same | ⟨other, inside, own⟩
            · exact .inl same
            · exact .inr ⟨other, List.mem_cons_of_mem _ inside, own⟩
      · exact fun none => List.cons_ne_nil _ _ none

theorem joinChars_eq_nil {pieces : List (List Char)} (h : joinChars sep pieces = []) :
    pieces = [] ∨ pieces = [[]] := by
  cases pieces with
  | nil => exact .inl rfl
  | cons piece rest =>
    cases rest with
    | nil => exact .inr (congrArg (fun p => [p]) h)
    | cons next more =>
      rw [joinChars] at h
      · cases (List.append_eq_nil_iff.mp h).2
      · exact fun none => List.cons_ne_nil _ _ none

/-! ### What trimming leaves -/

theorem not_isBlank_head_trimLeft (cs : List Char) :
    ∀ c ∈ (trimLeft cs).head?, isBlank c = false := by
  intro c first
  have stops := List.head?_dropWhile_not isBlank cs
  rw [trimLeft, Option.mem_def] at first
  rw [first] at stops
  exact stops

theorem flushRight_trimRight (cs : List Char) : FlushRight (trimRight cs) := by
  rw [FlushRight, trimRight, List.getLast?_reverse]
  exact not_isBlank_head_trimLeft _

theorem exists_trimLeft (cs : List Char) : ∃ before, Blank before ∧ cs = before ++ trimLeft cs :=
  ⟨cs.takeWhile isBlank, fun _ inside => List.mem_takeWhile_imp inside,
    List.takeWhile_append_dropWhile.symm⟩

theorem exists_trimRight (cs : List Char) : ∃ after, Blank after ∧ cs = trimRight cs ++ after := by
  obtain ⟨before, blank, parts⟩ := exists_trimLeft cs.reverse
  refine ⟨before.reverse, fun c inside => blank c (List.mem_reverse.mp inside), ?_⟩
  rw [trimRight, ← List.reverse_append, ← parts, List.reverse_reverse]

theorem flushRight_append_iff {left right : List Char} (some : right ≠ []) :
    FlushRight (left ++ right) ↔ FlushRight right := by
  have last : (left ++ right).getLast? = right.getLast? := by
    rw [List.getLast?_append, Option.or_of_isSome (by simpa using some)]
  rw [FlushRight, FlushRight, last]

theorem flush_trimChars (cs : List Char) : Flush (trimChars cs) := by
  refine ⟨fun c first => ?_, flushRight_trimRight _⟩
  obtain ⟨after, _, parts⟩ := exists_trimRight (trimLeft cs)
  refine not_isBlank_head_trimLeft cs c ?_
  have found : (trimRight (trimLeft cs)).head? = some c := first
  rw [parts, List.head?_append, found]
  rfl

/-- Of a text that is not blank, trimming the right end leaves blanks and then what trimming
both ends leaves. -/
theorem exists_trimRight_eq (filled : trimChars cs ≠ []) :
    ∃ before, Blank before ∧ trimRight cs = before ++ trimChars cs := by
  obtain ⟨before, blank, whole⟩ := exists_trimLeft cs
  obtain ⟨after, blank', rest⟩ := exists_trimRight (trimLeft cs)
  have parts : cs = before ++ trimChars cs ++ after := by
    rw [List.append_assoc]
    exact whole.trans (congrArg (before ++ ·) rest)
  have flush : FlushRight (before ++ trimChars cs) :=
    (flushRight_append_iff filled).mpr (flush_trimChars cs).right
  refine ⟨before, blank, ?_⟩
  rw [← trimRight_append_blank flush blank', ← parts]

/-- What is cut at a separator stands before and after it. -/
theorem eq_of_cutChars {cs rest : List Char} (cut : (cutChars sep cs).2 = some rest) :
    cs = (cutChars sep cs).1 ++ sep :: rest := by
  induction cs with
  | nil => cases cut
  | cons c cs ih =>
    by_cases same : c = sep
    · simp only [cutChars, same, if_true, Option.some.injEq] at cut ⊢
      rw [cut, List.nil_append]
    · simp only [cutChars, same, if_false] at cut ⊢
      rw [List.cons_append, ← ih cut]

end Text

end Permit

import Permit.Constraint.Field
import Permit.Proofs.Outcome
import Permit.Proofs.Path.WellFormed
import Permit.Proofs.Value.Place

namespace Permit

inductive Reaches : List String → Value → List String → Value → Prop where
  | here (v : Value) : Reaches [] v [] v
  | part {segment : String} {pattern place : List String} {v w x : Value} :
      segment ≠ Path.wildcard → Keyed.find? v.parts segment = some w →
      Reaches pattern w place x → Reaches (segment :: pattern) v (segment :: place) x
  | element {pattern place : List String} {items : List Value} {index : Nat} {w x : Value} :
      items[index]? = some w → Reaches pattern w place x →
      Reaches (Path.wildcard :: pattern) (.list items) (Number.natText index :: place) x

namespace Reaches

variable {pattern place : List String} {v w x : Value}

theorem at? (h : Reaches pattern v place x) : v.at? place = some x := by
  induction h with
  | here v => rfl
  | part _ found _ ih => exact Value.at?_cons.mpr ⟨_, found, ih⟩
  | @element _ _ items index w _ given _ ih =>
    have found : Keyed.find? (Diff.positions 0 items) (Number.natText (0 + index)) = some w :=
      Diff.find?_positions.trans given
    rw [Nat.zero_add] at found
    exact Value.at?_cons.mpr ⟨w, found, ih⟩

/-- The segments of a place are those of the pattern or numerals. -/
theorem segments (h : Reaches pattern v place x) :
    ∀ key ∈ place, key ∈ pattern ∨ ∃ index, key = Number.natText index := by
  induction h with
  | here v => exact fun key inside => by cases inside
  | part _ _ _ ih =>
    intro key inside
    rcases List.mem_cons.mp inside with rfl | inside
    · exact .inl (List.mem_cons_self ..)
    · exact (ih key inside).imp_left (List.mem_cons_of_mem _)
  | element _ _ ih =>
    intro key inside
    rcases List.mem_cons.mp inside with rfl | inside
    · exact .inr ⟨_, rfl⟩
    · exact (ih key inside).imp_left (List.mem_cons_of_mem _)

theorem eq_nil_iff (h : Reaches pattern v place x) : place = [] ↔ pattern = [] := by
  cases h <;> simp

end Reaches

namespace Constraint

variable {v w x data : Value} {fields out : List Field} {field : Field}
  {segment pattern : String}

theorem mem_elementFields {path : String} {items : List Value} {index start : Nat}
    (given : items[index]? = some v) :
    ⟨extend path (Number.natText (start + index)), some v⟩ ∈ elementFields path start items := by
  induction items generalizing start index with
  | nil => cases given
  | cons first rest ih =>
    cases index with
    | zero =>
      cases given
      exact List.mem_cons_self ..
    | succ index =>
      have inside := @ih index (start + 1) given
      rw [show start + 1 + index = start + (index + 1) by omega] at inside
      exact List.mem_cons_of_mem _ inside

/-- A segment is read as a position if it has digits only, and at least one. -/
theorem allDigits_iff {segment : String} :
    (!segment.isEmpty && segment.toList.all Text.isDigit) = true ↔
      segment ≠ "" ∧ ∀ c ∈ segment.toList, Text.isDigit c = true := by
  rw [Bool.and_eq_true, Bool.not_eq_true', ← Bool.not_eq_true, String.isEmpty_iff,
    List.all_eq_true]

theorem isDigit_of_isDecimal {c : Char} (decimal : Text.isDecimal c = true) :
    Text.isDigit c = true := by
  rw [Text.isDigit, decimal, Bool.true_or]

/-- A segment that is not `*` leads to the part under it, where there is one. -/
theorem step?_part {segment : String} {found : Option Value} (json : v.isJson = true)
    (part : Keyed.find? v.parts segment = some w) (run : step? segment (some v) = .ok found) :
    found = some w := by
  cases v, json using Value.isJson_induction with
  | scalar v json plain =>
    rw [Value.parts_of_scalar plain] at part
    cases part
  | list items json _ =>
    obtain ⟨index, numeral, given⟩ :=
      Diff.exists_index_of_mem_positions (Keyed.mem_of_find? part)
    simp only [Nat.zero_add] at numeral
    subst numeral
    have digits : (!(Number.natText index).isEmpty &&
        (Number.natText index).toList.all Text.isDigit) = true :=
      allDigits_iff.mpr ⟨Number.natText_ne_empty index, fun _ member =>
        isDigit_of_isDecimal (Number.isDecimal_of_mem_natText member)⟩
    simp only [step?, Value.items?, digits, if_true] at run
    cases position : Number.readPosition (Number.natText index) with
    | error fault =>
      rw [position] at run
      cases run
    | ok n =>
      obtain rfl := Number.eq_of_readPosition_natText position
      rw [position] at run
      exact (Except.ok.inj run).symm.trans given
  | record fields once json _ =>
    rw [Value.parts_record] at part
    have look : step? segment (some (.record fields)) = .ok (Keyed.find? fields segment) := by
      rw [← Value.field?_fields]
      rfl
    rw [look, part] at run
    exact (Except.ok.inj run).symm

def extendAll (path : String) (place : List String) : String := place.foldl extend path

/-- What segments reach from a field is among the fields they lead to. -/
theorem mem_followAll {pattern place : List String} (h : Reaches pattern v place x) :
    ∀ {path : String} {fields out : List Field}, v.isJson = true →
      ⟨path, some v⟩ ∈ fields → followAll pattern fields = .ok out →
      ⟨extendAll path place, some x⟩ ∈ out := by
  induction h with
  | here v =>
    intro path fields out json inside run
    cases run
    exact inside
  | @part segment pattern place v w x name found _ ih =>
    intro path fields out json inside run
    obtain ⟨next, step, run⟩ := Outcome.bind_eq_ok_iff.mp run
    obtain ⟨led, member, follows⟩ := Outcome.exists_of_mem_mapM step inside
    rw [follow, if_neg name] at follows
    obtain ⟨reached, steps, same⟩ := Outcome.bind_eq_ok_iff.mp follows
    cases same
    obtain rfl := step?_part json found steps
    exact ih (Value.isJson_part json found)
      (List.mem_flatten.mpr ⟨_, member, List.mem_singleton_self _⟩) run
  | @element pattern place items index w x given _ ih =>
    intro path fields out json inside run
    obtain ⟨next, step, run⟩ := Outcome.bind_eq_ok_iff.mp run
    obtain ⟨led, member, follows⟩ := Outcome.exists_of_mem_mapM step inside
    rw [follow, if_pos rfl] at follows
    cases follows
    have reached := @mem_elementFields w path items index 0 given
    rw [Nat.zero_add] at reached
    exact ih (Value.isJson_list.mp json w (List.mem_of_getElem? given))
      (List.mem_flatten.mpr ⟨_, member, reached⟩) run

theorem extend_ofSegments {done : List String} (filled : "" ∉ done) (segment : String) :
    extend (Path.ofSegments done) segment = Path.ofSegments (done ++ [segment]) := by
  cases done with
  | nil => simp [extend, Path.ofSegments, Text.join, Text.joinChars]
  | cons first rest =>
    have some : Path.ofSegments (first :: rest) ≠ "" := Path.ofSegments_ne_empty filled
    rw [extend, if_neg some, Path.ofSegments_append (List.cons_ne_nil _ _)]

theorem extendAll_ofSegments {done place : List String} (filled : "" ∉ done ++ place) :
    extendAll (Path.ofSegments done) place = Path.ofSegments (done ++ place) := by
  induction place generalizing done with
  | nil => rw [List.append_nil]; rfl
  | cons segment rest ih =>
    have before : "" ∉ done := fun inside => filled (List.mem_append_left _ inside)
    rw [← List.singleton_append, ← List.append_assoc] at filled ⊢
    rw [← ih filled, ← extend_ofSegments before]
    rfl

/-- **Resolving.** What the segments of a pattern reach in data is one of the fields that
the pattern stands for, under the path of its place. -/
theorem mem_fields {data : Value} {pattern : String} {place : List String}
    (h : Reaches (Path.segments pattern) data place x) (json : data.isJson = true)
    (filled : "" ∉ Path.segments pattern) (run : Constraint.fields data pattern = .ok out) :
    ⟨Path.ofSegments place, some x⟩ ∈ out ∧ Path.segments (Path.ofSegments place) = place := by
  have named : "" ∉ place := by
    intro inside
    rcases h.segments "" inside with member | ⟨index, numeral⟩
    · exact filled member
    · exact Number.natText_ne_empty index numeral.symm
  have free : ∀ key ∈ place, Path.DotFree key := by
    intro key inside
    rcases h.segments key inside with member | ⟨index, rfl⟩
    · exact Path.dotFree_of_mem_segments member
    · exact Number.dotFree_natText index
  have some : place ≠ [] := by
    rw [Ne, h.eq_nil_iff]
    exact Path.segments_ne_nil pattern
  refine ⟨?_, Path.segments_ofSegments some free⟩
  have member := mem_followAll h json (List.mem_singleton_self _) run
  have path := @extendAll_ofSegments [] place named
  rw [List.nil_append] at path
  exact path ▸ member

/-! ### What is resolved to -/

theorem exists_part_of_step? (json : v.isJson = true)
    (run : step? segment (some v) = .ok (some w)) :
    ∃ key, Keyed.find? v.parts key = some w := by
  cases v, json using Value.isJson_induction with
  | scalar v json plain =>
    cases v with
    | list _ | map _ => cases plain
    | tuple _ => cases json
    | _ => cases run
  | list items _ _ =>
    simp only [step?, Value.items?] at run
    split at run
    next =>
      split at run
      next n _ =>
        exact Value.exists_find?_of_mem (List.mem_of_getElem? (Except.ok.inj run))
      next => cases run
    next => cases run
  | record fields _ _ _ =>
    have look : step? segment (some (.record fields)) = .ok (Keyed.find? fields segment) := by
      rw [← Value.field?_fields]
      rfl
    rw [look] at run
    exact ⟨segment, by rw [Value.parts_record]; exact Except.ok.inj run⟩

def Field.Of (field : Field) (data : Value) : Prop :=
  ∀ v, field.value = some v → ∃ place, data.at? place = some v

theorem of_mem_elementFields {path : String} {items : List Value} {start : Nat}
    (inside : field ∈ elementFields path start items) : ∃ v ∈ items, field.value = some v := by
  induction items generalizing start with
  | nil => cases inside
  | cons v rest ih =>
    rcases List.mem_cons.mp inside with rfl | inside
    · exact ⟨v, List.mem_cons_self .., rfl⟩
    · obtain ⟨other, member, same⟩ := ih inside
      exact ⟨other, List.mem_cons_of_mem _ member, same⟩

theorem Field.Of.follow {out : List Field} (h : field.Of data) (json : data.isJson = true)
    (run : Constraint.follow segment field = .ok out) : ∀ next ∈ out, next.Of data := by
  have below {place : List String} {v w : Value} {key : String}
      (held : data.at? place = some v) (found : Keyed.find? v.parts key = some w) :
      ∃ place, data.at? place = some w := by
    refine ⟨place ++ [key], ?_⟩
    rw [Value.at?_append held]
    exact Value.at?_cons.mpr ⟨w, found, rfl⟩
  obtain ⟨path, given⟩ := field
  intro next inside w same
  unfold Constraint.follow at run
  split at run
  next =>
    cases run
    cases given with
    | none => cases inside
    | some v =>
      obtain ⟨place, held⟩ := h v rfl
      simp only [Option.bind_some] at inside
      cases v with
      | list items =>
        obtain ⟨v, member, value⟩ := of_mem_elementFields inside
        cases same.symm.trans value
        obtain ⟨key, found⟩ := Value.exists_find?_of_mem member
        exact below held found
      | tuple items => cases Value.isJson_at json held
      | _ => cases inside
  next =>
    obtain ⟨found, step, done⟩ := Outcome.bind_eq_ok_iff.mp run
    cases done
    cases List.mem_singleton.mp inside
    cases same
    cases given with
    | none => cases step
    | some v =>
      obtain ⟨place, held⟩ := h v rfl
      obtain ⟨key, part⟩ := exists_part_of_step? (Value.isJson_at json held) step
      exact below held part

theorem of_mem_followAll {segments : List String} (json : data.isJson = true) :
    ∀ {start out : List Field}, (∀ field ∈ start, field.Of data) →
      followAll segments start = .ok out → ∀ field ∈ out, field.Of data := by
  induction segments with
  | nil =>
    intro start out held run
    cases run
    exact held
  | cons segment rest ih =>
    intro start out held run
    obtain ⟨next, step, run⟩ := Outcome.bind_eq_ok_iff.mp run
    refine ih (fun field inside => ?_) run
    obtain ⟨group, member, own⟩ := List.mem_flatten.mp inside
    obtain ⟨before, earlier, led⟩ := Outcome.exists_of_mem_of_mapM step member
    exact (held before earlier).follow json led field own

theorem at?_of_mem_fields {out : List Field} (json : data.isJson = true)
    (run : Constraint.fields data pattern = .ok out) : ∀ field ∈ out, field.Of data := by
  refine of_mem_followAll json (fun field inside => ?_) run
  cases List.mem_singleton.mp inside
  rintro v ⟨⟩
  exact ⟨[], rfl⟩

end Constraint
end Permit

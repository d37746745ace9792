import Mathlib.Data.List.Perm.Subperm
import Permit.Proofs.Diff.Pruned

namespace Permit

namespace Value

/-- A value with its empty lists read as empty mappings, down to a number of levels. -/
def soften : Nat → Value → Value
  | _ + 1, .list [] => .map []
  | n + 1, .list (v :: rest) => .list ((v :: rest).map (soften n))
  | n + 1, .map entries => .map (entries.map fun entry => (entry.1, soften n entry.2))
  | _, v => v

theorem soften_zero (v : Value) : v.soften 0 = v := by
  cases v <;> rfl

theorem soften_of_scalar {v : Value} (plain : v.isContainer = false) (n : Nat) :
    v.soften n = v := by
  cases v <;> first | (cases n <;> rfl) | cases plain

theorem isContainer_soften (v : Value) (n : Nat) : (v.soften n).isContainer = v.isContainer := by
  cases n with
  | zero => rw [soften_zero]
  | succ n =>
    cases v with
    | list items => cases items <;> rfl
    | _ => rfl

theorem soften_list {n : Nat} {items : List Value} (some : items ≠ []) :
    (list items).soften (n + 1) = .list (items.map (soften n)) := by
  cases items with
  | nil => exact absurd rfl some
  | cons v rest => rfl

def softenFields (n : Nat) (fields : List (String × Value)) : List (String × Value) :=
  fields.map fun f => (f.1, f.2.soften n)

theorem keys_softenFields (n : Nat) (fields : List (String × Value)) :
    Keyed.keys (softenFields n fields) = Keyed.keys fields := by
  simp [Keyed.keys, softenFields]

theorem find?_softenFields (n : Nat) (fields : List (String × Value)) (key : String) :
    Keyed.find? (softenFields n fields) key = (Keyed.find? fields key).map (soften n) := by
  induction fields with
  | nil => rfl
  | cons f rest ih =>
    by_cases same : f.1 = key
    · simp [softenFields, Keyed.find?, same]
    · simpa [softenFields, Keyed.find?, same] using ih

theorem soften_record (n : Nat) (fields : List (String × Value)) :
    (record fields).soften (n + 1) = record (softenFields n fields) := by
  simp [record, soften, softenFields]

theorem softenFields_positions (n start : Nat) (items : List Value) :
    softenFields n (Diff.positions start items) = Diff.positions start (items.map (soften n)) := by
  induction items generalizing start with
  | nil => rfl
  | cons v rest ih => exact congrArg _ (ih (start + 1))

theorem isJson_soften (v : Value) (json : v.isJson = true) :
    ∀ n, (v.soften n).isJson = true := by
  induction v, json using isJson_induction with
  | scalar v json plain =>
    intro n
    rw [soften_of_scalar plain]
    exact json
  | list items parts ih =>
    intro n
    cases n with
    | zero => exact soften_zero _ ▸ isJson_list.mpr parts
    | succ n =>
      by_cases none : items = []
      · subst none
        rfl
      · rw [soften_list none, isJson_list]
        intro w inside
        obtain ⟨v, given, rfl⟩ := List.mem_map.mp inside
        exact ih v given n
  | record fields once parts ih =>
    intro n
    cases n with
    | zero => exact soften_zero _ ▸ isJson_record.mpr ⟨once, parts⟩
    | succ n =>
      rw [soften_record, isJson_record, keys_softenFields]
      refine ⟨once, fun f inside => ?_⟩
      obtain ⟨g, given, rfl⟩ := List.mem_map.mp inside
      exact ih g given n

end Value

open Value

/-- What is left of a value is left of it as well once empty lists are read as empty
mappings. -/
theorem Trimmed.soften {p v : Value} (h : Trimmed p v) :
    ∀ n, Trimmed (p.soften n) (v.soften n) := by
  induction h with
  | same v => exact fun n => .same _
  | hollowMapping v =>
    intro n
    cases n with
    | zero => exact soften_zero v ▸ .hollowMapping v
    | succ n => exact .hollowMapping _
  | hollowSequence v =>
    intro n
    cases n with
    | zero => exact soften_zero v ▸ .hollowSequence v
    | succ n => exact .hollowMapping _
  | @fields kept fields keys each ih =>
    intro n
    cases n with
    | zero => exact .fields keys each
    | succ n =>
      rw [soften_record, soften_record]
      refine .fields (by rwa [keys_softenFields, keys_softenFields]) fun key p v found given => ?_
      rw [find?_softenFields] at found given
      obtain ⟨q, left, rfl⟩ := Option.map_eq_some_iff.mp found
      obtain ⟨w, right, rfl⟩ := Option.map_eq_some_iff.mp given
      exact ih key q w left right n
  | @items kept items shorter each ih =>
    intro n
    cases n with
    | zero => exact .items shorter each
    | succ n =>
      by_cases none : kept = []
      · subst none
        exact .hollowMapping _
      · have some : items ≠ [] := by
          rintro rfl
          exact none (List.length_eq_zero_iff.mp (Nat.le_zero.mp shorter))
        rw [soften_list none, soften_list some]
        refine .items (by simpa using shorter) fun index p v found given => ?_
        rw [List.getElem?_map] at found given
        obtain ⟨q, left, rfl⟩ := Option.map_eq_some_iff.mp found
        obtain ⟨w, right, rfl⟩ := Option.map_eq_some_iff.mp given
        exact ih index q w left right n

namespace Value

theorem parts_soften {v : Value} (json : v.isJson = true) (n : Nat) :
    (v.soften (n + 1)).parts = softenFields n v.parts := by
  cases v, json using isJson_induction with
  | scalar v json plain =>
    rw [soften_of_scalar plain, parts_of_scalar plain]
    rfl
  | list items json _ =>
    by_cases none : items = []
    · subst none
      rfl
    · rw [soften_list none, parts, parts, softenFields_positions]
  | record fields once json _ =>
    rw [soften_record, parts_record, parts_record]

theorem soften_of_parts_eq_nil {v : Value} (json : v.isJson = true)
    (container : v.isContainer = true) (empty : v.parts = []) (n : Nat) :
    v.soften (n + 1) = .map [] := by
  cases v, json using isJson_induction with
  | scalar v json plain =>
    rw [plain] at container
    cases container
  | list items json _ =>
    cases items with
    | nil => rfl
    | cons _ _ => cases empty
  | record fields once json _ =>
    rw [parts_record] at empty
    rw [empty]
    rfl

/-- Softened fields are the same if each of the given fields is left with a value that
softens to the same. -/
theorem softenFields_eq_iff {n : Nat} {kept fields : List (String × Value)}
    (keys : (Keyed.keys kept).Sublist (Keyed.keys fields)) (once : (Keyed.keys fields).Nodup) :
    softenFields n kept = softenFields n fields ↔
      ∀ key w, Keyed.find? fields key = some w →
        ∃ q, Keyed.find? kept key = some q ∧ q.soften n = w.soften n := by
  constructor
  · intro same key w given
    have found := find?_softenFields n kept key
    rw [same, find?_softenFields, given] at found
    obtain ⟨q, held, softened⟩ := Option.map_eq_some_iff.mp found.symm
    exact ⟨q, held, softened⟩
  · intro each
    have all : Keyed.keys kept = Keyed.keys fields := by
      refine keys.eq_of_length_le (List.Subperm.length_le (once.subperm ?_))
      intro key inside
      obtain ⟨w, given⟩ := Option.isSome_iff_exists.mp ((Keyed.isSome_find?_iff _ _).mpr inside)
      obtain ⟨q, held, _⟩ := each key w given
      exact (Keyed.isSome_find?_iff _ _).mp (by rw [held]; rfl)
    refine Keyed.ext_of_keys (by rw [keys_softenFields, keys_softenFields, all])
      (by rwa [keys_softenFields]) fun key x y found given => ?_
    rw [find?_softenFields] at found given
    obtain ⟨w, right, rfl⟩ := Option.map_eq_some_iff.mp given
    obtain ⟨q, left, softened⟩ := each key w right
    rw [left] at found
    rw [← Option.some.inj found, softened]

end Value

namespace Trimmed

variable {p v : Value}

theorem soften_eq_iff (h : Trimmed p v) (json : v.isJson = true) (left : p.isContainer = true)
    (right : v.isContainer = true) (n : Nat) :
    p.soften (n + 1) = v.soften (n + 1) ↔ softenFields n p.parts = softenFields n v.parts := by
  constructor
  · intro same
    rw [← parts_soften (h.isJson json), ← parts_soften json, same]
  · intro same
    have hollow (empty : p.parts = []) : p.soften (n + 1) = v.soften (n + 1) := by
      have none : v.parts = [] := by
        rw [empty] at same
        exact List.map_eq_nil_iff.mp same.symm
      rw [soften_of_parts_eq_nil (h.isJson json) left empty,
        soften_of_parts_eq_nil json right none]
    cases h with
    | same => rfl
    | hollowMapping => exact hollow rfl
    | hollowSequence => exact hollow rfl
    | fields =>
      rw [parts_record, parts_record] at same
      rw [soften_record, soften_record, same]
    | @items kept items =>
      by_cases none : kept = []
      · exact hollow (none ▸ rfl)
      · rw [parts, parts, softenFields_positions, softenFields_positions] at same
        have elements := congrArg (List.map (·.2)) same
        rw [Diff.map_snd_positions, Diff.map_snd_positions] at elements
        have some : items ≠ [] := by
          rintro rfl
          exact none (List.map_eq_nil_iff.mp elements)
        rw [soften_list none, soften_list some, elements]

/-- Where containers are not compared part by part, only the same softens to the same. -/
theorem eq_of_soften_eq {n : Nat} (h : Trimmed p v)
    (last : ¬ (p.isContainer = true ∧ v.isContainer = true ∧ 0 < n))
    (same : p.soften n = v.soften n) : p = v := by
  cases n with
  | zero => rwa [soften_zero, soften_zero] at same
  | succ n =>
    have plain (left : p.isContainer = true) : v.isContainer = false := by
      rw [← Bool.not_eq_true]
      exact fun right => last ⟨left, right, Nat.succ_pos n⟩
    cases h with
    | same => rfl
    | hollowMapping => exact same.trans (soften_of_scalar (plain rfl) _)
    | hollowSequence =>
      have other : Value.map [] = v := same.trans (soften_of_scalar (plain rfl) _)
      subst other
      cases plain rfl
    | fields => cases plain rfl
    | items => cases plain rfl

end Trimmed

namespace Diff

variable {p v q w : Value} {key : String}

/-- What makes no change between two containers with `n` more levels to be walked. -/
def Settled (n : Nat) : Prop :=
  ∀ {p v : Value}, Trimmed p v → v.isJson = true → p.isContainer = true →
    v.isContainer = true →
    ((∀ place, ¬ Changed n p v place) ↔ p.soften (n + 1) = v.soften (n + 1))

/-- At a key that is left, nothing is changed if the parts soften to the same. -/
theorem not_changed_part_iff {n : Nat} (deeper : ∀ m, n = m + 1 → Settled m)
    (before : Keyed.find? p.parts key = some q) (after : Keyed.find? v.parts key = some w)
    (part : Trimmed q w) (json : w.isJson = true) :
    (∀ rest, ¬ Changed n p v (key :: rest)) ↔ q.soften n = w.soften n := by
  by_cases same : q = w
  · subst same
    refine iff_of_true ?_ rfl
    intro rest changed
    have differ := changed.differ before after
    rw [Value.equal_self q json] at differ
    cases differ
  · have differ := equal_eq_false part json same
    by_cases walked : q.isContainer = true ∧ w.isContainer = true ∧ 0 < n
    · obtain ⟨left, right, more⟩ := walked
      obtain ⟨m, rfl⟩ := Nat.exists_eq_succ_of_ne_zero (Nat.ne_of_gt more)
      simp only [Nat.succ_eq_add_one, Changed.within_iff before after differ left right]
      exact deeper m rfl part json left right
    · refine iff_of_false ?_ ?_
      · intro none
        exact none [] ((Changed.replaced_iff before after differ walked).mpr rfl)
      · exact fun softened => same (part.eq_of_soften_eq walked softened)

theorem settled_of_deeper {n : Nat} (deeper : ∀ m, n = m + 1 → Settled m) : Settled n := by
  intro p v trimmed json left right
  have once := (Value.isJson_parts json).1
  rw [trimmed.soften_eq_iff json left right, softenFields_eq_iff trimmed.sublist_keys once]
  constructor
  · intro none key w after
    cases before : Keyed.find? p.parts key with
    | none => exact absurd ((Changed.added_iff before after).mpr rfl) (none [key])
    | some q =>
      have part := trimmed.part_of_both before after
      have unchanged (rest : List String) : ¬ Changed n p v (key :: rest) := none (key :: rest)
      exact ⟨q, rfl, (not_changed_part_iff deeper before after part
        (Value.isJson_part json after)).mp unchanged⟩
  · intro each place changed
    obtain ⟨key, rest, rfl⟩ := changed.exists_cons
    obtain ⟨w, after⟩ : ∃ w, Keyed.find? v.parts key = some w := by
      obtain ⟨change, h⟩ := changed
      rcases h.present with there | there
      · obtain ⟨q, before⟩ := Option.isSome_iff_exists.mp there
        obtain ⟨w, after, _⟩ := trimmed.part before
        exact ⟨w, after⟩
      · exact Option.isSome_iff_exists.mp there
    obtain ⟨q, before, softened⟩ := each key w after
    have part := trimmed.part_of_both before after
    exact (not_changed_part_iff deeper before after part (Value.isJson_part json after)).mpr
      softened rest changed

/-- **No change.** From a trimmed container to the given one nothing is changed if and
only if both are the same once empty lists are read as empty mappings, as far down as
containers are walked. -/
theorem not_changed_iff (n : Nat) : Settled n := by
  induction n with
  | zero => exact settled_of_deeper fun m none => by cases none
  | succ n ih =>
    refine settled_of_deeper fun m same => ?_
    cases same
    exact ih

end Diff
end Permit

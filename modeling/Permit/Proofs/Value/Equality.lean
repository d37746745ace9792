import Mathlib.Data.List.Forall2
import Permit.Value.Equality
import Permit.Value.Iteration

namespace Permit.Value

/-! ### Containers -/

theorem equalItems_eq_true {xs ys : List Value} (same : xs.length = ys.length) :
    equalItems xs ys = .ok true ↔ List.Forall₂ (fun x y => x.equal y = .ok true) xs ys := by
  induction xs generalizing ys with
  | nil =>
    obtain rfl : ys = [] := List.length_eq_zero_iff.mp same.symm
    simp [equalItems]
  | cons x xs ih =>
    cases ys with
    | nil => cases same
    | cons y ys =>
      rw [List.forall₂_cons, ← ih (Nat.succ.inj same), equalItems]
      cases x.equal y with
      | error refusal => simp [bind, Except.bind]
      | ok b => cases b <;> simp [bind, Except.bind, pure, Except.pure]

theorem isContainer_of_items? {v : Value} {items : List Value} (h : v.items? = some items) :
    v.isContainer = true := by
  cases v <;> first | rfl | cases h

/-- Sequences are compared element by element, whatever their types. -/
theorem equal_sequence_eq_true {v w : Value} {xs ys : List Value} (left : v.items? = some xs)
    (right : w.items? = some ys) :
    v.equal w = .ok true ↔ List.Forall₂ (fun x y => x.equal y = .ok true) xs ys := by
  have compared : v.equal w = if xs.length = ys.length then equalItems xs ys else .ok false := by
    cases v with
    | list _ | tuple _ =>
      cases left
      simp only [equal, right]
    | _ => cases left
  rw [compared]
  by_cases same : xs.length = ys.length
  · simp only [same, if_true, equalItems_eq_true same]
  · simp only [same, if_false, Except.ok.injEq, Bool.false_eq_true, false_iff]
    exact fun all => same all.length_eq

theorem equalEntries_eq_true {xs ys : List (Value × Value)} :
    equalEntries xs ys = .ok true ↔
      ∀ e ∈ xs, ∃ y, find? ys e.1 = some y ∧ e.2.equal y = .ok true := by
  induction xs with
  | nil => simp [equalEntries]
  | cons e xs ih =>
    rw [List.forall_mem_cons, ← ih, equalEntries]
    cases find? ys e.1 with
    | none => simp
    | some y =>
      simp only [Option.some.injEq, exists_eq_left']
      cases e.2.equal y with
      | error refusal => simp [bind, Except.bind]
      | ok b => cases b <;> simp [bind, Except.bind, pure, Except.pure]

theorem equal_map_eq_true {xs ys : List (Value × Value)} :
    (map xs).equal (map ys) = .ok true ↔
      xs.length = ys.length ∧ ∀ e ∈ xs, ∃ y, find? ys e.1 = some y ∧ e.2.equal y = .ok true := by
  have test : (decide (xs.length = ys.length) && keysWithin xs ys) = true ↔
      xs.length = ys.length ∧ ∀ e ∈ xs, (find? ys e.1).isSome := by
    rw [Bool.and_eq_true, decide_eq_true_iff, keysWithin, List.all_eq_true]
  rw [equal]
  split
  case isTrue passes =>
    rw [equalEntries_eq_true]
    exact (and_iff_right (test.mp passes).1).symm
  case isFalse fails =>
    refine iff_of_false (by simp) ?_
    rintro ⟨same, each⟩
    refine fails (test.mpr ⟨same, fun e inside => ?_⟩)
    obtain ⟨y, found, _⟩ := each e inside
    rw [found]
    rfl

/-! ### Keys -/

theorem sameNumber_self (x : Number.Binary64) : sameNumber (.float x) (.float x) = true := by
  cases x with
  | nan origin => simp [sameNumber]
  | infinite negative => simp [sameNumber, Number.Binary64.eq, Number.Binary64.compare?]
  | finite negative mantissa exponent =>
    simp [sameNumber, Number.Binary64.eq, Number.Binary64.compare?, Number.Binary64.compareRatio]

mutual

/-- A value that may be a key is the same key as itself. -/
theorem sameKey_self : ∀ (key : Value), key.unkeyable? = none → sameKey key key = true
  | .null, _ => rfl
  | .bool _, _ | .int _, _ => by simp [sameKey, asNumber, sameNumber]
  | .float x, _ => by simp only [sameKey, asNumber, sameNumber_self]
  | .text _, _ | .bytes _, _ | .renderable _ _, _ => by simp [sameKey]
  | .object _ .bare _, _ => by simp [sameKey]
  | .tuple items, h => by
    simp only [unkeyable?] at h
    simp only [sameKey, sameKeys_self items h]

theorem sameKeys_self : ∀ (keys : List Value), unkeyableItem? keys = none →
    sameKeys keys keys = true
  | [], _ => rfl
  | key :: rest, h => by
    rw [unkeyableItem?] at h
    cases own : key.unkeyable? with
    | some name => simp [own] at h
    | none =>
      simp only [own] at h
      simp only [sameKeys, sameKey_self key own, sameKeys_self rest h, Bool.and_self]

end

theorem exists_of_find? {entries : List (Value × Value)} {key v : Value}
    (found : find? entries key = some v) : ∃ k, (k, v) ∈ entries ∧ sameKey k key = true := by
  induction entries with
  | nil => cases found
  | cons entry rest ih =>
    obtain ⟨k, x⟩ := entry
    by_cases same : sameKey k key = true
    · simp only [find?, same, if_true, Option.some.injEq] at found
      exact ⟨k, found ▸ List.mem_cons_self .., same⟩
    · simp only [find?, same, Bool.false_eq_true, if_false] at found
      obtain ⟨k', inside, same'⟩ := ih found
      exact ⟨k', List.mem_cons_of_mem _ inside, same'⟩

theorem eq_text_of_sameKey {key : Value} {name : String}
    (same : sameKey key (.text name) = true) : key = .text name := by
  cases key with
  | text other => rw [eq_of_beq same]
  | bool b => cases b <;> cases same
  | float x => cases x <;> cases same
  | _ => cases same

/-- An entry is found under its key if no key before it is the same one. -/
theorem find?_of_mem {entries : List (Value × Value)} {key v : Value}
    (once : (entries.map (·.1)).Pairwise fun k k' => sameKey k k' = false)
    (keyable : key.unkeyable? = none) (inside : (key, v) ∈ entries) :
    find? entries key = some v := by
  induction entries with
  | nil => cases inside
  | cons entry rest ih =>
    obtain ⟨k, x⟩ := entry
    obtain ⟨first, others⟩ := List.pairwise_cons.mp once
    rcases List.mem_cons.mp inside with same | inside
    · cases same
      simp only [find?, sameKey_self key keyable, if_true]
    · have other : sameKey k key = false :=
        first key (List.mem_map_of_mem (f := (·.1)) inside)
      simp only [find?, other, Bool.false_eq_true, if_false]
      exact ih others inside

/-- Every mapping in a value has keys that may be keys, no two of them the same. -/
inductive WellKeyed : Value → Prop where
  | scalar {v : Value} : v.isContainer = false → WellKeyed v
  | list {items : List Value} : (∀ v ∈ items, WellKeyed v) → WellKeyed (.list items)
  | tuple {items : List Value} : (∀ v ∈ items, WellKeyed v) → WellKeyed (.tuple items)
  | map {entries : List (Value × Value)} :
      (∀ e ∈ entries, e.1.unkeyable? = none) →
      ((entries.map (·.1)).Pairwise fun k k' => sameKey k k' = false) →
      (∀ e ∈ entries, WellKeyed e.2) → WellKeyed (.map entries)

theorem WellKeyed.map_nil : (Value.map []).WellKeyed :=
  .map (fun _ inside => by cases inside) .nil (fun _ inside => by cases inside)

/-- **A value is unchanged from itself.** -/
theorem WellKeyed.equal_self {v : Value} (h : v.WellKeyed) : v.equal v = .ok true := by
  induction h with
  | @scalar v plain =>
    cases v with
    | float x => simp [equal, settle, scalarEqual, sameNumber_self]
    | list _ | tuple _ | map _ => cases plain
    | _ => simp [equal, settle, scalarEqual, sameNumber]
  | list _ ih => exact (equal_sequence_eq_true rfl rfl).mpr (List.forall₂_same.mpr ih)
  | tuple _ ih => exact (equal_sequence_eq_true rfl rfl).mpr (List.forall₂_same.mpr ih)
  | map keyable once _ ih =>
    refine equal_map_eq_true.mpr ⟨rfl, fun e inside => ?_⟩
    exact ⟨e.2, find?_of_mem once (keyable e inside) inside, ih e inside⟩

end Permit.Value

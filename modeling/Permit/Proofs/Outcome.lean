import Mathlib.Data.List.Forall2
import Permit.Keyed

/-!
Computations that may end in a fault: what their end says about the steps.

* `bind_eq_ok_iff`, `bind_eq_error_iff` take a computation apart at its first step;
* `exists_of_mem_mapM`, `exists_of_mem_of_mapM`, `forall₂_of_mapM`: a list of steps ends well with
  the results of the steps, `exists_of_mapM_eq_error`: or in the fault of one of them;
  `mapM_eq_self`: steps that change nothing;
* `bind_ne_error`, `mapM_ne_error`, `mapError_ne_error`: a fault that no step ends in;
* `keys_mapM`, `find?_mapM`: a step that keeps keys, applied to each entry of a list,
  changes no key and is what stands between the values under one key.
-/
namespace Permit

namespace Outcome

variable {ε α β : Type}

theorem bind_eq_ok_iff {x : Except ε α} {f : α → Except ε β} {b : β} :
    (x >>= f) = .ok b ↔ ∃ a, x = .ok a ∧ f a = .ok b := by
  cases x with
  | error e => simp [bind, Except.bind]
  | ok a => simp [bind, Except.bind]

theorem map_eq_ok_iff {x : Except ε α} {f : α → β} {b : β} :
    x.map f = .ok b ↔ ∃ a, x = .ok a ∧ f a = b := by
  cases x with
  | error e => simp [Except.map]
  | ok a => simp [Except.map]

theorem map_exists_ok_iff {x : Except ε α} {f : α → β} :
    (∃ b, x.map f = .ok b) ↔ ∃ a, x = .ok a := by
  simp only [map_eq_ok_iff]
  exact ⟨fun ⟨_, a, done, _⟩ => ⟨a, done⟩, fun ⟨a, done⟩ => ⟨f a, a, done, rfl⟩⟩

theorem mapM_cons_eq_ok_iff {f : α → Except ε β} {x : α} {xs : List α} {out : List β} :
    (x :: xs).mapM f = .ok out ↔ ∃ y ys, f x = .ok y ∧ xs.mapM f = .ok ys ∧ out = y :: ys := by
  rw [List.mapM_cons, bind_eq_ok_iff]
  constructor
  · rintro ⟨y, first, h⟩
    obtain ⟨ys, rest, done⟩ := bind_eq_ok_iff.mp h
    exact ⟨y, ys, first, rest, (Except.ok.inj done).symm⟩
  · rintro ⟨y, ys, first, rest, rfl⟩
    exact ⟨y, first, bind_eq_ok_iff.mpr ⟨ys, rest, rfl⟩⟩

theorem exists_of_mem_mapM {f : α → Except ε β} {xs : List α} {out : List β} {x : α}
    (h : xs.mapM f = .ok out) (inside : x ∈ xs) : ∃ y ∈ out, f x = .ok y := by
  induction xs generalizing out with
  | nil => cases inside
  | cons first rest ih =>
    obtain ⟨y, ys, step, others, rfl⟩ := mapM_cons_eq_ok_iff.mp h
    rcases List.mem_cons.mp inside with rfl | inside
    · exact ⟨y, List.mem_cons_self .., step⟩
    · obtain ⟨z, member, step⟩ := ih others inside
      exact ⟨z, List.mem_cons_of_mem _ member, step⟩

theorem exists_of_mem_of_mapM {f : α → Except ε β} {xs : List α} {out : List β} {y : β}
    (h : xs.mapM f = .ok out) (inside : y ∈ out) : ∃ x ∈ xs, f x = .ok y := by
  induction xs generalizing out with
  | nil =>
    rw [List.mapM_nil] at h
    cases h
    cases inside
  | cons first rest ih =>
    obtain ⟨z, zs, step, others, rfl⟩ := mapM_cons_eq_ok_iff.mp h
    rcases List.mem_cons.mp inside with rfl | inside
    · exact ⟨first, List.mem_cons_self .., step⟩
    · obtain ⟨x, member, step⟩ := ih others inside
      exact ⟨x, List.mem_cons_of_mem _ member, step⟩

/-- What holds of each step holds one by one of what the steps begin and end with. -/
theorem forall₂_of_mapM {f : α → Except ε β} {post : α → β → Prop} {xs : List α} {out : List β}
    (h : xs.mapM f = .ok out) (each : ∀ x ∈ xs, ∀ y, f x = .ok y → post x y) :
    List.Forall₂ post xs out := by
  induction xs generalizing out with
  | nil =>
    rw [List.mapM_nil] at h
    cases h
    exact .nil
  | cons x xs ih =>
    obtain ⟨y, ys, step, others, rfl⟩ := mapM_cons_eq_ok_iff.mp h
    exact .cons (each x (List.mem_cons_self ..) y step)
      (ih others fun x inside => each x (List.mem_cons_of_mem _ inside))

theorem mapError_eq_ok_iff {δ : Type} {x : Except δ α} {g : δ → ε} {a : α} :
    x.mapError g = .ok a ↔ x = .ok a := by
  cases x with
  | error d => simp [Except.mapError]
  | ok b => simp [Except.mapError]

theorem mapError_eq_error_iff {δ : Type} {x : Except δ α} {g : δ → ε} {e : ε} :
    x.mapError g = .error e ↔ ∃ d, x = .error d ∧ g d = e := by
  cases x with
  | error d => simp [Except.mapError]
  | ok b => simp [Except.mapError]

theorem bind_eq_error_iff {x : Except ε α} {f : α → Except ε β} {e : ε} :
    (x >>= f) = .error e ↔ x = .error e ∨ ∃ a, x = .ok a ∧ f a = .error e := by
  cases x with
  | error fault => simp [bind, Except.bind]
  | ok a => simp [bind, Except.bind]

theorem map_eq_error_iff {x : Except ε α} {f : α → β} {e : ε} :
    x.map f = .error e ↔ x = .error e := by
  cases x with
  | error fault => simp [Except.map]
  | ok a => simp [Except.map]

theorem exists_of_mapM_eq_error {f : α → Except ε β} {xs : List α} {e : ε}
    (h : xs.mapM f = .error e) : ∃ x ∈ xs, f x = .error e := by
  induction xs with
  | nil =>
    rw [List.mapM_nil] at h
    cases h
  | cons x xs ih =>
    rw [List.mapM_cons] at h
    rcases bind_eq_error_iff.mp h with first | ⟨y, _, h⟩
    · exact ⟨x, List.mem_cons_self .., first⟩
    · rcases bind_eq_error_iff.mp h with rest | ⟨ys, _, done⟩
      · obtain ⟨other, inside, step⟩ := ih rest
        exact ⟨other, List.mem_cons_of_mem _ inside, step⟩
      · cases done

theorem bind_ne_error {x : Except ε α} {f : α → Except ε β} {e : ε} (first : x ≠ .error e)
    (rest : ∀ a, f a ≠ .error e) : (x >>= f) ≠ .error e := by
  cases x with
  | error fault =>
    rintro ⟨⟩
    exact first rfl
  | ok a => exact rest a

theorem mapM_ne_error {f : α → Except ε β} {e : ε} {xs : List α} (h : ∀ x, f x ≠ .error e) :
    xs.mapM f ≠ .error e := by
  intro failed
  obtain ⟨x, _, own⟩ := exists_of_mapM_eq_error failed
  exact h x own

theorem mapError_ne_error {δ : Type} {x : Except δ α} {g : δ → ε} {e : ε} (h : ∀ d, g d ≠ e) :
    x.mapError g ≠ .error e := by
  cases x with
  | error d =>
    intro same
    exact h d (Except.error.inj same)
  | ok a => rintro ⟨⟩

theorem exists_of_any {x : Except ε α} {test : α → Bool} (h : x.toOption.any test = true) :
    ∃ a, x = .ok a ∧ test a = true := by
  cases x with
  | error e => cases h
  | ok a => exact ⟨a, rfl, h⟩

theorem mapM_exists {f : α → Except ε β} {post : α → β → Prop} {xs : List α}
    (h : ∀ x ∈ xs, ∃ y, f x = .ok y ∧ post x y) :
    ∃ ys, xs.mapM f = .ok ys ∧ List.Forall₂ post xs ys := by
  induction xs with
  | nil => exact ⟨[], List.mapM_nil, .nil⟩
  | cons x xs ih =>
    obtain ⟨y, first, holds⟩ := h x (List.mem_cons_self ..)
    obtain ⟨ys, rest, others⟩ := ih fun x inside => h x (List.mem_cons_of_mem _ inside)
    exact ⟨y :: ys, mapM_cons_eq_ok_iff.mpr ⟨y, ys, first, rest, rfl⟩, .cons holds others⟩

/-- Steps that each end with what they began with change nothing. -/
theorem mapM_eq_self {f : α → Except ε α} {xs : List α} (h : ∀ x ∈ xs, f x = .ok x) :
    xs.mapM f = .ok xs := by
  induction xs with
  | nil => exact List.mapM_nil
  | cons x xs ih =>
    have first := h x (List.mem_cons_self ..)
    have rest := ih fun x inside => h x (List.mem_cons_of_mem _ inside)
    exact mapM_cons_eq_ok_iff.mpr ⟨x, xs, first, rest, rfl⟩

theorem mapM_exists_ok {f : α → Except ε β} {xs : List α} (h : ∀ x ∈ xs, ∃ y, f x = .ok y) :
    ∃ ys, xs.mapM f = .ok ys := by
  have each : ∀ x ∈ xs, ∃ y, f x = .ok y ∧ (fun _ _ => True) x y := fun x inside =>
    (h x inside).imp fun _ step => ⟨step, trivial⟩
  obtain ⟨ys, run, _⟩ := mapM_exists each
  exact ⟨ys, run⟩

theorem mapM_exists_ok_iff {f : α → Except ε β} {xs : List α} :
    (∃ ys, xs.mapM f = .ok ys) ↔ ∀ x ∈ xs, ∃ y, f x = .ok y := by
  constructor
  · rintro ⟨ys, run⟩ x inside
    obtain ⟨y, _, step⟩ := exists_of_mem_mapM run inside
    exact ⟨y, step⟩
  · exact mapM_exists_ok

end Outcome

namespace Keyed

open Outcome

variable {ε κ α β : Type} {f : κ × α → Except ε (κ × β)}

theorem keys_mapM (keeps : ∀ entry out, f entry = .ok out → out.1 = entry.1)
    {entries : List (κ × α)} {out : List (κ × β)} (h : entries.mapM f = .ok out) :
    keys out = keys entries := by
  induction entries generalizing out with
  | nil =>
    rw [List.mapM_nil] at h
    cases h
    rfl
  | cons entry rest ih =>
    obtain ⟨y, ys, first, others, rfl⟩ := mapM_cons_eq_ok_iff.mp h
    have tail : ys.map (·.1) = rest.map (·.1) := ih others
    simp only [keys, List.map_cons, keeps _ _ first, tail]

theorem find?_mapM [DecidableEq κ] (keeps : ∀ entry out, f entry = .ok out → out.1 = entry.1)
    {entries : List (κ × α)} {out : List (κ × β)} (h : entries.mapM f = .ok out)
    {key : κ} {value : β} (found : find? out key = some value) :
    ∃ old, find? entries key = some old ∧ f (key, old) = .ok (key, value) := by
  induction entries generalizing out with
  | nil =>
    rw [List.mapM_nil] at h
    cases h
    cases found
  | cons entry rest ih =>
    obtain ⟨y, ys, first, others, rfl⟩ := mapM_cons_eq_ok_iff.mp h
    obtain ⟨k, old⟩ := entry
    obtain ⟨k', new⟩ := y
    obtain rfl : k' = k := keeps _ _ first
    by_cases same : k' = key
    · subst same
      simp only [find?, if_true, Option.some.injEq] at found
      subst found
      exact ⟨old, by simp [find?], first⟩
    · simp only [find?, same, if_false] at found ⊢
      exact ih others found

end Keyed
end Permit

import Permit.Proofs.Diff.Change

namespace Permit.Diff

open Outcome

/-! ### Keys as texts -/

variable {entries : List (Value × Value)} {seen : List (String × Value)} {key v : Value}
  {name : String}

/-- What is seen under a text is the value of a key that is written so. -/
theorem mem_of_find?_textKeys (run : textKeys entries = .ok seen)
    (found : Keyed.find? seen name = some v) :
    ∃ key, (key, v) ∈ entries ∧ key.display = .ok name := by
  obtain ⟨names, all, rfl⟩ := textKeys_eq_ok_iff.mp run
  obtain ⟨⟨key, w⟩, member, step⟩ :=
    exists_of_mem_of_mapM all (Keyed.mem_of_find?_ofList found)
  obtain ⟨text, shown, same⟩ := bind_eq_ok_iff.mp step
  cases same
  exact ⟨key, member, shown⟩

theorem exists_of_mem_textKeys (run : textKeys entries = .ok seen) (inside : (key, v) ∈ entries) :
    ∃ name, key.display = .ok name ∧ (Keyed.find? seen name).isSome := by
  obtain ⟨names, all, rfl⟩ := textKeys_eq_ok_iff.mp run
  obtain ⟨⟨name, w⟩, member, step⟩ := exists_of_mem_mapM all inside
  obtain ⟨text, shown, same⟩ := bind_eq_ok_iff.mp step
  cases same
  refine ⟨name, shown, ?_⟩
  rw [Keyed.isSome_find?_iff, Keyed.mem_keys_ofList]
  exact List.mem_map_of_mem (f := (·.1)) member

/-! ### No change -/

/-- There is no change to be found between two values. -/
inductive Silent : Value → Value → Prop where
  | same {old new : Value} : old.equal new = .ok true → Silent old new
  | walked {old new : Value} {before after : List (String × Value)} :
      view old = .ok before → view new = .ok after →
      (∀ key, (Keyed.find? before key).isSome ↔ (Keyed.find? after key).isSome) →
      (∀ key was v, Keyed.find? before key = some was → Keyed.find? after key = some v →
        Silent was v) →
      Silent old new

variable {limit depth : Int} {fuel : Nat} {place : List String} {old new : Value}

theorem exists_of_walk {es : List Edit} (run : walk limit fuel place depth old new = .ok es) :
    ∃ before after changed, view old = .ok before ∧ view new = .ok after ∧
      after.mapM (stepAt limit fuel place depth before) = .ok changed ∧
      es = removals place before after ++ changed.flatten := by
  have opened := run
  rw [walk] at opened
  obtain ⟨before, left, opened⟩ := bind_eq_ok_iff.mp opened
  obtain ⟨after, right, _⟩ := bind_eq_ok_iff.mp opened
  rw [viewed, mapError_eq_ok_iff] at left right
  rw [walk_eq_of_view left right] at run
  obtain ⟨changed, steps, rfl⟩ := map_eq_ok_iff.mp run
  exact ⟨before, after, changed, left, right, steps, rfl⟩

/-- At a key where a walk lists nothing, there are two values: unchanged, or walked in their
turn with nothing listed. -/
theorem exists_of_stepAt_nil {before : List (String × Value)} {f : String × Value}
    (run : stepAt limit fuel place depth before f = .ok []) :
    ∃ was, Keyed.find? before f.1 = some was ∧
      (was.equal f.2 = .ok true ∨ ∃ less, fuel = less + 1 ∧
        walk limit less (place ++ [f.1]) (depth + 1) was f.2 = .ok []) := by
  rw [stepAt] at run
  cases found : Keyed.find? before f.1 with
  | none =>
    rw [found] at run
    cases run
  | some was =>
    refine ⟨was, rfl, ?_⟩
    simp only [found] at run
    obtain ⟨same, compared, run⟩ := bind_eq_ok_iff.mp run
    rw [unchanged, mapError_eq_ok_iff] at compared
    cases same with
    | true => exact .inl compared
    | false =>
      simp only [Bool.false_eq_true, if_false] at run
      split at run
      · cases fuel with
        | zero => cases run
        | succ less => exact .inr ⟨less, rfl, run⟩
      · cases run

theorem isSome_of_removals_nil {before after : List (String × Value)}
    (none : removals place before after = []) {key : String}
    (there : (Keyed.find? before key).isSome) : (Keyed.find? after key).isSome := by
  obtain ⟨was, found⟩ := Option.isSome_iff_exists.mp there
  have step := List.filterMap_eq_nil_iff.mp none _ (Keyed.mem_of_find? found)
  by_contra absent
  simp [absent] at step

/-- Where a walk lists nothing there is no change, if so it is wherever it goes on. -/
theorem silent_of_walk_of_deeper
    (deeper : ∀ less place depth was v, fuel = less + 1 →
      walk limit less place depth was v = .ok [] → Silent was v)
    (run : walk limit fuel place depth old new = .ok []) : Silent old new := by
  obtain ⟨before, after, changed, left, right, steps, none⟩ := exists_of_walk run
  obtain ⟨gone, still⟩ := List.append_eq_nil_iff.mp none.symm
  have each {key : String} {v : Value} (found : Keyed.find? after key = some v) :
      ∃ was, Keyed.find? before key = some was ∧ Silent was v := by
    obtain ⟨es, inside, step⟩ := exists_of_mem_mapM steps (Keyed.mem_of_find? found)
    obtain rfl : es = [] := List.flatten_eq_nil_iff.mp still es inside
    obtain ⟨was, there, same | ⟨less, more, run⟩⟩ := exists_of_stepAt_nil step
    · exact ⟨was, there, .same same⟩
    · exact ⟨was, there, deeper _ _ _ _ _ more run⟩
  refine .walked left right (fun key => ⟨isSome_of_removals_nil gone, ?_⟩) ?_
  · intro there
    obtain ⟨v, found⟩ := Option.isSome_iff_exists.mp there
    obtain ⟨was, found', _⟩ := each found
    rw [found']
    rfl
  · intro key was v found found'
    obtain ⟨was', there, silent⟩ := each found'
    cases found.symm.trans there
    exact silent

theorem silent_of_walk : walk limit fuel place depth old new = .ok [] → Silent old new := by
  induction fuel generalizing place depth old new with
  | zero =>
    refine silent_of_walk_of_deeper fun less _ _ _ _ more _ => ?_
    cases more
  | succ fuel ih =>
    refine silent_of_walk_of_deeper fun less _ _ _ _ more run => ?_
    cases more
    exact ih run

/-- **An empty list of changes.** -/
theorem silent_of_between (run : between limit old new = .ok []) : Silent old new := by
  obtain ⟨es, run, none⟩ := map_eq_ok_iff.mp run
  obtain rfl : es = [] := by
    cases es with
    | nil => rfl
    | cons e rest =>
      have inside : e.path ∈ Keyed.keys (collect (e :: rest)) := by
        rw [collect, Keyed.mem_keys_ofList]
        exact List.mem_cons_self ..
      rw [none] at inside
      cases inside
  obtain ⟨same, compared, run⟩ := bind_eq_ok_iff.mp run
  rw [unchanged, mapError_eq_ok_iff] at compared
  cases same with
  | true => exact .same compared
  | false =>
    simp only [Bool.false_eq_true, if_false] at run
    split at run
    · exact silent_of_walk run
    · cases run

end Permit.Diff

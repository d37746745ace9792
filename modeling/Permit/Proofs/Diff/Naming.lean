import Mathlib.Data.Set.Card
import Permit.Proofs.Diff.Pruned
import Permit.Proofs.Diff.Script

namespace Permit.Diff

variable {levels : Nat} {old new : Value} {place : List String}
  {changes : List (String × Change)}

def changedPlaces (levels : Nat) (old new : Value) : Set (List String) :=
  {place | Changed levels old new place}

structure Named (levels : Nat) (old new : Value) (changes : List (String × Change)) : Prop where
  /-- An entry tells the change at a place with its path. -/
  tells : ∀ f ∈ changes, ∃ place, IsChange levels old new place f.2 ∧
    f.1 = Path.ofSegments place
  /-- The path of every changed place has an entry. -/
  covers : ∀ place, Changed levels old new place → Path.ofSegments place ∈ Keyed.keys changes
  once : (Keyed.keys changes).Nodup
  finite : (changedPlaces levels old new).Finite

namespace Named

theorem mem_keys_iff (h : Named levels old new changes) {path : String} :
    path ∈ Keyed.keys changes ↔
      ∃ place, Changed levels old new place ∧ path = Path.ofSegments place := by
  constructor
  · intro inside
    obtain ⟨f, member, rfl⟩ := List.mem_map.mp inside
    obtain ⟨place, change, named⟩ := h.tells f member
    exact ⟨place, ⟨f.2, change⟩, named⟩
  · rintro ⟨place, changed, rfl⟩
    exact h.covers place changed

theorem length_eq (h : Named levels old new changes) :
    changes.length = (Path.ofSegments '' changedPlaces levels old new).ncard := by
  have paths : Path.ofSegments '' changedPlaces levels old new =
      ((Keyed.keys changes).toFinset : Set String) := by
    ext path
    rw [List.coe_toFinset, Set.mem_ofPred_eq, h.mem_keys_iff]
    simp only [Set.mem_image, changedPlaces, Set.mem_ofPred_eq, eq_comm]
  rw [paths, Set.ncard_coe_finset, List.toFinset_card_of_nodup h.once, Keyed.keys,
    List.length_map]

/-- There is one entry for each place if the paths of the places differ. -/
theorem length_eq_iff (h : Named levels old new changes) :
    changes.length = (changedPlaces levels old new).ncard ↔
      Set.InjOn Path.ofSegments (changedPlaces levels old new) := by
  rw [h.length_eq]
  exact Set.ncard_image_iff h.finite

end Named

theorem Changed.dotFree (h : Changed levels old new place) (free : old.DotFree)
    (free' : new.DotFree) : ∀ key ∈ place, Path.DotFree key :=
  h.elim fun _ h => h.dotFree free free'

/-- Under keys without dots an entry is the change at the place that its path names. -/
theorem Named.mem_iff (h : Named levels old new changes) (free : old.DotFree)
    (free' : new.DotFree) {path : String} {change : Change} :
    (path, change) ∈ changes ↔ IsChange levels old new (Path.segments path) change := by
  have read {path : String} {change : Change} (inside : (path, change) ∈ changes) :
      IsChange levels old new (Path.segments path) change := by
    obtain ⟨place, tells, named⟩ := h.tells _ inside
    obtain ⟨key, rest, some⟩ := tells.exists_cons
    have place_read : Path.segments path = place := by
      rw [show path = Path.ofSegments place from named]
      apply Path.segments_ofSegments _ (tells.dotFree free free')
      exact some ▸ List.cons_ne_nil key rest
    rwa [place_read]
  constructor
  · exact read
  · intro tells
    have listed := h.covers _ ⟨change, tells⟩
    rw [Path.ofSegments_segments] at listed
    obtain ⟨⟨other, told⟩, inside, rfl⟩ := List.mem_map.mp listed
    rwa [tells.unique (read inside)]

theorem injOn_ofSegments (free : old.DotFree) (free' : new.DotFree) :
    Set.InjOn Path.ofSegments (changedPlaces levels old new) := by
  have some {place : List String} (changed : Changed levels old new place) : place ≠ [] := by
    obtain ⟨key, rest, rfl⟩ := changed.exists_cons
    exact List.cons_ne_nil key rest
  intro place changed other changed' same
  exact Path.ofSegments_inj (some changed) (some changed') (changed.dotFree free free')
    (Changed.dotFree changed' free free') same

/-- Nothing is changed between values that are unchanged from one another. -/
theorem not_changed_of_equal (hold : old.isJson = true) (hnew : new.isJson = true)
    (same : old.equal new = .ok true) : ¬ Changed levels old new place := by
  intro changed
  obtain ⟨key, rest, rfl⟩ := changed.exists_cons
  -- equal containers have parts under the same keys, and these are unchanged
  have parts := Value.equal_parts hold hnew same key
  cases before : Keyed.find? old.parts key with
  | none =>
    rw [before] at parts
    cases after : Keyed.find? new.parts key with
    | none =>
      obtain ⟨change, h⟩ := changed
      have present := h.present
      rw [before, after] at present
      simp at present
    | some v =>
      rw [after] at parts
      cases parts
  | some was =>
    rw [before] at parts
    cases after : Keyed.find? new.parts key with
    | none =>
      rw [after] at parts
      cases parts
    | some v =>
      rw [after] at parts
      have differ := changed.differ before after
      cases parts with
      | some unchanged =>
        rw [unchanged] at differ
        cases differ

theorem named_collect {es : List Edit}
    (mem : ∀ e, e ∈ es ↔ IsChange levels old new e.place e.change) :
    Named levels old new (collect es) := by
  have listed {place : List String} {change : Change}
      (h : IsChange levels old new place change) : (⟨place, change⟩ : Edit) ∈ es :=
    (mem ⟨place, change⟩).mpr h
  refine ⟨fun f inside => ?_, fun place changed => ?_, Keyed.nodup_keys_ofList _, ?_⟩
  · have found := Keyed.find?_of_mem (Keyed.nodup_keys_ofList _) inside
    obtain ⟨e, member, same⟩ := List.mem_map.mp (Keyed.mem_of_find?_ofList found)
    obtain ⟨path, change⟩ := f
    obtain ⟨rfl, rfl⟩ := Prod.mk.inj same
    exact ⟨e.place, (mem e).mp member, Path.intercalate_dot e.place⟩
  · obtain ⟨change, h⟩ := changed
    rw [collect, Keyed.mem_keys_ofList, Keyed.keys, List.map_map]
    exact List.mem_map.mpr ⟨_, listed h, Path.intercalate_dot place⟩
  · refine (es.map (·.place)).toFinset.finite_toSet.subset ?_
    rintro place ⟨change, h⟩
    rw [List.coe_toFinset]
    exact List.mem_map.mpr ⟨_, listed h, rfl⟩

/-- **Changes by path.** Between two containers of JSON there are changes that name what is
changed, whatever the limit of depth is. -/
theorem between_named (limit : Int) (hold : old.isJson = true) (hnew : new.isJson = true)
    (left : old.isContainer = true) (right : new.isContainer = true) :
    ∃ changes, between limit old new = .ok changes ∧
      Named (limit - 1).toNat old new changes := by
  obtain ⟨same, compared⟩ := Value.equal_json old hold new hnew
  cases same with
  | true =>
    have nowhere : ∀ place, ¬ Changed (limit - 1).toNat old new place :=
      fun place => not_changed_of_equal hold hnew compared
    refine ⟨[], ?_, by simp, fun place changed => absurd changed (nowhere place),
      List.nodup_nil, ?_⟩
    · simp only [between, edits, unchanged, compared]
      rfl
    · exact Set.finite_empty.subset fun place changed => nowhere place changed
  | false =>
    obtain ⟨es, run, mem, _⟩ := edits_isChange limit hold hnew compared left right
    exact ⟨collect es, by rw [between, run]; rfl, named_collect mem⟩

end Permit.Diff

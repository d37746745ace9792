import Permit.Proofs.Outcome
import Permit.Proofs.Value.Place

namespace Permit.Diff

/-- A change between two containers, with `levels` more levels to be walked: a part that
only one of them has, or a differing part, unless both its sides are containers that are
walked in their turn. -/
inductive IsChange : Nat → Value → Value → List String → Change → Prop where
  | removed {levels : Nat} {old new v : Value} {key : String} :
      Keyed.find? old.parts key = some v → Keyed.find? new.parts key = none →
      IsChange levels old new [key] (.removed v)
  | added {levels : Nat} {old new v : Value} {key : String} :
      Keyed.find? old.parts key = none → Keyed.find? new.parts key = some v →
      IsChange levels old new [key] (.added v)
  | replaced {levels : Nat} {old new was v : Value} {key : String} :
      Keyed.find? old.parts key = some was → Keyed.find? new.parts key = some v →
      was.equal v = .ok false →
      ¬ (was.isContainer = true ∧ v.isContainer = true ∧ 0 < levels) →
      IsChange levels old new [key] (.replaced was v)
  | within {levels : Nat} {old new was v : Value} {key : String} {rest : List String}
      {change : Change} :
      Keyed.find? old.parts key = some was → Keyed.find? new.parts key = some v →
      was.equal v = .ok false → was.isContainer = true → v.isContainer = true →
      IsChange levels was v rest change → IsChange (levels + 1) old new (key :: rest) change

variable {levels : Nat} {old new was v : Value} {place rest : List String} {key : String}
  {change : Change}

namespace IsChange

theorem exists_cons (h : IsChange levels old new place change) :
    ∃ key rest, place = key :: rest := by
  cases h <;> exact ⟨_, _, rfl⟩

theorem present (h : IsChange levels old new (key :: rest) change) :
    (Keyed.find? old.parts key).isSome ∨ (Keyed.find? new.parts key).isSome := by
  cases h with
  | removed found absent => exact .inl (by rw [found]; rfl)
  | added absent found => exact .inr (by rw [found]; rfl)
  | replaced _ found => exact .inr (by rw [found]; rfl)
  | within _ found => exact .inr (by rw [found]; rfl)

theorem removed_iff (found : Keyed.find? old.parts key = some v)
    (absent : Keyed.find? new.parts key = none) :
    IsChange levels old new (key :: rest) change ↔ rest = [] ∧ change = .removed v := by
  constructor
  · intro h
    cases h with
    | removed found' _ =>
      rw [found] at found'
      cases found'
      exact ⟨rfl, rfl⟩
    | added absent' _ => rw [found] at absent'; cases absent'
    | replaced _ found' => rw [absent] at found'; cases found'
    | within _ found' => rw [absent] at found'; cases found'
  · rintro ⟨rfl, rfl⟩
    exact .removed found absent

theorem added_iff (absent : Keyed.find? old.parts key = none)
    (found : Keyed.find? new.parts key = some v) :
    IsChange levels old new (key :: rest) change ↔ rest = [] ∧ change = .added v := by
  constructor
  · intro h
    cases h with
    | removed found' _ => rw [absent] at found'; cases found'
    | added _ found' =>
      rw [found] at found'
      cases found'
      exact ⟨rfl, rfl⟩
    | replaced found' => rw [absent] at found'; cases found'
    | within found' => rw [absent] at found'; cases found'
  · rintro ⟨rfl, rfl⟩
    exact .added absent found

/-- Under a key of both, a change tells two differing parts apart: it lists them, or it is
one of the changes between them. -/
theorem both (before : Keyed.find? old.parts key = some was)
    (after : Keyed.find? new.parts key = some v)
    (h : IsChange levels old new (key :: rest) change) :
    was.equal v = .ok false ∧
      ((¬ (was.isContainer = true ∧ v.isContainer = true ∧ 0 < levels) ∧ rest = [] ∧
          change = .replaced was v) ∨
        ((was.isContainer = true ∧ v.isContainer = true) ∧
          ∃ n, levels = n + 1 ∧ IsChange n was v rest change)) := by
  cases h with
  | removed _ absent => rw [after] at absent; cases absent
  | added absent _ => rw [before] at absent; cases absent
  | replaced before' after' differ last =>
    rw [before] at before'
    rw [after] at after'
    cases before'
    cases after'
    exact ⟨differ, .inl ⟨last, rfl, rfl⟩⟩
  | within before' after' differ left right h =>
    rw [before] at before'
    rw [after] at after'
    cases before'
    cases after'
    exact ⟨differ, .inr ⟨⟨left, right⟩, _, rfl, h⟩⟩

theorem replaced_iff (before : Keyed.find? old.parts key = some was)
    (after : Keyed.find? new.parts key = some v) (differ : was.equal v = .ok false)
    (last : ¬ (was.isContainer = true ∧ v.isContainer = true ∧ 0 < levels)) :
    IsChange levels old new (key :: rest) change ↔ rest = [] ∧ change = .replaced was v := by
  constructor
  · intro h
    rcases (h.both before after).2 with ⟨_, ends⟩ | ⟨⟨left, right⟩, n, rfl, _⟩
    · exact ends
    · exact absurd ⟨left, right, Nat.succ_pos n⟩ last
  · rintro ⟨rfl, rfl⟩
    exact .replaced before after differ last

theorem within_iff (before : Keyed.find? old.parts key = some was)
    (after : Keyed.find? new.parts key = some v) (differ : was.equal v = .ok false)
    (left : was.isContainer = true) (right : v.isContainer = true) :
    IsChange (levels + 1) old new (key :: rest) change ↔ IsChange levels was v rest change := by
  constructor
  · intro h
    rcases (h.both before after).2 with ⟨last, _⟩ | ⟨_, n, more, h⟩
    · exact absurd ⟨left, right, Nat.succ_pos _⟩ last
    · cases more
      exact h
  · exact .within before after differ left right

end IsChange

structure Group (levels : Nat) (old new : Value) (place : List String) (key : String)
    (es : List Edit) : Prop where
  mem : ∀ e, e ∈ es ↔ ∃ rest, IsChange levels old new (key :: rest) e.change ∧
    e.place = place ++ key :: rest
  nodup : (es.map (·.place)).Nodup

theorem group_singleton
    (only : ∀ rest other,
      IsChange levels old new (key :: rest) other ↔ rest = [] ∧ other = change) :
    Group levels old new place key [⟨place ++ [key], change⟩] := by
  refine ⟨fun e => ?_, List.nodup_singleton _⟩
  rw [List.mem_singleton]
  constructor
  · rintro rfl
    exact ⟨[], (only _ _).mpr ⟨rfl, rfl⟩, rfl⟩
  · rintro ⟨rest, h, at'⟩
    obtain ⟨rfl, same⟩ := (only _ _).mp h
    obtain ⟨_, _⟩ := e
    rw [Edit.mk.injEq]
    exact ⟨at', same⟩

theorem group_nil (before : Keyed.find? old.parts key = some was)
    (after : Keyed.find? new.parts key = some v) (same : was.equal v = .ok true) :
    Group levels old new place key [] := by
  refine ⟨fun e => ?_, List.nodup_nil⟩
  constructor
  · intro inside
    cases inside
  · rintro ⟨rest, h, _⟩
    have differ := (h.both before after).1
    rw [same] at differ
    cases differ

/-- What only the first of two containers has. -/
def gone (old new : List (String × Value)) : List (String × Value) :=
  old.filter fun f => (Keyed.find? new f.1).isNone

theorem removals_eq (old new : List (String × Value)) :
    removals place old new =
      ((gone old new).map fun f => [⟨place ++ [f.1], .removed f.2⟩]).flatten := by
  induction old with
  | nil => rfl
  | cons f rest ih =>
    obtain ⟨key, v⟩ := f
    simp only [removals, gone, List.filterMap_cons, List.filter_cons] at ih ⊢
    cases found : Keyed.find? new key <;> simp [ih]

variable {groups : List (List Edit)} {entries : List (String × Value)}

theorem mem_groups {e : Edit}
    (h : List.Forall₂ (fun f es => Group levels old new place f.1 es) entries groups) :
    e ∈ groups.flatten ↔ ∃ key ∈ Keyed.keys entries, ∃ rest,
      IsChange levels old new (key :: rest) e.change ∧ e.place = place ++ key :: rest := by
  induction h with
  | nil => simp [Keyed.keys]
  | @cons f es entries groups first _ ih =>
    have keys : Keyed.keys (f :: entries) = f.1 :: Keyed.keys entries := rfl
    rw [List.flatten_cons, List.mem_append, first.mem, ih, keys, List.exists_mem_cons_iff]

/-- Groups of edits at different keys make up a list in which each place stands once. -/
theorem nodup_groups
    (h : List.Forall₂ (fun f es => Group levels old new place f.1 es) entries groups)
    (once : (Keyed.keys entries).Nodup) : (groups.flatten.map (·.place)).Nodup := by
  induction h with
  | nil => exact List.nodup_nil
  | @cons f es entries groups first others ih =>
    have parts := List.nodup_cons.mp once
    rw [List.flatten_cons, List.map_append]
    refine List.Nodup.append first.nodup (ih parts.2) ?_
    intro at' mine theirs
    obtain ⟨e, inside, rfl⟩ := List.mem_map.mp mine
    obtain ⟨e', inside', same⟩ := List.mem_map.mp theirs
    obtain ⟨rest, _, here⟩ := (first.mem e).mp inside
    obtain ⟨key, member, rest', _, there⟩ := (mem_groups others).mp inside'
    rw [here, there, List.append_cancel_left_eq, List.cons.injEq] at same
    rw [same.1] at member
    exact parts.1 member

/-- What a walk does at one key of the second container. -/
def stepAt (limit : Int) (fuel : Nat) (place : List String) (depth : Int)
    (before : List (String × Value)) (f : String × Value) : Except DiffFault (List Edit) :=
  match Keyed.find? before f.1 with
  | none => return [⟨place ++ [f.1], .added f.2⟩]
  | some was => do
    if ← unchanged was f.2 then return []
    else if was.isContainer && f.2.isContainer && depth < limit then
      match fuel with
      | 0 => return [⟨place ++ [f.1], .replaced was f.2⟩]
      | fuel + 1 => walk limit fuel (place ++ [f.1]) (depth + 1) was f.2
    else return [⟨place ++ [f.1], .replaced was f.2⟩]

theorem walk_eq_of_view {limit depth : Int} {fuel : Nat} {before after : List (String × Value)}
    (hold : view old = .ok before) (hnew : view new = .ok after) :
    walk limit fuel place depth old new =
      (after.mapM (stepAt limit fuel place depth before)).map fun changed =>
        removals place before after ++ changed.flatten := by
  unfold walk
  simp only [viewed, hold, hnew]
  cases fuel <;> rfl

theorem walk_eq {limit depth : Int} {fuel : Nat} (hold : old.isJson = true)
    (hnew : new.isJson = true) :
    walk limit fuel place depth old new =
      (new.parts.mapM (stepAt limit fuel place depth old.parts)).map fun changed =>
        removals place old.parts new.parts ++ changed.flatten :=
  walk_eq_of_view (Value.view_json hold) (Value.view_json hnew)

theorem mem_keys_gone {old new : List (String × Value)} :
    key ∈ Keyed.keys (gone old new) ↔ key ∈ Keyed.keys old ∧ key ∉ Keyed.keys new := by
  simp only [Keyed.keys, gone, List.mem_map, List.mem_filter, Option.isNone_iff_eq_none,
    Keyed.find?_eq_none_iff]
  constructor
  · rintro ⟨f, ⟨inside, absent⟩, rfl⟩
    exact ⟨⟨f, inside, rfl⟩, absent⟩
  · rintro ⟨⟨f, inside, rfl⟩, absent⟩
    exact ⟨f, ⟨inside, absent⟩, rfl⟩

theorem nodup_keys_gone_append {old new : List (String × Value)}
    (before : (Keyed.keys old).Nodup) (after : (Keyed.keys new).Nodup) :
    (Keyed.keys (gone old new ++ new)).Nodup := by
  rw [Keyed.keys, List.map_append]
  refine List.Nodup.append (before.sublist (List.Sublist.map _ List.filter_sublist)) after ?_
  intro key inside there
  exact (mem_keys_gone.mp inside).2 there

theorem gone_groups (once : (Keyed.keys old.parts).Nodup) :
    List.Forall₂ (fun f es => Group levels old new place f.1 es) (gone old.parts new.parts)
      ((gone old.parts new.parts).map fun f => [⟨place ++ [f.1], .removed f.2⟩]) := by
  rw [List.forall₂_map_right_iff, List.forall₂_same]
  intro f inside
  obtain ⟨member, absent⟩ := List.mem_filter.mp inside
  rw [Option.isNone_iff_eq_none] at absent
  exact group_singleton fun rest other =>
    IsChange.removed_iff (Keyed.find?_of_mem once member) absent

/-- A walk that lists at each key the changes there lists all changes, each place once. -/
theorem walk_of_groups {limit depth : Int} {fuel : Nat} (hold : old.isJson = true)
    (hnew : new.isJson = true)
    (each : ∀ f ∈ new.parts, ∃ es, stepAt limit fuel place depth old.parts f = .ok es ∧
      Group levels old new place f.1 es) :
    ∃ es, walk limit fuel place depth old new = .ok es ∧
      (∀ e, e ∈ es ↔ ∃ inner, IsChange levels old new inner e.change ∧
        e.place = place ++ inner) ∧
      (es.map (·.place)).Nodup := by
  have before := (Value.isJson_parts hold).1
  have after := (Value.isJson_parts hnew).1
  obtain ⟨changed, run, groups⟩ := Outcome.mapM_exists each
  have all := List.rel_append (@gone_groups levels old new place before) groups
  rw [walk_eq hold hnew, run, removals_eq]
  simp only [Except.map, ← List.flatten_append]
  refine ⟨_, rfl, ?_, nodup_groups all (nodup_keys_gone_append before after)⟩
  intro e
  rw [mem_groups all]
  constructor
  · rintro ⟨key, _, rest, h, here⟩
    exact ⟨key :: rest, h, here⟩
  · rintro ⟨inner, h, here⟩
    obtain ⟨key, rest, rfl⟩ := h.exists_cons
    refine ⟨key, ?_, rest, h, here⟩
    rw [Keyed.keys, List.map_append, List.mem_append]
    by_cases there : key ∈ Keyed.keys new.parts
    · exact .inr there
    · have present := h.present
      rw [Keyed.isSome_find?_iff, Keyed.isSome_find?_iff] at present
      exact .inl (mem_keys_gone.mpr ⟨present.resolve_right there, there⟩)

/-- **The changes that are found.** A walk through two containers of JSON, with fuel for
every level of the second, lists their changes, each place once. -/
theorem walk_isChange {limit : Int} {fuel : Nat} : ∀ {place : List String} {depth : Int}
    {old new : Value}, old.isJson = true → new.isJson = true → new.height ≤ fuel →
    ∃ es, walk limit fuel place depth old new = .ok es ∧
      (∀ e, e ∈ es ↔ ∃ inner, IsChange (limit - depth).toNat old new inner e.change ∧
        e.place = place ++ inner) ∧
      (es.map (·.place)).Nodup := by
  induction fuel with
  | zero =>
    intro place depth old new hold hnew room
    refine walk_of_groups hold hnew fun f inside => ?_
    have lower := Value.height_part (Keyed.find?_of_mem (Value.isJson_parts hnew).1 inside)
    omega
  | succ fuel ih =>
    intro place depth old new hold hnew room
    refine walk_of_groups hold hnew fun f inside => ?_
    have after := Keyed.find?_of_mem (Value.isJson_parts hnew).1 inside
    have lower := Value.height_part after
    have hv := Value.isJson_part hnew after
    cases before : Keyed.find? old.parts f.1 with
    | none =>
      refine ⟨[⟨place ++ [f.1], .added f.2⟩], by simp only [stepAt, before]; rfl, ?_⟩
      exact group_singleton fun rest other => IsChange.added_iff before after
    | some was =>
      have hwas := Value.isJson_part hold before
      obtain ⟨same, compared⟩ := Value.equal_json was hwas f.2 hv
      have told : unchanged was f.2 = .ok same := by rw [unchanged, compared]; rfl
      simp only [stepAt, before, told]
      cases same with
      | true => exact ⟨[], rfl, group_nil before after compared⟩
      | false =>
        by_cases deeper : was.isContainer = true ∧ f.2.isContainer = true ∧ depth < limit
        · obtain ⟨left, right, room⟩ := deeper
          obtain ⟨es, run, mem, nodup⟩ :=
            @ih (place ++ [f.1]) (depth + 1) was f.2 hwas hv (by omega)
          refine ⟨es, ?_, ?_, nodup⟩
          · simp [left, right, room, run, bind, Except.bind]
          · intro e
            have level : (limit - depth).toNat = (limit - (depth + 1)).toNat + 1 := by omega
            simp only [mem e, level, IsChange.within_iff before after compared left right,
              List.append_assoc, List.singleton_append]
        · refine ⟨[⟨place ++ [f.1], .replaced was f.2⟩], ?_, ?_⟩
          · have test : (was.isContainer && f.2.isContainer && decide (depth < limit)) = false := by
              rw [← Bool.not_eq_true, Bool.and_eq_true, Bool.and_eq_true, decide_eq_true_iff,
                and_assoc]
              exact deeper
            simp [test, bind, Except.bind, pure, Except.pure]
          · refine group_singleton fun rest other =>
              IsChange.replaced_iff before after compared ?_
            rintro ⟨left, right, more⟩
            exact deeper ⟨left, right, by omega⟩

/-- The edits between two containers of JSON that differ are their changes, each place once. -/
theorem edits_isChange (limit : Int) (hold : old.isJson = true) (hnew : new.isJson = true)
    (differ : old.equal new = .ok false) (left : old.isContainer = true)
    (right : new.isContainer = true) :
    ∃ es, edits limit old new = .ok es ∧
      (∀ e, e ∈ es ↔ IsChange (limit - 1).toNat old new e.place e.change) ∧
      (es.map (·.place)).Nodup := by
  obtain ⟨es, run, mem, once⟩ :=
    @walk_isChange limit new.height [] 1 old new hold hnew (Nat.le_refl _)
  refine ⟨es, ?_, fun e => ?_, once⟩
  · simp only [edits, unchanged, differ, left, right, run]
    rfl
  · rw [mem e]
    simp

end Permit.Diff

/-!
Entries in order under keys. A key stands once, where it was put first; putting it again
replaces its value and leaves it in its place.

* `find?_put` says what putting does to the value under every key, `put_of_find?` that putting
  what is there already does nothing;
* `mem_of_find?`, `find?_of_mem`: what is found is an entry, and every entry is found if
  no key stands twice;
* `keys_put` says what it does to the order of keys, `nodup_keys_put` that none comes to
  stand twice;
* `nodup_keys_ofList`, `mem_keys_ofList`, `mem_of_find?_ofList`, `ofList_of_nodup`: what is
  left of a list once each key stands once.
-/
namespace Permit.Keyed

variable {κ α : Type} [DecidableEq κ]

def find? (entries : List (κ × α)) (key : κ) : Option α :=
  match entries with
  | [] => none
  | (k, v) :: rest => if k = key then some v else find? rest key

/-- Sets the value under a key: in place if the key is there, at the end if not. -/
def put (entries : List (κ × α)) (key : κ) (value : α) : List (κ × α) :=
  match entries with
  | [] => [(key, value)]
  | (k, v) :: rest => if k = key then (k, value) :: rest else (k, v) :: put rest key value

def putAll (entries added : List (κ × α)) : List (κ × α) :=
  added.foldl (fun all entry => put all entry.1 entry.2) entries

/-- The entries of a list, each key once and with its last value. -/
def ofList (entries : List (κ × α)) : List (κ × α) := putAll [] entries

def keys (entries : List (κ × α)) : List κ := entries.map (·.1)

theorem find?_put (entries : List (κ × α)) (key other : κ) (value : α) :
    find? (put entries key value) other =
      if key = other then some value else find? entries other := by
  induction entries with
  | nil => simp [put, find?]
  | cons entry rest ih =>
    obtain ⟨k, v⟩ := entry
    by_cases hk : k = key
    · subst hk
      by_cases ho : k = other <;> simp [put, find?, ho]
    · by_cases ho : k = other
      · subst ho; simp [put, find?, hk, Ne.symm hk]
      · simp [put, find?, hk, ho, ih]

theorem find?_put_self (entries : List (κ × α)) (key : κ) (value : α) :
    find? (put entries key value) key = some value := by
  simp [find?_put]

theorem find?_put_other (entries : List (κ × α)) (key other : κ) (value : α) (h : other ≠ key) :
    find? (put entries key value) other = find? entries other := by
  simp [find?_put, Ne.symm h]

theorem isSome_find?_iff (entries : List (κ × α)) (key : κ) :
    (find? entries key).isSome ↔ key ∈ keys entries := by
  induction entries with
  | nil => simp [find?, keys]
  | cons entry rest ih =>
    obtain ⟨k, v⟩ := entry
    by_cases h : k = key
    · simp [find?, keys, h]
    · have ih : (find? rest key).isSome ↔ key ∈ rest.map (·.1) := ih
      simp only [find?, keys, h, if_false, ih, List.map_cons, List.mem_cons, Ne.symm h, false_or]

theorem keys_put (entries : List (κ × α)) (key : κ) (value : α) :
    keys (put entries key value) =
      if key ∈ keys entries then keys entries else keys entries ++ [key] := by
  induction entries with
  | nil => simp [put, keys]
  | cons entry rest ih =>
    obtain ⟨k, v⟩ := entry
    by_cases h : k = key
    · subst h; simp [put, keys]
    · simp only [keys] at ih
      by_cases hm : key ∈ rest.map (·.1) <;>
        simp [put, keys, h, Ne.symm h, ih, hm]

theorem find?_eq_none_iff (entries : List (κ × α)) (key : κ) :
    find? entries key = none ↔ key ∉ keys entries := by
  rw [← isSome_find?_iff, Option.not_isSome_iff_eq_none]

theorem mem_of_find? {entries : List (κ × α)} {key : κ} {value : α}
    (h : find? entries key = some value) : (key, value) ∈ entries := by
  induction entries with
  | nil => cases h
  | cons entry rest ih =>
    obtain ⟨k, v⟩ := entry
    by_cases hk : k = key
    · subst hk
      simp only [find?, if_true, Option.some.injEq] at h
      exact h ▸ List.mem_cons_self ..
    · simp only [find?, hk, if_false] at h
      exact List.mem_cons_of_mem _ (ih h)

theorem find?_of_mem {entries : List (κ × α)} {key : κ} {value : α}
    (once : (keys entries).Nodup) (h : (key, value) ∈ entries) :
    find? entries key = some value := by
  induction entries with
  | nil => cases h
  | cons entry rest ih =>
    obtain ⟨k, v⟩ := entry
    have parts := List.nodup_cons.mp once
    rcases List.mem_cons.mp h with same | inside
    · cases same
      simp [find?]
    · have other : k ≠ key := fun e => parts.1 (e ▸ List.mem_map_of_mem (f := (·.1)) inside)
      simp only [find?, other, if_false]
      exact ih parts.2 inside

/-- Entries with the same keys in the same order are the same if their values are. -/
theorem ext_of_keys {xs ys : List (κ × α)} (same : keys xs = keys ys) (once : (keys ys).Nodup)
    (values : ∀ key x y, find? xs key = some x → find? ys key = some y → x = y) : xs = ys := by
  induction xs generalizing ys with
  | nil =>
    cases ys with
    | nil => rfl
    | cons _ _ => cases same
  | cons entry rest ih =>
    cases ys with
    | nil => cases same
    | cons other rest' =>
      obtain ⟨k, x⟩ := entry
      obtain ⟨k', y⟩ := other
      have heads : k = k' := (List.cons.inj same).1
      have tails : keys rest = keys rest' := (List.cons.inj same).2
      subst heads
      have parts : k ∉ keys rest' ∧ (keys rest').Nodup := List.nodup_cons.mp once
      obtain rfl : x = y := values k x y (by simp [find?]) (by simp [find?])
      congr 1
      refine ih tails parts.2 ?_
      intro key x' y' found found'
      have other : k ≠ key := by
        rintro rfl
        exact parts.1 ((isSome_find?_iff rest' k).mp (by rw [found']; rfl))
      refine values key x' y' ?_ ?_
      · simpa only [find?, other, if_false] using found
      · simpa only [find?, other, if_false] using found'

theorem put_of_absent {entries : List (κ × α)} {key : κ} (value : α)
    (h : find? entries key = none) : put entries key value = entries ++ [(key, value)] := by
  induction entries with
  | nil => rfl
  | cons entry rest ih =>
    obtain ⟨k, v⟩ := entry
    by_cases hk : k = key
    · simp [find?, hk] at h
    · simp only [find?, hk, if_false] at h
      simp only [put, hk, if_false, ih h, List.cons_append]

theorem put_of_find? {entries : List (κ × α)} {key : κ} {value : α}
    (h : find? entries key = some value) : put entries key value = entries := by
  induction entries with
  | nil => cases h
  | cons entry rest ih =>
    obtain ⟨k, v⟩ := entry
    by_cases hk : k = key
    · simp only [find?, hk, if_true, Option.some.injEq] at h
      simp only [put, hk, if_true, h]
    · simp only [find?, hk, if_false] at h
      simp only [put, hk, if_false, ih h]

theorem nodup_keys_put (entries : List (κ × α)) (key : κ) (value : α)
    (h : (keys entries).Nodup) : (keys (put entries key value)).Nodup := by
  rw [keys_put]
  split
  · exact h
  · rename_i absent
    rw [List.nodup_append]
    refine ⟨h, by simp, ?_⟩
    intro a ha b hb
    rw [List.mem_singleton.mp hb]
    exact fun e => absent (e ▸ ha)

theorem putAll_of_nodup {entries added : List (κ × α)}
    (once : (keys (entries ++ added)).Nodup) : putAll entries added = entries ++ added := by
  induction added generalizing entries with
  | nil => simp [putAll]
  | cons entry rest ih =>
    obtain ⟨key, v⟩ := entry
    have once' : (keys ((entries ++ [(key, v)]) ++ rest)).Nodup := by
      simpa only [List.append_assoc, List.singleton_append] using once
    have absent : find? entries key = none := by
      rw [find?_eq_none_iff]
      intro inside
      rw [keys, List.map_append, List.nodup_append] at once
      exact once.2.2 key inside key (List.mem_cons_self ..) rfl
    have rest := ih once'
    rw [List.append_assoc, List.singleton_append] at rest
    rw [← rest, ← put_of_absent v absent]
    rfl

theorem ofList_of_nodup {entries : List (κ × α)} (once : (keys entries).Nodup) :
    ofList entries = entries := putAll_of_nodup once

theorem nodup_keys_putAll {entries : List (κ × α)} (once : (keys entries).Nodup)
    (added : List (κ × α)) : (keys (putAll entries added)).Nodup := by
  induction added generalizing entries with
  | nil => exact once
  | cons entry rest ih => exact ih (nodup_keys_put _ _ _ once)

theorem nodup_keys_ofList (entries : List (κ × α)) : (keys (ofList entries)).Nodup := by
  have none : (keys ([] : List (κ × α))).Nodup := List.nodup_nil
  exact nodup_keys_putAll none entries

theorem mem_keys_putAll {entries added : List (κ × α)} {key : κ} :
    key ∈ keys (putAll entries added) ↔ key ∈ keys entries ∨ key ∈ keys added := by
  induction added generalizing entries with
  | nil => simp [putAll, keys]
  | cons entry rest ih =>
    have step : putAll entries (entry :: rest) = putAll (put entries entry.1 entry.2) rest := rfl
    rw [step, ih, ← isSome_find?_iff, find?_put]
    by_cases same : entry.1 = key
    · simp [same, keys]
    · simp [same, isSome_find?_iff, keys, Ne.symm same]

theorem mem_keys_ofList {entries : List (κ × α)} {key : κ} :
    key ∈ keys (ofList entries) ↔ key ∈ keys entries := by
  rw [ofList, mem_keys_putAll]
  simp [keys]

theorem mem_of_find?_putAll {entries added : List (κ × α)} {key : κ} {value : α}
    (found : find? (putAll entries added) key = some value) :
    (key, value) ∈ added ∨ find? entries key = some value := by
  induction added generalizing entries with
  | nil => exact .inr found
  | cons entry rest ih =>
    obtain ⟨k, v⟩ := entry
    rcases ih found with inside | found
    · exact .inl (List.mem_cons_of_mem _ inside)
    · rw [find?_put] at found
      by_cases same : k = key
      · subst same
        simp only [if_true, Option.some.injEq] at found
        exact .inl (found ▸ List.mem_cons_self ..)
      · simp only [same, if_false] at found
        exact .inr found

/-- What is found in what is left of a list is an entry of the list. -/
theorem mem_of_find?_ofList {entries : List (κ × α)} {key : κ} {value : α}
    (found : find? (ofList entries) key = some value) : (key, value) ∈ entries :=
  (mem_of_find?_putAll found).resolve_right (by simp [find?])

end Permit.Keyed

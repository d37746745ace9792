import Mathlib.Data.List.Perm.Subperm
import Permit.Diff
import Permit.Proofs.Outcome
import Permit.Proofs.Path.Segments
import Permit.Proofs.Value.Json

namespace Permit

namespace Diff

theorem find?_positions {items : List Value} {start index : Nat} :
    Keyed.find? (positions start items) (Number.natText (start + index)) = items[index]? := by
  induction items generalizing start index with
  | nil => rfl
  | cons v rest ih =>
    cases index with
    | zero => simp [positions, Keyed.find?]
    | succ index =>
      have other : Number.natText start ≠ Number.natText (start + (index + 1)) := by
        intro same
        have := Number.natText_inj same
        omega
      have next := @ih (start + 1) index
      rw [show start + 1 + index = start + (index + 1) by omega] at next
      simp [positions, Keyed.find?, other, next]

theorem exists_index_of_mem_positions {items : List Value} {start : Nat} {f : String × Value}
    (inside : f ∈ positions start items) :
    ∃ index, f.1 = Number.natText (start + index) ∧ items[index]? = some f.2 := by
  induction items generalizing start with
  | nil => cases inside
  | cons v rest ih =>
    rcases List.mem_cons.mp inside with rfl | inside
    · exact ⟨0, rfl, rfl⟩
    · obtain ⟨index, key, found⟩ := ih inside
      exact ⟨index + 1, by rw [key, Nat.add_right_comm, Nat.add_assoc], found⟩

theorem keys_positions (start : Nat) (items : List Value) :
    Keyed.keys (positions start items) = (List.range' start items.length).map Number.natText := by
  induction items generalizing start with
  | nil => rfl
  | cons v rest ih =>
    rw [List.length_cons, List.range'_succ, List.map_cons, ← ih (start + 1)]
    rfl

theorem map_snd_positions (start : Nat) (items : List Value) :
    (positions start items).map (·.2) = items := by
  induction items generalizing start with
  | nil => rfl
  | cons v rest ih => exact congrArg (v :: ·) (ih (start + 1))

theorem nodup_keys_positions {items : List Value} :
    ∀ start, (Keyed.keys (positions start items)).Nodup := by
  induction items with
  | nil => exact fun _ => List.nodup_nil
  | cons v rest ih =>
    intro start
    refine List.nodup_cons.mpr ⟨?_, ih (start + 1)⟩
    intro inside
    obtain ⟨f, member, key⟩ := List.mem_map.mp inside
    obtain ⟨index, numeral, _⟩ := exists_index_of_mem_positions member
    have := Number.natText_inj (numeral.symm.trans key)
    omega

theorem view_of_items? {v : Value} {items : List Value} (sequence : v.items? = some items) :
    view v = .ok (positions 0 items) := by
  cases v with
  | list _ | tuple _ =>
    cases sequence
    rfl
  | _ => cases sequence

/-- Entries in their order, with keys written as text. -/
def written (entries : List (Value × Value)) :
    Except Number.NumeralFault (List (String × Value)) :=
  entries.mapM fun (key, v) => do return (← key.display, v)

/-- The keys of a mapping are written as texts first, and those with one text made one. -/
theorem textKeys_eq_ok_iff {entries : List (Value × Value)} {seen : List (String × Value)} :
    textKeys entries = .ok seen ↔
      ∃ names, written entries = .ok names ∧ Keyed.ofList names = seen := by
  have all (start : List (String × Value)) :
      entries.foldlM (fun seen entry => do
          return Keyed.put seen (← entry.1.display) entry.2) start = .ok seen ↔
        ∃ names, written entries = .ok names ∧ Keyed.putAll start names = seen := by
    induction entries generalizing start with
    | nil =>
      constructor
      · rintro ⟨⟩
        exact ⟨[], List.mapM_nil, rfl⟩
      · rintro ⟨names, run, rfl⟩
        cases run
        rfl
    | cons entry rest ih =>
      rw [List.foldlM_cons, Outcome.bind_eq_ok_iff]
      constructor
      · rintro ⟨next, step, run⟩
        obtain ⟨name, shown, put⟩ := Outcome.bind_eq_ok_iff.mp step
        cases put
        obtain ⟨names, others, rfl⟩ := (ih _).mp run
        refine ⟨(name, entry.2) :: names, Outcome.mapM_cons_eq_ok_iff.mpr ?_, rfl⟩
        exact ⟨_, names, Outcome.bind_eq_ok_iff.mpr ⟨name, shown, rfl⟩, others, rfl⟩
      · rintro ⟨names, run, rfl⟩
        obtain ⟨_, names, step, others, rfl⟩ := Outcome.mapM_cons_eq_ok_iff.mp run
        obtain ⟨name, shown, same⟩ := Outcome.bind_eq_ok_iff.mp step
        cases same
        exact ⟨_, Outcome.bind_eq_ok_iff.mpr ⟨name, shown, rfl⟩, (ih _).mpr ⟨names, others, rfl⟩⟩
  exact all []

theorem written_fields (fields : List (String × Value)) :
    written (fields.map fun f => (.text f.1, f.2)) = .ok fields := by
  induction fields with
  | nil => exact List.mapM_nil
  | cons f rest ih => exact Outcome.mapM_cons_eq_ok_iff.mpr ⟨f, rest, rfl, ih, rfl⟩

theorem textKeys_fields (fields : List (String × Value)) :
    textKeys (fields.map fun f => (.text f.1, f.2)) = .ok (Keyed.ofList fields) :=
  textKeys_eq_ok_iff.mpr ⟨fields, written_fields fields, rfl⟩

end Diff

namespace Value

/-- The parts of a container: the entries under texts, or the elements under the numerals
of their positions. -/
def parts : Value → List (String × Value)
  | .map entries =>
    entries.filterMap fun
      | (.text name, v) => some (name, v)
      | _ => none
  | .list items => Diff.positions 0 items
  | .tuple items => Diff.positions 0 items
  | _ => []

def at? (v : Value) : List String → Option Value
  | [] => some v
  | key :: place => (Keyed.find? v.parts key).bind fun part => part.at? place

theorem parts_record (fields : List (String × Value)) : (record fields).parts = fields := by
  simp [record, parts, List.filterMap_map]

theorem parts_of_scalar {v : Value} (plain : v.isContainer = false) : v.parts = [] := by
  cases v <;> first | rfl | cases plain

variable {v part : Value} {key : String}

theorem at?_cons {place : List String} {x : Value} :
    v.at? (key :: place) = some x ↔
      ∃ part, Keyed.find? v.parts key = some part ∧ part.at? place = some x := by
  rw [at?, Option.bind_eq_some_iff]

theorem at?_append {place : List String} {x : Value} (held : v.at? place = some x)
    (rest : List String) : v.at? (place ++ rest) = x.at? rest := by
  induction place generalizing v with
  | nil =>
    cases held
    rfl
  | cons key place ih =>
    obtain ⟨part, found, held⟩ := at?_cons.mp held
    rw [List.cons_append, at?, found, Option.bind_some, ih held]

theorem exists_find?_of_mem {items : List Value} (inside : v ∈ items) :
    ∃ key, Keyed.find? (Value.list items).parts key = some v := by
  obtain ⟨index, given⟩ := List.mem_iff_getElem?.mp inside
  have found : Keyed.find? (Diff.positions 0 items) (Number.natText (0 + index)) = some v :=
    Diff.find?_positions.trans given
  exact ⟨_, found⟩

/-- No key in a value has a dot. -/
def DotFree (v : Value) : Prop :=
  ∀ place x, v.at? place = some x → ∀ key ∈ place, Path.DotFree key

theorem DotFree.of_parts {v : Value}
    (h : ∀ f ∈ v.parts, Path.DotFree f.1 ∧ f.2.DotFree) : v.DotFree := by
  intro place x held key inside
  cases place with
  | nil => cases inside
  | cons first rest =>
    obtain ⟨part, found, held⟩ := at?_cons.mp held
    obtain ⟨free, below⟩ := h _ (Keyed.mem_of_find? found)
    rcases List.mem_cons.mp inside with rfl | inside
    · exact free
    · exact below rest x held key inside

theorem DotFree.list {items : List Value} (h : ∀ v ∈ items, v.DotFree) :
    (Value.list items).DotFree := by
  apply DotFree.of_parts
  intro f inside
  obtain ⟨index, key, held⟩ := Diff.exists_index_of_mem_positions inside
  exact ⟨key ▸ Number.dotFree_natText _, h f.2 (List.mem_of_getElem? held)⟩

theorem DotFree.of_scalar {v : Value} (plain : v.isContainer = false) : v.DotFree := by
  refine .of_parts fun f inside => ?_
  rw [parts_of_scalar plain] at inside
  cases inside

theorem isJson_parts (h : v.isJson = true) :
    (Keyed.keys v.parts).Nodup ∧ ∀ f ∈ v.parts, f.2.isJson = true := by
  cases v, h using isJson_induction with
  | scalar v h plain =>
    rw [parts_of_scalar plain]
    exact ⟨List.nodup_nil, fun f inside => by cases inside⟩
  | list items parts _ =>
    refine ⟨Diff.nodup_keys_positions 0, fun f inside => ?_⟩
    obtain ⟨index, _, found⟩ := Diff.exists_index_of_mem_positions inside
    exact parts f.2 (List.mem_of_getElem? found)
  | record fields once parts _ =>
    rw [parts_record]
    exact ⟨once, parts⟩

theorem isJson_part (h : v.isJson = true) (found : Keyed.find? v.parts key = some part) :
    part.isJson = true := (isJson_parts h).2 _ (Keyed.mem_of_find? found)

theorem isJson_at {place : List String} {x : Value} (h : v.isJson = true)
    (held : v.at? place = some x) : x.isJson = true := by
  induction place generalizing v with
  | nil =>
    cases held
    exact h
  | cons key place ih =>
    obtain ⟨part, found, held⟩ := at?_cons.mp held
    exact ih (isJson_part h found) held

theorem isContainer_of_find? (found : Keyed.find? v.parts key = some part) :
    v.isContainer = true := by
  cases plain : v.isContainer with
  | true => rfl
  | false =>
    rw [parts_of_scalar plain] at found
    cases found

/-- Nothing lies below a scalar. -/
theorem eq_nil_of_at? {place : List String} {x : Value} (plain : v.isContainer = false)
    (held : v.at? place = some x) : place = [] := by
  cases place with
  | nil => rfl
  | cons key place =>
    obtain ⟨part, found, _⟩ := at?_cons.mp held
    rw [isContainer_of_find? found] at plain
    cases plain

theorem height_le_itemsHeight {items : List Value} (inside : v ∈ items) :
    v.height ≤ itemsHeight items := by
  induction items with
  | nil => cases inside
  | cons first rest ih =>
    rw [itemsHeight]
    rcases List.mem_cons.mp inside with rfl | inside
    · omega
    · have := ih inside
      omega

theorem height_le_entriesHeight {entries : List (Value × Value)} {key : Value}
    (inside : (key, v) ∈ entries) : v.height ≤ entriesHeight entries := by
  induction entries with
  | nil => cases inside
  | cons first rest ih =>
    obtain ⟨other, w⟩ := first
    rw [entriesHeight]
    rcases List.mem_cons.mp inside with same | inside
    · cases same
      omega
    · have := ih inside
      omega

/-- A part is lower than the whole. -/
theorem height_part (found : Keyed.find? v.parts key = some part) : part.height < v.height := by
  have inside := Keyed.mem_of_find? found
  cases v with
  | map entries =>
    obtain ⟨⟨other, w⟩, member, same⟩ := List.mem_filterMap.mp inside
    cases other with
    | text name =>
      cases same
      have := height_le_entriesHeight member
      simp only [height]
      omega
    | _ => cases same
  | list items =>
    obtain ⟨index, _, held⟩ := Diff.exists_index_of_mem_positions inside
    have lower : part.height ≤ itemsHeight items :=
      height_le_itemsHeight (List.mem_of_getElem? held)
    simp only [height]
    omega
  | tuple items =>
    obtain ⟨index, _, held⟩ := Diff.exists_index_of_mem_positions inside
    have lower : part.height ≤ itemsHeight items :=
      height_le_itemsHeight (List.mem_of_getElem? held)
    simp only [height]
    omega
  | _ => cases inside

/-- The entries of a value of JSON with text keys are its parts. -/
theorem view_json (h : v.isJson = true) : Diff.view v = .ok v.parts := by
  cases v, h using isJson_induction with
  | scalar v h plain => cases v <;> first | rfl | cases plain
  | list items _ _ => rfl
  | record fields once _ _ =>
    rw [parts_record, record, Diff.view, Diff.textKeys_fields, Keyed.ofList_of_nodup once]

/-! ### Unchanged parts -/

theorem isContainer_of_equal {x y : Value} (hx : x.isJson = true) (hy : y.isJson = true)
    (same : x.equal y = .ok true) : x.isContainer = y.isContainer := by
  cases x <;> cases y <;> first
    | rfl
    | cases same
    | exact absurd hx Bool.false_ne_true
    | exact absurd hy Bool.false_ne_true

theorem rel_positions {r : Value → Value → Prop} {xs ys : List Value} (h : List.Forall₂ r xs ys)
    (start : Nat) (key : String) :
    Option.Rel r (Keyed.find? (Diff.positions start xs) key)
      (Keyed.find? (Diff.positions start ys) key) := by
  induction h generalizing start with
  | nil => exact .none
  | cons first _ ih =>
    simp only [Diff.positions, Keyed.find?]
    split
    · exact .some first
    · exact ih (start + 1)

/-- Of two mappings with as many fields, all fields of the first being in the second, the second
has no others. -/
theorem rel_fields {r : Value → Value → Prop} {xs ys : List (String × Value)}
    (long : xs.length = ys.length) (once : (Keyed.keys xs).Nodup)
    (all : ∀ f ∈ xs, ∃ y, Keyed.find? ys f.1 = some y ∧ r f.2 y) (key : String) :
    Option.Rel r (Keyed.find? xs key) (Keyed.find? ys key) := by
  cases found : Keyed.find? xs key with
  | some x =>
    obtain ⟨y, found', related⟩ := all _ (Keyed.mem_of_find? found)
    rw [found']
    exact .some related
  | none =>
    have within : Keyed.keys xs ⊆ Keyed.keys ys := by
      intro name inside
      obtain ⟨f, member, rfl⟩ := List.mem_map.mp inside
      obtain ⟨y, found', _⟩ := all f member
      exact List.mem_map.mpr ⟨_, Keyed.mem_of_find? found', rfl⟩
    have same : (Keyed.keys xs).Perm (Keyed.keys ys) :=
      (once.subperm within).perm_of_length_le (by simp [Keyed.keys, long])
    have absent : key ∉ Keyed.keys ys := by
      rw [← same.mem_iff]
      exact (Keyed.find?_eq_none_iff xs key).mp found
    rw [(Keyed.find?_eq_none_iff ys key).mpr absent]
    exact .none

/-- Values of JSON that are unchanged from one another have the same keys, and unchanged parts
under each. -/
theorem equal_parts {x y : Value} (hx : x.isJson = true) (hy : y.isJson = true)
    (same : x.equal y = .ok true) (key : String) :
    Option.Rel (fun a b => a.equal b = .ok true) (Keyed.find? x.parts key)
      (Keyed.find? y.parts key) := by
  have containers := isContainer_of_equal hx hy same
  cases x, hx using isJson_induction with
  | scalar x hx plain =>
    rw [parts_of_scalar plain, parts_of_scalar (containers ▸ plain)]
    exact .none
  | list xs parts _ =>
    cases y with
    | list ys => exact rel_positions (equal_list_eq_true.mp same) 0 key
    | _ => first | exact absurd hy Bool.false_ne_true | cases same
  | record xs once parts _ =>
    cases y with
    | map entries =>
      obtain ⟨ys, shape⟩ := exists_record_of_isJson hy
      rw [shape] at same ⊢
      obtain ⟨long, all⟩ := equal_record_eq_true.mp same
      rw [parts_record, parts_record]
      exact rel_fields long once all key
    | _ => first | exact absurd hy Bool.false_ne_true | cases same

end Value
end Permit

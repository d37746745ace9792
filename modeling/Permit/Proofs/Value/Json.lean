import Mathlib.Data.List.Nodup
import Permit.Keyed
import Permit.Proofs.Value.Equality

namespace Permit.Value

mutual

/-- Whether a value is one of JSON, down to its last part. -/
def isJson : Value → Bool
  | .null => true
  | .bool _ => true
  | .int _ => true
  | .float _ => true
  | .text _ => true
  | .list items => itemsJson items
  | .map entries => entriesJson entries
  | _ => false

def itemsJson : List Value → Bool
  | [] => true
  | v :: rest => v.isJson && itemsJson rest

def entriesJson : List (Value × Value) → Bool
  | [] => true
  | (key, v) :: rest =>
    match key with
    | .text name => (field? rest name).isNone && v.isJson && entriesJson rest
    | _ => false

end

theorem isJson_list {items : List Value} :
    (Value.list items).isJson = true ↔ ∀ v ∈ items, v.isJson = true := by
  rw [isJson]
  induction items with
  | nil => simp [itemsJson]
  | cons v rest ih => simp [itemsJson, ih]

theorem field?_fields (fields : List (String × Value)) (name : String) :
    field? (fields.map fun f => (.text f.1, f.2)) name = Keyed.find? fields name := by
  induction fields with
  | nil => rfl
  | cons f rest ih =>
    simp only [field?] at ih
    simp only [field?, List.map_cons, find?, sameKey, Keyed.find?, ih, beq_iff_eq]

theorem isJson_record {fields : List (String × Value)} :
    (record fields).isJson = true ↔
      (Keyed.keys fields).Nodup ∧ ∀ f ∈ fields, f.2.isJson = true := by
  rw [record, isJson]
  induction fields with
  | nil => simp [entriesJson, Keyed.keys]
  | cons f rest ih =>
    have absent : (Keyed.find? rest f.1).isNone = true ↔ f.1 ∉ Keyed.keys rest := by
      rw [Option.isNone_iff_eq_none, Keyed.find?_eq_none_iff]
    simp only [List.map_cons, entriesJson, field?_fields, Bool.and_eq_true, absent, ih,
      List.forall_mem_cons, Keyed.keys, List.nodup_cons]
    tauto

theorem exists_record_of_isJson : ∀ {entries : List (Value × Value)},
    (Value.map entries).isJson = true → ∃ fields, Value.map entries = record fields
  | [], _ => ⟨[], rfl⟩
  | (key, v) :: rest, h => by
    cases key with
    | text name =>
      simp only [isJson, entriesJson, Bool.and_eq_true] at h
      have json : (Value.map rest).isJson = true := by
        rw [isJson]
        exact h.2
      obtain ⟨fields, same⟩ := exists_record_of_isJson json
      refine ⟨(name, v) :: fields, ?_⟩
      rw [record, Value.map.injEq] at same
      rw [record, same, List.map_cons]
    | _ => cases h

/-- **Induction over values of JSON.** -/
theorem isJson_induction {motive : (v : Value) → v.isJson = true → Prop}
    (scalar : ∀ v (h : v.isJson = true), v.isContainer = false → motive v h)
    (list : ∀ items (parts : ∀ v ∈ items, v.isJson = true),
      (∀ v (inside : v ∈ items), motive v (parts v inside)) →
      motive (.list items) (isJson_list.mpr parts))
    (record : ∀ fields (once : (Keyed.keys fields).Nodup)
      (parts : ∀ f ∈ fields, f.2.isJson = true),
      (∀ f (inside : f ∈ fields), motive f.2 (parts f inside)) →
      motive (record fields) (isJson_record.mpr ⟨once, parts⟩)) :
    ∀ (v : Value) (h : v.isJson = true), motive v h
  | .list items, h => by
    have parts := isJson_list.mp h
    exact list items parts fun v inside => isJson_induction scalar list record v (parts v inside)
  | .map entries, h => by
    obtain ⟨fields, same⟩ := exists_record_of_isJson h
    obtain ⟨once, parts⟩ := isJson_record.mp (same ▸ h)
    have smaller (f : String × Value) (inside : f ∈ fields) :
        sizeOf f.2 < sizeOf (Value.map entries) := by
      have entry : (Value.text f.1, f.2) ∈ fields.map fun f => (Value.text f.1, f.2) :=
        List.mem_map_of_mem (f := fun f : String × Value => (Value.text f.1, f.2)) inside
      have less := List.sizeOf_lt_of_mem entry
      rw [same, Value.record]
      simp only [Prod.mk.sizeOf_spec, Value.map.sizeOf_spec] at less ⊢
      omega
    have all := record fields once parts fun f inside =>
      isJson_induction scalar list record f.2 (parts f inside)
    simpa only [same] using all
  | .null, h | .bool _, h | .int _, h | .float _, h | .text _, h => scalar _ h rfl
termination_by v => sizeOf v
decreasing_by
  · have less := List.sizeOf_lt_of_mem inside
    simp only [Value.list.sizeOf_spec]
    omega
  · exact smaller f inside

/-! ### Comparing -/

theorem equal_list_eq_true {xs ys : List Value} :
    (list xs).equal (list ys) = .ok true ↔
      List.Forall₂ (fun x y => x.equal y = .ok true) xs ys := equal_sequence_eq_true rfl rfl

theorem equal_record_eq_true {xs ys : List (String × Value)} :
    (record xs).equal (record ys) = .ok true ↔
      xs.length = ys.length ∧
        ∀ f ∈ xs, ∃ y, Keyed.find? ys f.1 = some y ∧ f.2.equal y = .ok true := by
  rw [record, record, equal_map_eq_true, List.length_map, List.length_map, List.forall_mem_map]
  refine and_congr_right fun _ => forall₂_congr fun f _ => ?_
  rw [← field?_fields, field?]

theorem exists_equalItems {holds : Value → Prop} {xs ys : List Value}
    (each : ∀ x ∈ xs, ∀ y, holds y → ∃ b, x.equal y = .ok b)
    (hy : ∀ y ∈ ys, holds y) : ∃ b, equalItems xs ys = .ok b := by
  induction xs generalizing ys with
  | nil => exact ⟨true, rfl⟩
  | cons x xs ih =>
    cases ys with
    | nil => exact ⟨true, rfl⟩
    | cons y ys =>
      obtain ⟨b, same⟩ := each x (List.mem_cons_self ..) y (hy y (List.mem_cons_self ..))
      have others := ih (fun x inside => each x (List.mem_cons_of_mem _ inside))
        (fun y inside => hy y (List.mem_cons_of_mem _ inside))
      rw [equalItems, same]
      cases b with
      | true => exact others
      | false => exact ⟨false, rfl⟩

theorem exists_equalEntries {holds : Value → Prop} {xs ys : List (String × Value)}
    (each : ∀ f ∈ xs, ∀ y, holds y → ∃ b, f.2.equal y = .ok b)
    (hy : ∀ f ∈ ys, holds f.2) :
    ∃ b, equalEntries (xs.map fun f => (.text f.1, f.2)) (ys.map fun f => (.text f.1, f.2)) =
      .ok b := by
  induction xs with
  | nil => exact ⟨true, rfl⟩
  | cons f xs ih =>
    have look : find? (ys.map fun f => (.text f.1, f.2)) (.text f.1) = Keyed.find? ys f.1 :=
      field?_fields ys f.1
    have others := ih fun f inside => each f (List.mem_cons_of_mem _ inside)
    rw [List.map_cons, equalEntries, look]
    cases found : Keyed.find? ys f.1 with
    | none => exact ⟨false, rfl⟩
    | some y =>
      obtain ⟨b, same⟩ := each f (List.mem_cons_self ..) y (hy _ (Keyed.mem_of_find? found))
      simp only [same]
      cases b with
      | true => exact others
      | false => exact ⟨false, rfl⟩

theorem scalarEqual_json {x y : Value} (hx : x.isJson = true) (hy : y.isJson = true) :
    ∃ b, settle (scalarEqual x y) = .ok b := by
  cases x <;> cases y <;> first
    | exact ⟨_, rfl⟩
    | exact absurd hx Bool.false_ne_true
    | exact absurd hy Bool.false_ne_true

theorem equal_scalar {x : Value} (plain : x.isContainer = false) (y : Value) :
    x.equal y = if x.isBool != y.isBool then .ok false else settle (scalarEqual x y) := by
  cases x <;> first | rfl | cases plain

theorem equal_json (x : Value) (hx : x.isJson = true) :
    ∀ y : Value, y.isJson = true → ∃ b, x.equal y = .ok b := by
  induction x, hx using isJson_induction with
  | scalar x hx plain =>
    intro y hy
    rw [equal_scalar plain]
    split
    · exact ⟨_, rfl⟩
    · exact scalarEqual_json hx hy
  | list xs parts ih =>
    intro y hy
    cases y with
    | list ys =>
      simp only [equal, items?]
      split
      · exact exists_equalItems ih (isJson_list.mp hy)
      · exact ⟨_, rfl⟩
    | _ => first | exact ⟨_, rfl⟩ | cases hy
  | record xs once parts ih =>
    intro y hy
    cases y with
    | map entries =>
      obtain ⟨ys, same⟩ := exists_record_of_isJson hy
      rw [same] at hy ⊢
      simp only [record, equal]
      split
      · exact exists_equalEntries ih (isJson_record.mp hy).2
      · exact ⟨_, rfl⟩
    | _ => first | exact ⟨_, rfl⟩ | cases hy

theorem wellKeyed_of_isJson {v : Value} (h : v.isJson = true) : v.WellKeyed := by
  induction v, h using isJson_induction with
  | scalar v _ plain => exact .scalar plain
  | list items _ ih => exact .list ih
  | record fields once _ ih =>
    refine .map ?_ ?_ ?_
    · exact List.forall_mem_map.mpr fun f _ => rfl
    · simp only [List.map_map, List.pairwise_map, Function.comp_apply, sameKey, beq_eq_false_iff_ne]
      exact List.pairwise_map.mp once
    · exact List.forall_mem_map.mpr ih

theorem equal_self (v : Value) (h : v.isJson = true) : v.equal v = .ok true :=
  (wellKeyed_of_isJson h).equal_self

end Permit.Value

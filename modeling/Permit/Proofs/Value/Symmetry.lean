import Permit.Proofs.Value.Place

namespace Permit

namespace Number.Binary64

theorem compareRatio_eq_comm (a b : Int × Nat) :
    compareRatio a b = .eq ↔ compareRatio b a = .eq := by
  unfold compareRatio
  rw [Int.compare_eq_eq, Int.compare_eq_eq]
  exact Eq.comm

theorem eq_comm (x y : Binary64) : x.eq y = y.eq x := by
  unfold eq
  rw [Bool.eq_iff_iff, beq_iff_eq, beq_iff_eq]
  cases x <;> cases y
  case finite.finite => simp only [compare?, Option.some.injEq, compareRatio_eq_comm]
  case infinite.infinite s t => cases s <;> cases t <;> simp [compare?]
  case infinite.finite s _ _ _ => cases s <;> simp [compare?]
  case finite.infinite _ _ _ s => cases s <;> simp [compare?]
  all_goals simp [compare?]

end Number.Binary64

namespace Value

variable {x y : Value}

theorem sameNumber_comm (x y : Value) : sameNumber x y = sameNumber y x := by
  cases x <;> cases y <;> try rfl
  case int.int m n => exact Bool.beq_comm
  case float.float x y =>
    have ordered := Number.Binary64.eq_comm x y
    cases x <;> cases y <;> first | exact ordered | exact Bool.beq_comm

theorem scalarEqual_comm (hx : x.isJson = true) (y : Value) :
    scalarEqual x y = scalarEqual y x := by
  have numbers := sameNumber_comm x y
  cases x <;> cases y <;> first
    | rfl
    | exact congrArg Except.ok numbers
    | exact congrArg Except.ok Bool.beq_comm
    | exact absurd hx Bool.false_ne_true

/-! ### Containers -/

theorem forall₂_of_positions {r : Value → Value → Prop} {xs ys : List Value} {start : Nat}
    (each : ∀ key, Option.Rel r (Keyed.find? (Diff.positions start xs) key)
      (Keyed.find? (Diff.positions start ys) key)) : List.Forall₂ r xs ys := by
  have element (index : Nat) : Option.Rel r xs[index]? ys[index]? := by
    have rel := each (Number.natText (start + index))
    rwa [Diff.find?_positions, Diff.find?_positions] at rel
  clear each
  induction xs generalizing ys with
  | nil =>
    have first := element 0
    cases ys with
    | nil => exact .nil
    | cons y ys => cases first
  | cons x xs ih =>
    have first := element 0
    cases ys with
    | nil => cases first
    | cons y ys =>
      cases first with
      | some related => exact .cons related (ih fun index => element (index + 1))

/-- Fields that are related under every key are as many, and those of the first are all found
among those of the second. -/
theorem fields_of_rel {r : Value → Value → Prop} {xs ys : List (String × Value)}
    (once : (Keyed.keys xs).Nodup) (once' : (Keyed.keys ys).Nodup)
    (each : ∀ key, Option.Rel r (Keyed.find? xs key) (Keyed.find? ys key)) :
    xs.length = ys.length ∧ ∀ f ∈ xs, ∃ y, Keyed.find? ys f.1 = some y ∧ r f.2 y := by
  have present (key : String) : key ∈ Keyed.keys xs ↔ key ∈ Keyed.keys ys := by
    rw [← Keyed.isSome_find?_iff, ← Keyed.isSome_find?_iff]
    have rel := each key
    generalize Keyed.find? xs key = x at rel ⊢
    generalize Keyed.find? ys key = y at rel ⊢
    cases rel <;> simp
  have keys : (Keyed.keys xs).Perm (Keyed.keys ys) :=
    (List.perm_ext_iff_of_nodup once once').mpr present
  constructor
  · simpa [Keyed.keys] using keys.length_eq
  · intro f inside
    have rel := each f.1
    rw [Keyed.find?_of_mem once inside] at rel
    cases found : Keyed.find? ys f.1 with
    | none =>
      rw [found] at rel
      cases rel
    | some y =>
      rw [found] at rel
      cases rel with
      | some related => exact ⟨y, rfl, related⟩

/-- Values of JSON that are unchanged from one another are of one shape. -/
theorem kind_eq_of_equal (hx : x.isJson = true) (hy : y.isJson = true)
    (container : x.isContainer = true) (same : x.equal y = .ok true) : x.kind = y.kind := by
  cases x <;> first
    | exact absurd container Bool.false_ne_true
    | skip
  all_goals cases y <;> first
    | rfl
    | cases same
    | exact absurd hy Bool.false_ne_true

/-- **Containers are unchanged** from one another if they are of one shape and have unchanged
parts under the same keys, and else they are not. -/
theorem equal_iff_parts (hx : x.isJson = true) (hy : y.isJson = true)
    (left : x.isContainer = true) (right : y.isContainer = true) :
    x.equal y = .ok true ↔ x.kind = y.kind ∧
      ∀ key, Option.Rel (fun a b => a.equal b = .ok true) (Keyed.find? x.parts key)
        (Keyed.find? y.parts key) := by
  constructor
  · intro same
    exact ⟨kind_eq_of_equal hx hy left same, equal_parts hx hy same⟩
  · rintro ⟨kind, each⟩
    cases x, hx using isJson_induction with
    | scalar x _ plain =>
      rw [plain] at left
      cases left
    | list xs _ _ =>
      cases y with
      | list ys => exact equal_list_eq_true.mpr (forall₂_of_positions each)
      | _ => first | exact absurd hy Bool.false_ne_true | cases kind
    | record xs once _ _ =>
      cases y with
      | map entries =>
        obtain ⟨ys, shape⟩ := exists_record_of_isJson hy
        rw [shape] at hy each ⊢
        rw [parts_record, parts_record] at each
        exact equal_record_eq_true.mpr (fields_of_rel once (isJson_record.mp hy).1 each)
      | _ => first | exact absurd hy Bool.false_ne_true | cases kind

/-! ### Symmetry -/

theorem rel_swap {r : Value → Value → Prop} {o o' : Option Value} (related : Option.Rel r o o')
    (back : ∀ a b, o = some a → o' = some b → r a b → r b a) : Option.Rel r o' o := by
  cases related with
  | none => exact .none
  | some rel => exact .some (back _ _ rfl rfl rel)

theorem equal_symm_of_parts (hx : x.isJson = true) (hy : y.isJson = true)
    (left : x.isContainer = true)
    (parts : ∀ key a b, Keyed.find? x.parts key = some a → Keyed.find? y.parts key = some b →
      a.equal b = .ok true → b.equal a = .ok true)
    (same : x.equal y = .ok true) : y.equal x = .ok true := by
  have right : y.isContainer = true := (isContainer_of_equal hx hy same).symm.trans left
  obtain ⟨kind, each⟩ := (equal_iff_parts hx hy left right).mp same
  apply (equal_iff_parts hy hx right left).mpr
  exact ⟨kind.symm, fun key => rel_swap (each key) (parts key)⟩

/-- What is unchanged from another value is so the other way round. -/
theorem equal_symm (x : Value) (hx : x.isJson = true) :
    ∀ y : Value, y.isJson = true → x.equal y = .ok true → y.equal x = .ok true := by
  induction x, hx using isJson_induction with
  | scalar x hx plain =>
    intro y hy same
    have plain' : y.isContainer = false := (isContainer_of_equal hx hy same).symm.trans plain
    rw [equal_scalar plain] at same
    rw [equal_scalar plain', bne_comm, scalarEqual_comm hy]
    exact same
  | list items json ih =>
    intro y hy same
    apply equal_symm_of_parts (isJson_list.mpr json) hy rfl _ same
    intro key a b found found'
    obtain ⟨index, _, held⟩ := Diff.exists_index_of_mem_positions (Keyed.mem_of_find? found)
    exact ih a (List.mem_of_getElem? held) b (isJson_part hy found')
  | record fields once json ih =>
    intro y hy same
    apply equal_symm_of_parts (isJson_record.mpr ⟨once, json⟩) hy rfl _ same
    intro key a b found found'
    rw [parts_record] at found
    exact ih _ (Keyed.mem_of_find? found) b (isJson_part hy found')

/-- **Either way round.** Comparing two values of JSON says the same in both directions. -/
theorem equal_comm (hx : x.isJson = true) (hy : y.isJson = true) : x.equal y = y.equal x := by
  obtain ⟨same, compared⟩ := equal_json x hx y hy
  obtain ⟨same', compared'⟩ := equal_json y hy x hx
  have there := equal_symm x hx y hy
  have back := equal_symm y hy x hx
  rw [compared, compared'] at there back
  rw [compared, compared']
  cases same with
  | true => exact (there rfl).symm
  | false =>
    cases same' with
    | true => exact back rfl
    | false => rfl

end Value
end Permit

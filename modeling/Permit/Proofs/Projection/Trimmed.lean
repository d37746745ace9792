import Permit.Projection
import Permit.Proofs.Value.Place

namespace Permit

inductive Trimmed : Value → Value → Prop where
  | same (v : Value) : Trimmed v v
  | hollowMapping (v : Value) : Trimmed (.map []) v
  | hollowSequence (v : Value) : Trimmed (.list []) v
  | fields {kept fields : List (String × Value)} :
      (Keyed.keys kept).Sublist (Keyed.keys fields) →
      (∀ (key : String) (p v : Value), Keyed.find? kept key = some p →
        Keyed.find? fields key = some v → Trimmed p v) →
      Trimmed (.record kept) (.record fields)
  | items {kept items : List Value} :
      kept.length ≤ items.length →
      (∀ (index : Nat) (p v : Value), kept[index]? = some p → items[index]? = some v →
        Trimmed p v) →
      Trimmed (.list kept) (.list items)

namespace Trimmed

variable {p v : Value}

theorem sublist_keys (h : Trimmed p v) :
    (Keyed.keys p.parts).Sublist (Keyed.keys v.parts) := by
  cases h with
  | same => exact List.Sublist.refl _
  | hollowMapping => exact List.nil_sublist _
  | hollowSequence => exact List.nil_sublist _
  | fields keys _ =>
    rw [Value.parts_record, Value.parts_record]
    exact keys
  | items shorter _ =>
    simp only [Value.parts, Diff.keys_positions]
    exact (List.range'_sublist_right.mpr shorter).map _

theorem part {key : String} {q : Value} (h : Trimmed p v)
    (found : Keyed.find? p.parts key = some q) :
    ∃ w, Keyed.find? v.parts key = some w ∧ Trimmed q w := by
  have there : (Keyed.find? v.parts key).isSome := by
    rw [Keyed.isSome_find?_iff]
    exact h.sublist_keys.subset ((Keyed.isSome_find?_iff _ _).mp (by rw [found]; rfl))
  obtain ⟨w, other⟩ := Option.isSome_iff_exists.mp there
  refine ⟨w, other, ?_⟩
  cases h with
  | same =>
    rw [found] at other
    cases other
    exact .same _
  | hollowMapping => cases found
  | hollowSequence => cases found
  | fields _ each =>
    rw [Value.parts_record] at found other
    exact each key q w found other
  | items _ each =>
    obtain ⟨index, numeral, kept⟩ :=
      Diff.exists_index_of_mem_positions (Keyed.mem_of_find? found)
    obtain rfl : key = Number.natText (0 + index) := numeral
    exact each index q w kept (Diff.find?_positions.symm.trans other)

theorem part_of_both {key : String} {q w : Value} (h : Trimmed p v)
    (before : Keyed.find? p.parts key = some q) (after : Keyed.find? v.parts key = some w) :
    Trimmed q w := by
  obtain ⟨w', after', part⟩ := h.part before
  rw [after] at after'
  cases after'
  exact part

theorem isJson (h : Trimmed p v) (json : v.isJson = true) : p.isJson = true := by
  induction h with
  | same => exact json
  | hollowMapping => rfl
  | hollowSequence => rfl
  | @fields kept fields keys each ih =>
    obtain ⟨once, parts⟩ := Value.isJson_record.mp json
    refine Value.isJson_record.mpr ⟨once.sublist keys, ?_⟩
    rintro ⟨key, q⟩ inside
    have found := Keyed.find?_of_mem (once.sublist keys) inside
    have there := keys.subset ((Keyed.isSome_find?_iff kept key).mp (by rw [found]; rfl))
    obtain ⟨w, given⟩ := Option.isSome_iff_exists.mp ((Keyed.isSome_find?_iff fields key).mpr there)
    exact ih key q w found given (parts _ (Keyed.mem_of_find? given))
  | @items kept items shorter each ih =>
    rw [Value.isJson_list] at json ⊢
    intro q inside
    obtain ⟨index, bound, found⟩ := List.getElem_of_mem inside
    have there : index < items.length := by omega
    exact ih index q items[index] (by rw [List.getElem?_eq_getElem bound, found])
      (List.getElem?_eq_getElem there) (json _ (List.getElem_mem there))

theorem eq_of_equal (h : Trimmed p v) (json : v.isJson = true) (same : p.equal v = .ok true) :
    p = v := by
  induction h with
  | same => rfl
  | hollowMapping v =>
    cases v with
    | map entries =>
      obtain ⟨fields, rfl⟩ : ∃ fields, entries = List.map _ fields := by
        obtain ⟨fields, same⟩ := Value.exists_record_of_isJson json
        exact ⟨fields, Value.map.inj same⟩
      have compared : (Value.record []).equal (Value.record fields) = .ok true := same
      obtain ⟨short, _⟩ := Value.equal_record_eq_true.mp compared
      obtain rfl := List.length_eq_zero_iff.mp short.symm
      rfl
    | _ => first | exact absurd json Bool.false_ne_true | cases same
  | hollowSequence v =>
    cases v with
    | list items =>
      have none := Value.equal_list_eq_true.mp same
      cases none
      rfl
    | _ => first | exact absurd json Bool.false_ne_true | cases same
  | @fields kept fields keys each ih =>
    obtain ⟨long, all⟩ := Value.equal_record_eq_true.mp same
    obtain ⟨once, parts⟩ := Value.isJson_record.mp json
    have keys : Keyed.keys kept = Keyed.keys fields := keys.eq_of_length (by simpa [Keyed.keys])
    congr 1
    refine Keyed.ext_of_keys keys once fun key q w found given => ?_
    obtain ⟨w', given', same⟩ := all _ (Keyed.mem_of_find? found)
    obtain rfl : w = w' := Option.some.inj (given.symm.trans given')
    exact ih key q w found given (parts _ (Keyed.mem_of_find? given)) same
  | @items kept items shorter each ih =>
    have all := Value.equal_list_eq_true.mp same
    rw [Value.isJson_list] at json
    obtain ⟨long, each⟩ := List.forall₂_iff_get.mp all
    congr 1
    refine List.ext_getElem long fun index left right => ?_
    exact ih index _ _ (List.getElem?_eq_getElem left) (List.getElem?_eq_getElem right)
      (json _ (List.getElem_mem right)) (each index left right)

end Trimmed

namespace Grant

/-- The fields that a projection keeps, each with what is kept of its value. -/
def keptFields (grants : List (String × Grant)) (fields : List (String × Value)) :
    List (String × Value) :=
  fields.filterMap fun f =>
    ((Keyed.find? grants f.1).bind fun g => g.project f.2).map fun kept => (f.1, kept)

theorem projectEntries_fields (grants : List (String × Grant)) (fields : List (String × Value)) :
    projectEntries grants (fields.map fun f => (.text f.1, f.2)) =
      (keptFields grants fields).map fun f => (.text f.1, f.2) := by
  induction fields with
  | nil => rfl
  | cons f rest ih =>
    rw [List.map_cons, projectEntries_text, ih, keptFields, keptFields, List.filterMap_cons]
    cases (Keyed.find? grants f.1).bind fun g => g.project f.2 <;> rfl

theorem sublist_keys_keptFields (grants : List (String × Grant))
    (fields : List (String × Value)) :
    (Keyed.keys (keptFields grants fields)).Sublist (Keyed.keys fields) := by
  induction fields with
  | nil => exact List.Sublist.refl _
  | cons f rest ih =>
    rw [keptFields, List.filterMap_cons]
    cases (Keyed.find? grants f.1).bind fun g => g.project f.2 with
    | none => exact ih.cons f.1
    | some kept => exact ih.cons_cons f.1

theorem find?_keptFields (grants : List (String × Grant)) {fields : List (String × Value)}
    (once : (Keyed.keys fields).Nodup) (key : String) :
    Keyed.find? (keptFields grants fields) key =
      (Keyed.find? fields key).bind fun v =>
        (Keyed.find? grants key).bind fun g => g.project v := by
  induction fields with
  | nil => rfl
  | cons f rest ih =>
    have parts := List.nodup_cons.mp once
    have others := ih parts.2
    by_cases same : f.1 = key
    · subst same
      have absent : Keyed.find? rest f.1 = none := (Keyed.find?_eq_none_iff _ _).mpr parts.1
      rw [absent] at others
      simp only [keptFields, List.filterMap_cons, Keyed.find?, if_true, Option.bind_some]
      cases (Keyed.find? grants f.1).bind fun g => g.project f.2 with
      | none => exact others
      | some kept => simp [Keyed.find?]
    · simp only [Keyed.find?, same, if_false, ← others, keptFields, List.filterMap_cons]
      cases (Keyed.find? grants f.1).bind fun g => g.project f.2 with
      | none => rfl
      | some kept => simp [Keyed.find?, same]

theorem project_of_whole {g : Grant} (kind : g.kind = .whole) (v : Value) :
    g.project v = some v := by
  cases v <;> simp [project, kind]

theorem project_of_fields {g : Grant} (kind : g.kind = .fields) (entries : List (Value × Value)) :
    g.project (.map entries) = some (.map (projectEntries g.children entries)) := by
  simp only [project, kind]

theorem project_of_elements {g : Grant} {v : Value} {items : List Value}
    (kind : g.kind = .elements) (sequence : v.items? = some items) :
    g.project v =
      some (.list (if g.children.isEmpty then items else projectItems g 0 items)) := by
  cases v with
  | list _ | tuple _ =>
    cases sequence
    simp only [project, kind]
  | _ => cases sequence

/-- What a grant may keep of a value: all of it, the entries of a mapping or the elements of
a sequence. -/
theorem project_cases {g : Grant} {v p : Value} (kept : g.project v = some p) :
    (g.kind = .whole ∧ p = v) ∨
    (g.kind = .fields ∧ ∃ entries, v = .map entries ∧
      p = .map (projectEntries g.children entries)) ∨
    (g.kind = .elements ∧ ∃ items, v.items? = some items ∧
      p = .list (if g.children.isEmpty then items else projectItems g 0 items)) := by
  cases kind : g.kind with
  | whole =>
    rw [project_of_whole kind] at kept
    exact .inl ⟨rfl, (Option.some.inj kept).symm⟩
  | fields =>
    cases v with
    | map entries =>
      simp only [project, kind, Option.some.injEq] at kept
      exact .inr (.inl ⟨rfl, entries, rfl, kept.symm⟩)
    | _ => simp [project, kind] at kept
  | elements =>
    cases v with
    | list items | tuple items =>
      simp only [project, kind, Option.some.injEq] at kept
      exact .inr (.inr ⟨rfl, items, rfl, kept.symm⟩)
    | _ => simp [project, kind] at kept

/-- The entries that are kept: those under a text with a grant that their values fit. -/
theorem mem_projectEntries {grants : List (String × Grant)} {entries : List (Value × Value)}
    {key p : Value} :
    (key, p) ∈ projectEntries grants entries ↔ ∃ name own v, key = .text name ∧
      (key, v) ∈ entries ∧ Keyed.find? grants name = some own ∧ own.project v = some p := by
  induction entries with
  | nil => simp [projectEntries]
  | cons entry rest ih =>
    obtain ⟨k, v⟩ := entry
    rcases k.other_or_text with other | ⟨name, rfl⟩
    · rw [projectEntries_other grants other, ih]
      constructor
      · rintro ⟨name, own, w, text, inside, more⟩
        exact ⟨name, own, w, text, List.mem_cons_of_mem _ inside, more⟩
      · rintro ⟨name, own, w, text, inside, more⟩
        rcases List.mem_cons.mp inside with same | inside
        · cases same
          exact absurd text (other name)
        · exact ⟨name, own, w, text, inside, more⟩
    · rw [projectEntries_text, List.mem_append, ih]
      simp only [Option.mem_toList, Option.map_eq_some_iff, Option.bind_eq_some_iff,
        Prod.mk.injEq, List.mem_cons]
      constructor
      · rintro (⟨p, ⟨own, grant, kept⟩, rfl, rfl⟩ | ⟨name', own, w, text, inside, more⟩)
        · exact ⟨name, own, v, rfl, .inl ⟨rfl, rfl⟩, grant, kept⟩
        · exact ⟨name', own, w, text, .inr inside, more⟩
      · rintro ⟨name', own, w, rfl, ⟨same, rfl⟩ | inside, grant, kept⟩
        · cases same
          exact .inl ⟨p, ⟨own, grant, kept⟩, rfl, rfl⟩
        · exact .inr ⟨name', own, w, rfl, inside, grant, kept⟩

theorem sublist_keys_projectEntries (grants : List (String × Grant))
    (entries : List (Value × Value)) :
    ((projectEntries grants entries).map (·.1)).Sublist (entries.map (·.1)) := by
  induction entries with
  | nil => exact List.Sublist.refl _
  | cons entry rest ih =>
    obtain ⟨k, v⟩ := entry
    rcases k.other_or_text with other | ⟨name, rfl⟩
    · rw [projectEntries_other grants other]
      exact ih.cons _
    · rw [projectEntries_text]
      cases (Keyed.find? grants name).bind fun g => project g v with
      | none => exact ih.cons _
      | some kept => exact ih.cons_cons _

theorem length_projectItems_le (g : Grant) (start : Nat) (items : List Value) :
    (projectItems g start items).length ≤ items.length := by
  induction items generalizing start with
  | nil => exact Nat.le_refl _
  | cons v rest ih =>
    rw [projectItems]
    cases g.element? start with
    | none => exact Nat.zero_le _
    | some own => exact Nat.succ_le_succ (ih (start + 1))

/-- An element that is kept is the projection of the element at its position, or stands
for one that does not fit. -/
theorem getElem?_projectItems {g : Grant} {items : List Value} {index start : Nat} {p : Value}
    (kept : (projectItems g start items)[index]? = some p) :
    ∃ v own, items[index]? = some v ∧ g.element? ((start + index : Nat) : Int) = some own ∧
      p = (own.project v).getD own.placeholder := by
  induction items generalizing start index with
  | nil => cases kept
  | cons v rest ih =>
    rw [projectItems] at kept
    cases found : g.element? start with
    | none => rw [found] at kept; cases kept
    | some own =>
      rw [found] at kept
      cases index with
      | zero => exact ⟨v, own, rfl, found, (Option.some.inj kept).symm⟩
      | succ index =>
        have kept : (projectItems g (start + 1) rest)[index]? = some p := kept
        obtain ⟨w, own', given, grant, same⟩ := ih kept
        refine ⟨w, own', given, ?_, same⟩
        rw [← grant, Nat.add_right_comm, Nat.add_assoc]

theorem trimmed_placeholder (g : Grant) (v : Value) : Trimmed g.placeholder v := by
  rw [placeholder]
  split
  · exact .hollowSequence v
  · exact .hollowMapping v

/-- **Projecting only trims.** -/
theorem project_trimmed {v : Value} (json : v.isJson = true) :
    ∀ {g : Grant} {p : Value}, g.project v = some p → Trimmed p v := by
  induction v, json using Value.isJson_induction with
  | scalar v json plain =>
    intro g p kept
    rcases project_cases kept with ⟨_, rfl⟩ | ⟨_, _, rfl, _⟩ | ⟨_, _, sequence, _⟩
    · exact .same _
    · cases plain
    · cases (Value.isContainer_of_items? sequence).symm.trans plain
  | list items parts ih =>
    intro g p kept
    rcases project_cases kept with ⟨_, rfl⟩ | ⟨_, _, none, _⟩ | ⟨_, _, same, rfl⟩
    · exact .same _
    · cases none
    · cases same
      split
      · exact .same _
      · refine .items (length_projectItems_le g 0 items) fun index q w held given => ?_
        obtain ⟨w', own, given', _, rfl⟩ := getElem?_projectItems held
        obtain rfl : w = w' := Option.some.inj (given.symm.trans given')
        cases inner : own.project w with
        | none => exact trimmed_placeholder own w
        | some q => exact ih w (List.mem_of_getElem? given) inner
  | record fields once parts ih =>
    intro g p kept
    rcases project_cases kept with ⟨_, rfl⟩ | ⟨_, _, same, rfl⟩ | ⟨_, _, none, _⟩
    · exact .same _
    · obtain rfl := Value.map.inj same
      rw [projectEntries_fields]
      refine .fields (sublist_keys_keptFields _ _) fun key q w held given => ?_
      rw [find?_keptFields _ once, given, Option.bind_some] at held
      obtain ⟨own, _, inner⟩ := Option.bind_eq_some_iff.mp held
      exact ih _ (Keyed.mem_of_find? given) inner
    · cases none

end Grant

namespace GrantTree

/-- A tree projects a mapping as a grant of fields with its children does. -/
theorem project_map_eq (tree : GrantTree) (entries : List (Value × Value)) :
    (Grant.node .fields tree.children).project (.map entries) =
      some (tree.project (.map entries)) := rfl

theorem isContainer_project (tree : GrantTree) (v : Value) :
    (tree.project v).isContainer = true := by
  cases v <;> rfl

theorem project_trimmed (tree : GrantTree) {v : Value} (json : v.isJson = true) :
    Trimmed (tree.project v) v := by
  cases v with
  | map entries => exact Grant.project_trimmed json (tree.project_map_eq entries)
  | _ => exact .hollowMapping _

end GrantTree
end Permit

import Permit.Proofs.Log.Encoding
import Permit.Proofs.Value.Equality

namespace Permit.Log.Json

open Number Outcome

/-- An integer that is not too long to be written. -/
def Short (n : Int) : Prop := (natText n.natAbs).length ≤ digitLimit

/-- The keys that have a name. -/
def Nameable : Value → Prop
  | .null | .bool _ | .float _ | .text _ => True
  | .int n => Short n
  | _ => False

/-- The scalars that have a form. What has none of its own must be shown as text. -/
def HasForm : Value → Prop
  | .null | .bool _ | .text _ | .bytes _ => True
  | .int n => Short n
  | .float x => ∃ s m e, x = .finite s m e
  | v => ∃ shown, v.display = .ok shown

/-- The values that JSON has a form for, down to their last part. -/
inductive Encodable : Value → Prop
  | scalar {v : Value} : v.isContainer = false → HasForm v → Encodable v
  | sequence {v : Value} {items : List Value} : v.items? = some items →
      (∀ item ∈ items, Encodable item) → Encodable v
  | mapping {entries : List (Value × Value)} : (∀ e ∈ entries, Nameable e.1) →
      (∀ e ∈ entries, Encodable e.2) → Encodable (.map entries)

/-- A value has a form, and one with numerals of JSON only. -/
def Written (v : Value) : Prop :=
  (∃ form, write v = .ok form) ∧ ∀ n ∈ (datum v).numerals, Numeral n

/-! ### Scalars -/

theorem integer_ok_iff {n : Int} : (∃ form, integer n = .ok form) ↔ Short n := by
  rw [integer, intText?, Short]
  split
  next long => exact iff_of_false (by rintro ⟨_, ⟨⟩⟩) (by omega)
  next short => exact iff_of_true ⟨_, rfl⟩ (by omega)

theorem key_ok_iff {k : Value} : (∃ name, key k = .ok name) ↔ Nameable k := by
  cases k with
  | null | bool _ | float _ | text _ => exact iff_of_true ⟨_, rfl⟩ trivial
  | int n => exact integer_ok_iff
  | _ => exact iff_of_false (by rintro ⟨_, ⟨⟩⟩) id

theorem numeral_number_iff (x : Binary64) :
    Numeral (number x).toList ↔ ∃ s m e, x = .finite s m e := by
  have letter {c : Char} (other : ¬ (c.isDigit = true ∨ c ∈ ['-', '+', '.', 'e', 'E']))
      (inside : c ∈ (number x).toList) : ¬ Numeral (number x).toList :=
    fun h => other (h.characters c inside)
  cases x with
  | finite s m e => exact iff_of_true (numeral_number s m e) ⟨s, m, e, rfl⟩
  | nan _ =>
    have inside : 'N' ∈ "NaN".toList := by decide
    refine iff_of_false (letter (by decide) inside) ?_
    rintro ⟨_, _, _, ⟨⟩⟩
  | infinite negative =>
    refine iff_of_false (letter (c := 'I') (by decide) ?_) ?_
    · cases negative <;> decide
    · rintro ⟨_, _, _, ⟨⟩⟩

theorem write_shown_ok_iff {v : Value} (h : isShown v = true) :
    (∃ form, write v = .ok form) ↔ ∃ shown, v.display = .ok shown := by
  rw [write_shown h, map_exists_ok_iff]
  simp only [mapError_eq_ok_iff]

theorem written_shown_iff {v : Value} (h : isShown v = true) :
    Written v ↔ ∃ shown, v.display = .ok shown := by
  rw [Written, write_shown_ok_iff h, datum_shown h]
  exact and_iff_left nofun

theorem written_scalar_iff {v : Value} (single : v.isContainer = false) :
    Written v ↔ HasForm v := by
  cases v with
  | list _ | tuple _ | map _ => cases single
  | null | bool _ | text _ => exact iff_of_true ⟨⟨_, rfl⟩, nofun⟩ trivial
  | int n =>
    refine (and_iff_left ?_).trans integer_ok_iff
    exact List.forall_mem_singleton.mpr (numeral_intText n)
  | float x =>
    refine (and_iff_right ⟨_, rfl⟩).trans (Iff.trans ?_ (numeral_number_iff x))
    exact List.forall_mem_singleton
  | bytes _ => exact (written_shown_iff rfl).trans (iff_of_true ⟨_, rfl⟩ trivial)
  | object _ _ _ | renderable _ _ | incomparable _ _ => exact written_shown_iff rfl

/-! ### Containers -/

theorem itemsNumerals_eq_flatMap (ds : List Datum) :
    itemsNumerals ds = ds.flatMap Datum.numerals := by
  induction ds with
  | nil => rfl
  | cons d rest ih => rw [itemsNumerals, ih, List.flatMap_cons]

theorem membersNumerals_eq_flatMap (ms : List (List Nat × Datum)) :
    membersNumerals ms = ms.flatMap fun m => m.2.numerals := by
  induction ms with
  | nil => rfl
  | cons m rest ih => rw [membersNumerals, ih, List.flatMap_cons]

theorem written_sequence_iff {v : Value} {items : List Value} (h : v.items? = some items) :
    Written v ↔ ∀ item ∈ items, Written item := by
  have forms : (∃ form, write v = .ok form) ↔ ∀ item ∈ items, ∃ form, write item = .ok form := by
    rw [write_sequence h, map_exists_ok_iff, mapM_exists_ok_iff]
  have numerals : (∀ n ∈ (datum v).numerals, Numeral n) ↔
      ∀ item ∈ items, ∀ n ∈ (datum item).numerals, Numeral n := by
    rw [datum_sequence h, Datum.numerals, itemsNumerals_eq_flatMap, List.flatMap_map]
    simp only [List.mem_flatMap]
    exact ⟨fun all item inside n found => all n ⟨item, inside, found⟩,
      fun all n ⟨item, inside, found⟩ => all item inside n found⟩
  rw [Written, forms, numerals, ← forall₂_and]
  rfl

theorem written_map_iff {entries : List (Value × Value)} :
    Written (.map entries) ↔ (∀ e ∈ entries, Nameable e.1) ∧ ∀ e ∈ entries, Written e.2 := by
  have entry (e : Value × Value) :
      (∃ form, writeEntry e = .ok form) ↔ Nameable e.1 ∧ ∃ form, write e.2 = .ok form := by
    simp only [writeEntry_eq_ok_iff, ← key_ok_iff]
    exact ⟨fun ⟨_, name, part, named, written, _⟩ => ⟨⟨name, named⟩, part, written⟩,
      fun ⟨⟨name, named⟩, part, written⟩ => ⟨_, name, part, named, written, rfl⟩⟩
  have forms : (∃ form, write (.map entries) = .ok form) ↔
      ∀ e ∈ entries, Nameable e.1 ∧ ∃ form, write e.2 = .ok form := by
    rw [write_map, map_exists_ok_iff, mapM_exists_ok_iff]
    exact forall₂_congr fun e _ => entry e
  have numerals : (∀ n ∈ (datum (.map entries)).numerals, Numeral n) ↔
      ∀ e ∈ entries, ∀ n ∈ (datum e.2).numerals, Numeral n := by
    rw [datum_map, Datum.numerals, membersNumerals_eq_flatMap, List.flatMap_map]
    simp only [List.mem_flatMap]
    exact ⟨fun all e inside n found => all n ⟨e, inside, found⟩,
      fun all n ⟨e, inside, found⟩ => all e inside n found⟩
  rw [Written, forms, numerals, forall₂_and, and_assoc, ← forall₂_and]
  rfl

/-! ### All values -/

/-- **What JSON has a form for.** -/
theorem written_iff (v : Value) : Written v ↔ Encodable v := by
  induction v using Value.parts_induction with
  | scalar v single =>
    rw [written_scalar_iff single]
    constructor
    · exact .scalar single
    · rintro (⟨_, h⟩ | ⟨parts, _⟩ | _)
      · exact h
      · cases single.symm.trans (Value.isContainer_of_items? parts)
      · cases single
  | sequence v items parts ih =>
    rw [written_sequence_iff parts, forall₂_congr ih]
    constructor
    · exact .sequence parts
    · rintro (⟨single, _⟩ | ⟨parts', each⟩ | _)
      · cases single.symm.trans (Value.isContainer_of_items? parts)
      · cases parts.symm.trans parts'
        exact each
      · cases parts
  | mapping entries ih =>
    rw [written_map_iff, forall₂_congr ih]
    constructor
    · exact fun ⟨named, each⟩ => .mapping named each
    · rintro (⟨single, _⟩ | ⟨parts, _⟩ | ⟨named, each⟩)
      · cases single
      · cases parts
      · exact ⟨named, each⟩

theorem encodable_text (s : String) : Encodable (.text s) := .scalar rfl trivial

theorem encodable_record {fields : List (String × Value)} :
    Encodable (Value.record fields) ↔ ∀ f ∈ fields, Encodable f.2 := by
  rw [← written_iff, Value.record, written_map_iff, List.forall_mem_map, List.forall_mem_map]
  simp only [written_iff]
  exact and_iff_right fun _ _ => trivial

/-- What is written stands for a datum if its numerals are those of JSON. -/
theorem denotes_of_written {v : Value} {form : String} (h : write v = .ok form)
    (all : ∀ n ∈ (datum v).numerals, Numeral n) : Denotes form (datum v) := by
  have read := reads_write v form h []
  rw [List.append_nil] at read
  exact .item (Spaces.refl _) (read.of_numerals all) (Spaces.refl [])

/-- What is written stands for nothing but the datum of the value. -/
theorem eq_datum_of_denotes {v : Value} {form : String} {d : Datum} (h : write v = .ok form)
    (denotes : Denotes form d) : d = datum v := by
  have read := reads_write v form h []
  rw [List.append_nil] at read
  exact reads_item_unique denotes.reads (.item (Spaces.refl _) read (Spaces.refl []))

/-- **A value is written as a text that stands for a datum if it is encodable, and only then.** -/
theorem write_denotes_iff (v : Value) :
    (∃ form, write v = .ok form ∧ ∃ d, Denotes form d) ↔ Encodable v := by
  rw [← written_iff]
  constructor
  · rintro ⟨form, written, d, denotes⟩
    obtain rfl := eq_datum_of_denotes written denotes
    exact ⟨⟨form, written⟩, denotes.numeral_of_mem⟩
  · rintro ⟨⟨form, written⟩, all⟩
    exact ⟨form, written, _, denotes_of_written written all⟩

end Permit.Log.Json

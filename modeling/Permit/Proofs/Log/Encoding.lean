import Mathlib.Data.List.Forall2
import Permit.Proofs.Log.Numeral
import Permit.Proofs.Outcome

/-!
What the JSON form of a value stands for.

* `datum` is the datum of a value: lists and tuples are arrays, mappings are objects, and what has
  no form of its own is the text that it is shown as;
* `reads_write`: the form of a value stands for its datum, if names are taken for the numbers that
  are not finite;
* `write_printable`: nothing but printable characters stands in a form.
-/
namespace Permit

theorem Value.parts_induction {motive : Value → Prop}
    (scalar : ∀ v : Value, v.isContainer = false → motive v)
    (sequence : ∀ (v : Value) (items : List Value), v.items? = some items →
      (∀ item ∈ items, motive item) → motive v)
    (mapping : ∀ entries : List (Value × Value), (∀ e ∈ entries, motive e.2) →
      motive (.map entries)) :
    ∀ v, motive v
  | .list items => sequence _ items rfl fun item inside =>
    have := List.sizeOf_lt_of_mem inside
    parts_induction scalar sequence mapping item
  | .tuple items => sequence _ items rfl fun item inside =>
    have := List.sizeOf_lt_of_mem inside
    parts_induction scalar sequence mapping item
  | .map entries => mapping entries fun e inside =>
    have := List.sizeOf_lt_of_mem inside
    parts_induction scalar sequence mapping e.2
  | .null | .bool _ | .int _ | .float _ | .text _ | .bytes _ | .object .. | .renderable ..
  | .incomparable .. => scalar _ rfl
termination_by v => sizeOf v
decreasing_by
  · simp only [Value.list.sizeOf_spec]
    omega
  · simp only [Value.tuple.sizeOf_spec]
    omega
  · obtain ⟨key, part⟩ := e
    simp only [Prod.mk.sizeOf_spec] at this
    simp only [Value.map.sizeOf_spec]
    omega

namespace Log.Json

open Number Outcome

variable {s r : List Char} {us : List Nat}

/-! ### Strings -/

theorem hexDigit?_digitChar : ∀ k < 16, hexDigit? (Nat.digitChar k) = some k := by decide

/-- A number in hexadecimal digits, filled with zeros up to one digit more. -/
theorem filled_toDigits (width n : Nat) :
    List.replicate (width + 2 - (Nat.toDigits 16 n).length) '0' ++ Nat.toDigits 16 n =
      List.replicate (width + 1 - (Nat.toDigits 16 (n / 16)).length) '0' ++
        Nat.toDigits 16 (n / 16) ++ [Nat.digitChar (n % 16)] := by
  by_cases single : n < 16
  · rw [Nat.toDigits_of_lt_base single, Nat.div_eq_of_lt single, Nat.mod_eq_of_lt single,
      Nat.toDigits_of_lt_base (by decide : 0 < 16)]
    simp [List.replicate_succ']
  · rw [Nat.toDigits_of_base_le (by decide) (by omega), List.length_append, List.length_singleton,
      Nat.add_sub_add_right (width + 1) 1, List.append_assoc]

theorem toList_hex {n : Nat} (small : n < 0x10000) :
    (Text.hex 4 n).toList = [Nat.digitChar (n / 16 / 16 / 16), Nat.digitChar (n / 16 / 16 % 16),
      Nat.digitChar (n / 16 % 16), Nat.digitChar (n % 16)] := by
  rw [Text.hex, toList_padLeft, ← String.length_toList, String.toList_ofList, filled_toDigits,
    filled_toDigits, filled_toDigits, Nat.toDigits_of_lt_base (by omega : n / 16 / 16 / 16 < 16)]
  rfl

theorem unit_rest {n : Nat} (small : n < 0x10000) (h : StringRest s us r) :
    StringRest ((unit n).toList ++ s) (n :: us) r := by
  have parts :
      ((n / 16 / 16 / 16 * 16 + n / 16 / 16 % 16) * 16 + n / 16 % 16) * 16 + n % 16 = n := by
    omega
  have digit (m : Nat) : hexDigit? (Nat.digitChar (m % 16)) = some (m % 16) :=
    hexDigit?_digitChar _ (Nat.mod_lt m (by decide))
  have first := hexDigit?_digitChar (n / 16 / 16 / 16) (by omega)
  -- The reader puts the digits together from the left, by multiplying.
  rw [unit, String.toList_append, toList_hex small]
  have read := StringRest.unit first (digit (n / 16 / 16)) (digit (n / 16)) (digit n) h
  rwa [parts] at read

theorem units_rest (c : Char) (h : StringRest s us r) :
    StringRest ((units c.toNat).toList ++ s) (charUnits c ++ us) r := by
  have bound : c.toNat < 0x110000 := by
    have valid : c.toNat < 0xD800 ∨ 0xDFFF < c.toNat ∧ c.toNat < 0x110000 := c.valid
    omega
  rw [units, charUnits]
  split
  next small => exact unit_rest small h
  next =>
    rw [String.toList_append, List.append_assoc]
    exact unit_rest (by omega) (unit_rest (by omega) h)

/-- The escape of a character stands for its units. -/
theorem escape_rest (c : Char) (h : StringRest s us r) :
    StringRest ((escape c).toList ++ s) (charUnits c ++ us) r := by
  unfold escape
  split
  case h_8 mark slash _ _ _ _ _ =>
    split
    next shown =>
      simp only [Bool.and_eq_true, decide_eq_true_eq] at shown
      rw [Char.toString, String.toList_singleton]
      exact .plain mark slash shown.1 h
    next => exact units_rest c h
  all_goals exact .short rfl h

theorem toList_string (t : String) :
    (string t).toList = '"' :: (t.toList.flatMap (fun c => (escape c).toList) ++ ['"']) := by
  rw [string, String.toList_append, String.toList_append, String.toList_join, List.flatMap_map]
  rfl

theorem string_rest (t : String) (r : List Char) :
    StringRest (t.toList.flatMap (fun c => (escape c).toList) ++ '"' :: r) (textUnits t) r := by
  rw [textUnits]
  induction t.toList with
  | nil => exact .close
  | cons c rest ih =>
    rw [List.flatMap_cons, List.flatMap_cons, List.append_assoc]
    exact escape_rest c ih

theorem reads_string {numeral : List Char → Prop} (t : String) (r : List Char) :
    Reads numeral ((string t).toList ++ r) (.datum (.text t)) r := by
  rw [toList_string, List.cons_append, List.append_assoc]
  exact .string (string_rest t r)

/-! ### What a value stands for -/

def nameOf (v : Value) : String := (key v).toOption.getD ""

mutual

def datum : Value → Datum
  | .null => .null
  | .bool b => .flag b
  | .int n => .number (intText n).toList
  | .float x => .number (number x).toList
  | .text s => .text s
  | .list items => .array (itemsData items)
  | .tuple items => .array (itemsData items)
  | .map entries => .object (entriesData entries)
  | v => .text (v.display.toOption.getD "")

def itemsData : List Value → List Datum
  | [] => []
  | v :: rest => datum v :: itemsData rest

def entriesData : List (Value × Value) → List (List Nat × Datum)
  | [] => []
  | (k, v) :: rest => (textUnits (nameOf k), datum v) :: entriesData rest

end

def member (e : Value × Value) : List Nat × Datum := (textUnits (nameOf e.1), datum e.2)

def writeEntry (e : Value × Value) : Except JsonFault String := do
  let name ← key e.1
  return string name ++ ": " ++ (← write e.2)

theorem itemsData_eq_map (items : List Value) : itemsData items = items.map datum := by
  induction items with
  | nil => rfl
  | cons v rest ih => rw [itemsData, ih, List.map_cons]

theorem entriesData_eq_map (entries : List (Value × Value)) :
    entriesData entries = entries.map member := by
  induction entries with
  | nil => rfl
  | cons e rest ih => rw [entriesData, ih, List.map_cons, member]

/-- Whether a value has no form of its own, but is written as the text that it is shown as. -/
def isShown : Value → Bool
  | .bytes _ | .object .. | .renderable .. | .incomparable .. => true
  | _ => false

theorem datum_shown {v : Value} (h : isShown v = true) :
    datum v = .text (v.display.toOption.getD "") := by
  cases v <;> first | rfl | cases h

theorem write_shown {v : Value} (h : isShown v = true) :
    write v = (v.display.mapError .numeral).map string := by
  cases v <;> first | rfl | cases h

theorem datum_sequence {v : Value} {items : List Value} (h : v.items? = some items) :
    datum v = .array (items.map datum) := by
  cases v with
  | list _ | tuple _ =>
    cases h
    rw [datum, itemsData_eq_map]
  | _ => cases h

theorem datum_map (entries : List (Value × Value)) :
    datum (.map entries) = .object (entries.map member) := by
  rw [datum, entriesData_eq_map]

def Datum.under (name : String) : Datum → List Datum
  | .object members => (members.filter (·.1 == textUnits name)).map (·.2)
  | _ => []

theorem under_record (fields : List (String × Value)) (name : String) :
    (datum (Value.record fields)).under name =
      (fields.filter (·.1 == name)).map fun f => datum f.2 := by
  have named (f : String × Value) : (textUnits f.1 == textUnits name) = (f.1 == name) := by
    rw [Bool.eq_iff_iff, beq_iff_eq, beq_iff_eq]
    exact ⟨textUnits_inj, congrArg textUnits⟩
  have entered (f : String × Value) :
      member (.text f.1, f.2) = (textUnits f.1, datum f.2) := rfl
  rw [Value.record, datum_map, Datum.under, List.map_map]
  simp only [List.filter_map, List.map_map, Function.comp_def, entered, named]

theorem writeItems_eq_mapM (items : List Value) : writeItems items = items.mapM write := by
  induction items with
  | nil => rfl
  | cons v rest ih => rw [writeItems, ih, List.mapM_cons]

theorem writeEntries_eq_mapM (entries : List (Value × Value)) :
    writeEntries entries = entries.mapM writeEntry := by
  induction entries with
  | nil => rfl
  | cons e rest ih =>
    rw [writeEntries, ih, List.mapM_cons, writeEntry]
    simp only [bind_assoc, pure_bind]

theorem write_sequence {v : Value} {items : List Value} (h : v.items? = some items) :
    write v = (items.mapM write).map fun forms => "[" ++ ", ".intercalate forms ++ "]" := by
  cases v with
  | list _ | tuple _ =>
    cases h
    rw [write, writeItems_eq_mapM]
    cases items.mapM write <;> rfl
  | _ => cases h

theorem write_map (entries : List (Value × Value)) :
    write (.map entries) =
      (entries.mapM writeEntry).map fun forms => "\x7b" ++ ", ".intercalate forms ++ "\x7d" := by
  rw [write, writeEntries_eq_mapM]
  cases entries.mapM writeEntry <;> rfl

theorem writeEntry_eq_ok_iff {e : Value × Value} {form : String} :
    writeEntry e = .ok form ↔
      ∃ name part, key e.1 = .ok name ∧ write e.2 = .ok part ∧
        form = string name ++ ": " ++ part := by
  rw [writeEntry, bind_eq_ok_iff]
  refine exists_congr fun name => ?_
  rw [bind_eq_ok_iff]
  constructor
  · rintro ⟨named, part, written, done⟩
    exact ⟨part, named, written, (Except.ok.inj done).symm⟩
  · rintro ⟨part, named, written, rfl⟩
    exact ⟨named, part, written, rfl⟩

/-! ### Reading what is written -/

theorem reads_separated {α : Type} (one : α → List Char → List Char → Prop)
    (many : List α → List Char → List Char → Prop)
    (last : ∀ {a s r}, one a s r → many [a] s r)
    (next : ∀ {a as s t r}, one a s (',' :: t) → many as t r → many (a :: as) s r)
    {as : List α} {forms : List String} (filled : as ≠ [])
    (h : List.Forall₂ (fun a form => ∀ s r, Spaces s (form.toList ++ r) → one a s r) as forms)
    (s r : List Char) (before : Spaces s ((", ".intercalate forms).toList ++ r)) : many as s r := by
  -- The blank after a comma belongs to the next item, so what comes before it is left open.
  induction h generalizing s with
  | nil => exact absurd rfl filled
  | cons first others ih =>
    cases others with
    | nil =>
      rw [String.intercalate_singleton] at before
      exact last (first s r before)
    | cons second rest =>
      rw [String.intercalate_cons_cons, String.toList_append, String.toList_append,
        List.append_assoc, List.append_assoc] at before
      exact next (first s _ before) (ih (List.cons_ne_nil _ _) _ (Spaces.one _))

/-- What a form is to be read as, whatever follows it. -/
def FormOf (d : Datum) (form : String) : Prop :=
  ∀ r, Reads NumeralOrName (form.toList ++ r) (.datum d) r

theorem formOf_array {ds : List Datum} {forms : List String} (h : List.Forall₂ FormOf ds forms) :
    FormOf (.array ds) ("[" ++ ", ".intercalate forms ++ "]") := by
  intro r
  rw [String.toList_append, String.toList_append, List.append_assoc, List.append_assoc]
  cases h with
  | nil => exact .emptyArray (Spaces.refl _)
  | cons first others =>
    refine .array (reads_separated (fun d s r => Reads NumeralOrName s (.item d) r)
      (fun ds s r => Reads NumeralOrName s (.items ds) r) .lastItem .nextItem
      (List.cons_ne_nil _ _) ?_ _ _ (Spaces.refl _))
    exact (List.Forall₂.cons first others).imp fun d form read s r before =>
      .item before (read r) (Spaces.refl r)

theorem formOf_object {ms : List (List Nat × Datum)} {forms : List String}
    (h : List.Forall₂ (fun m form => ∃ name part, textUnits name = m.1 ∧ FormOf m.2 part ∧
      form = string name ++ ": " ++ part) ms forms) :
    FormOf (.object ms) ("\x7b" ++ ", ".intercalate forms ++ "\x7d") := by
  intro r
  rw [String.toList_append, String.toList_append, List.append_assoc, List.append_assoc]
  cases h with
  | nil => exact .emptyObject (Spaces.refl _)
  | cons first others =>
    refine .object (reads_separated (fun m s r => Reads NumeralOrName s (.member m.1 m.2) r)
      (fun ms s r => Reads NumeralOrName s (.members ms) r) .lastMember .nextMember
      (List.cons_ne_nil _ _) ?_ _ _ (Spaces.refl _))
    refine (List.Forall₂.cons first others).imp ?_
    rintro ⟨units, d⟩ _ ⟨name, part, rfl, read, rfl⟩ s r before
    rw [String.toList_append, String.toList_append, toList_string, List.append_assoc,
      List.append_assoc, List.cons_append, List.append_assoc] at before
    exact .member before (string_rest name _) (Spaces.refl _)
      (.item (Spaces.one _) (read r) (Spaces.refl r))

theorem integer_eq_ok {n : Int} {form : String} (h : integer n = .ok form) : form = intText n := by
  rw [integer, mapError_eq_ok_iff, intText?] at h
  split at h
  · cases h
  · exact (Except.ok.inj h).symm

theorem formOf_number (x : Binary64) : FormOf (.number (number x).toList) (number x) := by
  intro r
  refine .number ?_ rfl
  cases x with
  | finite s m e => exact .inl (numeral_number s m e)
  | nan _ => exact .inr (.inl rfl)
  | infinite negative =>
    cases negative
    · exact .inr (.inr (.inl rfl))
    · exact .inr (.inr (.inr rfl))

theorem formOf_shown {v : Value} {form : String} (other : isShown v = true)
    (h : write v = .ok form) : FormOf (datum v) form := by
  rw [write_shown other] at h
  obtain ⟨shown, found, rfl⟩ := map_eq_ok_iff.mp h
  rw [datum_shown other, mapError_eq_ok_iff.mp found]
  exact reads_string shown

theorem formOf_scalar {v : Value} {form : String} (single : v.isContainer = false)
    (h : write v = .ok form) : FormOf (datum v) form := by
  cases v with
  | list _ | tuple _ | map _ => cases single
  | null =>
    cases h
    exact fun r => .null
  | bool b =>
    cases h
    cases b
    · exact fun r => .false
    · exact fun r => .true
  | int n =>
    obtain rfl := integer_eq_ok h
    exact fun r => .number (.inl (numeral_intText n)) rfl
  | float x =>
    cases h
    exact formOf_number x
  | text s =>
    cases h
    exact reads_string s
  | bytes _ | object _ _ _ | renderable _ _ | incomparable _ _ => exact formOf_shown rfl h

/-- **The form of a value stands for its datum.** -/
theorem reads_write (v : Value) : ∀ form, write v = .ok form → FormOf (datum v) form := by
  induction v using Value.parts_induction with
  | scalar v single => exact fun form => formOf_scalar single
  | sequence v items parts ih =>
    intro form h
    rw [write_sequence parts] at h
    obtain ⟨forms, run, rfl⟩ := map_eq_ok_iff.mp h
    rw [datum_sequence parts]
    exact formOf_array (List.forall₂_map_left_iff.mpr (forall₂_of_mapM run ih))
  | mapping entries ih =>
    intro form h
    rw [write_map] at h
    obtain ⟨forms, run, rfl⟩ := map_eq_ok_iff.mp h
    rw [datum_map]
    refine formOf_object (List.forall₂_map_left_iff.mpr (forall₂_of_mapM run ?_))
    intro e inside form h
    obtain ⟨name, part, named, written, rfl⟩ := writeEntry_eq_ok_iff.mp h
    refine ⟨name, part, ?_, ih e inside part written, rfl⟩
    rw [member, nameOf, named]
    rfl

/-! ### The characters that are written -/

/-- Nothing but printable characters of ASCII, so that there is no line break. -/
def Printable (t : List Char) : Prop := ∀ c ∈ t, 32 ≤ c.toNat ∧ c.toNat ≤ 126

instance (t : List Char) : Decidable (Printable t) :=
  List.decidableBAll (fun c : Char => 32 ≤ c.toNat ∧ c.toNat ≤ 126) t

theorem Printable.append {t u : List Char} (left : Printable t) (right : Printable u) :
    Printable (t ++ u) := fun c inside => (List.mem_append.mp inside).elim (left c) (right c)

theorem Printable.between {opening closing inner : String} (before : Printable opening.toList)
    (h : Printable inner.toList) (after : Printable closing.toList) :
    Printable (opening ++ inner ++ closing).toList := by
  rw [String.toList_append, String.toList_append]
  exact (before.append h).append after

theorem printable_intercalate {forms : List String} (each : ∀ form ∈ forms, Printable form.toList) :
    Printable (", ".intercalate forms).toList := by
  induction forms with
  | nil => nofun
  | cons first rest ih =>
    cases rest with
    | nil =>
      rw [String.intercalate_singleton]
      exact each first (List.mem_cons_self ..)
    | cons second rest =>
      rw [String.intercalate_cons_cons, String.toList_append]
      -- The separator is counted with the form in front of it.
      have before := (each first (List.mem_cons_self ..)).append (u := ", ".toList) (by decide)
      rw [← String.toList_append] at before
      exact before.append (ih fun form inside => each form (List.mem_cons_of_mem _ inside))

theorem printable_unit {n : Nat} (small : n < 0x10000) : Printable (unit n).toList := by
  have digits : ∀ k < 16, 32 ≤ (Nat.digitChar k).toNat ∧ (Nat.digitChar k).toNat ≤ 126 := by decide
  rw [unit, String.toList_append, toList_hex small]
  refine Printable.append (by decide) fun c inside => ?_
  simp only [List.mem_cons, List.not_mem_nil, or_false] at inside
  rcases inside with rfl | rfl | rfl | rfl <;> exact digits _ (by omega)

theorem printable_escape (c : Char) : Printable (escape c).toList := by
  have valid : c.toNat < 0xD800 ∨ 0xDFFF < c.toNat ∧ c.toNat < 0x110000 := c.valid
  unfold escape
  split
  case h_8 =>
    split
    next shown =>
      simp only [Bool.and_eq_true, decide_eq_true_eq] at shown
      rw [Char.toString, String.toList_singleton]
      exact List.forall_mem_singleton.mpr shown
    next =>
      rw [units]
      split
      next small => exact printable_unit small
      next =>
        rw [String.toList_append]
        exact (printable_unit (by omega)).append (printable_unit (by omega))
  all_goals decide

theorem printable_string (t : String) : Printable (string t).toList := by
  rw [toList_string]
  refine Printable.append (t := ['"']) (by decide) (Printable.append ?_ (by decide))
  intro c inside
  obtain ⟨source, _, escaped⟩ := List.mem_flatMap.mp inside
  exact printable_escape source c escaped

theorem Numeral.printable {t : List Char} (h : Numeral t) : Printable t := by
  have marks : Printable ['-', '+', '.', 'e', 'E'] := by decide
  intro c inside
  rcases h.characters c inside with digit | mark
  · obtain ⟨low, high⟩ := Char.isDigit_iff_toNat.mp digit
    exact ⟨le_trans (by decide) low, le_trans high (by decide)⟩
  · exact marks c mark

theorem printable_number (x : Binary64) : Printable (number x).toList := by
  cases x with
  | finite s m e => exact (numeral_number s m e).printable
  | nan _ => exact (by decide : Printable "NaN".toList)
  | infinite negative => cases negative <;> decide

theorem printable_shown {v : Value} {form : String} (other : isShown v = true)
    (h : write v = .ok form) : Printable form.toList := by
  rw [write_shown other] at h
  obtain ⟨shown, _, rfl⟩ := map_eq_ok_iff.mp h
  exact printable_string shown

theorem printable_scalar {v : Value} {form : String} (single : v.isContainer = false)
    (h : write v = .ok form) : Printable form.toList := by
  cases v with
  | list _ | tuple _ | map _ => cases single
  | null =>
    cases h
    decide
  | bool b =>
    cases h
    cases b <;> decide
  | int n =>
    obtain rfl := integer_eq_ok h
    exact (numeral_intText n).printable
  | float x =>
    cases h
    exact printable_number x
  | text s =>
    cases h
    exact printable_string s
  | bytes _ | object _ _ _ | renderable _ _ | incomparable _ _ => exact printable_shown rfl h

/-- **Nothing but printable characters is written.** -/
theorem write_printable (v : Value) : ∀ form, write v = .ok form → Printable form.toList := by
  induction v using Value.parts_induction with
  | scalar v single => exact fun form => printable_scalar single
  | sequence v items parts ih =>
    intro form h
    rw [write_sequence parts] at h
    obtain ⟨forms, run, rfl⟩ := map_eq_ok_iff.mp h
    refine .between (by decide) (printable_intercalate fun form inside => ?_) (by decide)
    obtain ⟨item, member, written⟩ := exists_of_mem_of_mapM run inside
    exact ih item member form written
  | mapping entries ih =>
    intro form h
    rw [write_map] at h
    obtain ⟨forms, run, rfl⟩ := map_eq_ok_iff.mp h
    refine .between (by decide) (printable_intercalate fun form inside => ?_) (by decide)
    obtain ⟨e, member, entered⟩ := exists_of_mem_of_mapM run inside
    obtain ⟨name, part, _, written, rfl⟩ := writeEntry_eq_ok_iff.mp entered
    rw [String.toList_append, String.toList_append]
    exact ((printable_string name).append (by decide)).append (ih e member part written)

end Log.Json
end Permit

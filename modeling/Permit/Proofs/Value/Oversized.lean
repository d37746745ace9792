import Permit.Proofs.Outcome
import Permit.Proofs.Value.Place
import Permit.Value.Quoted

namespace Permit.Value

open Outcome

variable {v part x : Value} {key : String} {place : List String}

/-- An integer that has no floating-point number near it, or too many digits for a text. -/
def TooLarge (n : Int) : Prop :=
  Number.Binary64.ofInt? n = none ∨ Number.digitLimit < (Number.natText n.natAbs).length

instance (n : Int) : Decidable (TooLarge n) :=
  inferInstanceAs (Decidable (_ ∨ _))

/-- Somewhere in a value there is an integer that is too large. -/
def Oversized (v : Value) : Prop := ∃ place n, v.at? place = some (.int n) ∧ TooLarge n

theorem Oversized.of_int {n : Int} (large : TooLarge n) : (Value.int n).Oversized :=
  ⟨[], n, rfl, large⟩

theorem Oversized.of_at? (h : x.Oversized) (held : v.at? place = some x) : v.Oversized := by
  obtain ⟨inner, n, there, large⟩ := h
  exact ⟨place ++ inner, n, (at?_append held inner).trans there, large⟩

theorem Oversized.of_part (h : part.Oversized) (found : Keyed.find? v.parts key = some part) :
    v.Oversized :=
  h.of_at? (at?_cons.mpr ⟨part, found, rfl⟩ : v.at? [key] = some part)

theorem Oversized.of_mem {items : List Value} (h : v.Oversized) (inside : v ∈ items) :
    (Value.list items).Oversized :=
  (exists_find?_of_mem inside).elim fun _ found => h.of_part found

theorem quoteItems_eq_mapM (items : List Value) : quoteItems items = items.mapM quote := by
  induction items with
  | nil => rfl
  | cons v rest ih => rw [quoteItems, ih, List.mapM_cons]

theorem exists_of_quoteEntries {fields : List (String × Value)} {fault : Number.NumeralFault}
    (failed : quoteEntries (fields.map fun f => (.text f.1, f.2)) = .error fault) :
    ∃ f ∈ fields, f.2.quote = .error fault := by
  induction fields with
  | nil => cases failed
  | cons f rest ih =>
    rw [List.map_cons, quoteEntries] at failed
    rcases bind_eq_error_iff.mp failed with name | ⟨_, _, failed⟩
    · cases name
    rcases bind_eq_error_iff.mp failed with own | ⟨_, _, failed⟩
    · exact ⟨f, List.mem_cons_self .., own⟩
    · rcases bind_eq_error_iff.mp failed with others | ⟨_, _, done⟩
      · obtain ⟨other, inside, own⟩ := ih others
        exact ⟨other, List.mem_cons_of_mem _ inside, own⟩
      · cases done

theorem tooLarge_of_intText? {n : Int} {fault : Number.NumeralFault}
    (failed : Number.intText? n = .error fault) : TooLarge n := by
  simp only [Number.intText?] at failed
  split at failed
  next long => exact .inr long
  next => cases failed

/-- **What cannot be quoted** holds an integer that is too large. -/
theorem oversized_of_quote {fault : Number.NumeralFault} (json : v.isJson = true)
    (failed : v.quote = .error fault) : v.Oversized := by
  induction v, json using isJson_induction with
  | scalar v json plain =>
    cases v with
    | int n =>
      rw [quote] at failed
      exact .of_int (tooLarge_of_intText? failed)
    | list _ | map _ => cases plain
    | null | bool _ | float _ | text _ =>
      simp only [quote] at failed
      cases failed
    | _ => cases json
  | list items _ ih =>
    rw [quote, quoteItems_eq_mapM] at failed
    rcases bind_eq_error_iff.mp failed with failed | ⟨_, _, done⟩
    · obtain ⟨v, inside, own⟩ := exists_of_mapM_eq_error failed
      exact (ih v inside own).of_mem inside
    · cases done
  | record fields once _ ih =>
    rw [record, quote] at failed
    rcases bind_eq_error_iff.mp failed with failed | ⟨_, _, done⟩
    · obtain ⟨f, inside, own⟩ := exists_of_quoteEntries failed
      have found : Keyed.find? (Value.record fields).parts f.1 = some f.2 := by
        rw [parts_record]
        exact Keyed.find?_of_mem once inside
      exact (ih f inside own).of_part found
    · cases done

theorem oversized_of_display {fault : Number.NumeralFault} (json : v.isJson = true)
    (failed : v.display = .error fault) : v.Oversized := by
  cases v with
  | text s => cases failed
  | object _ _ _ => cases json
  | _ => exact oversized_of_quote json failed

end Permit.Value

import Permit.Proofs.Value.Equality

namespace Permit

inductive Step where
  | key (key : Value)
  | index (index : Nat)

namespace Value

/-- The keys of a mapping in their order; a value that is no mapping has none. -/
def keys (v : Value) : List Value := (v.entries?.getD []).map (·.1)

inductive Holds : Value → List Step → Value → Prop where
  | here (v : Value) : Holds v [] v
  | key {entries : List (Value × Value)} {key w x : Value} {place : List Step} :
      (key, w) ∈ entries → Holds w place x → Holds (.map entries) (.key key :: place) x
  | index {v w x : Value} {items : List Value} {index : Nat} {place : List Step} :
      v.items? = some items → items[index]? = some w → Holds w place x →
      Holds v (.index index :: place) x

variable {v x y : Value} {place : List Step}

theorem holds_nil_iff : v.Holds [] x ↔ x = v := by
  constructor
  · intro h
    cases h
    rfl
  · rintro rfl
    exact .here x

/-- **One value at a position**, where mappings have keys as they must. -/
theorem WellKeyed.holds_unique (keyed : v.WellKeyed) (h : v.Holds place x)
    (h' : v.Holds place y) : x = y := by
  induction h with
  | here => exact (holds_nil_iff.mp h').symm
  | @key entries key w x place inside _ ih =>
    cases keyed with
    | scalar plain => cases plain
    | map keyable once parts =>
      cases h' with
      | @key _ _ w' _ _ inside' h' =>
        have found := find?_of_mem once (keyable _ inside) inside
        have found' := find?_of_mem once (keyable _ inside) inside'
        obtain rfl : w = w' := Option.some.inj (found.symm.trans found')
        exact ih (parts _ inside) h'
  | @index v w x items index place sequence held _ ih =>
    have part : w.WellKeyed := by
      cases keyed with
      | scalar plain =>
        rw [isContainer_of_items? sequence] at plain
        cases plain
      | list parts | tuple parts =>
        cases sequence
        exact parts w (List.mem_of_getElem? held)
      | map _ _ _ => cases sequence
    cases h' with
    | index sequence' held' h' =>
      cases sequence.symm.trans sequence'
      cases held.symm.trans held'
      exact ih part h'

end Value
end Permit

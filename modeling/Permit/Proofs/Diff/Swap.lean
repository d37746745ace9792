import Permit.Proofs.Diff.Naming
import Permit.Proofs.Value.Symmetry

namespace Permit

/-- A change told from the other side. -/
def Change.swap : Change → Change
  | .removed old => .added old
  | .added new => .removed new
  | .replaced old new => .replaced new old

namespace Change

theorem swap_swap (change : Change) : change.swap.swap = change := by
  cases change <;> rfl

/-- What a change goes to, told from the other side, is what it comes from. -/
theorem at?_swap (change : Change) :
    change.swap.toValue.at? ["from"] = change.toValue.at? ["to"] ∧
      change.swap.toValue.at? ["to"] = change.toValue.at? ["from"] := by
  cases change <;> exact ⟨rfl, rfl⟩

end Change

namespace Diff

variable {levels : Nat} {old new : Value} {place : List String} {change : Change}

theorem IsChange.swap (h : IsChange levels old new place change) (hold : old.isJson = true)
    (hnew : new.isJson = true) : IsChange levels new old place change.swap := by
  induction h with
  | removed before after => exact .added after before
  | added before after => exact .removed after before
  | replaced before after differ last =>
    have hwas := Value.isJson_part hold before
    have hv := Value.isJson_part hnew after
    rw [Value.equal_comm hwas hv] at differ
    exact .replaced after before differ fun more => last ⟨more.2.1, more.1, more.2.2⟩
  | within before after differ left right _ ih =>
    have hwas := Value.isJson_part hold before
    have hv := Value.isJson_part hnew after
    rw [Value.equal_comm hwas hv] at differ
    exact .within after before differ right left (ih hwas hv)

/-- **A change the one way is a change the other way.** -/
theorem IsChange.swap_iff (hold : old.isJson = true) (hnew : new.isJson = true) :
    IsChange levels new old place change.swap ↔ IsChange levels old new place change := by
  constructor
  · intro h
    have back := h.swap hnew hold
    rwa [Change.swap_swap] at back
  · intro h
    exact h.swap hold hnew

def swapped (changes : List (String × Change)) : List (String × Change) :=
  changes.map fun f => (f.1, f.2.swap)

theorem keys_swapped (changes : List (String × Change)) :
    Keyed.keys (swapped changes) = Keyed.keys changes := by
  rw [swapped, Keyed.keys, List.map_map]
  rfl

theorem mem_swapped {changes : List (String × Change)} {path : String} :
    (path, change) ∈ swapped changes ↔ (path, change.swap) ∈ changes := by
  constructor
  · intro inside
    obtain ⟨⟨path', other⟩, member, same⟩ := List.mem_map.mp inside
    obtain ⟨rfl, rfl⟩ := Prod.mk.inj same
    rwa [Change.swap_swap]
  · intro inside
    have member := List.mem_map_of_mem (f := fun f : String × Change => (f.1, f.2.swap)) inside
    rwa [Change.swap_swap] at member

/-- Lists that name the changes between two containers, and those the other way round, have the
same entries but for the sides. -/
theorem Named.perm_swapped {there back : List (String × Change)}
    (listed : Named levels old new there) (listed' : Named levels new old back)
    (hold : old.isJson = true) (hnew : new.isJson = true) (free : old.DotFree)
    (free' : new.DotFree) : back.Perm (swapped there) := by
  have once : (swapped there).Nodup := by
    apply List.Nodup.of_map Prod.fst
    rw [← Keyed.keys, keys_swapped]
    exact listed.once
  apply (List.perm_ext_iff_of_nodup (List.Nodup.of_map Prod.fst listed'.once) once).mpr
  rintro ⟨path, change⟩
  rw [mem_swapped, listed'.mem_iff free' free, listed.mem_iff free free',
    ← IsChange.swap_iff hold hnew, Change.swap_swap]

/-- Two values that are not both containers have one change at most, at the root. -/
theorem between_of_scalar {limit : Int} {same : Bool} (compared : old.equal new = .ok same)
    (plain : (old.isContainer && new.isContainer) = false) :
    between limit old new = .ok (if same then [] else [(rootPath, .replaced old new)]) := by
  have told : unchanged old new = .ok same := by
    rw [unchanged, compared]
    rfl
  simp only [between, edits, told, plain]
  cases same <;> rfl

/-- **The sides exchanged.** Between two values of JSON that have keys without dots, to whatever
limit of depth, there are changes, each under a path of its own, and the changes the other way
round are the same ones, each with the two sides exchanged. -/
theorem between_swap (limit : Int) (hold : old.isJson = true) (hnew : new.isJson = true)
    (free : old.DotFree) (free' : new.DotFree) :
    ∃ there back, between limit old new = .ok there ∧ between limit new old = .ok back ∧
      (Keyed.keys there).Nodup ∧ (Keyed.keys back).Nodup ∧ back.Perm (swapped there) := by
  cases containers : old.isContainer && new.isContainer with
  | true =>
    obtain ⟨left, right⟩ := Bool.and_eq_true_iff.mp containers
    obtain ⟨there, run, listed⟩ := between_named limit hold hnew left right
    obtain ⟨back, run', listed'⟩ := between_named limit hnew hold right left
    have same := listed.perm_swapped listed' hold hnew free free'
    exact ⟨there, back, run, run', listed.once, listed'.once, same⟩
  | false =>
    obtain ⟨same, compared⟩ := Value.equal_json old hold new hnew
    have compared' : new.equal old = .ok same := by
      rw [← Value.equal_comm hold hnew]
      exact compared
    have containers' : (new.isContainer && old.isContainer) = false := by
      rw [Bool.and_comm]
      exact containers
    refine ⟨_, _, between_of_scalar compared containers,
      between_of_scalar compared' containers', ?_⟩
    cases same with
    | true => exact ⟨List.nodup_nil, List.nodup_nil, .refl _⟩
    | false => exact ⟨List.nodup_singleton _, List.nodup_singleton _, .refl _⟩

/-- A list against a mapping with its position for a key: what is removed one way comes first,
and is added last the other way. -/
theorem between_swap_mixed :
    ∃ old new there back, old = .record [("a", .list [.int 1]), ("k", .int 2)] ∧
      new = .record [("a", .record [("0", .text "x")]), ("m", .null)] ∧
      between 3 old new = .ok there ∧ between 3 new old = .ok back ∧
      Keyed.keys there = ["k", "a.0", "m"] ∧ Keyed.keys back = ["m", "a.0", "k"] ∧
      (Keyed.keys there).Nodup ∧ (Keyed.keys back).Nodup ∧ back.Perm (swapped there) := by
  let old : Value := .record [("a", .list [.int 1]), ("k", .int 2)]
  let new : Value := .record [("a", .record [("0", .text "x")]), ("m", .null)]
  have free : old.DotFree := by
    have row : (Value.list [.int 1]).DotFree :=
      .list (List.forall_mem_singleton.mpr (.of_scalar rfl))
    exact .of_parts (List.forall_mem_cons.mpr ⟨⟨by decide, row⟩,
      List.forall_mem_singleton.mpr ⟨by decide, .of_scalar rfl⟩⟩)
  have free' : new.DotFree := by
    have row : (Value.record [("0", .text "x")]).DotFree :=
      .of_parts (List.forall_mem_singleton.mpr ⟨by decide, .of_scalar rfl⟩)
    exact .of_parts (List.forall_mem_cons.mpr ⟨⟨by decide, row⟩,
      List.forall_mem_singleton.mpr ⟨by decide, .of_scalar rfl⟩⟩)
  have listed : (between 3 old new).toOption.any
      (fun there => decide (Keyed.keys there = ["k", "a.0", "m"])) = true := by
    decide +kernel
  have listed' : (between 3 new old).toOption.any
      (fun back => decide (Keyed.keys back = ["m", "a.0", "k"])) = true := by
    decide +kernel
  obtain ⟨there, run, keys⟩ := Outcome.exists_of_any listed
  obtain ⟨back, run', keys'⟩ := Outcome.exists_of_any listed'
  obtain ⟨shown, shown', again, again', swap⟩ :=
    @between_swap old new 3 (by decide) (by decide) free free'
  obtain rfl : there = shown := Except.ok.inj (run.symm.trans again)
  obtain rfl : back = shown' := Except.ok.inj (run'.symm.trans again')
  exact ⟨old, new, there, back, rfl, rfl, run, run', of_decide_eq_true keys,
    of_decide_eq_true keys', swap⟩

end Diff
end Permit

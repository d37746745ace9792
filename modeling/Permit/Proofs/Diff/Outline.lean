import Permit.Proofs.Value.Place

/-!
Values as trees, and changes made to them. In the outline of a value a container of either
shape is a branch under whose keys its parts are, and everything else is a leaf; so a list and a
mapping with its positions for keys have one outline. A change is made at a place of an outline
if it can be: what is removed or replaced must be there, what is added must not be, below a
branch that is. Main statement: changes of which none is made below another one can be made one
after the other if each can be made at first, and each is then all there is at its place and
below (`Outline.makeAll_exists`).
-/
namespace Permit

/-- Neither of two paths begins with the other one. -/
def Path.Apart (p q : List String) : Prop := ¬ p <+: q ∧ ¬ q <+: p

inductive Node where
  | branch
  | leaf (v : Value)

namespace Node

def isBranch : Node → Bool
  | .branch => true
  | .leaf _ => false

inductive Same : Node → Node → Prop where
  | branch : Same .branch .branch
  | leaf {v w : Value} : v.equal w = .ok true → Same (.leaf v) (.leaf w)

end Node

def Outline := List String → Option Node

def Value.node (v : Value) : Node := if v.isContainer then .branch else .leaf v

def Value.outline (v : Value) : Outline := fun place => (v.at? place).map Value.node

/-- What there is after a change, at its place and below. -/
def Change.outline : Change → Outline
  | .removed _ => fun _ => none
  | .added new => new.outline
  | .replaced _ new => new.outline

/-- Two trees with the same branches and with leaves that are unchanged. -/
def Outline.Agrees (o o' : Outline) : Prop := ∀ place, Option.Rel Node.Same (o place) (o' place)

namespace Value

variable {x y : Value}

theorem outline_nil (v : Value) : v.outline [] = some v.node := rfl

theorem outline_cons (v : Value) (key : String) (place : List String) :
    v.outline (key :: place) = (Keyed.find? v.parts key).bind fun part => part.outline place := by
  rw [outline, at?, Option.map_bind]
  rfl

theorem outline_agrees (hx : x.isJson = true) (hy : y.isJson = true)
    (same : x.equal y = .ok true) : x.outline.Agrees y.outline := by
  intro place
  induction place generalizing x y with
  | nil =>
    have containers := isContainer_of_equal hx hy same
    rw [outline_nil, outline_nil, node, node, ← containers]
    split
    · exact .some .branch
    · exact .some (.leaf same)
  | cons key place ih =>
    have parts := equal_parts hx hy same key
    rw [outline_cons, outline_cons]
    cases found : Keyed.find? x.parts key with
    | none =>
      rw [found] at parts
      cases found' : Keyed.find? y.parts key with
      | none => exact .none
      | some b =>
        rw [found'] at parts
        cases parts
    | some a =>
      rw [found] at parts
      cases found' : Keyed.find? y.parts key with
      | none =>
        rw [found'] at parts
        cases parts
      | some b =>
        rw [found'] at parts
        cases parts with
        | some related => exact ih (isJson_part hx found) (isJson_part hy found') related

theorem outline_append {place : List String} (held : x.at? place = some y) (rest : List String) :
    x.outline (place ++ rest) = y.outline rest := by
  rw [outline, outline, at?_append held]

theorem outline_append_none {place : List String} (absent : x.at? place = none)
    (rest : List String) : x.outline (place ++ rest) = none := by
  induction place generalizing x with
  | nil => cases absent
  | cons key place ih =>
    rw [List.cons_append, outline_cons]
    cases found : Keyed.find? x.parts key with
    | none => rfl
    | some part =>
      rw [at?, found] at absent
      exact ih absent

end Value

namespace Outline

/-- A tree in which another one stands at a place. -/
def graft (o : Outline) (place : List String) (part : Outline) : Outline := fun other =>
  if place <+: other then part (other.drop place.length) else o other

/-- Whether a change can be made at a place. -/
def admits (o : Outline) (place : List String) : Change → Bool
  | .removed _ => (o place).isSome
  | .added _ => (o place).isNone && (o place.dropLast).any Node.isBranch
  | .replaced _ _ => (o place).isSome

def make? (o : Outline) (place : List String) (change : Change) : Option Outline :=
  if o.admits place change then some (o.graft place change.outline) else none

/-- Makes changes one after the other, each at the place that its path names. -/
def makeAll? (o : Outline) (changes : List (String × Change)) : Option Outline :=
  changes.foldlM (fun o f => o.make? (Path.segments f.1) f.2) o

variable {o o' part : Outline} {place other : List String}

theorem graft_below (rest : List String) : o.graft place part (place ++ rest) = part rest := by
  simp [graft]

theorem graft_beside (beside : ¬ place <+: other) : o.graft place part other = o other :=
  if_neg beside

/-- Whether a change can be made depends on what stands at its place and above. -/
theorem admits_congr (same : ∀ q, q <+: place → o q = o' q) (change : Change) :
    o.admits place change = o'.admits place change := by
  have here := same place List.prefix_rfl
  have above := same place.dropLast (List.dropLast_prefix place)
  cases change <;> simp only [admits, here, above]

/-- **Making changes.** If none is below another one, all can be made that could be made at
first. At and below the place of each there is what it leaves, and elsewhere what there was. -/
theorem makeAll_exists {changes : List (String × Change)} (o : Outline)
    (apart : changes.Pairwise fun f f' => Path.Apart (Path.segments f.1) (Path.segments f'.1))
    (admits : ∀ f ∈ changes, o.admits (Path.segments f.1) f.2 = true) :
    ∃ out, o.makeAll? changes = some out ∧
      (∀ f ∈ changes, ∀ rest, out (Path.segments f.1 ++ rest) = f.2.outline rest) ∧
      ∀ q, (∀ f ∈ changes, ¬ Path.segments f.1 <+: q) → out q = o q := by
  induction changes generalizing o with
  | nil =>
    refine ⟨o, rfl, fun f inside => ?_, fun q _ => rfl⟩
    cases inside
  | cons f changes ih =>
    obtain ⟨first, apart⟩ := List.pairwise_cons.mp apart
    obtain ⟨now, admits⟩ := List.forall_mem_cons.mp admits
    -- the first change touches nothing at the places of the others or above
    have later : ∀ f' ∈ changes, (o.graft (Path.segments f.1) f.2.outline).admits
        (Path.segments f'.1) f'.2 = true := by
      intro f' inside
      rw [← admits f' inside]
      refine admits_congr (fun q begins => graft_beside fun above => ?_) f'.2
      exact (first f' inside).1 (above.trans begins)
    obtain ⟨out, run, made, kept⟩ := ih _ apart later
    refine ⟨out, ?_, List.forall_mem_cons.mpr ⟨fun rest => ?_, made⟩, fun q beside => ?_⟩
    · rw [makeAll?, List.foldlM_cons, make?, if_pos now]
      exact run
    · rw [kept _ fun f' inside below => ?_, graft_below]
      rcases List.prefix_or_prefix_of_prefix below (List.prefix_append _ rest) with above | above
      · exact (first f' inside).2 above
      · exact (first f' inside).1 above
    · obtain ⟨besideFirst, besideOthers⟩ := List.forall_mem_cons.mp beside
      rw [kept q besideOthers, graft_beside besideFirst]

end Outline
end Permit

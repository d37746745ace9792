import Permit.Proofs.Grant.Compilation
import Permit.Proofs.Grant.Place

/-!
What every compiled tree of grants keeps to: its keys and kinds fit together (`Grant.Shaped`), no
chain of keys is longer than a path may be, and nothing is left to be spread. What is granted for
every element is within what is granted for each single one, so that merging it in once more
(`merge_of_subset`) and spreading all wildcards once more (`close_self`) change nothing.

Main statement: a list of paths compiles to a tree that is `WellShaped` (`compile_wellShaped`).
-/
namespace Permit

namespace PathSet

/-- The segments of paths, or of their ends, are texts that can stand between dots, and no two
neighbours among them select elements. -/
def Formed (S : PathSet) : Prop :=
  ∀ parts ∈ S, (∀ segment ∈ parts, segment ≠ "" ∧ Path.DotFree segment) ∧
    Path.hasNestedSelectors parts = false

variable {S : PathSet} {key : String}

theorem Formed.tail (h : S.Formed) {rest : List String} (inside : key :: rest ∈ S) :
    (∀ segment ∈ rest, segment ≠ "" ∧ Path.DotFree segment) ∧
      Path.hasNestedSelectors rest = false := by
  obtain ⟨named, flat⟩ := h _ inside
  exact ⟨fun segment member => named segment (List.mem_cons_of_mem _ member),
    Grant.flat_tail flat⟩

theorem Formed.below (h : S.Formed) (key : String) : (below S key).Formed :=
  fun _ inside => h.tail inside

theorem Formed.through (h : S.Formed) (key : String) : (through S key).Formed := by
  rintro rest (inside | ⟨_, inside⟩)
  · exact h.tail inside
  · exact h.tail inside

theorem Formed.along (h : S.Formed) (place : List String) :
    (along PathSet.through S place).Formed := by
  induction place generalizing S with
  | nil => exact h
  | cons key place ih => exact ih (h.through key)

theorem Formed.not_selects (h : S.Formed) (selector : Path.isSelector key = true) :
    ¬ Selects (PathSet.through S key) := by
  rintro ⟨next, ⟨rest, inside⟩, selects⟩
  have nested {first : String} (member : first :: next :: rest ∈ S)
      (selector : Path.isSelector first = true) : False := by
    have flat := (h _ member).2
    simp [Path.hasNestedSelectors, selector, selects] at flat
  rcases inside with inside | ⟨_, inside⟩
  · exact nested inside selector
  · exact nested inside Path.isSelector_wildcard

/-- What leads through every element leads through each single one. -/
theorem through_wildcard_subset (selector : Path.isSelector key = true) :
    through S Path.wildcard ⊆ through S key := by
  rw [through_wildcard, through_selector selector]
  exact Set.subset_union_left

/-- A set of paths that asks for elements goes on with selectors only. -/
theorem HasKind.isSelector (h : HasKind S .elements) (nonempty : (PathSet.below S key).Nonempty) :
    Path.isSelector key = true := by
  by_contra field
  exact h.2 ⟨key, nonempty, by simpa using field⟩

end PathSet

namespace Grant

open PathSet

variable {S : PathSet} {g own : Grant} {key : String} {children wider : List (String × Grant)}
  {rests reach : String → PathSet}

/-! ### Spreading once more -/

/-- Merging children into children that they are in already changes nothing. -/
theorem mergeChildren_self (each : ∀ f ∈ wider, ∃ own, Keyed.find? children f.1 = some own ∧
      ∀ place, merge place f.2 (some own) = .ok own) (place : List String) :
    mergeChildren place wider children = .ok children := by
  induction wider with
  | nil => rfl
  | cons f rest ih =>
    obtain ⟨key, g⟩ := f
    obtain ⟨own, found, merged⟩ := each (key, g) (List.mem_cons_self ..)
    have others := ih fun f inside => each f (List.mem_cons_of_mem _ inside)
    rw [mergeChildren, found, merged]
    change mergeChildren place rest (Keyed.put children key own) = .ok children
    rw [Keyed.put_of_find? found, others]

/-- **Merging once more.** A grant that stands for fewer paths adds nothing to one that stands
for more. -/
theorem merge_of_subset (h : Stands through S g) : ∀ {T : PathSet} {own : Grant},
    Stands through T own → S ⊆ T → ∀ place, merge place g (some own) = .ok own := by
  induction h with
  | @node S kind children hasKind nodup present stands ih =>
    intro T own h' subset place
    have mine : Stands through S (.node kind children) := .node hasKind nodup present stands
    have merged : ∀ f ∈ children, ∃ twin, Keyed.find? own.children f.1 = some twin ∧
        ∀ place, merge place f.2 (some twin) = .ok twin := by
      intro f inside
      have found := Keyed.find?_of_mem nodup inside
      have there := (mine.present found).mono (below_mono subset f.1)
      obtain ⟨_, branches⟩ := stands_iff.mp h'
      obtain ⟨twin, found'⟩ := Option.isSome_iff_exists.mp ((branches.present f.1).mpr there)
      exact ⟨twin, found', ih f.1 f.2 found (h'.child found') (through_mono subset f.1)⟩
    have kind' := (stands_iff.mp h').1
    obtain ⟨other, others⟩ := own
    cases kind with
    | whole => rfl
    | fields =>
      obtain rfl : other = .fields := hasKind.eq_of_subset kind' subset (by decide)
      have enter : asFields (Path.ofSegments place) (Path.ofSegments place)
          (some (.node .fields others)) = .ok others := rfl
      exact Outcome.bind_eq_ok_iff.mpr ⟨others, enter,
        Outcome.bind_eq_ok_iff.mpr ⟨others, mergeChildren_self merged place, rfl⟩⟩
    | elements =>
      obtain rfl : other = .elements := hasKind.eq_of_subset kind' subset (by decide)
      have enter : asElements (Path.ofSegments place) (Path.ofSegments place)
          (some (.node .elements others)) = .ok others := rfl
      exact Outcome.bind_eq_ok_iff.mpr ⟨others, enter,
        Outcome.bind_eq_ok_iff.mpr ⟨others, mergeChildren_self merged place, rfl⟩⟩

theorem spread_self (h : Stands through S g) (elements : g.kind = .elements)
    (place : List String) : spread place g.children = .ok g.children := by
  obtain ⟨kind, branches⟩ := stands_iff.mp h
  rw [elements] at kind
  cases found : Keyed.find? g.children Path.wildcard with
  | none => rw [spread, found]
  | some every =>
    simp only [spread, found]
    apply Outcome.mapM_eq_self
    rintro ⟨key, own⟩ inside
    by_cases all : key = Path.wildcard
    · rw [if_pos all]
    · have there := Keyed.find?_of_mem branches.nodup inside
      have wider : through S Path.wildcard ⊆ through S key :=
        through_wildcard_subset (kind.isSelector (h.present there))
      have merged := merge_of_subset (h.child found) (h.child there) wider
      rw [if_neg all, merged]
      rfl

/-- Spreading the wildcards level by level changes nothing where they are spread. -/
theorem closeTo_self (depth : Nat) : ∀ {rests reach : String → PathSet}
    {children : List (String × Grant)}, Branches through rests reach children →
    ∀ place, closeTo depth place children = .ok children := by
  induction depth with
  | zero => exact fun _ _ => rfl
  | succ depth ih =>
    intro rests reach children h place
    rw [closeTo_succ]
    apply Outcome.mapM_eq_self
    rintro ⟨key, g⟩ inside
    have own := h.stands key g (Keyed.find?_of_mem h.nodup inside)
    have opened : (if g.kind = .elements then spread (place ++ [key]) g.children
        else pure g.children) = (.ok g.children : Except PathFault _) := by
      by_cases elements : g.kind = .elements
      · rw [if_pos elements, spread_self own elements]
      · rw [if_neg elements]
        rfl
    have closed := ih (stands_iff.mp own).2 (place ++ [key])
    obtain ⟨kind, children⟩ := g
    exact Outcome.bind_eq_ok_iff.mpr ⟨children, opened,
      Outcome.bind_eq_ok_iff.mpr ⟨children, closed, rfl⟩⟩

theorem close_self (h : Branches through rests reach children) :
    close children = .ok children := closeTo_self _ h []

/-! ### Shapes -/

structure Shaped (g : Grant) : Prop where
  once : (Keyed.keys g.children).Nodup
  whole : g.kind = .whole → g.children = []
  fields : g.kind = .fields → ∀ f ∈ g.children,
    f.1 ≠ "" ∧ Path.DotFree f.1 ∧ Path.isSelector f.1 = false
  elements : g.kind = .elements → ∀ f ∈ g.children,
    Path.isSelector f.1 = true ∧ f.2.kind ≠ .elements
  /-- What is granted for every element is granted for each single one. -/
  spread : g.kind = .elements → ∀ every own key, Keyed.find? g.children Path.wildcard = some every →
    Keyed.find? g.children key = some own → key ≠ Path.wildcard → every.Within own

theorem Stands.shaped (h : Stands through S g) (formed : S.Formed) : g.Shaped := by
  obtain ⟨kind, branches⟩ := stands_iff.mp h
  constructor
  · exact branches.nodup
  · exact h.children_eq_nil
  · intro fields f inside
    rw [fields] at kind
    have nonempty := h.present (Keyed.find?_of_mem branches.nodup inside)
    obtain ⟨rest, member⟩ := nonempty
    obtain ⟨named, free⟩ := (formed _ member).1 f.1 (List.mem_cons_self ..)
    exact ⟨named, free, not_isSelector kind ⟨rest, member⟩⟩
  · intro elements f inside
    rw [elements] at kind
    have found := Keyed.find?_of_mem branches.nodup inside
    have selector := kind.isSelector (h.present found)
    refine ⟨selector, fun nested => ?_⟩
    have below := (stands_iff.mp (h.child found)).1
    rw [nested] at below
    exact formed.not_selects selector below.1
  · intro elements every own key found there _
    rw [elements] at kind
    have selector := kind.isSelector (h.present there)
    exact (h.child found).within (h.child there) (through_wildcard_subset selector)

end Grant

namespace GrantTree

open PathSet Grant

variable {limit : Int} {tree : GrantTree}

structure WellShaped (limit : Int) (tree : GrantTree) : Prop where
  root : tree.root.kind = .fields
  shaped : ∀ place g, tree.root.at? place = some g → g.Shaped
  /-- Below the root, only a whole grant has no parts. -/
  filled : ∀ place g, tree.root.at? place = some g → place ≠ [] → g.kind ≠ .whole →
    g.children ≠ []
  short : ∀ place g, tree.root.at? place = some g → place ≠ [] → (place.length : Int) ≤ limit
  closed : Grant.close tree.children = .ok tree.children

theorem formed_pathSet {texts : List String}
    (formed : ∀ text ∈ texts, Path.WellFormed limit (Path.segments text)) :
    (pathSet texts).Formed := by
  intro parts inside
  obtain ⟨text, member, rfl⟩ := List.mem_map.mp inside
  refine ⟨fun segment there => ⟨?_, Path.dotFree_of_mem_segments there⟩, (formed text member).flat⟩
  rintro rfl
  exact (formed text member).filled there

theorem isSelector_of_mem_pathSet {texts : List String} {first : String} {rest : List String}
    (formed : ∀ text ∈ texts, Path.WellFormed limit (Path.segments text))
    (inside : first :: rest ∈ pathSet texts) : Path.isSelector first = false := by
  obtain ⟨text, member, same⟩ := List.mem_map.mp inside
  have named := (formed text member).named
  rw [same] at named
  simpa using named

/-- Below the top level a grant stands for the ends of the paths that lead there, of which there
are some. -/
theorem stands_below {S : PathSet} {children : List (String × Grant)} {key : String}
    {place : List String} {g : Grant} (h : Branches through (below S) (below S) children)
    (held : (Grant.node .fields children).at? (key :: place) = some g) :
    Stands through (along through (below S key) place) g ∧
      (along through (below S key) place).Nonempty := by
  obtain ⟨child, found, held⟩ := at?_cons.mp held
  change Keyed.find? children key = some child at found
  have own := h.stands key child found
  have some := (h.present key).mp (by rw [found]; rfl)
  exact ⟨own.at? held, own.nonempty_along some held⟩

/-- **Every compiled tree is well shaped.** Whatever the limit on segments is, a list of paths that
compiles has a tree that keeps to all that `WellShaped` says. -/
theorem compile_wellShaped {paths : List Value} (h : compile limit paths = .ok tree) :
    tree.WellShaped limit := by
  rw [← map_textsOf h] at h
  have branches := compile_branches h
  obtain ⟨formed, grown, children, _, _, rfl⟩ := compile_eq_ok_iff.mp h
  have ends := formed_pathSet formed
  constructor
  · rfl
  · intro place g held
    cases place with
    | nil =>
      -- the root may be empty, so that no set of paths asks for it
      cases held
      refine ⟨branches.nodup, nofun, fun _ f inside => ?_, nofun, nofun⟩
      have found := Keyed.find?_of_mem branches.nodup inside
      obtain ⟨rest, member⟩ := (branches.present f.1).mp (by rw [found]; rfl)
      obtain ⟨named, free⟩ := (ends _ member).1 f.1 (List.mem_cons_self ..)
      exact ⟨named, free, isSelector_of_mem_pathSet formed member⟩
    | cons key place =>
      have stands := (stands_below branches held).1
      exact stands.shaped ((ends.below key).along place)
  · intro place g held some parts
    cases place with
    | nil => exact absurd rfl some
    | cons key place => exact (stands_below branches held).1.children_ne_nil parts
  · intro place g held some
    cases place with
    | nil => exact absurd rfl some
    | cons key place =>
      obtain ⟨rest, inside⟩ := (stands_below branches held).2
      obtain ⟨start, long, member⟩ := exists_of_mem_along inside
      obtain ⟨text, given, same⟩ := List.mem_map.mp member
      have short := (formed text given).short
      simp only [same, List.length_cons, List.length_append] at short ⊢
      omega
  · exact close_self branches

/-- A wildcard below a wildcard, and a position below each: what is granted for every element of
the inner list is granted below the outer position, beside the position that stood there. -/
theorem compile_wellShaped_inner :
    ∃ tree, compile 5 [.text "a.*.b.*", .text "a.0.b.1.c", .text "d"] = .ok tree ∧
      (tree.root.at? ["a", "0", "b"]).map (fun g => Keyed.keys g.children) = some ["1", "*"] ∧
      tree.WellShaped 5 := by
  have built : (compile 5 [.text "a.*.b.*", .text "a.0.b.1.c", .text "d"]).toOption.any
      (fun tree => decide ((tree.root.at? ["a", "0", "b"]).map
        (fun g => Keyed.keys g.children) = some ["1", "*"])) = true := by
    decide +kernel
  obtain ⟨tree, run, keys⟩ := Outcome.exists_of_any built
  exact ⟨tree, run, of_decide_eq_true keys, compile_wellShaped run⟩

end GrantTree
end Permit

import Permit.Proofs.Projection.Trimmed
import Permit.Proofs.Value.Position

/-!
Where everything in a projection comes from, by any tree and of any value. At each position
the projection is beside what the value holds there (`Grant.Left`): an equal value where the
grants keep all of it, a mapping with some of its keys, a sequence cut after some of its
elements, or an empty container in the place of an element that does not fit. Main statement:
so is the whole projection, and its leaves are just those of the value that the grants lead to
(`GrantTree.project_confined`).
-/
namespace Permit

namespace Grant

/-- A value of a shape that a grant does not fit. -/
def Misfit (g : Grant) (v : Value) : Prop :=
  (g.kind = .fields ∧ v.kind ≠ .mapping) ∨ (g.kind = .elements ∧ v.kind ≠ .sequence)

/-- The grant for what lies one step below: of a field, the one under its name; of an element,
its own or that of every element, if no element before it is without one. -/
inductive Next : Grant → Step → Grant → Prop where
  | field {g own : Grant} {name : String} : g.kind = .fields →
      Keyed.find? g.children name = some own → Next g (.key (.text name)) own
  | element {g own : Grant} {index : Nat} : g.kind = .elements →
      (∀ earlier < index, (g.element? (earlier : Int)).isSome) →
      g.element? (index : Int) = some own → Next g (.index index) own

inductive Leads : Grant → List Step → Grant → Prop where
  | here (g : Grant) : Leads g [] g
  | step {g own h : Grant} {step : Step} {place : List Step} :
      Next g step own → Leads own place h → Leads g (step :: place) h

/-- A grant keeps, as it is, what lies at a place below: a whole grant anything, a grant of
elements with none for any of them every element. -/
inductive Copies (g : Grant) : List Step → Prop where
  | whole {place : List Step} : g.kind = .whole → Copies g place
  | elements {index : Nat} {place : List Step} :
      g.kind = .elements → g.children = [] → Copies g (.index index :: place)

/-- A chain of grants ends at or above a place, in a grant that keeps what is there as it is. -/
def Opens (g : Grant) (place : List Step) : Prop :=
  ∃ start rest h, place = start ++ rest ∧ g.Leads start h ∧ h.Copies rest

/-- What may be left at a place, beside what the value holds there. -/
inductive Left (g : Grant) (place : List Step) : Value → Value → Prop where
  | copied {v : Value} : g.Opens place → Left g place v v
  | mapping {h : Grant} {entries kept : List (Value × Value)} :
      g.Leads place h → h.kind = .fields →
      (kept.map (·.1)).Sublist (entries.map (·.1)) → Left g place (.map entries) (.map kept)
  | sequence {h : Grant} {v : Value} {items kept : List Value} :
      g.Leads place h → h.kind = .elements → v.items? = some items →
      kept.length ≤ items.length → (h.children = [] → kept = items) →
      Left g place v (.list kept)
  /-- Of an element that does not fit its grant nothing is left. -/
  | hollow {h : Grant} {v : Value} {start : List Step} {index : Nat} :
      place = start ++ [.index index] → g.Leads place h → h.Misfit v →
      Left g place v h.placeholder

variable {g own : Grant} {v w p q x : Value} {step : Step} {place : List Step}

theorem project_eq_none_iff : g.project v = none ↔ g.Misfit v := by
  cases kind : g.kind <;> cases v <;> simp [project, Misfit, kind, Value.kind]

/-! ### One step further -/

theorem Next.opens (next : g.Next step own) (h : own.Opens place) : g.Opens (step :: place) := by
  obtain ⟨start, rest, last, rfl, leads, copies⟩ := h
  exact ⟨step :: start, rest, last, rfl, .step next leads, copies⟩

theorem Next.left (next : g.Next step own) (h : own.Left place v p) :
    g.Left (step :: place) v p := by
  cases h with
  | copied opens => exact .copied (next.opens opens)
  | mapping leads kind keys => exact .mapping (.step next leads) kind keys
  | sequence leads kind items shorter all =>
    exact .sequence (.step next leads) kind items shorter all
  | hollow last leads misfit =>
    exact .hollow (last ▸ (List.cons_append ..).symm) (.step next leads) misfit

theorem opens_of_copies (h : g.Copies place) : g.Opens place := ⟨[], place, g, rfl, .here g, h⟩

/-- A place that is open is so at once or after a step to the next grant. -/
theorem opens_cons_iff :
    g.Opens (step :: place) ↔
      g.Copies (step :: place) ∨ ∃ own, g.Next step own ∧ own.Opens place := by
  constructor
  · rintro ⟨start, rest, last, same, leads, copies⟩
    cases leads with
    | here =>
      rw [List.nil_append] at same
      exact .inl (same ▸ copies)
    | step next leads =>
      obtain ⟨rfl, rfl⟩ := List.cons.inj same
      exact .inr ⟨_, next, _, _, _, rfl, leads, copies⟩
  · rintro (copies | ⟨own, next, opens⟩)
    · exact opens_of_copies copies
    · exact next.opens opens

theorem opens_nil_iff : g.Opens [] ↔ g.kind = .whole := by
  constructor
  · rintro ⟨start, rest, last, same, leads, copies⟩
    obtain ⟨rfl, rfl⟩ := List.nil_eq_append_iff.mp same
    cases leads
    cases copies
    assumption
  · exact fun kind => opens_of_copies (.whole kind)

/-! ### Elements -/

theorem children_ne_nil {index : Int} (grant : g.element? index = some own) : g.children ≠ [] := by
  intro none
  simp [element?, none, Keyed.find?] at grant

theorem isSome_element?_of_lt {items : List Value} {start index : Nat}
    (bound : index < (projectItems g start items).length) :
    (g.element? ((start + index : Nat) : Int)).isSome := by
  induction items generalizing start index with
  | nil => cases bound
  | cons v rest ih =>
    rw [projectItems] at bound
    cases found : g.element? start with
    | none =>
      rw [found] at bound
      cases bound
    | some own =>
      rw [found] at bound
      cases index with
      | zero => simp [found]
      | succ index =>
        have inner := @ih (start + 1) index (Nat.lt_of_succ_lt_succ bound)
        rwa [Nat.add_right_comm, Nat.add_assoc] at inner

/-- An element is kept if no element up to it is without a grant. -/
theorem getElem?_projectItems_of {items : List Value} {start index : Nat}
    (earlier : ∀ i < index, (g.element? ((start + i : Nat) : Int)).isSome)
    (grant : g.element? ((start + index : Nat) : Int) = some own)
    (held : items[index]? = some v) :
    (projectItems g start items)[index]? = some ((own.project v).getD own.placeholder) := by
  induction items generalizing start index with
  | nil => cases held
  | cons w rest ih =>
    cases index with
    | zero =>
      obtain rfl : w = v := Option.some.inj held
      rw [Nat.add_zero] at grant
      simp [projectItems, grant]
    | succ index =>
      obtain ⟨first, found⟩ := Option.isSome_iff_exists.mp (earlier 0 (Nat.succ_pos index))
      rw [Nat.add_zero] at found
      simp only [projectItems, found, List.getElem?_cons_succ]
      refine ih (fun i less => ?_) ?_ held
      · have inner := earlier (i + 1) (Nat.succ_lt_succ less)
        rwa [← Nat.add_assoc, Nat.add_right_comm] at inner
      · rwa [← Nat.add_assoc, Nat.add_right_comm] at grant

/-- An element that is kept has the next grant. -/
theorem next_of_kept {items : List Value} {index : Nat} (kind : g.kind = .elements)
    (kept : (projectItems g 0 items)[index]? = some p) :
    ∃ v own, items[index]? = some v ∧ g.Next (.index index) own ∧
      p = (own.project v).getD own.placeholder := by
  obtain ⟨v, own, held, grant, same⟩ := getElem?_projectItems kept
  rw [Nat.zero_add] at grant
  refine ⟨v, own, held, .element kind (fun earlier less => ?_) grant, same⟩
  have bound := (List.getElem?_eq_some_iff.mp kept).1
  have inner : (g.element? ((0 + earlier : Nat) : Int)).isSome :=
    isSome_element?_of_lt (Nat.lt_trans less bound)
  rwa [Nat.zero_add] at inner

/-! ### Position by position -/

theorem holds_placeholder (h : g.placeholder.Holds place x) : place = [] ∧ x = g.placeholder := by
  rw [placeholder] at h ⊢
  split at h
  next =>
    cases h with
    | here => simp_all
    | index sequence held _ =>
      cases sequence
      cases held
  next =>
    cases h with
    | here => simp_all
    | key inside _ => cases inside
    | index sequence _ _ => cases sequence

/-- **What is left at each position**, and what the value holds there. -/
theorem project_left : ∀ {place : List Step} {g : Grant} {v p q : Value},
    g.project v = some p → p.Holds place q → ∃ w, v.Holds place w ∧ g.Left place w q := by
  intro place
  induction place with
  | nil =>
    intro g v p q kept held
    obtain rfl := Value.holds_nil_iff.mp held
    refine ⟨v, .here v, ?_⟩
    rcases project_cases kept with ⟨kind, rfl⟩ | ⟨kind, entries, rfl, rfl⟩ |
      ⟨kind, items, sequence, rfl⟩
    · exact .copied (opens_nil_iff.mpr kind)
    · exact .mapping (.here g) kind (sublist_keys_projectEntries _ _)
    · refine .sequence (.here g) kind sequence ?_ fun none => by simp [none]
      split
      · exact Nat.le_refl _
      · exact length_projectItems_le g 0 items
  | cons step place ih =>
    intro g v p q kept held
    rcases project_cases kept with ⟨kind, rfl⟩ | ⟨kind, entries, rfl, rfl⟩ |
      ⟨kind, items, sequence, rfl⟩
    · exact ⟨q, held, .copied (opens_of_copies (.whole kind))⟩
    · cases held with
      | key inside held =>
        obtain ⟨name, own, w, rfl, given, grant, fits⟩ := mem_projectEntries.mp inside
        obtain ⟨x, there, left⟩ := ih fits held
        exact ⟨x, .key given there, (Next.field kind grant).left left⟩
      | index sequence _ _ => cases sequence
    · cases held with
      | @index _ r _ _ index _ same at' held =>
        cases same
        by_cases none : g.children = []
        · simp only [none, List.isEmpty_nil, if_true] at at'
          exact ⟨q, .index sequence at' held, .copied (opens_of_copies (.elements kind none))⟩
        · simp only [List.isEmpty_iff, none, if_false] at at'
          obtain ⟨w, own, given, next, rfl⟩ := next_of_kept kind at'
          cases fits : own.project w with
          | some r =>
            rw [fits] at held
            obtain ⟨x, there, left⟩ := ih fits held
            exact ⟨x, .index sequence given there, next.left left⟩
          | none =>
            rw [fits] at held
            obtain ⟨rfl, rfl⟩ := holds_placeholder held
            refine ⟨w, .index sequence given (.here w), ?_⟩
            exact .hollow (List.nil_append _).symm (.step next (.here own))
              (project_eq_none_iff.mp fits)

theorem Left.opens_of_scalar (h : g.Left place v x) (plain : x.isContainer = false) :
    v = x ∧ g.Opens place := by
  cases h with
  | copied opens => exact ⟨rfl, opens⟩
  | mapping | sequence => cases plain
  | @hollow h =>
    rw [placeholder] at plain
    split at plain <;> cases plain

/-- What the grants lead to is kept. -/
theorem exists_project_of_opens : ∀ {place : List Step} {g : Grant} {v x : Value},
    g.Opens place → v.Holds place x → ∃ p, g.project v = some p ∧ p.Holds place x := by
  intro place
  induction place with
  | nil =>
    intro g v x opens held
    exact ⟨v, project_of_whole (opens_nil_iff.mp opens) v, held⟩
  | cons step place ih =>
    intro g v x led held
    rcases opens_cons_iff.mp led with copies | ⟨own, next, opens⟩
    · cases copies with
      | whole kind => exact ⟨v, project_of_whole kind v, held⟩
      | elements kind none =>
        cases held with
        | index sequence at' held =>
          refine ⟨_, project_of_elements kind sequence, ?_⟩
          simp only [none, List.isEmpty_nil, if_true]
          exact .index rfl at' held
    · cases next with
      | @field own name kind grant =>
        cases held with
        | @key entries _ w _ _ inside held =>
          obtain ⟨p, fits, kept⟩ := ih opens held
          refine ⟨_, project_of_fields kind entries, .key ?_ kept⟩
          exact mem_projectEntries.mpr ⟨name, own, w, rfl, inside, grant, fits⟩
      | @element own index kind earlier grant =>
        cases held with
        | @index _ w _ items _ _ sequence at' held =>
          obtain ⟨p, fits, kept⟩ := ih opens held
          have there : (projectItems g 0 items)[index]? =
              .some ((own.project w).getD own.placeholder) :=
            getElem?_projectItems_of (by simpa using earlier) (by simpa using grant) at'
          rw [fits, Option.getD_some] at there
          refine ⟨_, project_of_elements kind sequence, ?_⟩
          simp only [List.isEmpty_iff, children_ne_nil grant, if_false]
          exact .index rfl there kept

end Grant

namespace GrantTree

open Grant

def top (tree : GrantTree) : Grant := .node .fields tree.children

theorem project_eq_top (tree : GrantTree) (v : Value) :
    tree.project v = (tree.top.project v).getD (.map []) := by
  cases v <;> rfl

/-- What lies below the root of a projection is left of what the value holds there. -/
theorem project_below {tree : GrantTree} {v q : Value} {place : List Step} (some : place ≠ [])
    (held : (tree.project v).Holds place q) : ∃ w, v.Holds place w ∧ tree.top.Left place w q := by
  rw [project_eq_top] at held
  cases fits : tree.top.project v with
  | some p =>
    rw [fits] at held
    exact project_left fits held
  | none =>
    rw [fits] at held
    exact absurd (@holds_placeholder tree.top _ _ held).1 some

/-- The leaves of a projection are those of the value, where the grants lead. -/
theorem holds_of_project {tree : GrantTree} {v x : Value} {place : List Step}
    (plain : x.isContainer = false) (held : (tree.project v).Holds place x) :
    v.Holds place x ∧ tree.top.Opens place := by
  have some : place ≠ [] := by
    rintro rfl
    obtain rfl := Value.holds_nil_iff.mp held
    rw [tree.isContainer_project] at plain
    cases plain
  obtain ⟨w, there, left⟩ := project_below some held
  obtain ⟨rfl, opens⟩ := left.opens_of_scalar plain
  exact ⟨there, opens⟩

/-- **Nothing is invented and nothing else let through.** The projection of a value is a
mapping with some of its keys, in their order, and with none if the value is no mapping. At
every position below, what is there is left of what the value holds at that position. And a
leaf is there if and only if the value holds it there and the grants lead to it; under keys as
mappings have them, the value holds nothing else there. -/
theorem project_confined (tree : GrantTree) (v : Value) :
    (∃ kept, tree.project v = .map kept ∧ (kept.map (·.1)).Sublist v.keys) ∧
    (∀ place q, place ≠ [] → (tree.project v).Holds place q →
      ∃ w, v.Holds place w ∧ tree.top.Left place w q) ∧
    ∀ place x, x.isContainer = false →
      ((tree.project v).Holds place x ↔ v.Holds place x ∧ tree.top.Opens place) ∧
      (v.WellKeyed → v.Holds place x → ∀ y, v.Holds place y → y = x) := by
  refine ⟨?_, fun place q => project_below, fun place x plain => ⟨⟨?_, ?_⟩, ?_⟩⟩
  · cases v with
    | map entries => exact ⟨_, rfl, sublist_keys_projectEntries tree.children entries⟩
    | _ => exact ⟨[], rfl, List.nil_sublist _⟩
  · exact holds_of_project plain
  · rintro ⟨there, opens⟩
    obtain ⟨p, fits, held⟩ := exists_project_of_opens opens there
    rwa [project_eq_top, fits]
  · exact fun keyed there y other => keyed.holds_unique other there

/-- An element that does not fit, a sequence that is cut, and a key that is no text. -/
theorem project_confined_rows :
    ∃ (tree : GrantTree) (v : Value),
      v = .map [(.null, .int 1), (.text "rows",
        .tuple [.map [(.text "y", .int 2), (.text "x", .null)], .int 3, .int 4])] ∧
      tree.project v = .map [(.text "rows", .list [.map [(.text "x", .null)], .list []])] ∧
      (∃ w, v.Holds [.key (.text "rows"), .index 1] w ∧
        tree.top.Left [.key (.text "rows"), .index 1] w (.list [])) ∧
      (v.Holds [.key (.text "rows"), .index 0, .key (.text "x")] .null ∧
        tree.top.Opens [.key (.text "rows"), .index 0, .key (.text "x")]) := by
  refine ⟨⟨.node .fields [("rows", .node .elements [("0", .node .fields [("x", .whole)]),
    ("1", .node .elements [("*", .whole)])])], []⟩, _, rfl, rfl, ?_, ?_⟩
  · refine (project_confined _ _).2.1 _ _ (List.cons_ne_nil _ _) ?_
    exact .key (List.mem_singleton_self _) (.index rfl rfl (.here _))
  · refine ((project_confined _ _).2.2 _ _ rfl).1.mp ?_
    exact .key (List.mem_singleton_self _)
      (.index rfl rfl (.key (List.mem_singleton_self _) (.here _)))

end GrantTree
end Permit

import Permit.Proofs.Constraint.Resolution
import Permit.Proofs.Grant.Compilation
import Permit.Proofs.Projection.Trimmed

namespace Permit

namespace Grant

open PathSet

theorem at?_placeholder (g : Grant) {place : List String} {x : Value}
    (held : g.placeholder.at? place = some x) : x.isContainer = true := by
  have parts : g.placeholder.parts = [] ∧ g.placeholder.isContainer = true := by
    rw [placeholder]
    split <;> exact ⟨rfl, rfl⟩
  cases place with
  | nil => exact Option.some.inj held ▸ parts.2
  | cons key rest =>
    obtain ⟨part, found, _⟩ := Value.at?_cons.mp held
    rw [parts.1] at found
    cases found

theorem nil_mem_of_whole {S : PathSet} (kind : HasKind S .whole) (nonempty : S.Nonempty) :
    [] ∈ S := by
  obtain ⟨path, inside⟩ := nonempty
  cases path with
  | nil => exact inside
  | cons key rest =>
    have none := below_eq_empty_of_whole kind key
    exact absurd (show rest ∈ below S key from inside) (none ▸ Set.notMem_empty rest)

/-- Every leaf that grants of fields keep, where each leaf of a part is reached. -/
theorem fields_reach {fields : List (String × Value)} {children : List (String × Grant)}
    {S : PathSet} {x : Value} {place : List String} (once : (Keyed.keys fields).Nodup)
    (deeper : ∀ f ∈ fields, ∀ {g : Grant} {S : PathSet} {p : Value} {place : List String},
      Stands through S g → S.Nonempty → g.project f.2 = some p → p.at? place = some x →
      ∃ pattern ∈ S, ∃ inner outer w, place = inner ++ outer ∧ Reaches pattern f.2 inner w)
    (branches : Branches through (below S) (below S) children)
    (names : ∀ k, (below S k).Nonempty → Path.isSelector k = false)
    (plain : x.isContainer = false)
    (held : (Value.record (keptFields children fields)).at? place = some x) :
    ∃ pattern ∈ S, ∃ inner outer w,
      place = inner ++ outer ∧ Reaches pattern (.record fields) inner w := by
  cases place with
  | nil =>
    cases held
    cases plain
  | cons key rest =>
    obtain ⟨q, found, held⟩ := Value.at?_cons.mp held
    rw [Value.parts_record, find?_keptFields _ once] at found
    obtain ⟨w, given, found⟩ := Option.bind_eq_some_iff.mp found
    obtain ⟨own, grant, kept⟩ := Option.bind_eq_some_iff.mp found
    have nonempty : (below S key).Nonempty := (branches.present key).mp (by rw [grant]; rfl)
    obtain ⟨pattern, member, inner, outer, y, rfl, reaches⟩ :=
      deeper _ (Keyed.mem_of_find? given) (branches.stands key own grant) nonempty kept held
    have name : key ≠ Path.wildcard := by
      rintro rfl
      have field := names _ nonempty
      rw [Path.isSelector_wildcard] at field
      cases field
    refine ⟨key :: pattern, member, key :: inner, outer, y, rfl, .part name ?_ reaches⟩
    rw [Value.parts_record]
    exact given

/-- Every leaf that a grant of elements keeps, where each leaf of an element is reached. -/
theorem elements_reach {items : List Value} {g : Grant} {S : PathSet} {x : Value}
    {place : List String}
    (deeper : ∀ w ∈ items, ∀ {g : Grant} {S : PathSet} {p : Value} {place : List String},
      Stands through S g → S.Nonempty → g.project w = some p → p.at? place = some x →
      ∃ pattern ∈ S, ∃ inner outer y, place = inner ++ outer ∧ Reaches pattern w inner y)
    (stands : Stands through S g) (plain : x.isContainer = false)
    (held : (Value.list (projectItems g 0 items)).at? place = some x) :
    ∃ pattern ∈ S, ∃ inner outer y,
      place = inner ++ outer ∧ Reaches pattern (.list items) inner y := by
  cases place with
  | nil =>
    cases held
    cases plain
  | cons key rest =>
    obtain ⟨q, found, held⟩ := Value.at?_cons.mp held
    obtain ⟨index, numeral, given⟩ :=
      Diff.exists_index_of_mem_positions (Keyed.mem_of_find? found)
    simp only [Nat.zero_add] at numeral
    subst numeral
    obtain ⟨w, own, there, grant, rfl⟩ := getElem?_projectItems given
    rw [Nat.zero_add] at grant
    cases inner : own.project w with
    | none =>
      rw [inner] at held
      rw [at?_placeholder own held] at plain
      cases plain
    | some q =>
      rw [inner] at held
      obtain ⟨below, some⟩ := element_stands stands grant
      obtain ⟨pattern, member, inner, outer, y, rfl, reaches⟩ :=
        deeper w (List.mem_of_getElem? there) below some inner held
      rcases member with member | ⟨_, member⟩
      · have part : Keyed.find? (Value.list items).parts (Number.natText index) = .some w := by
          have found := @Diff.find?_positions items 0 index
          rw [Nat.zero_add] at found
          exact found.trans there
        exact ⟨_, member, _ :: inner, outer, y, rfl,
          .part (Number.natText_ne_wildcard index) part reaches⟩
      · exact ⟨_, member, _ :: inner, outer, y, rfl, .element there reaches⟩

/-- Every leaf that a grant keeps is at or below what one of its paths reaches. -/
theorem project_reaches {v x : Value} (json : v.isJson = true) (plain : x.isContainer = false) :
    ∀ {g : Grant} {S : PathSet} {p : Value} {place : List String}, Stands through S g →
      S.Nonempty → g.project v = some p → p.at? place = some x →
      ∃ pattern ∈ S, ∃ inner outer w, place = inner ++ outer ∧ Reaches pattern v inner w := by
  have whole {v : Value} {g : Grant} {S : PathSet} {place : List String}
      (stands : Stands through S g) (nonempty : S.Nonempty) (kind : g.kind = .whole) :
      ∃ pattern ∈ S, ∃ inner outer w, place = inner ++ outer ∧ Reaches pattern v inner w :=
    ⟨[], nil_mem_of_whole (kind ▸ (stands_iff.mp stands).1) nonempty, [], place, v, rfl, .here v⟩
  induction v, json using Value.isJson_induction with
  | scalar v json scalar =>
    intro g S p place stands nonempty kept held
    rcases project_cases kept with ⟨kind, _⟩ | ⟨_, _, rfl, _⟩ | ⟨_, _, sequence, _⟩
    · exact whole stands nonempty kind
    · cases scalar
    · cases (Value.isContainer_of_items? sequence).symm.trans scalar
  | list items parts ih =>
    intro g S p place stands nonempty kept held
    rcases project_cases kept with ⟨kind, _⟩ | ⟨_, _, none, _⟩ | ⟨kind, _, same, rfl⟩
    · exact whole stands nonempty kind
    · cases none
    · cases same
      simp only [elements_children stands kind] at held
      exact elements_reach ih stands plain held
  | record fields once parts ih =>
    intro g S p place stands nonempty kept held
    rcases project_cases kept with ⟨kind, _⟩ | ⟨kind, _, same, rfl⟩ | ⟨_, _, none, _⟩
    · exact whole stands nonempty kind
    · obtain rfl := Value.map.inj same
      rw [projectEntries_fields] at held
      exact fields_reach once ih (fields_branches stands kind)
        (fun k nonempty => not_isSelector (kind ▸ (stands_iff.mp stands).1) nonempty) plain held
    · cases none

end Grant

namespace GrantTree

open PathSet Grant

/-- **Coverage.** Every leaf of the projection of data lies at or below a place that one
of the paths reaches in the data. -/
theorem project_reaches {limit : Int} {texts : List String} {tree : GrantTree} {data x : Value}
    {place : List String} (compiles : compile limit (texts.map Value.text) = .ok tree)
    (json : data.isJson = true) (plain : x.isContainer = false)
    (held : (tree.project data).at? place = some x) :
    ∃ text ∈ texts, ∃ inner outer w,
      place = inner ++ outer ∧ Reaches (Path.segments text) data inner w := by
  have mapping : ∃ fields, data = .record fields ∧
      tree.project data = .record (keptFields tree.children fields) := by
    have hollow (empty : tree.project data = .map []) : False := by
      rw [empty] at held
      cases place with
      | nil => cases held; cases plain
      | cons key rest => cases held
    cases data with
    | map entries =>
      obtain ⟨fields, same⟩ := Value.exists_record_of_isJson json
      refine ⟨fields, same, ?_⟩
      rw [same, Value.record, project, projectEntries_fields]
      rfl
    | _ => exact absurd rfl hollow
  obtain ⟨fields, rfl, kept⟩ := mapping
  obtain ⟨once, parts⟩ := Value.isJson_record.mp json
  rw [kept] at held
  have formed := (compile_eq_ok_iff.mp compiles).1
  have names (k : String) (nonempty : (below (pathSet texts) k).Nonempty) :
      Path.isSelector k = false := by
    obtain ⟨rest, inside⟩ := nonempty
    obtain ⟨text, given, same⟩ := List.mem_map.mp inside
    have named := (formed text given).named
    rw [same] at named
    exact named
  obtain ⟨pattern, member, inner, outer, w, rfl, reaches⟩ :=
    fields_reach once (fun f inside => Grant.project_reaches (parts f inside) plain)
      (compile_branches compiles) names plain held
  obtain ⟨text, given, rfl⟩ := List.mem_map.mp member
  exact ⟨text, given, inner, outer, w, rfl, reaches⟩

end GrantTree
end Permit

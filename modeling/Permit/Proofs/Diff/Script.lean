import Permit.Proofs.Diff.Change
import Permit.Proofs.Diff.Outline

/-!
The changes between two containers of JSON as an edit script. Every change tells what the two
hold at its place (`IsChange.tells`), no change is made below another one (`IsChange.apart`), and
where no change is made the two agree (`agrees_off_changes`). Main statement: made one after the
other, the changes turn the first container, seen as a tree, into the second, whatever the limit
of depth is (`between_script`).
-/
namespace Permit

namespace Diff

variable {levels : Nat} {old new was v : Value} {place rest : List String} {key : String}
  {change other : Change}

/-- What a change tells of two values: at its place only the first holds something, only the
second does, or both do and not the same. -/
def Tells (old new : Value) (place : List String) : Change → Prop
  | .removed was => old.at? place = some was ∧ new.at? place = none
  | .added v => old.at? place = none ∧ new.at? place = some v
  | .replaced was v =>
    old.at? place = some was ∧ new.at? place = some v ∧ was.equal v = .ok false

namespace IsChange

theorem tells (h : IsChange levels old new place change) : Tells old new place change := by
  induction h with
  | removed before after => simp [Tells, Value.at?, before, after]
  | added before after => simp [Tells, Value.at?, before, after]
  | replaced before after differ _ => simp [Tells, Value.at?, before, after, differ]
  | @within levels old new was v key rest change before after _ _ _ _ ih =>
    cases change <;> simpa only [Tells, Value.at?, before, after, Option.bind_some] using ih

/-- At one place there is one change. -/
theorem unique (h : IsChange levels old new place change)
    (h' : IsChange levels old new place other) : change = other := by
  have tells := h.tells
  have tells' := h'.tells
  cases change <;> cases other <;> simp_all [Tells]

/-- The place of a change is one of the two values, so its keys have no dots if theirs have none. -/
theorem dotFree (h : IsChange levels old new place change) (free : old.DotFree)
    (free' : new.DotFree) : ∀ key ∈ place, Path.DotFree key := by
  have tells := h.tells
  cases change with
  | removed was => exact free place was tells.1
  | added v => exact free' place v tells.2
  | replaced was v => exact free place was tells.1

theorem admits (h : IsChange levels old new place change) (container : old.isContainer = true) :
    old.outline.admits place change = true := by
  induction h with
  | removed before _ =>
    simp [Outline.admits, Value.outline, Value.at?, before]
  | added before _ =>
    simp [Outline.admits, Value.outline, Value.at?, before, Value.node, container, Node.isBranch]
  | replaced before _ =>
    simp [Outline.admits, Value.outline, Value.at?, before]
  | @within levels old new was v key rest change before after _ left _ inner ih =>
    -- the place goes on, so what lies above it lies below the key too
    obtain ⟨next, rest, rfl⟩ := inner.exists_cons
    have inner := ih left
    cases change <;>
      simpa [Outline.admits, Value.outline_cons, before] using inner

/-- **No change below another one.** -/
theorem eq_of_isPrefix (h : IsChange levels old new place change)
    (h' : IsChange levels old new rest other) (below : place <+: rest) : place = rest := by
  induction h generalizing rest with
  | removed before after =>
    obtain ⟨more, rfl⟩ := below
    obtain ⟨rfl, _⟩ := (removed_iff before after).mp h'
    rfl
  | added before after =>
    obtain ⟨more, rfl⟩ := below
    obtain ⟨rfl, _⟩ := (added_iff before after).mp h'
    rfl
  | replaced before after differ last =>
    obtain ⟨more, rfl⟩ := below
    obtain ⟨rfl, _⟩ := (replaced_iff before after differ last).mp h'
    rfl
  | within before after differ left right _ ih =>
    obtain ⟨key, more, rfl⟩ := h'.exists_cons
    obtain ⟨rfl, inside⟩ := List.cons_prefix_cons.mp below
    rw [ih ((within_iff before after differ left right).mp h') inside]

end IsChange

/-- **Where no change is made**, at a place or above it, two containers agree. -/
theorem agrees_off_changes {q : List String} : ∀ (levels : Nat) {old new : Value},
    old.isJson = true → new.isJson = true → old.isContainer = true → new.isContainer = true →
    (∀ place change, IsChange levels old new place change → ¬ place <+: q) →
    Option.Rel Node.Same (old.outline q) (new.outline q) := by
  induction q with
  | nil =>
    intro levels old new _ _ left right _
    rw [Value.outline_nil, Value.outline_nil, Value.node, Value.node, if_pos left, if_pos right]
    exact .some .branch
  | cons key q ih =>
    intro levels old new hold hnew left right off
    have here {change : Change} : ¬ IsChange levels old new [key] change :=
      fun h => off _ _ h (List.cons_prefix_cons.mpr ⟨rfl, List.nil_prefix⟩)
    rw [Value.outline_cons, Value.outline_cons]
    cases before : Keyed.find? old.parts key with
    | none =>
      cases after : Keyed.find? new.parts key with
      | none => exact .none
      | some v => exact absurd (.added before after) here
    | some was =>
      cases after : Keyed.find? new.parts key with
      | none => exact absurd (.removed before after) here
      | some v =>
        have hwas := Value.isJson_part hold before
        have hv := Value.isJson_part hnew after
        obtain ⟨same, compared⟩ := Value.equal_json was hwas v hv
        cases same with
        | true => exact Value.outline_agrees hwas hv compared q
        | false =>
          -- parts that differ are walked in their turn, or are a change by themselves
          by_cases deeper : was.isContainer = true ∧ v.isContainer = true ∧ 0 < levels
          · obtain ⟨left, right, more⟩ := deeper
            obtain ⟨n, rfl⟩ := Nat.exists_eq_succ_of_ne_zero (Nat.ne_of_gt more)
            refine ih n hwas hv left right fun place change h below => ?_
            exact off _ _ (.within before after compared left right h)
              (List.cons_prefix_cons.mpr ⟨rfl, below⟩)
          · exact absurd (.replaced before after compared deeper) here

/-- What a change leaves is what the second of two values holds at its place. -/
theorem Tells.agrees (tells : Tells old new place change) (json : new.isJson = true)
    (more : List String) :
    Option.Rel Node.Same (change.outline more) (new.outline (place ++ more)) := by
  have held {v : Value} (there : new.at? place = some v) :
      Option.Rel Node.Same (v.outline more) (new.outline (place ++ more)) := by
    have part := Value.isJson_at json there
    rw [Value.outline_append there]
    exact Value.outline_agrees part part (Value.equal_self v part) more
  cases change with
  | removed was =>
    rw [Value.outline_append_none tells.2]
    exact .none
  | added v => exact held tells.2
  | replaced was v => exact held tells.2.1

/-- Under keys without dots, the path of an edit names its place. -/
theorem segments_path {e : Edit} (h : IsChange levels old new e.place e.change)
    (free : old.DotFree) (free' : new.DotFree) : Path.segments e.path = e.place := by
  rw [Edit.path, Path.intercalate_dot]
  refine Path.segments_ofSegments ?_ (h.dotFree free free')
  obtain ⟨key, rest, same⟩ := h.exists_cons
  exact same ▸ List.cons_ne_nil key rest

variable {es : List Edit}

theorem collect_eq (reads : ∀ e ∈ es, Path.segments e.path = e.place)
    (once : (es.map (·.place)).Nodup) : collect es = es.map fun e => (e.path, e.change) := by
  refine Keyed.ofList_of_nodup ?_
  have places : (es.map Edit.path).map Path.segments = es.map (·.place) := by
    rw [List.map_map]
    exact List.map_congr_left reads
  rw [Keyed.keys, List.map_map]
  exact List.Nodup.of_map Path.segments (places ▸ once)

theorem apart_of_isChange (changes : ∀ e ∈ es, IsChange levels old new e.place e.change)
    (once : (es.map (·.place)).Nodup) : es.Pairwise fun e e' => Path.Apart e.place e'.place := by
  refine (List.pairwise_map.mp once).imp_of_mem fun {e e'} inside inside' differ => ?_
  have h := changes e inside
  have h' := changes e' inside'
  exact ⟨fun below => differ (h.eq_of_isPrefix h' below),
    fun below => differ (h'.eq_of_isPrefix h below).symm⟩

/-- The changes between two containers, made to the first one, leave the second. -/
theorem makeAll_edits (hold : old.isJson = true) (hnew : new.isJson = true)
    (left : old.isContainer = true) (right : new.isContainer = true)
    (mem : ∀ e, e ∈ es ↔ IsChange levels old new e.place e.change)
    (reads : ∀ e ∈ es, Path.segments e.path = e.place)
    (apart : es.Pairwise fun e e' => Path.Apart e.place e'.place) :
    ∃ out, old.outline.makeAll? (es.map fun e => (e.path, e.change)) = some out ∧
      out.Agrees new.outline := by
  obtain ⟨out, made, within, off⟩ :=
    @Outline.makeAll_exists (es.map fun e => (e.path, e.change)) old.outline
      (List.pairwise_map.mpr <| apart.imp_of_mem fun {e e'} inside inside' beside => by
        rwa [reads e inside, reads e' inside'])
      (List.forall_mem_map.mpr fun e inside => by
        rw [reads e inside]
        exact ((mem e).mp inside).admits left)
  refine ⟨out, made, fun q => ?_⟩
  by_cases below : ∃ e ∈ es, e.place <+: q
  · obtain ⟨e, inside, more, rfl⟩ := below
    have there := within _ (List.mem_map_of_mem inside) more
    rw [reads e inside] at there
    rw [there]
    exact ((mem e).mp inside).tells.agrees hnew more
  · have kept : out q = old.outline q := by
      refine off q (List.forall_mem_map.mpr fun e inside above => below ⟨e, inside, ?_⟩)
      rwa [reads e inside] at above
    rw [kept]
    refine agrees_off_changes levels hold hnew left right fun place change h above => ?_
    exact below ⟨⟨place, change⟩, (mem ⟨place, change⟩).mpr h, above⟩

/-- **An exact edit script.** Between two containers of JSON with keys without dots, to whatever
limit of depth, there are changes such that: made one after the other to the first container,
as a tree, they can all be made and leave the second one; each tells what both hold at its place;
and none is made at or below the place of another one. -/
theorem between_script (limit : Int) (hold : old.isJson = true) (hnew : new.isJson = true)
    (left : old.isContainer = true) (right : new.isContainer = true) (free : old.DotFree)
    (free' : new.DotFree) :
    ∃ changes, between limit old new = .ok changes ∧
      (∃ out, old.outline.makeAll? changes = some out ∧ out.Agrees new.outline) ∧
      (∀ f ∈ changes, Tells old new (Path.segments f.1) f.2) ∧
      changes.Pairwise fun f f' => Path.Apart (Path.segments f.1) (Path.segments f'.1) := by
  obtain ⟨same, compared⟩ := Value.equal_json old hold new hnew
  cases same with
  | true =>
    refine ⟨[], ?_, ⟨old.outline, rfl, Value.outline_agrees hold hnew compared⟩,
      fun f inside => ?_, .nil⟩
    · simp only [between, edits, unchanged, compared]
      rfl
    · cases inside
  | false =>
    obtain ⟨es, run, mem, once⟩ := edits_isChange limit hold hnew compared left right
    have reads : ∀ e ∈ es, Path.segments e.path = e.place :=
      fun e inside => segments_path ((mem e).mp inside) free free'
    have apart := apart_of_isChange (fun e => (mem e).mp) once
    refine ⟨es.map fun e => (e.path, e.change), ?_,
      makeAll_edits hold hnew left right mem reads apart, ?_, ?_⟩
    · rw [between, run, ← collect_eq reads once]
      rfl
    · refine List.forall_mem_map.mpr fun e inside => ?_
      rw [reads e inside]
      exact ((mem e).mp inside).tells
    · refine List.pairwise_map.mpr (apart.imp_of_mem fun {e e'} inside inside' beside => ?_)
      rwa [reads e inside, reads e' inside']

/-- A list against a mapping with its positions for keys, a number that is unchanged, and an
empty container that is added. -/
theorem between_script_mixed :
    ∃ old new changes, old = .record [("a", .list [.int 1, .record [("b", .null)]]), ("k", .int 2)] ∧
      new = .record [("a", .record [("0", .float (.finite false 1 0)),
        ("1", .record [("b", .bool true)])]), ("m", .list [])] ∧
      between 5 old new = .ok changes ∧ Keyed.keys changes = ["k", "a.1.b", "m"] ∧
      (∃ out, old.outline.makeAll? changes = some out ∧ out.Agrees new.outline) ∧
      (∀ f ∈ changes, Tells old new (Path.segments f.1) f.2) ∧
      changes.Pairwise fun f f' => Path.Apart (Path.segments f.1) (Path.segments f'.1) := by
  let old : Value := .record [("a", .list [.int 1, .record [("b", .null)]]), ("k", .int 2)]
  let new : Value := .record [("a", .record [("0", .float (.finite false 1 0)),
    ("1", .record [("b", .bool true)])]), ("m", .list [])]
  have single {key : String} {v : Value} (free : Path.DotFree key) (part : v.DotFree) :
      (Value.record [(key, v)]).DotFree := .of_parts (List.forall_mem_singleton.mpr ⟨free, part⟩)
  have free : old.DotFree := by
    have row : (Value.list [.int 1, .record [("b", .null)]]).DotFree :=
      .of_parts (List.forall_mem_cons.mpr ⟨⟨by decide, .of_scalar rfl⟩,
        List.forall_mem_singleton.mpr ⟨by decide, single (by decide) (.of_scalar rfl)⟩⟩)
    exact .of_parts (List.forall_mem_cons.mpr ⟨⟨by decide, row⟩,
      List.forall_mem_singleton.mpr ⟨by decide, .of_scalar rfl⟩⟩)
  have free' : new.DotFree := by
    have row : (Value.record [("0", .float (.finite false 1 0)),
        ("1", .record [("b", .bool true)])]).DotFree :=
      .of_parts (List.forall_mem_cons.mpr ⟨⟨by decide, .of_scalar rfl⟩,
        List.forall_mem_singleton.mpr ⟨by decide, single (by decide) (.of_scalar rfl)⟩⟩)
    exact .of_parts (List.forall_mem_cons.mpr ⟨⟨by decide, row⟩,
      List.forall_mem_singleton.mpr ⟨by decide, .of_parts fun f inside => by cases inside⟩⟩)
  have listed : (between 5 old new).toOption.any
      (fun changes => decide (Keyed.keys changes = ["k", "a.1.b", "m"])) = true := by
    decide +kernel
  obtain ⟨changes, run, keys⟩ := Outcome.exists_of_any listed
  obtain ⟨others, run', script⟩ :=
    between_script 5 (by decide) (by decide) rfl rfl free free'
  obtain rfl : changes = others := Except.ok.inj (run.symm.trans run')
  exact ⟨old, new, changes, rfl, rfl, run, of_decide_eq_true keys, script⟩

end Diff

end Permit

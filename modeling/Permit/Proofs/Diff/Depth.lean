import Permit.Proofs.Diff.Naming
import Permit.Proofs.Value.Symmetry

/-!
The limit of depth. Two limits list the changes between the same containers at different
levels: a change that lies high enough is one under both limits (`IsChange.of_deeper`), and one
that lies too deep is listed as the two whole parts that it lies in (`IsChange.cut`). The other
way round there is something to be found below every part that is listed as a whole
(`IsChange.exists_deeper`), since containers of one shape that differ have a change
(`exists_change`); a list and a mapping may differ without one.

Main statement: the paths under the lower limit are those under the higher one, cut to as many
segments as the limit says, and no change is hidden (`between_cut`).
-/
namespace Permit

/-- Wherever two values both hold a container, the two are of one shape. -/
def Value.Aligned (old new : Value) : Prop :=
  ∀ place x y, old.at? place = some x → new.at? place = some y →
    x.isContainer = true → y.isContainer = true → x.kind = y.kind

/-- The path of the first so many segments. -/
def Path.cut (count : Nat) (path : String) : String :=
  Path.ofSegments ((Path.segments path).take count)

namespace Value.Aligned

variable {old new was v : Value} {key : String}

theorem part (h : old.Aligned new) (before : Keyed.find? old.parts key = some was)
    (after : Keyed.find? new.parts key = some v) : was.Aligned v := by
  intro place x y held held'
  apply h (key :: place) x y
  · exact at?_cons.mpr ⟨was, before, held⟩
  · exact at?_cons.mpr ⟨v, after, held'⟩

theorem of_parts (kind : old.isContainer = true → new.isContainer = true → old.kind = new.kind)
    (each : ∀ f ∈ old.parts, ∀ f' ∈ new.parts, f.1 = f'.1 → f.2.Aligned f'.2) :
    old.Aligned new := by
  intro place x y held held'
  cases place with
  | nil =>
    cases held
    cases held'
    exact kind
  | cons key rest =>
    obtain ⟨was, before, held⟩ := at?_cons.mp held
    obtain ⟨v, after, held'⟩ := at?_cons.mp held'
    have aligned : was.Aligned v :=
      each _ (Keyed.mem_of_find? before) _ (Keyed.mem_of_find? after) rfl
    exact aligned rest x y held held'

theorem of_scalar (plain : old.isContainer = false) : old.Aligned new := by
  intro place x y held _ container
  obtain rfl := eq_nil_of_at? plain held
  cases held
  rw [plain] at container
  cases container

end Value.Aligned

namespace Diff

variable {shallow deep levels : Nat} {old new was v : Value} {place : List String} {key : String}
  {change : Change}

/-- Of two containers of one shape that differ, some part is on one side only or differs. -/
theorem exists_change_of_parts (hold : old.isJson = true) (hnew : new.isJson = true)
    (left : old.isContainer = true) (right : new.isContainer = true) (kind : old.kind = new.kind)
    (differ : old.equal new = .ok false)
    (both : ∀ key was v, Keyed.find? old.parts key = some was → Keyed.find? new.parts key = some v →
      was.equal v = .ok false → ∃ place, Changed levels old new place) :
    ∃ place, Changed levels old new place := by
  by_contra none
  have same : old.equal new = .ok true := by
    apply (Value.equal_iff_parts hold hnew left right).mpr
    refine ⟨kind, fun key => ?_⟩
    cases before : Keyed.find? old.parts key with
    | none =>
      cases after : Keyed.find? new.parts key with
      | none => exact .none
      | some v => exact absurd ⟨[key], _, .added before after⟩ none
    | some was =>
      cases after : Keyed.find? new.parts key with
      | none => exact absurd ⟨[key], _, .removed before after⟩ none
      | some v =>
        obtain ⟨same, compared⟩ :=
          Value.equal_json was (Value.isJson_part hold before) v (Value.isJson_part hnew after)
        cases same with
        | true => exact .some compared
        | false => exact absurd (both key was v before after compared) none
  rw [same] at differ
  cases differ

/-- **Containers of one shape that differ have a change**, however few levels are walked. -/
theorem exists_change (levels : Nat) : ∀ {old new : Value}, old.isJson = true →
    new.isJson = true → old.isContainer = true → new.isContainer = true → old.Aligned new →
    old.equal new = .ok false → ∃ place, Changed levels old new place := by
  induction levels with
  | zero =>
    intro old new hold hnew left right aligned differ
    have kind := aligned [] old new rfl rfl left right
    apply exists_change_of_parts hold hnew left right kind differ
    intro key was v before after differ
    exact ⟨[key], _, .replaced before after differ (by simp)⟩
  | succ n ih =>
    intro old new hold hnew left right aligned differ
    have kind := aligned [] old new rfl rfl left right
    apply exists_change_of_parts hold hnew left right kind differ
    intro key was v before after differ
    by_cases containers : was.isContainer = true ∧ v.isContainer = true
    · -- two parts that are walked have a change among their own parts
      obtain ⟨rest, change, h⟩ := ih (Value.isJson_part hold before)
        (Value.isJson_part hnew after) containers.1 containers.2 (aligned.part before after) differ
      exact ⟨key :: rest, change, .within before after differ containers.1 containers.2 h⟩
    · have last : ¬ (was.isContainer = true ∧ v.isContainer = true ∧ 0 < n + 1) :=
        fun more => containers ⟨more.1, more.2.1⟩
      exact ⟨[key], _, .replaced before after differ last⟩

namespace IsChange

/-- A change that lies high enough is one under the lower limit too. -/
theorem of_deeper (h : IsChange deep old new place change) (lower : shallow ≤ deep)
    (high : place.length ≤ shallow + 1) : IsChange shallow old new place change := by
  induction h generalizing shallow with
  | removed before after => exact .removed before after
  | added before after => exact .added before after
  | replaced before after differ last =>
    apply IsChange.replaced before after differ
    intro more
    exact last ⟨more.1, more.2.1, by omega⟩
  | within before after differ left right h ih =>
    obtain ⟨next, others, rfl⟩ := h.exists_cons
    simp only [List.length_cons] at high
    obtain ⟨n, rfl⟩ := Nat.exists_eq_succ_of_ne_zero (show shallow ≠ 0 by omega)
    apply IsChange.within before after differ left right
    apply ih (Nat.le_of_succ_le_succ lower)
    simp only [List.length_cons]
    omega

/-- A change that lies too deep for the lower limit lies in two parts that are listed whole. -/
theorem cut (h : IsChange deep old new place change) (low : shallow + 1 < place.length) :
    ∃ was v, IsChange shallow old new (place.take (shallow + 1)) (.replaced was v) := by
  induction h generalizing shallow with
  | removed | added | replaced =>
    simp only [List.length_singleton] at low
    omega
  | @within n old new was v key rest change before after differ left right h ih =>
    cases shallow with
    | zero => exact ⟨was, v, .replaced before after differ (by simp)⟩
    | succ shallow =>
      simp only [List.length_cons] at low
      obtain ⟨was', v', h'⟩ := @ih shallow (by omega)
      exact ⟨was', v', .within before after differ left right h'⟩

/-- Below every change under the lower limit, or at it, there is one under the higher limit. -/
theorem exists_deeper (h : IsChange shallow old new place change) (lower : shallow ≤ deep)
    (hold : old.isJson = true) (hnew : new.isJson = true) (aligned : old.Aligned new) :
    ∃ long, Changed deep old new long ∧ long.take (shallow + 1) = place := by
  induction h generalizing deep with
  | @removed n old new v key before after =>
    exact ⟨[key], ⟨_, .removed before after⟩, List.take_of_length_le (by simp)⟩
  | @added n old new v key before after =>
    exact ⟨[key], ⟨_, .added before after⟩, List.take_of_length_le (by simp)⟩
  | @replaced n old new was v key before after differ last =>
    by_cases more : was.isContainer = true ∧ v.isContainer = true ∧ 0 < deep
    · -- the two parts are walked under the higher limit only, and have a change to be found
      obtain ⟨left, right, more⟩ := more
      obtain ⟨m, rfl⟩ := Nat.exists_eq_succ_of_ne_zero (Nat.ne_of_gt more)
      obtain ⟨rest, change, h⟩ := exists_change m (Value.isJson_part hold before)
        (Value.isJson_part hnew after) left right (aligned.part before after) differ
      have nothing : n = 0 := by
        by_contra some
        exact last ⟨left, right, Nat.pos_of_ne_zero some⟩
      subst nothing
      exact ⟨key :: rest, ⟨change, .within before after differ left right h⟩, rfl⟩
    · exact ⟨[key], ⟨_, .replaced before after differ more⟩, List.take_of_length_le (by simp)⟩
  | @within n old new was v key rest change before after differ left right h ih =>
    obtain ⟨m, rfl⟩ := Nat.exists_eq_succ_of_ne_zero (show deep ≠ 0 by omega)
    obtain ⟨long, ⟨other, h'⟩, same⟩ := ih (Nat.le_of_succ_le_succ lower)
      (Value.isJson_part hold before) (Value.isJson_part hnew after) (aligned.part before after)
    refine ⟨key :: long, ⟨other, .within before after differ left right h'⟩, ?_⟩
    rw [List.take_succ_cons, same]

end IsChange

/-- The places that are changed under the lower limit are those under the higher one, cut. -/
theorem changed_iff_cut (lower : shallow ≤ deep) (hold : old.isJson = true)
    (hnew : new.isJson = true) (aligned : old.Aligned new) :
    Changed shallow old new place ↔
      ∃ long, Changed deep old new long ∧ long.take (shallow + 1) = place := by
  constructor
  · rintro ⟨change, h⟩
    exact h.exists_deeper lower hold hnew aligned
  · rintro ⟨long, ⟨change, h⟩, rfl⟩
    by_cases low : shallow + 1 < long.length
    · obtain ⟨was, v, h'⟩ := h.cut low
      exact ⟨_, h'⟩
    · rw [List.take_of_length_le (by omega)]
      exact ⟨change, h.of_deeper lower (by omega)⟩

theorem Changed.cut_path (h : Changed levels old new place) (free : old.DotFree)
    (free' : new.DotFree) (count : Nat) :
    Path.cut count (Path.ofSegments place) = Path.ofSegments (place.take count) := by
  obtain ⟨key, rest, rfl⟩ := h.exists_cons
  rw [Path.cut, Path.segments_ofSegments (List.cons_ne_nil key rest) (h.dotFree free free')]

/-- The paths that are listed under the lower limit are those under the higher one, cut. -/
theorem mem_keys_iff_cut {above below : List (String × Change)}
    (listed : Named shallow old new above) (listed' : Named deep old new below)
    (lower : shallow ≤ deep) (hold : old.isJson = true) (hnew : new.isJson = true)
    (free : old.DotFree) (free' : new.DotFree) (aligned : old.Aligned new) {path : String} :
    path ∈ Keyed.keys above ↔
      ∃ long ∈ Keyed.keys below, Path.cut (shallow + 1) long = path := by
  rw [listed.mem_keys_iff]
  constructor
  · rintro ⟨place, changed, rfl⟩
    obtain ⟨long, changed', rfl⟩ := (changed_iff_cut lower hold hnew aligned).mp changed
    exact ⟨_, listed'.mem_keys_iff.mpr ⟨long, changed', rfl⟩, changed'.cut_path free free' _⟩
  · rintro ⟨path, inside, rfl⟩
    obtain ⟨long, changed', rfl⟩ := listed'.mem_keys_iff.mp inside
    have changed := (changed_iff_cut lower hold hnew aligned).mpr ⟨long, changed', rfl⟩
    exact ⟨_, changed, changed'.cut_path free free' _⟩

/-- **The limit of depth hides nothing.** Between two containers of JSON that have keys without
dots and are of one shape wherever both hold a container, let there be the changes under a limit
of depth and those under a higher one. The paths under the lower limit are those under the
higher one, cut to as many segments; a change with no more segments is one under both limits, and
where a path is cut there are the two whole parts that the containers hold. There are changes
under the one limit if and only if there are some under the other. -/
theorem between_cut {d e : Nat} (one : 1 ≤ d) (deeper : d ≤ e) (hold : old.isJson = true)
    (hnew : new.isJson = true) (left : old.isContainer = true) (right : new.isContainer = true)
    (free : old.DotFree) (free' : new.DotFree) (aligned : old.Aligned new) :
    ∃ above below, between d old new = .ok above ∧ between e old new = .ok below ∧
      (Keyed.keys above).Nodup ∧ (Keyed.keys below).Nodup ∧
      (∀ path, path ∈ Keyed.keys above ↔ ∃ long ∈ Keyed.keys below, Path.cut d long = path) ∧
      (∀ f ∈ below, (Path.segments f.1).length ≤ d → f ∈ above) ∧
      (∀ f ∈ below, d < (Path.segments f.1).length → ∃ was v,
        old.at? ((Path.segments f.1).take d) = some was ∧
        new.at? ((Path.segments f.1).take d) = some v ∧
        (Path.cut d f.1, .replaced was v) ∈ above) ∧
      (above = [] ↔ below = []) := by
  obtain ⟨above, run, listed⟩ := between_named d hold hnew left right
  obtain ⟨below, run', listed'⟩ := between_named e hold hnew left right
  obtain ⟨levels, rfl⟩ := Nat.exists_eq_succ_of_ne_zero (Nat.ne_of_gt one)
  have level : (((levels + 1 : Nat) : Int) - 1).toNat = levels := by omega
  have lower : levels ≤ ((e : Int) - 1).toNat := by omega
  rw [level] at listed
  have paths (path : String) : path ∈ Keyed.keys above ↔
      ∃ long ∈ Keyed.keys below, Path.cut (levels + 1) long = path :=
    mem_keys_iff_cut listed listed' lower hold hnew free free' aligned
  refine ⟨above, below, run, run', listed.once, listed'.once, paths, ?_, ?_, ?_⟩
  · intro f inside high
    have h := (listed'.mem_iff free free').mp inside
    exact (listed.mem_iff free free').mpr (h.of_deeper lower high)
  · intro f inside low
    have h := (listed'.mem_iff free free').mp inside
    obtain ⟨was, v, h'⟩ := h.cut low
    have tells := h'.tells
    refine ⟨was, v, tells.1, tells.2.1, (listed.mem_iff free free').mpr ?_⟩
    -- the path of the cut place is the cut path, and is read back as that place
    have changed : Changed levels old new ((Path.segments f.1).take (levels + 1)) := ⟨_, h'⟩
    obtain ⟨key, rest, some⟩ := changed.exists_cons
    rwa [Path.cut, Path.segments_ofSegments (some ▸ List.cons_ne_nil key rest)
      (changed.dotFree free free')]
  · constructor
    · rintro rfl
      apply List.eq_nil_iff_forall_not_mem.mpr
      intro f inside
      have cut := (paths _).mpr ⟨f.1, List.mem_map_of_mem inside, rfl⟩
      cases cut
    · rintro rfl
      apply List.eq_nil_iff_forall_not_mem.mpr
      intro f inside
      obtain ⟨long, inside', _⟩ := (paths _).mp (List.mem_map_of_mem inside)
      cases inside'

/-- A list that is listed whole under the lower limit, and its element under the higher one. -/
theorem between_cut_nested :
    ∃ old new above below,
      old = .record [("a", .record [("b", .list [.int 1, .int 2]), ("e", .int 1)])] ∧
      new = .record [("a", .record [("b", .list [.int 1, .int 3]), ("e", .int 2)]),
        ("m", .list [])] ∧
      between (2 : Nat) old new = .ok above ∧ between (3 : Nat) old new = .ok below ∧
      Keyed.keys above = ["a.b", "a.e", "m"] ∧ Keyed.keys below = ["a.b.1", "a.e", "m"] ∧
      (Keyed.keys above).Nodup ∧ (Keyed.keys below).Nodup ∧
      (∀ path, path ∈ Keyed.keys above ↔ ∃ long ∈ Keyed.keys below, Path.cut 2 long = path) ∧
      (∀ f ∈ below, (Path.segments f.1).length ≤ 2 → f ∈ above) ∧
      (∀ f ∈ below, 2 < (Path.segments f.1).length → ∃ was v,
        old.at? ((Path.segments f.1).take 2) = some was ∧
        new.at? ((Path.segments f.1).take 2) = some v ∧
        (Path.cut 2 f.1, .replaced was v) ∈ above) ∧
      (above = [] ↔ below = []) := by
  let row (last : Int) : Value := .list [.int 1, .int last]
  let inner (last e : Int) : Value := .record [("b", row last), ("e", .int e)]
  let old : Value := .record [("a", inner 2 1)]
  let new : Value := .record [("a", inner 3 2), ("m", .list [])]
  have inner_free (last e : Int) : (inner last e).DotFree := by
    have b : Path.DotFree "b" := by decide
    have e' : Path.DotFree "e" := by decide
    have row_free : (row last).DotFree :=
      .list (List.forall_mem_cons.mpr ⟨.of_scalar rfl,
        List.forall_mem_singleton.mpr (.of_scalar rfl)⟩)
    exact .of_parts (List.forall_mem_cons.mpr ⟨⟨b, row_free⟩,
      List.forall_mem_singleton.mpr ⟨e', .of_scalar rfl⟩⟩)
  have free : old.DotFree :=
    .of_parts (List.forall_mem_singleton.mpr ⟨by decide, inner_free 2 1⟩)
  have free' : new.DotFree :=
    .of_parts (List.forall_mem_cons.mpr ⟨⟨by decide, inner_free 3 2⟩,
      List.forall_mem_singleton.mpr ⟨by decide, .list nofun⟩⟩)
  have aligned : old.Aligned new := by
    have rows : (row 2).Aligned (row 3) :=
      .of_parts (fun _ _ => rfl) (List.forall_mem_cons.mpr ⟨fun _ _ _ => .of_scalar rfl,
        List.forall_mem_singleton.mpr fun _ _ _ => .of_scalar rfl⟩)
    have inners : (inner 2 1).Aligned (inner 3 2) :=
      .of_parts (fun _ _ => rfl) (List.forall_mem_cons.mpr
        ⟨List.forall_mem_cons.mpr ⟨fun _ => rows,
          List.forall_mem_singleton.mpr fun other => absurd other (by decide)⟩,
        List.forall_mem_singleton.mpr fun _ _ _ => .of_scalar rfl⟩)
    exact .of_parts (fun _ _ => rfl) (List.forall_mem_singleton.mpr
      (List.forall_mem_cons.mpr ⟨fun _ => inners,
        List.forall_mem_singleton.mpr fun other => absurd other (by decide)⟩))
  have listed : (between (2 : Nat) old new).toOption.any
      (fun above => decide (Keyed.keys above = ["a.b", "a.e", "m"])) = true := by
    decide +kernel
  have listed' : (between (3 : Nat) old new).toOption.any
      (fun below => decide (Keyed.keys below = ["a.b.1", "a.e", "m"])) = true := by
    decide +kernel
  obtain ⟨above, run, keys⟩ := Outcome.exists_of_any listed
  obtain ⟨below, run', keys'⟩ := Outcome.exists_of_any listed'
  obtain ⟨shown, shown', again, again', cut⟩ :=
    between_cut (by decide : 1 ≤ 2) (by decide : 2 ≤ 3) (by decide) (by decide) rfl rfl
      free free' aligned
  obtain rfl : above = shown := Except.ok.inj (run.symm.trans again)
  obtain rfl : below = shown' := Except.ok.inj (run'.symm.trans again')
  exact ⟨old, new, above, below, rfl, rfl, run, run', of_decide_eq_true keys,
    of_decide_eq_true keys', cut⟩

end Diff
end Permit

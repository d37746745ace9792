import Mathlib.Data.Finset.Card
import Permit.Proofs.Session.Acceptance

/-!
Runs of compilations. A run compiles lists of texts and drops the kept trees, in any order
(`Move`), while the settings stay as they are. Of a session in order (`InOrder`), such as one
that keeps nothing:

* `InOrder.after`: it stays in order, so that each kept tree is the one of its list, and no
  more are kept than there is room for;
* `compilations_after`: every call that is not answered with a kept tree is counted once;
* `answer_error_after`: a list that has no tree has none later, for the same cause;
* `recent_after`: a tree is kept until others fill the cache;
* `run_keeps`: so much together;
* `answer_after_clear`: once the trees are dropped, a list has a tree of another build.
-/
namespace Permit.Session

open Permit.Action

inductive Move where
  | compile (texts : List String)
  | clear
deriving Repr, DecidableEq

def answer (texts : List String) (s : Session) : Except Fault Compiled :=
  ((compile (.texts texts)).run s).1

def Move.next : Move → Session → Session
  | .compile texts, s => ((Session.compile (.texts texts)).run s).2
  | .clear, s => { s with cache := s.cache.clear }

def after (moves : List Move) (s : Session) : Session := moves.foldl (fun s move => move.next s) s

/-- The number of calls of a run that are not answered with a kept tree. -/
def unanswered : List Move → Session → Nat
  | [], _ => 0
  | .compile texts :: rest, s =>
    (if (s.cache.find? texts).isSome then 0 else 1) +
      unanswered rest ((Move.compile texts).next s)
  | .clear :: rest, s => unanswered rest (Move.clear.next s)

/-- The lists that a run compiles, without those that have no tree. -/
def succeeded : List Move → Session → List (List String)
  | [], _ => []
  | .compile texts :: rest, s =>
    (if (answer texts s).toOption.isSome then [texts] else []) ++
      succeeded rest ((Move.compile texts).next s)
  | .clear :: rest, s => succeeded rest (Move.clear.next s)

def compilations (s : Session) : Nat :=
  s.metrics.count (.compilations "success") + s.metrics.count (.compilations "error")

structure InOrder (s : Session) : Prop where
  /-- Every kept tree is the one that its list compiles to. -/
  current : s.UpToDate
  bounded : s.cache.entries.length ≤ s.cache.capacity
  /-- Every kept tree has the number of a build that there was. -/
  numbered : ∀ entry ∈ s.cache.entries, entry.build < s.cache.builds

variable {s s' : Session} {texts : List String} {compiled : Compiled} {fault : Fault}
  {outcome : Except Fault Compiled} {values : List Value}

theorem inOrder_of_empty (h : s.cache.entries = []) : s.InOrder where
  current := upToDate_of_empty h
  bounded := by rw [h]; exact Nat.zero_le _
  numbered := by rw [h]; simp

theorem after_cons (move : Move) (moves : List Move) (s : Session) :
    after (move :: moves) s = after moves (move.next s) := rfl

theorem after_append (first second : List Move) (s : Session) :
    after (first ++ second) s = after second (after first s) := List.foldl_append

/-! ### One call -/

theorem answered_texts (texts : List String) (s : Session) :
    Answered s (texts.map .text) (answer texts s) ((Move.compile texts).next s) := by
  rw [answer, Move.next, run_compile_texts]
  exact answered_compileItems rfl

theorem textsOf_texts (texts : List String) : GrantTree.textsOf (texts.map .text) = texts := by
  rw [GrantTree.textsOf, List.filterMap_map]
  exact List.filterMap_some

theorem Answered.builds (h : Answered s values outcome s') : s.cache.builds ≤ s'.cache.builds := by
  cases h with
  | kept => exact Nat.le_refl _
  | built _ _ _ cache => rw [cache]; exact Nat.le_succ _
  | failed _ _ _ cache => rw [cache]; exact Nat.le_refl _

/-- A call that ends in a fault changes nothing of what is kept. -/
theorem entries_of_error (failed : answer texts s = .error fault) :
    ((Move.compile texts).next s).cache.entries = s.cache.entries := by
  have answered := answered_texts texts s
  rw [failed] at answered
  cases answered with
  | failed _ _ _ cache => rw [cache]; rfl

/-- A list that has a tree is in front of the others afterwards, and the last ones make room. -/
theorem entries_of_ok (order : s.InOrder) (ended : answer texts s = .ok compiled) :
    ∃ entry : Cached, entry.paths = texts ∧ compiled = ⟨entry.tree, entry.build⟩ ∧
      (s.cache.find? texts = some entry ∨
        s.cache.find? texts = none ∧ entry.build = s.cache.builds ∧
          ((Move.compile texts).next s).cache.builds = s.cache.builds + 1) ∧
      GrantTree.compile s.settings.maxPathSegments (texts.map .text) = .ok entry.tree ∧
      ((Move.compile texts).next s).cache.entries =
        (entry :: s.cache.entries.filter (·.paths != texts)).take s.cache.capacity := by
  have answered := answered_texts texts s
  rw [ended] at answered
  generalize (Move.compile texts).next s = s' at answered ⊢
  cases answered with
  | @kept entry found =>
    rw [pathTexts?_texts, Option.bind_some] at found
    have paths := paths_of_find? found
    have inside := List.mem_of_find?_eq_some found
    have current := order.current entry inside
    rw [paths] at current
    refine ⟨entry, paths, rfl, .inl found, current, ?_⟩
    -- the list itself is filtered out, so that there is room for it in front
    have shorter : (s.cache.entries.filter (·.paths != entry.paths)).length <
        s.cache.entries.length :=
      List.length_filter_lt_length_iff_exists.mpr ⟨entry, inside, by simp⟩
    have room := order.bounded
    rw [← paths, List.take_of_length_le (by simp only [List.length_cons]; omega)]
    rfl
  | @built _ tree known missed built _ cache =>
    rw [pathTexts?_texts, Option.bind_some] at missed
    refine ⟨⟨_, tree, s.cache.builds, known⟩, textsOf_texts texts, rfl, .inr ⟨missed, rfl, ?_⟩,
      built, ?_⟩
    · rw [cache]; rfl
    · rw [cache, Cache.store]
      simp only [Cache.miss, textsOf_texts]

theorem next_settings (move : Move) (s : Session) : (move.next s).settings = s.settings := by
  cases move with
  | compile texts => exact (answered_texts texts s).keeps.settings
  | clear => rfl

theorem next_capacity (move : Move) (s : Session) :
    (move.next s).cache.capacity = s.cache.capacity := by
  cases move with
  | compile texts => exact (answered_texts texts s).capacity
  | clear => rfl

theorem next_builds (move : Move) (s : Session) : s.cache.builds ≤ (move.next s).cache.builds := by
  cases move with
  | compile texts => exact (answered_texts texts s).builds
  | clear => exact Nat.le_refl _

/-! ### What stays in order -/

theorem InOrder.next (order : s.InOrder) (move : Move) : (move.next s).InOrder := by
  have settings := next_settings move s
  have capacity := next_capacity move s
  have builds := next_builds move s
  cases move with
  | clear => exact inOrder_of_empty rfl
  | compile texts =>
    cases ended : answer texts s with
    | error fault =>
      have same := entries_of_error ended
      refine ⟨fun entry inside => ?_, ?_, fun entry inside => ?_⟩
      · rw [same] at inside
        rw [settings]
        exact order.current entry inside
      · rw [same, capacity]
        exact order.bounded
      · rw [same] at inside
        exact (order.numbered entry inside).trans_le builds
    | ok compiled =>
      obtain ⟨first, paths, _, origin, current, entries⟩ := entries_of_ok order ended
      refine ⟨fun entry inside => ?_, ?_, fun entry inside => ?_⟩
      · rw [entries] at inside
        rw [settings]
        rcases List.mem_cons.mp (List.mem_of_mem_take inside) with rfl | inside
        · rw [paths]
          exact current
        · exact order.current entry (List.mem_of_mem_filter inside)
      · rw [entries, capacity]
        exact List.length_take_le ..
      · rw [entries] at inside
        rcases List.mem_cons.mp (List.mem_of_mem_take inside) with rfl | inside
        · rcases origin with found | ⟨_, number, more⟩
          · exact (order.numbered entry (List.mem_of_find?_eq_some found)).trans_le builds
          · omega
        · exact (order.numbered entry (List.mem_of_mem_filter inside)).trans_le builds

/-- What holds of a session and after every step holds after a run. -/
theorem after_induction (inv : Session → Prop) (step : ∀ (move : Move) s, inv s → inv (move.next s))
    (moves : List Move) (start : inv s) : inv (after moves s) := by
  induction moves generalizing s with
  | nil => exact start
  | cons move rest ih => exact ih (step move s start)

theorem InOrder.after (order : s.InOrder) (moves : List Move) : (after moves s).InOrder :=
  after_induction InOrder (fun move _ order => order.next move) moves order

theorem after_settings (moves : List Move) (s : Session) :
    (after moves s).settings = s.settings :=
  after_induction (·.settings = s.settings)
    (fun move s' same => (next_settings move s').trans same) moves rfl

theorem after_capacity (moves : List Move) (s : Session) :
    (after moves s).cache.capacity = s.cache.capacity :=
  after_induction (·.cache.capacity = s.cache.capacity)
    (fun move s' same => (next_capacity move s').trans same) moves rfl

/-! ### Counting -/

theorem compilations_next (enabled : s.settings.metricsEnabled = true) (texts : List String) :
    ((Move.compile texts).next s).compilations =
      s.compilations + if (s.cache.find? texts).isSome then 0 else 1 := by
  have answered := answered_texts texts s
  generalize answer texts s = outcome at answered
  generalize (Move.compile texts).next s = s' at answered ⊢
  cases answered with
  | kept found =>
    rw [pathTexts?_texts, Option.bind_some] at found
    rw [found]
    rfl
  | built missed _ _ _ counts | failed missed _ _ _ counts =>
    rw [pathTexts?_texts, Option.bind_some] at missed
    rw [missed, compilations, counts, compilationCount, if_pos enabled]
    simp [Counter.raise, compilations, Nat.add_assoc, Nat.add_comm 1]

theorem compilations_after (enabled : s.settings.metricsEnabled = true) (moves : List Move) :
    (after moves s).compilations = s.compilations + unanswered moves s := by
  induction moves generalizing s with
  | nil => rfl
  | cons move rest ih =>
    have enabled' : (move.next s).settings.metricsEnabled = true := by
      rw [next_settings, enabled]
    rw [after_cons, ih enabled']
    cases move with
    | compile texts => rw [compilations_next enabled, unanswered, Nat.add_assoc]
    | clear => rfl

/-! ### Calls that fail -/

/-- In order, a list has no tree just if it does not compile, whatever is kept. -/
theorem answer_eq_error_iff (order : s.InOrder) :
    answer texts s = .error fault ↔ ∃ cause, fault = .path cause ∧
      GrantTree.compile s.settings.maxPathSegments (texts.map .text) = .error cause := by
  rcases run_compile_cases order.current texts with
    ⟨tree, compiled, s', built, _, run⟩ | ⟨cause, s', failed, run⟩
  · rw [answer, run, built]
    simp
  · rw [answer, run, failed]
    simp [eq_comm]

theorem answer_error_after (order : s.InOrder) (failed : answer texts s = .error fault)
    (moves : List Move) : answer texts (after moves s) = .error fault := by
  rw [answer_eq_error_iff (order.after moves), after_settings]
  exact (answer_eq_error_iff order).mp failed

/-! ### Calls that have a tree -/

/-- The tree of a list is kept, and only trees of some other lists have been used since. -/
def Recent (texts : List String) (compiled : Compiled) (others : Finset (List String))
    (s : Session) : Prop :=
  ∃ newer entry older, s.cache.entries = newer ++ entry :: older ∧ entry.paths = texts ∧
    compiled = ⟨entry.tree, entry.build⟩ ∧ (newer.map Cached.paths).Nodup ∧
    ∀ first ∈ newer, first.paths ∈ others

theorem take_append_cons {α : Type} {xs ys : List α} {x : α} {n : Nat} (room : xs.length < n) :
    (xs ++ x :: ys).take n = xs ++ x :: ys.take (n - xs.length - 1) := by
  rw [List.take_append, List.take_of_length_le (Nat.le_of_lt room)]
  obtain ⟨m, some⟩ : ∃ m, n - xs.length = m + 1 := ⟨n - xs.length - 1, by omega⟩
  rw [some, List.take_succ_cons, Nat.add_sub_cancel]

theorem length_le_card_of_among {entries : List Cached} {others : Finset (List String)}
    (once : (entries.map Cached.paths).Nodup) (among : ∀ entry ∈ entries, entry.paths ∈ others) :
    entries.length ≤ others.card := by
  rw [← List.length_map Cached.paths, ← List.toFinset_card_of_nodup once]
  refine Finset.card_le_card fun paths inside => ?_
  obtain ⟨entry, there, rfl⟩ := List.mem_map.mp (List.mem_toFinset.mp inside)
  exact among entry there

/-- A call that has a tree leaves it in front, if anything can be kept at all. -/
theorem recent_of_answer (order : s.InOrder) (room : 0 < s.cache.capacity)
    (ended : answer texts s = .ok compiled) (others : Finset (List String)) :
    Recent texts compiled others ((Move.compile texts).next s) := by
  obtain ⟨first, paths, same, _, _, entries⟩ := entries_of_ok order ended
  obtain ⟨more, some⟩ : ∃ more, s.cache.capacity = more + 1 := ⟨s.cache.capacity - 1, by omega⟩
  rw [some, List.take_succ_cons] at entries
  exact ⟨[], first, _, entries, paths, same, List.nodup_nil, by simp⟩

section Recent

variable {others : Finset (List String)} (away : texts ∉ others)

include away

theorem Recent.find? (recent : Recent texts compiled others s) :
    ∃ entry, s.cache.find? texts = some entry ∧ compiled = ⟨entry.tree, entry.build⟩ := by
  obtain ⟨newer, entry, older, entries, paths, same, _, among⟩ := recent
  refine ⟨entry, ?_, same⟩
  rw [Cache.find?, entries, List.find?_append, List.find?_eq_none.mpr, Option.none_or,
    List.find?_cons_of_pos (by simp [paths])]
  intro first inside
  have other := among first inside
  simp only [beq_iff_eq]
  rintro rfl
  exact away other

theorem Recent.answer (recent : Recent texts compiled others s) :
    Session.answer texts s = .ok compiled := by
  obtain ⟨entry, found, rfl⟩ := recent.find? away
  rw [Session.answer, run_compile_texts, run_compileItems, pathTexts?_texts, Option.bind_some,
    found]

/-- The tree of one of the other lists comes to the front, and there is room for both. -/
theorem Recent.front {used : List String} {first : Cached} (few : others.card < s.cache.capacity)
    (recent : Recent texts compiled others s) (there : used ∈ others) (paths : first.paths = used)
    (entries : s'.cache.entries =
      (first :: s.cache.entries.filter (·.paths != used)).take s.cache.capacity) :
    Recent texts compiled others s' := by
  obtain ⟨newer, entry, older, before, owner, same, once, among⟩ := recent
  let others' := newer.filter (·.paths != used)
  have once' : ((first :: others').map Cached.paths).Nodup := by
    refine List.nodup_cons.mpr ⟨?_, once.sublist (List.filter_sublist.map _)⟩
    simp [others', paths]
  have among' : ∀ front ∈ first :: others', front.paths ∈ others := by
    refine List.forall_mem_cons.mpr ⟨paths ▸ there, fun front inside => ?_⟩
    exact among front (List.mem_of_mem_filter inside)
  have room := (length_le_card_of_among once' among').trans_lt few
  have stays : s.cache.entries.filter (·.paths != used) =
      others' ++ entry :: older.filter (·.paths != used) := by
    have other : (entry.paths != used) = true := by
      rw [owner, bne_iff_ne]
      rintro rfl
      exact away there
    simp only [before, List.filter_append, List.filter_cons, other, if_true, others']
  rw [stays, ← List.cons_append, take_append_cons room] at entries
  exact ⟨_, entry, _, entries, owner, same, once', among'⟩

/-- No call but one with yet another list can take the place of a tree. -/
theorem Recent.next (few : others.card < s.cache.capacity) (order : s.InOrder)
    (recent : Recent texts compiled others s) {used : List String}
    (among : ∀ compiled', Session.answer used s = .ok compiled' → used ≠ texts → used ∈ others) :
    Recent texts compiled others ((Move.compile used).next s) := by
  cases ended : Session.answer used s with
  | error fault =>
    rw [Recent, entries_of_error ended]
    exact recent
  | ok compiled' =>
    obtain ⟨first, paths, _, _, _, entries⟩ := entries_of_ok order ended
    by_cases again : used = texts
    · subst again
      obtain rfl : compiled = compiled' := Except.ok.inj ((recent.answer away).symm.trans ended)
      exact recent_of_answer order (Nat.zero_lt_of_lt few) ended others
    · exact recent.front away few (among compiled' ended again) paths entries

/-- A tree is kept as long as all other lists that are compiled with it fit beside it. -/
theorem recent_after (few : others.card < s.cache.capacity) (order : s.InOrder)
    (recent : Recent texts compiled others s) {moves : List Move} (kept : Move.clear ∉ moves)
    (among : ∀ used ∈ succeeded moves s, used ≠ texts → used ∈ others) :
    Recent texts compiled others (after moves s) := by
  induction moves generalizing s with
  | nil => exact recent
  | cons move rest ih =>
    cases move with
    | clear => exact absurd (List.mem_cons_self ..) kept
    | compile used =>
      refine ih ?_ (order.next _) (recent.next away few order fun compiled' ended => ?_)
        (fun inside => kept (List.mem_cons_of_mem _ inside)) fun other inside => ?_
      · rw [next_capacity]
        exact few
      · exact among used (by simp [succeeded, ended, Except.toOption])
      · exact among other (List.mem_append_right _ inside)

end Recent

/-- **Runs of compilations.** Take any run from a session in order, a call in it, and what
follows the call. Before the call, each kept tree is the one of its list and there is room for
all of them; the compilations counted so far, be they successes or errors, are the calls that
were not answered with a kept tree. If the call ends in a fault, nothing is kept, dropped or
moved for it, and the list ends in the same fault whenever it is compiled later. If it has a
tree and the trees are not dropped since, the list has the very same tree later, unless so many
other lists have been compiled since that they fill the cache. -/
theorem run_keeps (order : s.InOrder) (enabled : s.settings.metricsEnabled = true)
    (before between : List Move) (texts : List String) :
    let start := after before s
    let called := (Move.compile texts).next start
    start.InOrder ∧
      start.compilations = s.compilations + unanswered before s ∧
      (∀ fault, answer texts start = .error fault →
        called.cache.entries = start.cache.entries ∧
        answer texts (after between called) = .error fault) ∧
      ∀ compiled, answer texts start = .ok compiled → Move.clear ∉ between →
        ((succeeded between called).toFinset.erase texts).card < s.cache.capacity →
        answer texts (after between called) = .ok compiled := by
  intro start called
  have order' : start.InOrder := order.after before
  refine ⟨order', compilations_after enabled before, fun fault failed => ?_,
    fun compiled ended kept few => ?_⟩
  · exact ⟨entries_of_error failed, answer_error_after order' failed (.compile texts :: between)⟩
  · have capacity : called.cache.capacity = s.cache.capacity :=
      (next_capacity _ start).trans (after_capacity before s)
    let others := (succeeded between called).toFinset.erase texts
    have away : texts ∉ others := Finset.notMem_erase texts _
    have few' : others.card < called.cache.capacity := capacity ▸ few
    have room : 0 < start.cache.capacity := by
      rw [after_capacity]
      exact Nat.zero_lt_of_lt few
    have recent := recent_of_answer order' room ended others
    have stays := recent_after away few' (order'.next _) recent kept fun used inside other =>
      Finset.mem_erase.mpr ⟨other, List.mem_toFinset.mpr inside⟩
    exact stays.answer away

/-- Room for two trees: a list is compiled again after one other list, twice, and after one that
has no tree. -/
theorem run_keeps_two :
    let s : Session := { cache := { capacity := 2 } }
    let start := after [.compile ["a"], .compile ["b..c"], .clear, .compile ["d"]] s
    let called := (Move.compile ["a.*"]).next start
    let last := after [.compile ["d"], .compile ["b..c"], .compile ["d"]] called
    s.InOrder ∧ s.settings.metricsEnabled = true ∧ start.compilations = 3 ∧
      ∃ compiled, answer ["a.*"] start = .ok compiled ∧ answer ["a.*"] last = .ok compiled := by
  intro s start called last
  have order : s.InOrder := inOrder_of_empty rfl
  obtain ⟨_, counted, _, kept⟩ := run_keeps order rfl
    [.compile ["a"], .compile ["b..c"], .clear, .compile ["d"]]
    [.compile ["d"], .compile ["b..c"], .compile ["d"]] ["a.*"]
  have ends : ((compile (.texts ["a.*"])).run start).1.toOption.isSome = true := by decide +kernel
  obtain ⟨compiled, _, run⟩ := exists_run ends
  have ended : answer ["a.*"] start = .ok compiled := congrArg Prod.fst run
  refine ⟨order, rfl, counted.trans (by decide +kernel), compiled, ended, ?_⟩
  exact kept compiled ended (by decide) (by decide +kernel)

/-! ### Builds -/

/-- No tree that is kept was built before a number of builds. -/
def BuiltSince (n : Nat) (s : Session) : Prop :=
  n ≤ s.cache.builds ∧ ∀ entry ∈ s.cache.entries, n ≤ entry.build

theorem BuiltSince.next {n : Nat} (order : s.InOrder) (since : BuiltSince n s) (move : Move) :
    BuiltSince n (move.next s) := by
  refine ⟨since.1.trans (next_builds move s), ?_⟩
  cases move with
  | clear => simp [Move.next, Cache.clear]
  | compile texts =>
    cases ended : answer texts s with
    | error fault =>
      rw [entries_of_error ended]
      exact since.2
    | ok compiled =>
      obtain ⟨first, _, _, origin, _, entries⟩ := entries_of_ok order ended
      intro entry inside
      rw [entries] at inside
      rcases List.mem_cons.mp (List.mem_of_mem_take inside) with rfl | inside
      · rcases origin with found | ⟨_, number, _⟩
        · exact since.2 entry (List.mem_of_find?_eq_some found)
        · exact number ▸ since.1
      · exact since.2 entry (List.mem_of_mem_filter inside)

/-- Once the trees have been dropped, a list has the same tree again, but of a later build. -/
theorem answer_after_clear {first second : Compiled} (order : s.InOrder)
    (ended : answer texts s = .ok first) (before between : List Move)
    (again : answer texts (after (.compile texts :: before ++ .clear :: between) s) = .ok second) :
    second.tree = first.tree ∧ first.build < second.build := by
  let called := (Move.compile texts).next s
  let dropped := Move.clear.next (after before called)
  let last := after between dropped
  have order' : dropped.InOrder := ((order.next _).after before).next .clear
  have later : answer texts last = .ok second := by
    rw [List.cons_append, after_cons, after_append] at again
    exact again
  obtain ⟨entry, _, rfl, origin, built, _⟩ := entries_of_ok order ended
  obtain ⟨entry', _, rfl, origin', built', _⟩ := entries_of_ok (order'.after between) later
  constructor
  · have settings : last.settings = s.settings :=
      (after_settings between dropped).trans
        ((after_settings before called).trans (next_settings _ s))
    rw [settings] at built'
    exact Except.ok.inj (built'.symm.trans built)
  · have number : entry.build < called.cache.builds := by
      rcases origin with found | ⟨_, number, more⟩
      · have kept := order.numbered entry (List.mem_of_find?_eq_some found)
        exact kept.trans_le (next_builds _ s)
      · rw [more, number]
        exact Nat.lt_succ_self _
    have monotone : called.cache.builds ≤ dropped.cache.builds :=
      after_induction (called.cache.builds ≤ ·.cache.builds)
        (fun move s' least => least.trans (next_builds move s')) before (Nat.le_refl _)
    have start : BuiltSince called.cache.builds dropped :=
      ⟨monotone, by simp [dropped, Move.next, Cache.clear]⟩
    obtain ⟨_, since⟩ := after_induction (fun s' => s'.InOrder ∧ BuiltSince called.cache.builds s')
      (fun move s' both => ⟨both.1.next move, both.2.next both.1 move⟩) between ⟨order', start⟩
    refine number.trans_le ?_
    rcases origin' with found | ⟨_, fresh, _⟩
    · exact since.2 entry' (List.mem_of_find?_eq_some found)
    · exact fresh ▸ since.1

end Permit.Session

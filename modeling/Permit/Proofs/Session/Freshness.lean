import Permit.Proofs.Session.Acceptance

/-!
What kept trees do to a run. A run compiles values, drops the kept trees and changes the
limit on segments, in any order (`answers`). Every value has one answer under a limit,
without any tree kept (`compileAnew`).

* `exists_keptUnder`: whatever trees a session keeps, they come of some limits;
* `compile_answers`: one call answers as compiling anew does, or with a tree that was kept
  under a limit that the list still fitted;
* `maintains_compile`: what a call leaves kept comes of the limits so far;
* `answers_anew_or_stale`: hence what every call of a run answers, and that nothing is stale
  where the limit has not been lowered since the trees were dropped.
-/
namespace Permit.Session

open Permit.Action

/-- The answer for a value that lists paths, if each list has a tree or a cause of its own. -/
def answerBy (capacity : Nat) (treeFor : List Value → Except PathFault GrantTree)
    (paths : Value) : Except Fault GrantTree := do
  let items ← pathItems paths
  match unkeyable? capacity items with
  | some typeName => .error (.unkeyable typeName)
  | none => (treeFor items).mapError .path

/-- The answer for a value under a limit when nothing is kept, with room for some trees. -/
def compileAnew (capacity : Nat) (limit : Int) : Value → Except Fault GrantTree :=
  answerBy capacity (GrantTree.compile limit)

inductive Operation where
  | compile (paths : Value)
  | clear
  | limit (segments : Int)
deriving Repr

/-- The answers to the calls of a run from a session. -/
def answers : List Operation → Session → List (Except Fault GrantTree)
  | [], _ => []
  | .compile paths :: rest, s =>
    let ended := (compile paths).run s
    ended.1.map (·.tree) :: answers rest ended.2
  | .clear :: rest, s => answers rest { s with cache := s.cache.clear }
  | .limit segments :: rest, s =>
    answers rest { s with settings := { s.settings with maxPathSegments := segments } }

/-- A call of a run, with all that its answer can depend on. -/
structure Call where
  capacity : Nat
  /-- The limits under which trees have been kept since all were dropped. -/
  earlier : List Int
  limit : Int
  paths : Value
deriving Repr

namespace Call

/-- The answer that the settings in force call for. -/
def anew (c : Call) : Except Fault GrantTree := compileAnew c.capacity c.limit c.paths

/-- The answer is a tree built under an earlier limit, when the list holds a path that is too
long for the one in force. -/
def Stale (c : Call) (answer : Except Fault GrantTree) : Prop :=
  ∃ tree text earlier, answer = .ok tree ∧
    earlier ∈ c.earlier ∧ compileAnew c.capacity earlier c.paths = .ok tree ∧
    (Path.segments text).length ≤ earlier ∧ c.limit < (Path.segments text).length ∧
    c.anew = .error (.path (GrantTree.tooLongAt c.limit text))

end Call

/-- The calls of a run that starts with trees kept under some limits. -/
def calls (capacity : Nat) : List Operation → List Int → Int → List Call
  | [], _, _ => []
  | .compile paths :: rest, earlier, limit =>
    ⟨capacity, earlier, limit, paths⟩ :: calls capacity rest (limit :: earlier) limit
  | .clear :: rest, _, limit => calls capacity rest [] limit
  | .limit segments :: rest, earlier, _ => calls capacity rest earlier segments

/-- Every kept tree is the one that its paths compile to under one of some limits. -/
def KeptUnder (limits : List Int) (s : Session) : Prop :=
  ∀ entry ∈ s.cache.entries,
    ∃ limit ∈ limits, GrantTree.compile limit (entry.paths.map .text) = .ok entry.tree

variable {s : Session} {limits earlier : List Int} {limit : Int} {capacity : Nat}

theorem KeptUnder.more {limits' : List Int} (h : KeptUnder limits s) (more : limits ⊆ limits') :
    KeptUnder limits' s := by
  intro entry inside
  obtain ⟨limit, among, compiled⟩ := h entry inside
  exact ⟨limit, more among, compiled⟩

/-- Whatever a session keeps, there are limits that account for it. -/
theorem exists_keptUnder (s : Session) : ∃ limits, KeptUnder limits s := by
  have account : ∀ entries : List Cached, ∃ limits : List Int, ∀ entry ∈ entries,
      ∃ limit ∈ limits, GrantTree.compile limit (entry.paths.map .text) = .ok entry.tree := by
    intro entries
    induction entries with
    | nil => exact ⟨[], by simp⟩
    | cons first rest ih =>
      obtain ⟨limits, others⟩ := ih
      obtain ⟨limit, compiled⟩ := first.compiled
      refine ⟨limit :: limits, ?_⟩
      intro entry inside
      rcases List.mem_cons.mp inside with rfl | inside
      · exact ⟨limit, List.mem_cons_self .., compiled⟩
      · obtain ⟨other, among, built⟩ := others entry inside
        exact ⟨other, List.mem_cons_of_mem _ among, built⟩
  exact account s.cache.entries

/-! ### One call -/

theorem compile_answers_treeOf (paths : Value) (s : Session) :
    ((compile paths).run s).1.map (·.tree) = answerBy s.cache.capacity (treeOf s) paths := by
  rw [run_compile, answerBy]
  cases pathItems paths with
  | error fault => rfl
  | ok items =>
    simp only [bind, Except.bind]
    cases unkeyable? s.cache.capacity items with
    | some typeName => rfl
    | none =>
      have answered : Answered s items _ _ := answered_compileItems rfl
      exact answered.treeOf_eq

/-- The tree of a list in a session is the one that the list compiles to now, or one that is
kept. -/
theorem treeOf_eq_or_kept (kept : KeptUnder limits s) (values : List Value) :
    treeOf s values = GrantTree.compile s.settings.maxPathSegments values ∨
      ∃ (texts : List String) (tree : GrantTree), values = texts.map Value.text ∧
        treeOf s values = .ok tree ∧
        ∃ limit ∈ limits, GrantTree.compile limit (texts.map Value.text) = .ok tree := by
  cases found : (pathTexts? values).bind s.cache.find? with
  | none => exact .inl (by simp only [treeOf, found])
  | some entry =>
    obtain ⟨texts, inside⟩ := kept_of_found found
    exact .inr ⟨entry.paths, entry.tree, texts, by simp only [treeOf, found], kept entry inside⟩

theorem answerBy_cases (capacity : Nat) (paths : Value) :
    (∃ items, ∀ treeFor, answerBy capacity treeFor paths = (treeFor items).mapError .path) ∨
      ∃ fault, ∀ treeFor, answerBy capacity treeFor paths = .error fault := by
  cases listed : pathItems paths with
  | error fault => exact .inr ⟨fault, fun treeFor => by rw [answerBy, listed]; rfl⟩
  | ok items =>
    cases unkeyable : unkeyable? capacity items with
    | some typeName =>
      refine .inr ⟨.unkeyable typeName, fun treeFor => ?_⟩
      simp only [answerBy, listed, bind, Except.bind, unkeyable]
    | none =>
      refine .inl ⟨items, fun treeFor => ?_⟩
      simp only [answerBy, listed, bind, Except.bind, unkeyable]

/-- **One call.** It answers as compiling anew does, or with a tree that was kept under an
earlier limit and is too long for the one in force. -/
theorem compile_answers (kept : KeptUnder limits s) (paths : Value) :
    let c : Call := ⟨s.cache.capacity, limits, s.settings.maxPathSegments, paths⟩
    let answer := ((compile paths).run s).1.map (·.tree)
    answer = c.anew ∨ c.Stale answer := by
  intro c answer
  have answered : answer = answerBy s.cache.capacity (treeOf s) paths :=
    compile_answers_treeOf paths s
  rcases answerBy_cases s.cache.capacity paths with ⟨items, by_tree⟩ | ⟨fault, refused⟩
  · rcases treeOf_eq_or_kept kept items with same | ⟨texts, tree, rfl, found, earlier, among, built⟩
    · exact .inl (by rw [answered, by_tree, same, Call.anew, compileAnew, by_tree])
    · -- a list with a tree under another limit fails only at a path that is too long
      have now := GrantTree.compile_other_limit s.settings.maxPathSegments built
      rw [by_tree, found] at answered
      cases long : GrantTree.firstTooLong? s.settings.maxPathSegments texts with
      | none =>
        rw [long] at now
        exact .inl (by rw [answered, Call.anew, compileAnew, by_tree, now]; rfl)
      | some text =>
        rw [long] at now
        have exceeds := List.find?_some long
        have formed :=
          (GrantTree.compile_eq_ok_iff.mp built).1 text (List.mem_of_find?_eq_some long)
        refine .inr ⟨tree, text, earlier, answered, among, ?_, formed.short, ?_, ?_⟩
        · rw [compileAnew, by_tree, built]
          rfl
        · simpa using exceeds
        · rw [Call.anew, compileAnew, by_tree, now]
          rfl
  · exact .inl (by rw [answered, refused, Call.anew, compileAnew, refused])

/-! ### What a call leaves behind -/

/-- A limit is in force, there is room for some trees, and those that are kept come of this limit
and of earlier ones. -/
structure Accounted (capacity : Nat) (limit : Int) (earlier : List Int) (s : Session) : Prop where
  room : s.cache.capacity = capacity
  inForce : s.settings.maxPathSegments = limit
  kept : KeptUnder (limit :: earlier) s

/-- What is kept afterwards was kept before, or is the tree of the list. -/
theorem accounted_compileItems (values : List Value) :
    Maintains (compileItems values) (Accounted capacity limit earlier) := by
  refine maintains_compileItems fun {s _ s'} accounted answered => ?_
  have room := answered.capacity.trans accounted.room
  cases answered with
  | @kept entry found =>
    refine ⟨room, accounted.inForce, fun other inside => ?_⟩
    rcases List.mem_cons.mp inside with rfl | inside
    · exact accounted.kept other (kept_of_found found).2
    · exact accounted.kept other (List.mem_of_mem_filter inside)
  | @built _ tree _ _ compiled keeps cache _ =>
    refine ⟨room, keeps.settings ▸ accounted.inForce, fun entry inside => ?_⟩
    rw [cache] at inside
    rcases List.mem_cons.mp (List.mem_of_mem_take inside) with rfl | inside
    · refine ⟨limit, List.mem_cons_self .., ?_⟩
      rw [← accounted.inForce, GrantTree.map_textsOf compiled]
      exact compiled
    · exact accounted.kept entry (List.mem_of_mem_filter inside)
  | failed _ _ keeps cache _ =>
    refine ⟨room, keeps.settings ▸ accounted.inForce, fun entry inside => ?_⟩
    rw [cache] at inside
    exact accounted.kept entry inside

/-- A call changes no setting and keeps trees under no limit but the one in force. -/
theorem maintains_compile (paths : Value) :
    Maintains (compile paths) (Accounted capacity limit earlier) := by
  refine (maintains_lift _).bind fun items => maintains_get_bind fun s _ => ?_
  split
  · exact maintains_throw _
  · exact accounted_compileItems items

/-! ### Runs -/

/-- Where no earlier limit was higher than the one in force, nothing is stale. -/
theorem Call.not_stale {c : Call} (raised : ∀ limit ∈ c.earlier, limit ≤ c.limit)
    (answer : Except Fault GrantTree) : ¬ c.Stale answer := by
  rintro ⟨tree, text, earlier, _, among, _, fits, long, _⟩
  have lower := raised earlier among
  omega

theorem answers_forall₂ (ops : List Operation) :
    ∀ {s : Session} {earlier : List Int}, KeptUnder earlier s →
      List.Forall₂ (fun c answer => answer = c.anew ∨ c.Stale answer)
        (calls s.cache.capacity ops earlier s.settings.maxPathSegments) (answers ops s) := by
  induction ops with
  | nil =>
    intro s earlier _
    exact .nil
  | cons op rest ih =>
    intro s earlier kept
    cases op with
    | compile paths =>
      have accounted : Accounted s.cache.capacity s.settings.maxPathSegments earlier s :=
        ⟨rfl, rfl, kept.more (List.subset_cons_self ..)⟩
      obtain ⟨room, inForce, kept'⟩ := maintains_compile paths s accounted
      -- the limit in force joins the earlier ones for the rest of the run
      have others := ih kept'
      rw [room, inForce] at others
      exact .cons (compile_answers kept paths) others
    | clear =>
      have none : KeptUnder [] { s with cache := s.cache.clear } := by
        intro entry inside
        cases inside
      exact ih none
    | limit segments =>
      have same : KeptUnder earlier
          { s with settings := { s.settings with maxPathSegments := segments } } := kept
      exact ih same

/-- **What keeping trees does to a run.** Every call answers as compiling its list anew does
under the limit in force, or else with the tree that the list had under an earlier, higher
one, when it now ends at a path that is too long. So nothing depends on the kept trees of a
run in which no limit is lowered while they stand. -/
theorem answers_anew_or_stale {limits : List Int} (kept : KeptUnder limits s)
    (ops : List Operation) :
    List.Forall₂ (fun c answer => answer = c.anew ∨ c.Stale answer)
        (calls s.cache.capacity ops limits s.settings.maxPathSegments) (answers ops s) ∧
      ((∀ c ∈ calls s.cache.capacity ops limits s.settings.maxPathSegments,
          ∀ limit ∈ c.earlier, limit ≤ c.limit) →
        answers ops s = (calls s.cache.capacity ops limits s.settings.maxPathSegments).map Call.anew) := by
  have each := answers_forall₂ ops kept
  refine ⟨each, fun raised => ?_⟩
  have fresh : List.Forall₂ (fun c answer => c.anew = answer)
      (calls s.cache.capacity ops limits s.settings.maxPathSegments) (answers ops s) := by
    refine ((List.forall₂_and_left _ _).mpr ⟨raised, each⟩).imp ?_
    rintro c answer ⟨raised, same | stale⟩
    · exact same.symm
    · exact absurd stale (Call.not_stale raised answer)
  have paired := List.forall₂_map_left_iff.mpr fresh
  rw [List.forall₂_eq_eq_eq] at paired
  exact paired.symm

/-- A limit that is lowered once the trees are dropped. -/
theorem answers_anew_or_stale_dropped :
    let ops : List Operation := [.compile (.texts ["a.b"]), .limit 40, .compile (.texts ["a.b"]),
      .clear, .limit 1, .compile (.texts ["a.b"])]
    KeptUnder [] {} ∧ answers ops {} = (calls 256 ops [] 32).map Call.anew ∧
      (answers ops {}).map (·.toOption.isSome) = [true, true, false] := by
  intro ops
  have kept : KeptUnder [] {} := by
    intro entry inside
    cases inside
  have raised : ∀ c ∈ calls 256 ops [] 32, ∀ limit ∈ c.earlier, limit ≤ c.limit := by
    decide +kernel
  exact ⟨kept, (answers_anew_or_stale kept ops).2 raised, by decide +kernel⟩

/-- A limit that is lowered while a tree is kept: the path has become too long, and its tree
is returned all the same. -/
theorem answers_stale_lowered :
    let ops : List Operation := [.compile (.texts ["a.b"]), .limit 1, .compile (.texts ["a.b"])]
    let tree : GrantTree :=
      ⟨.node .fields [("a", .node .fields [("b", .whole)])], ["a.b"]⟩
    answers ops {} = [.ok tree, .ok tree] ∧
      (calls 256 ops [] 32).map Call.anew = [.ok tree, .error (.path (.tooLong "a.b" 2 1))] := by
  exact ⟨rfl, rfl⟩

end Permit.Session

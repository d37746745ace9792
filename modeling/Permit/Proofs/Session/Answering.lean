import Mathlib.Algebra.Group.Pi.Basic
import Mathlib.Algebra.GroupWithZero.Nat
import Permit.Proofs.Session.Ending
import Permit.Session.Compilation

namespace Permit

namespace Counter

/-- What one counter is raised by, and no other. -/
def raise (c : Counter) (amount : Nat := 1) : Counter → Nat :=
  fun k => if c = k then amount else 0

@[simp] theorem raise_zero (c : Counter) : c.raise 0 = 0 := by
  funext k
  simp [raise]

end Counter

namespace Session

open Permit.Action

variable {s s' : Session} {values : List Value} {outcome : Except Fault Compiled}

/-- What a compilation that has ended so adds to the counts, unless metrics are switched
off. -/
def compilationCount (settings : Settings) (status : String) : Counter → Nat :=
  if settings.metricsEnabled then (Counter.compilations status).raise else 0

theorem run_recordCompilation (status : String) (seconds : Number.Binary64) (s : Session) :
    ∃ s', (recordCompilation status seconds).run s = (.ok (), s') ∧ Keeps s s' ∧
      s'.cache = s.cache ∧
      s'.metrics.count = s.metrics.count + compilationCount s.settings status := by
  by_cases enabled : s.settings.metricsEnabled = true
  · refine ⟨{ s with metrics := (s.metrics.add (.compilations status)).observe seconds },
      ?_, ⟨rfl, rfl⟩, rfl, funext fun k => ?_⟩
    · change (Except.ok (), if s.settings.metricsEnabled then _ else s) = _
      rw [if_pos enabled]
    · rw [compilationCount, if_pos enabled]
      exact Metrics.count_add s.metrics (.compilations status) k 1
  · refine ⟨s, ?_, .refl s, rfl, ?_⟩
    · change (Except.ok (), if s.settings.metricsEnabled then _ else s) = _
      rw [if_neg enabled]
    · rw [compilationCount, if_neg enabled, add_zero]

/-- How a session answers a list of values, and what it then is. -/
inductive Answered (s : Session) (values : List Value) :
    Except Fault Compiled → Session → Prop where
  /-- The tree of the list is kept, and is now the one used last. -/
  | kept {entry : Cached} : (pathTexts? values).bind s.cache.find? = some entry →
      Answered s values (.ok ⟨entry.tree, entry.build⟩) { s with cache := s.cache.use entry }
  | built {s' : Session} {tree : GrantTree}
      {compiled : ∃ limit,
        GrantTree.compile limit ((GrantTree.textsOf values).map .text) = .ok tree} :
      (pathTexts? values).bind s.cache.find? = none →
      GrantTree.compile s.settings.maxPathSegments values = .ok tree →
      Keeps s s' →
      s'.cache = s.cache.miss.store (GrantTree.textsOf values) tree compiled →
      s'.metrics.count = s.metrics.count + compilationCount s.settings "success" →
      Answered s values (.ok ⟨tree, s.cache.builds⟩) s'
  | failed {s' : Session} {cause : PathFault} :
      (pathTexts? values).bind s.cache.find? = none →
      GrantTree.compile s.settings.maxPathSegments values = .error cause →
      Keeps s s' →
      s'.cache = s.cache.miss →
      s'.metrics.count = s.metrics.count + compilationCount s.settings "error" →
      Answered s values (.error (.path cause)) s'

/-- A list whose tree is kept takes it to the front; any other list is compiled. -/
theorem run_compileItems (values : List Value) (s : Session) :
    (compileItems values).run s =
      match (pathTexts? values).bind s.cache.find? with
      | some entry => (.ok ⟨entry.tree, entry.build⟩, { s with cache := s.cache.use entry })
      | none => (build values).run s := by
  have reading : (get : Action Session).run s = (.ok s, s) := rfl
  rw [compileItems, run_bind, reading]
  cases found : (pathTexts? values).bind s.cache.find? with
  | some entry =>
    simp only [found]
    rfl
  | none => simp only [found]

theorem answered_build (missed : (pathTexts? values).bind s.cache.find? = none)
    (run : (build values).run s = (outcome, s')) : Answered s values outcome s' := by
  have reading : (get : Action Session).run s = (.ok s, s) := rfl
  have writing (t : Session) : (set t : Action PUnit).run s = (.ok ⟨⟩, t) := rfl
  simp only [build, run_bind, reading, writing] at run
  split at run
  next cause failed =>
    obtain ⟨s₁, counted, keeps, cache, counts⟩ :=
      run_recordCompilation "error" noDuration { s with cache := s.cache.miss }
    rw [run_bind, counted] at run
    cases run
    exact .failed missed failed ⟨keeps.settings, keeps.rules⟩ cache counts
  next tree built =>
    obtain ⟨s₁, counted, keeps, cache, counts⟩ :=
      run_recordCompilation "success" noDuration { s with cache := s.cache.miss }
    rw [run_bind, counted] at run
    have number : s₁.cache.builds = s.cache.builds := by
      rw [cache]
      rfl
    have stored (kept) : s₁.cache.store (GrantTree.textsOf values) tree kept =
        s.cache.miss.store (GrantTree.textsOf values) tree kept := by rw [cache]
    cases run
    exact number ▸ .built missed built ⟨keeps.settings, keeps.rules⟩ (stored _) counts

/-- **One list.** It is answered with its kept tree, with a new one or with a cause. -/
theorem answered_compileItems (run : (compileItems values).run s = (outcome, s')) :
    Answered s values outcome s' := by
  rw [run_compileItems] at run
  cases found : (pathTexts? values).bind s.cache.find? with
  | some entry =>
    rw [found] at run
    cases run
    exact .kept found
  | none =>
    rw [found] at run
    exact answered_build found run

/-- What holds after each way to answer a list holds after compiling it. -/
theorem maintains_compileItems {inv : Session → Prop}
    (step : ∀ {s outcome s'}, inv s → Answered s values outcome s' → inv s') :
    Maintains (compileItems values) inv :=
  fun _ holds => step holds (answered_compileItems rfl)

theorem Answered.keeps (h : Answered s values outcome s') : Keeps s s' := by
  cases h with
  | kept => exact ⟨rfl, rfl⟩
  | built _ _ keeps | failed _ _ keeps => exact keeps

theorem Answered.capacity (h : Answered s values outcome s') :
    s'.cache.capacity = s.cache.capacity := by
  cases h with
  | kept => rfl
  | built _ _ _ cache | failed _ _ _ cache => rw [cache]; rfl

end Session
end Permit

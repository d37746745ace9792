import Permit.Session.Basic

/-!
How an action ends. An action on a request may note, count and trace what it does, and
keep trees for later; the settings in force and the registered rules stay as they are.

* `Keeps` says so of two sessions;
* `Action.Ends` says of an action that it ends so from a session, and with which outcome;
* `Action.Maintains` says that a property of sessions holds after an action if before it.
-/
namespace Permit

structure Keeps (s s' : Session) : Prop where
  settings : s'.settings = s.settings
  rules : s'.rules = s.rules

theorem Keeps.refl (s : Session) : Keeps s s := ⟨rfl, rfl⟩

theorem Keeps.trans {s s' s'' : Session} (h : Keeps s s') (h' : Keeps s' s'') : Keeps s s'' :=
  ⟨h'.settings.trans h.settings, h'.rules.trans h.rules⟩

namespace Action

variable {α β : Type} {s s' : Session}

theorem run_bind (action : Action α) (next : α → Action β) (s : Session) :
    (action >>= next).run s =
      match action.run s with
      | (.ok a, s') => (next a).run s'
      | (.error fault, s') => (.error fault, s') := by
  change (action.run >>= ExceptT.bindCont next) s = _
  simp only [bind, StateT.bind]
  cases action.run s with
  | mk outcome s' => cases outcome <;> rfl

theorem run_tryCatch (action : Action α) (handle : Fault → Action α) (s : Session) :
    (tryCatch action handle).run s =
      match action.run s with
      | (.ok a, s') => (.ok a, s')
      | (.error fault, s') => (handle fault).run s' := by
  simp only [tryCatch, tryCatchThe, MonadExceptOf.tryCatch, ExceptT.tryCatch, ExceptT.run,
    ExceptT.mk, bind, StateT.bind]
  cases action s with
  | mk outcome s' => cases outcome <;> rfl

/-- A test that can be run says that an action ends well. -/
theorem exists_run {action : Action α} (h : (action.run s).1.toOption.isSome = true) :
    ∃ a s', action.run s = (.ok a, s') := by
  cases run : action.run s with
  | mk outcome s' =>
    rw [run] at h
    cases outcome with
    | ok a => exact ⟨a, s', rfl⟩
    | error fault => cases h

/-- From a session, an action ends with an outcome and keeps settings and rules. -/
def Ends (action : Action α) (s : Session) (outcome : Except Fault α) : Prop :=
  ∃ s', action.run s = (outcome, s') ∧ Keeps s s'

theorem Ends.outcome_eq {action : Action α} {outcome outcome' : Except Fault α}
    (h : Ends action s outcome) (run : action.run s = (outcome', s')) :
    outcome' = outcome ∧ Keeps s s' := by
  obtain ⟨s'', run', kept⟩ := h
  rw [run] at run'
  cases run'
  exact ⟨rfl, kept⟩

theorem Ends.bind {action : Action α} {a : α} {next : α → Action β} {outcome : Except Fault β}
    (h : Ends action s (.ok a)) (continued : ∀ s', Keeps s s' → Ends (next a) s' outcome) :
    Ends (action >>= next) s outcome := by
  obtain ⟨s', run, kept⟩ := h
  obtain ⟨s'', run', kept'⟩ := continued s' kept
  refine ⟨s'', ?_, kept.trans kept'⟩
  rw [run_bind, run]
  exact run'

/-- After a step that leaves the session as it is, the rest starts from the same one. -/
theorem Ends.after {action : Action α} {a : α} {next : α → Action β} {outcome : Except Fault β}
    (run : action.run s = (.ok a, s)) (continued : Ends (next a) s outcome) :
    Ends (action >>= next) s outcome := by
  obtain ⟨s', run', kept⟩ := continued
  refine ⟨s', ?_, kept⟩
  rw [run_bind, run]
  exact run'

theorem Ends.bind_error {action : Action α} {fault : Fault} {next : α → Action β}
    (h : Ends action s (.error fault)) : Ends (action >>= next) s (.error fault) := by
  obtain ⟨s', run, kept⟩ := h
  refine ⟨s', ?_, kept⟩
  rw [run_bind, run]

/-- What follows may also end with a result that depends on the session it starts from. -/
theorem Ends.bind_exists {action : Action α} {a : α} {next : α → Action β} {post : β → Prop}
    (h : Ends action s (.ok a))
    (continued : ∀ s', Keeps s s' → ∃ b, post b ∧ Ends (next a) s' (.ok b)) :
    ∃ b, post b ∧ Ends (action >>= next) s (.ok b) := by
  obtain ⟨s', run, kept⟩ := h
  obtain ⟨b, holds, s'', run', kept'⟩ := continued s' kept
  refine ⟨b, holds, s'', ?_, kept.trans kept'⟩
  rw [run_bind, run]
  exact run'

theorem ends_tryCatch_ok {action : Action α} {a : α} (h : Ends action s (.ok a))
    (handle : Fault → Action α) : Ends (tryCatch action handle) s (.ok a) := by
  obtain ⟨s', run, kept⟩ := h
  exact ⟨s', by rw [run_tryCatch, run], kept⟩

theorem ends_tryCatch_error {action : Action α} {fault : Fault} {outcome : Except Fault α}
    {handle : Fault → Action α} (h : Ends action s (.error fault))
    (handled : ∀ s', Keeps s s' → Ends (handle fault) s' outcome) :
    Ends (tryCatch action handle) s outcome := by
  obtain ⟨s', run, kept⟩ := h
  obtain ⟨s'', run', kept'⟩ := handled s' kept
  refine ⟨s'', ?_, kept.trans kept'⟩
  rw [run_tryCatch, run]
  exact run'

theorem ends_pure (a : α) : Ends (pure a) s (.ok a) := ⟨s, rfl, .refl s⟩

theorem ends_throw (fault : Fault) : Ends (throw fault : Action α) s (.error fault) :=
  ⟨s, rfl, .refl s⟩

theorem ends_lift (outcome : Except Fault α) : Ends (lift outcome) s outcome := ⟨s, rfl, .refl s⟩

theorem ends_get_bind {next : Session → Action α} {outcome : Except Fault α} :
    Ends (get >>= next) s outcome ↔ Ends (next s) s outcome := Iff.rfl

theorem ends_modify {f : Session → Session} (kept : Keeps s (f s)) :
    Ends (modify f : Action PUnit) s (.ok ⟨⟩) := ⟨f s, rfl, kept⟩

theorem ends_log (e : Entry) : Ends (log e) s (.ok ()) := ends_modify ⟨rfl, rfl⟩

theorem ends_measure (change : Metrics → Metrics) : Ends (measure change) s (.ok ()) := by
  refine ends_modify ?_
  split
  · exact ⟨rfl, rfl⟩
  · exact .refl s

theorem ends_count (c : Counter) : Ends (count c) s (.ok ()) := ends_measure _

theorem ends_setAttribute (name : String) (n : Nat) : Ends (setAttribute name n) s (.ok ()) :=
  ends_modify ⟨rfl, rfl⟩

theorem run_within (name : String) (action : Action α) (s : Session) :
    (within name action).run s =
      let ended := action.run { s with spans := s.spans.enter name }
      (ended.1, { ended.2 with spans := ended.2.spans.leave (ended.1 matches .error _) }) := rfl

/-- What an action does within a span is what it does once the span is open. -/
theorem ends_within {name : String} {action : Action α} {outcome : Except Fault α}
    (h : Ends action { s with spans := s.spans.enter name } outcome) :
    Ends (within name action) s outcome := by
  obtain ⟨s', run, kept⟩ := h
  simp only [Ends, run_within, run]
  exact ⟨_, rfl, kept.settings, kept.rules⟩

/-- However an action ends, a property of the session that holds before it holds after it. -/
def Maintains (action : Action α) (inv : Session → Prop) : Prop :=
  ∀ s, inv s → inv (action.run s).2

section Maintains

variable {inv : Session → Prop}

theorem Maintains.bind {action : Action α} {next : α → Action β} (first : Maintains action inv)
    (rest : ∀ a, Maintains (next a) inv) : Maintains (action >>= next) inv := by
  intro s holds
  have between := first s holds
  rw [run_bind]
  cases run : action.run s with
  | mk outcome s' =>
    rw [run] at between
    cases outcome with
    | ok a => exact rest a s' between
    | error fault => exact between

/-- What follows may use that the property holds of the session it looks at. -/
theorem maintains_get_bind {next : Session → Action α}
    (rest : ∀ s, inv s → Maintains (next s) inv) : Maintains (get >>= next) inv :=
  fun s holds => rest s holds s holds

theorem maintains_pure (a : α) : Maintains (pure a) inv := fun _ holds => holds

theorem maintains_throw (fault : Fault) : Maintains (throw fault : Action α) inv :=
  fun _ holds => holds

theorem maintains_lift (outcome : Except Fault α) : Maintains (lift outcome) inv :=
  fun _ holds => holds

theorem maintains_modify {f : Session → Session} (step : ∀ s, inv s → inv (f s)) :
    Maintains (modify f : Action PUnit) inv := step

end Maintains

end Action

namespace Session

open Permit.Action

/-- Counting an authorization never fails for a count of rejected fields. -/
theorem ends_recordAuthorization {s : Session} (check outcome : String) (rejected : Nat) :
    Ends (recordAuthorization check outcome rejected) s (.ok ()) := by
  have counted : ¬ (rejected : Int) < 0 := by omega
  refine (ends_count _).bind fun s' _ => ?_
  simp only [counted, decide_false, Bool.false_and]
  rw [ends_get_bind]
  by_cases some : 0 < (rejected : Int)
  · simp only [some, if_true, Bool.false_eq_true, if_false]
    exact ends_measure _
  · simp only [some, if_false, Bool.false_eq_true]
    exact ends_pure _

end Session
end Permit

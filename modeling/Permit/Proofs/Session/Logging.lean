import Permit.Proofs.Session.Ending
import Permit.Session.Logging

/-!
Histories of setting up the library's logger: calls of the two entry points, and changes of the
two settings that they read, in any order (`LogCall`).

* `logger_of_structures`, `logger_of_not_structures`: what a call makes of the logger;
* `propagates_afterCalls`: records go on to the host until a call has set up structured lines
  (`everStructured`), and never again;
* `setUp_afterCalls`: with structured lines the last call decides everything, without them only
  the level, and the rest is as the history has left it.
-/
namespace Permit.Session

inductive LogCall where
  /-- Changes the settings that it is read from. -/
  | change (structured : Bool) (level : String)
  | configure (level : String)
  | setUp
deriving Repr, DecidableEq

namespace LogCall

/-- The session after a call, whether it ends in a fault or not. -/
def next : LogCall → Session → Session
  | .change structured level, s =>
    { s with settings := { s.settings with structuredLogs := structured, logLevel := level } }
  | .configure level, s => ((configureLogging level).run s).2
  | .setUp, s => (setUpLogging.run s).2

/-- Whether a call sets up structured lines: it asks for them at a name that has a level. -/
def structures : LogCall → Session → Bool
  | .change .., _ => false
  | .configure level, _ => (Log.levelInAnyCase level).toBool
  | .setUp, s => s.settings.structuredLogs && (Log.levelInAnyCase s.settings.logLevel).toBool

end LogCall

def afterCalls (calls : List LogCall) (s : Session) : Session :=
  calls.foldl (fun s call => call.next s) s

/-- Whether some call of a history sets up structured lines. -/
def everStructured : List LogCall → Session → Bool
  | [], _ => false
  | call :: rest, s => call.structures s || everStructured rest (call.next s)

variable {s : Session} {name : String} {level : Int} {fault : Log.LevelFault}

/-! ### One call -/

theorem run_configureLogging (name : String) (s : Session) :
    (configureLogging name).run s =
      match Log.levelInAnyCase name with
      | .ok level => (.ok (), { s with logger := ⟨level, [.structured], false⟩ })
      | .error fault => (.error (.level fault), { s with logger := s.logger.cleared }) := by
  rw [configureLogging]
  cases Log.levelInAnyCase name <;> rfl

theorem run_setUpLogging (s : Session) :
    setUpLogging.run s =
      if s.settings.structuredLogs then (configureLogging s.settings.logLevel).run s
      else
        match Log.levelNamed s.settings.logLevel with
        | .ok level => (.ok (), { s with logger := s.logger.atLevel level })
        | .error fault => (.error (.level fault), s) := by
  rw [setUpLogging, Action.run_bind]
  change (if s.settings.structuredLogs then _ else _ : Action Unit).run s = _
  split
  · rfl
  · cases Log.levelNamed s.settings.logLevel <;> rfl

/-- Without structured lines a call changes the level only. -/
theorem logger_setUp (off : s.settings.structuredLogs = false)
    (named : Log.levelNamed s.settings.logLevel = .ok level) :
    (LogCall.setUp.next s).logger = s.logger.atLevel level := by
  rw [LogCall.next, run_setUpLogging, off, if_neg Bool.false_ne_true, named]

/-- A call that sets up structured lines leaves nothing of what was set up before. -/
theorem logger_of_structures {call : LogCall} (h : call.structures s = true) :
    ∃ level, (call.next s).logger = ⟨level, [.structured], false⟩ := by
  have configured {name : String} (h : (Log.levelInAnyCase name).toBool = true) :
      ∃ level, ((configureLogging name).run s).2.logger = ⟨level, [.structured], false⟩ := by
    rw [run_configureLogging]
    cases named : Log.levelInAnyCase name with
    | ok level => exact ⟨level, rfl⟩
    | error fault =>
      rw [named] at h
      cases h
  cases call with
  | change structured level => cases h
  | configure name => exact configured h
  | setUp =>
    obtain ⟨on, h⟩ := Bool.and_eq_true_iff.mp h
    rw [LogCall.next, run_setUpLogging, if_pos on]
    exact configured h

/-- Any other call lets records go where they went, and adds no handler. -/
theorem logger_of_not_structures {call : LogCall} (h : call.structures s = false) :
    (call.next s).logger.propagates = s.logger.propagates ∧
      (call.next s).logger.handlers ⊆ s.logger.handlers := by
  have configured {name : String} (h : (Log.levelInAnyCase name).toBool = false) :
      ((configureLogging name).run s).2.logger = s.logger.cleared := by
    rw [run_configureLogging]
    cases named : Log.levelInAnyCase name with
    | ok level =>
      rw [named] at h
      cases h
    | error fault => rfl
  have cleared : s.logger.cleared.propagates = s.logger.propagates ∧
      s.logger.cleared.handlers ⊆ s.logger.handlers := ⟨rfl, List.nil_subset _⟩
  cases call with
  | change structured level => exact ⟨rfl, List.Subset.refl _⟩
  | configure name =>
    rw [LogCall.next, configured h]
    exact cleared
  | setUp =>
    rw [LogCall.next, run_setUpLogging]
    split
    next on =>
      rw [LogCall.structures, on, Bool.true_and] at h
      rw [configured h]
      exact cleared
    next => split <;> exact ⟨rfl, List.Subset.refl _⟩

/-! ### A history of calls -/

/-- Records go on to the host until a call sets up structured lines, and never again. -/
theorem propagates_afterCalls (calls : List LogCall) (s : Session) :
    (afterCalls calls s).logger.propagates =
      (s.logger.propagates && !everStructured calls s) := by
  induction calls generalizing s with
  | nil => simp [afterCalls, everStructured]
  | cons call rest ih =>
    have later : afterCalls (call :: rest) s = afterCalls rest (call.next s) := rfl
    rw [later, ih, everStructured]
    cases own : call.structures s with
    | true =>
      obtain ⟨level, logger⟩ := logger_of_structures own
      simp [logger]
    | false =>
      rw [(logger_of_not_structures own).1]
      simp

/-- No handler comes from a history that sets up no structured lines. -/
theorem handlers_afterCalls {calls : List LogCall} {s : Session}
    (never : everStructured calls s = false) :
    (afterCalls calls s).logger.handlers ⊆ s.logger.handlers := by
  induction calls generalizing s with
  | nil => exact List.Subset.refl _
  | cons call rest ih =>
    obtain ⟨own, rest⟩ := Bool.or_eq_false_iff.mp never
    exact List.Subset.trans (ih rest) (logger_of_not_structures own).2

theorem never_of_propagates {calls : List LogCall} (passing : s.logger.propagates = true)
    (on : (afterCalls calls s).logger.propagates = true) : everStructured calls s = false := by
  rwa [propagates_afterCalls, passing, Bool.true_and, Bool.not_eq_true'] at on

/-- A history that sets up no structured lines leaves a logger without handlers, whose records go
on to the host, as such a one. -/
theorem untouched_of_never {calls : List LogCall} (empty : s.logger.handlers = [])
    (passing : s.logger.propagates = true) (never : everStructured calls s = false) :
    (afterCalls calls s).logger.handlers = [] ∧ (afterCalls calls s).logger.propagates = true := by
  have handlers := handlers_afterCalls never
  rw [empty] at handlers
  refine ⟨List.subset_nil.mp handlers, ?_⟩
  rw [propagates_afterCalls, passing, never]
  rfl

/-- **What the last call decides.** After any history on a logger without handlers, whose records
go on to the host: to set it up with structured lines gives the same as to do that alone, one
handler of the library and nothing for the host. To set it up without gives the level of the
settings, but the rest only if no call before has set up structured lines. A name that has no
level ends the call: the level stays, and structured lines have lost their handlers by then. -/
theorem setUp_afterCalls (s : Session) (empty : s.logger.handlers = [])
    (passing : s.logger.propagates = true) (calls : List LogCall) :
    let before := afterCalls calls s
    let name := before.settings.logLevel
    let now := LogCall.setUp.next before
    let alone := LogCall.setUp.next { before with logger := s.logger }
    (before.settings.structuredLogs = true →
      (∀ level, Log.levelInAnyCase name = .ok level →
        now.logger = ⟨level, [.structured], false⟩ ∧ now.logger = alone.logger) ∧
      (∀ fault, Log.levelInAnyCase name = .error fault →
        setUpLogging.run before =
          (.error (.level fault), { before with logger := before.logger.cleared }))) ∧
    (before.settings.structuredLogs = false →
      (∀ level, Log.levelNamed name = .ok level →
        now.logger.level = level ∧
        (Log.Handler.structured ∉ now.logger.handlers ∧ now.logger.propagates = true ↔
          everStructured calls s = false) ∧
        (now.logger = alone.logger ↔ everStructured calls s = false)) ∧
      (∀ fault, Log.levelNamed name = .error fault →
        setUpLogging.run before = (.error (.level fault), before))) := by
  intro before name now alone
  constructor
  · intro on
    refine ⟨fun level named => ?_, fun fault unnamed => ?_⟩
    · simp only [now, alone, LogCall.next, run_setUpLogging, on, if_true, run_configureLogging,
        named, name, and_self]
    · rw [run_setUpLogging, if_pos on, run_configureLogging, unnamed]
  · intro off
    refine ⟨fun level named => ?_, fun fault unnamed => ?_⟩
    · have here : now.logger = before.logger.atLevel level := logger_setUp off named
      have there : alone.logger = s.logger.atLevel level := logger_setUp off named
      rw [here, there]
      -- all depends on what the history has left
      refine ⟨rfl, ⟨fun left => ?_, fun never => ?_⟩, ⟨fun same => ?_, fun never => ?_⟩⟩
      · exact never_of_propagates passing left.2
      · obtain ⟨none, on⟩ := untouched_of_never empty passing never
        exact ⟨none ▸ List.not_mem_nil, on⟩
      · have on : before.logger.propagates = true :=
          (congrArg Log.Logger.propagates same).trans passing
        exact never_of_propagates passing on
      · obtain ⟨none, on⟩ := untouched_of_never empty passing never
        rw [Log.Logger.atLevel, Log.Logger.atLevel, none, on, empty, passing]
    · rw [run_setUpLogging, off, if_neg Bool.false_ne_true, unnamed]

/-- A history that has set up nothing but levels. -/
theorem setUp_afterCalls_plain :
    let calls := [LogCall.change false "ERROR", .setUp, .change false "INFO"]
    let now := LogCall.setUp.next (afterCalls calls {})
    everStructured calls {} = false ∧ now.logger.level = 20 ∧
      Log.Handler.structured ∉ now.logger.handlers ∧ now.logger.propagates = true := by
  intro calls now
  have never : everStructured calls {} = false := by decide
  have plain := ((setUp_afterCalls {} rfl rfl calls).2 rfl).1 20 rfl
  exact ⟨never, plain.1, plain.2.1.mpr never⟩

/-- Once it has written structured lines, the logger goes on writing them, although the settings
ask for none, and the host gets no records. And the level of the settings is not set at all, if
its name is written in small letters and no structured lines are asked for. -/
theorem logger_unlike_settings :
    let calls := [LogCall.change true "INFO", .setUp, .change false "INFO"]
    let after (structured : Bool) := afterCalls [.change structured "warning", .setUp] {}
    ((afterCalls calls {}).settings.structuredLogs = false ∧
      (LogCall.setUp.next (afterCalls calls {})).logger = ⟨20, [.structured], false⟩ ∧
      (LogCall.setUp.next { afterCalls calls {} with logger := {} }).logger = ⟨20, [], true⟩) ∧
    (after true).logger = ⟨30, [.structured], false⟩ ∧ (after false).logger = ⟨0, [], true⟩ ∧
    (setUpLogging.run (afterCalls [.change false "warning"] {})).1 =
      .error (.level (.unknown "warning")) := by
  refine ⟨by decide, by decide, by decide, rfl⟩

end Permit.Session

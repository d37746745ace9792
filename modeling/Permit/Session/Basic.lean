import Permit.Constraint.Check
import Permit.Fault.Basic
import Permit.Grant.Cache
import Permit.Metrics
import Permit.Session.Journal
import Permit.Session.Trace
import Permit.Settings.Basic

/-!
The state that operations share: the settings in force, the compiled trees, the
registered rules, and what is reported to the outside. An action may change it and
may end in a fault; what it has changed by then stands.
-/
namespace Permit

structure Session where
  settings : Settings := {}
  cache : Cache := { capacity := 256 }
  metrics : Metrics := {}
  spans : Spans := {}
  journal : Journal := {}
  /-- The identifier of the request that is being checked. -/
  requestId : String := ""
  rules : Constraint.RuleSet := Constraint.RuleSet.builtIn
  logger : Log.Logger := {}
deriving Inhabited

/-- A computation on a session that may end in a fault. -/
abbrev Action (α : Type) := ExceptT Fault (StateM Session) α

namespace Action

/-- The result of a computation that needs no session. -/
def lift {α : Type} (result : Except Fault α) : Action α := ExceptT.mk (pure result)

def outcome {α : Type} (action : Action α) : StateM Session (Except Fault α) := action.run

/-- A step on the session that cannot fail. -/
def step {α : Type} (f : Session → α × Session) : Action α :=
  ExceptT.mk fun s => let (a, s) := f s; (.ok a, s)

def log (e : Entry) : Action Unit := modify fun s => { s with journal := s.journal.note e }

/-- Changes the metrics, unless they are switched off. -/
def measure (change : Metrics → Metrics) : Action Unit :=
  modify fun s => if s.settings.metricsEnabled then { s with metrics := change s.metrics } else s

def count (c : Counter) : Action Unit := measure (·.add c)

/-- Runs an action within a span. -/
def within {α : Type} (name : String) (action : Action α) : Action α :=
  ExceptT.mk fun s =>
    let (result, s) := action.run { s with spans := s.spans.enter name }
    (result, { s with spans := s.spans.leave (result matches .error _) })

def setAttribute (name : String) (n : Nat) : Action Unit :=
  modify fun s => { s with spans := s.spans.setAttribute name n }

end Action

namespace Session

/-- Counts an authorization, and the fields that it has rejected. -/
def recordAuthorization (check outcome : String) (rejected : Int := 0) : Action Unit := do
  Action.count (.authorizations check outcome)
  if rejected < 0 && (← get).settings.metricsEnabled then throw .negativeAmount
  if 0 < rejected then Action.measure (·.add (.rejectedFields check) rejected.toNat)

def recordCompilation (status : String) (seconds : Number.Binary64) : Action Unit :=
  Action.measure fun m => (m.add (.compilations status)).observe seconds

def recordProjection (target : String) : Action Unit := Action.count (.projections target)

end Session
end Permit

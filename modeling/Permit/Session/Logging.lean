import Permit.Log.Record
import Permit.Session.Basic

namespace Permit.Session

/-- Makes the logger write structured lines from a level on. It has lost its handlers even if
the level cannot be set. -/
def configureLogging (name : String) : Action Unit := do
  modify fun s => { s with logger := s.logger.cleared }
  let level ← Action.lift ((Log.levelInAnyCase name).mapError .level)
  modify fun s => { s with logger := s.logger.structuredAt level }

/-- Sets up the logger as the settings say: with structured lines of its own, or with
its level only. -/
def setUpLogging : Action Unit := do
  let settings := (← get).settings
  if settings.structuredLogs then configureLogging settings.logLevel
  else
    let level ← Action.lift ((Log.levelNamed settings.logLevel).mapError .level)
    modify fun s => { s with logger := s.logger.atLevel level }

def logLine (r : Log.Record) (span : Option Log.CurrentSpan) : Action String := do
  let s ← get
  Action.lift ((r.line s.settings.appName s.requestId span).mapError .record)

end Permit.Session

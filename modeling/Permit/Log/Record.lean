import Permit.Keyed
import Permit.Log.Json
import Permit.Log.Level
import Permit.Log.Message.Filling
import Permit.Log.Timestamp
import Permit.Log.Trace

namespace Permit.Log

structure Failure where
  kind : Value := .null
  text : Value := .null
deriving Repr, Inhabited

structure Record where
  created : Value
  level : Value
  logger : Value
  message : Value
  arguments : Value := .null
  failure : Option Failure := none
  /-- Attributes that the record has besides. -/
  extra : List (String × Value) := []
deriving Repr, Inhabited

inductive RecordFault where
  | timestamp (fault : TimestampFault)
  | message (fault : MessageFault)
  | trace (fault : TraceFault)
  | json (fault : Json.JsonFault)
  | badTime (given : Value)
deriving Repr

namespace RecordFault

def kind : RecordFault → FaultKind
  | .timestamp fault => fault.kind
  | .message fault => fault.kind
  | .trace _ => .type
  | .json fault => fault.kind
  | .badTime _ => .type

def text : RecordFault → String
  | .timestamp fault => fault.message
  | .message fault => fault.message
  | .trace fault => fault.message
  | .json fault => fault.message
  | .badTime given => s!"'{given.typeName}' object cannot be interpreted as an integer"

end RecordFault

/-- Attributes of every record, which are not listed as further ones. -/
def ownAttributes : List String :=
  ["name", "msg", "message", "args", "levelname", "levelno", "pathname", "filename", "module",
   "lineno", "funcName", "created", "msecs", "relativeCreated", "thread", "threadName",
   "processName", "process", "taskName", "exc_info", "exc_text", "stack_info"]

namespace Record

/-- A record as a logger makes it: at a numbered level, with the arguments in the form
that its message takes them. -/
def make (logger : String) (level : Int) (message arguments : Value)
    (created : Number.Binary64) (failure : Option Failure) : Except RecordFault Record := do
  return {
    created := .float created
    level := .text (levelName level)
    logger := .text logger
    message
    arguments := ← (Log.arguments arguments).mapError .message
    failure }

/-- A failure set as an attribute: type, text and place, of which the last is not shown. -/
def failureOf (v : Value) : Option Failure :=
  match v.items? with
  | some (kind :: text :: _) => some ⟨kind, text⟩
  | _ => none

/-- A record with an attribute set; those that every record has are replaced. -/
def set (r : Record) (name : String) (v : Value) : Record :=
  match name with
  | "created" => { r with created := v }
  | "levelname" => { r with level := v }
  | "name" => { r with logger := v }
  | "msg" => { r with message := v }
  | "args" => { r with arguments := v }
  | "exc_info" => { r with failure := failureOf v }
  | name =>
    if ownAttributes.contains name then r else { r with extra := Keyed.put r.extra name v }

def timestamp (r : Record) : Except RecordFault String := do
  let moment ← match r.created with
    | .float x => (Moment.ofSeconds x).mapError .timestamp
    | .int n =>
      if Moment.isSeconds n then pure ⟨n, 0⟩ else throw (.timestamp .outOfRange)
    | .bool b => pure ⟨if b then 1 else 0, 0⟩
    | v => throw (.badTime v)
  moment.text.mapError .timestamp

def entry? (name : String) (v : Option Value) : List (String × Value) :=
  match v with
  | some v => [(name, v)]
  | none => []

def entries (r : Record) (service requestId : String) (span : Option CurrentSpan) :
    Except RecordFault (List (String × Value)) := do
  let timestamp ← r.timestamp
  let message ← (Log.text r.message r.arguments).mapError .message
  let trace ← (CurrentSpan.traceId span).mapError .trace
  let spanId ← (CurrentSpan.spanId span).mapError .trace
  return [("timestamp", .text timestamp), ("service", .text service), ("level", r.level),
      ("logger", r.logger), ("message", .text message)] ++
    entry? "request_id" (if requestId = "" then none else some (.text requestId)) ++
    entry? "trace_id" (trace.map .text) ++
    entry? "span_id" (spanId.map .text) ++
    entry? "exception" (r.failure.map fun f =>
      .record [("type", f.kind), ("message", f.text)]) ++
    entry? "extra" (if r.extra.isEmpty then none else some (.record r.extra))

def line (r : Record) (service requestId : String) (span : Option CurrentSpan) :
    Except RecordFault String := do
  (Json.write (.record (← r.entries service requestId span))).mapError .json

end Record
end Permit.Log

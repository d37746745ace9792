import Permit.Fault.Kind
import Permit.Value.Basic
import Permit.Text.Quoted

namespace Permit.Log

structure CurrentSpan where
  recording : Bool
  context : Option (List (String × Value))
deriving Repr, Inhabited

/-- A value that cannot even be asked for its hexadecimal text. -/
structure TraceFault where
  given : Value
deriving Repr

def TraceFault.message (fault : TraceFault) : String :=
  s!"unsupported format string passed to {fault.given.typeName}.__format__"

/-- An integer as hexadecimal text, filled with zeros after its sign up to a width. -/
def hexText (width : Nat) (n : Int) : String :=
  if n < 0 then "-" ++ Text.hex (width - 1) n.natAbs else Text.hex width n.natAbs

def identifierText (width : Nat) : Value → Except TraceFault (Option String)
  | .int n => .ok (some (hexText width n))
  | .bool b => .ok (some (hexText width (if b then 1 else 0)))
  | .float _ => .ok none
  | .text _ => .ok none
  | v => .error ⟨v⟩

namespace CurrentSpan

def identifier (span : Option CurrentSpan) (name : String) (width : Nat) :
    Except TraceFault (Option String) :=
  match span with
  | none => .ok none
  | some s =>
    match if s.recording then s.context.bind (·.find? (·.1 == name)) else none with
    | some (_, v) => identifierText width v
    | none => .ok none

def traceId (span : Option CurrentSpan) : Except TraceFault (Option String) :=
  identifier span "trace_id" 32

def spanId (span : Option CurrentSpan) : Except TraceFault (Option String) :=
  identifier span "span_id" 16

end CurrentSpan
end Permit.Log

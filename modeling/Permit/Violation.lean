import Permit.Issue
import Permit.Value.Equality

namespace Permit

structure FieldMessage where
  field : String
  message : String
  /-- The rule that was broken, for a message about a value. -/
  rule : Option String := none
deriving Repr, DecidableEq, Inhabited

namespace FieldMessage

/-- Reads a text; bytes are text if they are encoded as UTF-8. -/
def readText (name : String) : Value → Reading String
  | .text s => .ok s
  | .bytes b =>
    match String.fromUTF8? ⟨b.toArray⟩ with
    | some s => .ok s
    | none => Reading.complain name .badBytes
  | _ => Reading.complain name .notText

def required (name : String) : Option Value → Reading String
  | none => Reading.complain name .missing
  | some v => readText name v

def optional (name : String) : Option Value → Reading (Option String)
  | none => .ok none
  | some .null => .ok none
  | some v => (readText name v).map some

/-- Reads a message from what its three parts are given as. -/
def read (field message rule : Option Value) : Reading FieldMessage :=
  Reading.ap
    (Reading.ap ((required "field" field).map FieldMessage.mk) (required "message" message))
    (optional "validation" rule)

def ofFields (fields : List (String × Value)) : Reading FieldMessage :=
  let find (name : String) : Option Value := (fields.find? (·.1 == name)).map (·.2)
  read (find "field") (find "message") (find "validation")

/-- The entries of a message; a rule is listed only if there is one. -/
def toValue (m : FieldMessage) : Value :=
  .record <| [("field", .text m.field), ("message", .text m.message)] ++
    match m.rule with
    | some rule => [("validation", .text rule)]
    | none => []

end FieldMessage

inductive ViolationKind where
  | policy
  | fields
  | values
  /-- The policy as a whole refuses the request. -/
  | unauthorized
deriving Repr, DecidableEq, Inhabited

namespace ViolationKind

def code : ViolationKind → String
  | .policy => "E_POLICY_VIOLATION"
  | .fields => "E_PERMITTED_QUERY_FIELDS"
  | .values => "E_PERMITTED_QUERY_FIELDS_VALUES"
  | .unauthorized => "E_UNAUTHORIZED"

/-- The message of a rejection that is given none. -/
def message : ViolationKind → String
  | .policy => ""
  | .fields => "Not authorized on query fields."
  | .values => "Not authorized on query fields values."
  | .unauthorized => "Unauthorized request."

end ViolationKind

structure Violation where
  kind : ViolationKind
  messages : List FieldMessage := []
  message : String := kind.message
  code : String := kind.code
  details : Value := .map []
deriving Repr, Inhabited

namespace Violation

/-- A violation with what is given in place of the message and the code of its kind.
Empty details are none. -/
def make (kind : ViolationKind) (messages : List FieldMessage) (message code : Option String)
    (details : Value) : Violation :=
  { kind, messages
    message := message.getD kind.message
    code := code.getD kind.code
    details := if details.isTrue then details else .map [] }

/-- The offending fields, in the order of their messages. -/
def fields (v : Violation) : List String := v.messages.map (·.field)

def toValue (v : Violation) : Value :=
  .record [("code", .text v.code), ("message", .text v.message),
    ("messages", .list (v.messages.map FieldMessage.toValue))]

end Violation
end Permit

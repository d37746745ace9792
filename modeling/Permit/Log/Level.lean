import Permit.Fault.Kind
import Permit.Text.Case
import Permit.Text.Quoted
import Permit.Number.Text

namespace Permit.Log

/-- The named levels, in ascending order. -/
def levels : List (String × Int) :=
  [("NOTSET", 0), ("DEBUG", 10), ("INFO", 20), ("WARNING", 30), ("ERROR", 40), ("CRITICAL", 50)]

def otherNames : List (String × Int) := [("WARN", 30), ("FATAL", 50)]

/-- The name of a level; one that has none is named by its number. -/
def levelName (level : Int) : String :=
  match levels.find? (·.2 == level) with
  | some (name, _) => name
  | none => "Level " ++ Number.intText level

def level? (name : String) : Option Int :=
  ((levels ++ otherNames).find? (·.1 == name)).map (·.2)

inductive LevelFault where
  | unknown (name : String)
  /-- What is neither a level nor a name, as it is shown. -/
  | unusable (shown : String)
deriving Repr, DecidableEq

namespace LevelFault

def kind : LevelFault → FaultKind
  | .unknown _ => .value
  | .unusable _ => .type

def message : LevelFault → String
  | .unknown name => "Unknown level: " ++ Text.quote name
  | .unusable shown => "Level not an integer or a valid string: " ++ shown

end LevelFault

/-- The names that stand for layouts of records and for no level, with what comes of them. -/
def layouts : List (String × LevelFault) :=
  [("BASIC_FORMAT", .unknown "%(levelname)s:%(name)s:%(message)s"),
   ("_STYLES", .unusable ("\x7b'%': (<class 'logging.PercentStyle'>, " ++
      "'%(levelname)s:%(name)s:%(message)s'), " ++
      "'\x7b': (<class 'logging.StrFormatStyle'>, " ++
      "'\x7blevelname\x7d:\x7bname\x7d:\x7bmessage\x7d'), " ++
      "'$': (<class 'logging.StringTemplateStyle'>, " ++
      "'$\x7blevelname\x7d:$\x7bname\x7d:$\x7bmessage\x7d')\x7d"))]

/-- The level of a name written in any case; a name that is unknown stands for `INFO`. -/
def levelInAnyCase (name : String) : Except LevelFault Int :=
  let upper := Text.toUpperAscii name
  match layouts.find? (·.1 == upper) with
  | some (_, fault) => .error fault
  | none => .ok ((level? upper).getD 20)

/-- The level of a name as it stands. -/
def levelNamed (name : String) : Except LevelFault Int :=
  match level? name with
  | some level => .ok level
  | none => .error (.unknown name)

inductive Handler where
  /-- The library's own: it writes structured lines. -/
  | structured
  | host (name : String)
deriving Repr, DecidableEq, Inhabited

structure Logger where
  level : Int := 0
  handlers : List Handler := []
  /-- Whether records go on to the loggers of the host. -/
  propagates : Bool := true
deriving Repr, DecidableEq, Inhabited

namespace Logger

def cleared (l : Logger) : Logger := { l with handlers := [] }

/-- The logger with one more handler, the library's own, and records from a level on, which go
no further. -/
def structuredAt (l : Logger) (level : Int) : Logger :=
  { level, handlers := l.handlers ++ [.structured], propagates := false }

def atLevel (l : Logger) (level : Int) : Logger := { l with level }

end Logger
end Permit.Log

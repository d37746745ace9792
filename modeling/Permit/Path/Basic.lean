import Permit.Path.Segment
import Permit.Text.Basic
import Permit.Value.Quoted

/-!
Permitted paths: dot-separated segments, such as `users.*.name`. A path is well
formed when no segment is empty, there are not too many of them, the first does
not select elements and no two neighbours both do.

`Path.read` gives the segments of a well-formed path and the cause of every other
one. The causes of a conflict between paths are listed here too, so that one type
covers everything that can be wrong with a list of paths.
-/
namespace Permit

inductive PathFault where
  /-- A path that is no text, or an empty one. -/
  | notText (given : Value)
  | emptySegment (path : String)
  | tooLong (path : String) (segments : Nat) (limit : Int)
  | leadingSelector (path : String)
  | nestedSelectors (path : String)
  /-- A path names a field of something whose elements are selected elsewhere. -/
  | elementsAsFields (key path : String)
  /-- A path selects elements of something whose fields are named elsewhere. -/
  | fieldsAsElements (key path : String)
deriving Repr

inductive PathFault.Family where
  | malformed
  | unsupported
  | conflict
deriving Repr, DecidableEq

namespace PathFault

def family : PathFault → Family
  | .nestedSelectors _ => .unsupported
  | .elementsAsFields .. => .conflict
  | .fieldsAsElements .. => .conflict
  | _ => .malformed

def message : PathFault → String
  | .notText _ => "Permitted path must be a non-empty string"
  | .emptySegment path => s!"Empty segment in permitted path '{path}'"
  | .tooLong path _ limit =>
    s!"Permitted path '{path}' exceeds " ++ Number.intText limit ++ " segments"
  | .leadingSelector path => s!"Permitted path '{path}' cannot start with an array selector"
  | .nestedSelectors _ => "2D arrays are not supported"
  | .elementsAsFields key _ => s!"Cannot reshape '{key}' array to an object"
  | .fieldsAsElements key _ => s!"Cannot reshape '{key}' object to an array"

def details : PathFault → Value
  | .notText given => .record [("path", given)]
  | .emptySegment path => .record [("path", .text path)]
  | .tooLong path segments _ => .record [("path", .text path), ("segments", .int segments)]
  | .leadingSelector path => .record [("path", .text path)]
  | .nestedSelectors path => .record [("path", .text path)]
  | .elementsAsFields key path => .record [("key", .text key), ("path", .text path)]
  | .fieldsAsElements key path => .record [("key", .text key), ("path", .text path)]

end PathFault

namespace Path

def segments (path : String) : List String := Text.split '.' path

def ofSegments (segments : List String) : String := Text.join '.' segments

/-- Whether two neighbours both select elements. -/
def hasNestedSelectors : List String → Bool
  | first :: second :: rest =>
    (isSelector first && isSelector second) || hasNestedSelectors (second :: rest)
  | _ => false

/-- The segments of a well-formed path of at most `limit` segments. -/
def readText (limit : Int) (path : String) : Except PathFault (List String) :=
  let parts := segments path
  if path == "" then .error (.notText (.text path))
  else if parts.contains "" then .error (.emptySegment path)
  else if limit < parts.length then .error (.tooLong path parts.length limit)
  else if parts.head?.any isSelector then .error (.leadingSelector path)
  else if hasNestedSelectors parts then .error (.nestedSelectors path)
  else .ok parts

/-- Reads a path from a value, which must be a text. -/
def read (limit : Int) : Value → Except PathFault (List String)
  | .text path => readText limit path
  | given => .error (.notText given)

end Path
end Permit

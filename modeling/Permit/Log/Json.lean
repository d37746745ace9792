import Permit.Fault.Kind
import Permit.Value.Quoted

/-!
Values written as JSON, in ASCII on one line. Lists and tuples are arrays. A key
that is null, a flag or a number is written as the text of its JSON form; no other
key but text has a form. What has no JSON form of its own is written as its text.

Numbers that are not finite are written as `NaN`, `Infinity` and `-Infinity`.
-/
namespace Permit.Log.Json

inductive JsonFault where
  | numeral (fault : Number.NumeralFault)
  | badKey (key : Value)
deriving Repr

namespace JsonFault

def kind : JsonFault → FaultKind
  | .numeral fault => fault.kind
  | .badKey _ => .type

def message : JsonFault → String
  | .numeral fault => fault.message
  | .badKey key => "keys must be str, int, float, bool or None, not " ++ key.typeName

end JsonFault

/-- A sixteen-bit unit as an escape. -/
def unit (n : Nat) : String := "\\u" ++ Text.hex 4 n

/-- A code point as one unit, or as two that share its bits if it does not fit one. -/
def units (point : Nat) : String :=
  if point < 0x10000 then unit point
  else
    let rest := point - 0x10000
    unit (0xD800 + rest / 0x400) ++ unit (0xDC00 + rest % 0x400)

def escape (c : Char) : String :=
  match c with
  | '"' => "\\\""
  | '\\' => "\\\\"
  | '\n' => "\\n"
  | '\r' => "\\r"
  | '\t' => "\\t"
  | '\x08' => "\\b"
  | '\x0c' => "\\f"
  | c => if 32 ≤ c.toNat && c.toNat ≤ 126 then c.toString else units c.toNat

def string (s : String) : String := "\"" ++ String.join (s.toList.map escape) ++ "\""

def number (x : Number.Binary64) : String :=
  match x with
  | .nan _ => "NaN"
  | .infinite negative => if negative then "-Infinity" else "Infinity"
  | x => x.text

def flag (b : Bool) : String := if b then "true" else "false"

def integer (n : Int) : Except JsonFault String := (Number.intText? n).mapError .numeral

def key (v : Value) : Except JsonFault String :=
  match v with
  | .text s => .ok s
  | .null => .ok "null"
  | .bool b => .ok (flag b)
  | .int n => integer n
  | .float x => .ok (number x)
  | v => .error (.badKey v)

mutual

def write : Value → Except JsonFault String
  | .null => .ok "null"
  | .bool b => .ok (flag b)
  | .int n => integer n
  | .float x => .ok (number x)
  | .text s => .ok (string s)
  | .list items => do return "[" ++ ", ".intercalate (← writeItems items) ++ "]"
  | .tuple items => do return "[" ++ ", ".intercalate (← writeItems items) ++ "]"
  | .map entries => do
    return "\x7b" ++ ", ".intercalate (← writeEntries entries) ++ "\x7d"
  | v => (v.display.mapError .numeral).map string

def writeItems : List Value → Except JsonFault (List String)
  | [] => .ok []
  | v :: rest => do return (← write v) :: (← writeItems rest)

def writeEntries : List (Value × Value) → Except JsonFault (List String)
  | [] => .ok []
  | (k, v) :: rest => do
    let name ← key k
    return (string name ++ ": " ++ (← write v)) :: (← writeEntries rest)

end

end Permit.Log.Json

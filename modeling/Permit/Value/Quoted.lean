import Permit.Number.Text
import Permit.Value.Basic

namespace Permit

open Number (NumeralFault)

namespace Value

def flagText (b : Bool) : String := if b then "True" else "False"

mutual

/-- The quoted form of a value. -/
def quote : Value → Except NumeralFault String
  | .null => .ok "None"
  | .bool b => .ok (flagText b)
  | .int n => Number.intText? n
  | .float x => .ok x.text
  | .text s => .ok (Text.quote s)
  | .bytes b => .ok (Text.quoteBytes b)
  | .list items => do return "[" ++ ", ".intercalate (← quoteItems items) ++ "]"
  | .tuple items => do
    let parts ← quoteItems items
    return "(" ++ ", ".intercalate parts ++ (if parts.length = 1 then ",)" else ")")
  | .map entries => do return "\x7b" ++ ", ".intercalate (← quoteEntries entries) ++ "\x7d"
  | .object _ .bare _ => .ok "<Object>"
  | .object _ .record fields => do
    return "Record(" ++ ", ".intercalate (← quoteFields fields) ++ ")"
  | .object _ .model fields => do
    return "Model(" ++ ", ".intercalate (← quoteFields fields) ++ ")"
  | .renderable .. => .ok "<Renderable>"
  | .incomparable .. => .ok "<Incomparable>"

def quoteItems : List Value → Except NumeralFault (List String)
  | [] => .ok []
  | v :: rest => do return (← v.quote) :: (← quoteItems rest)

def quoteEntries : List (Value × Value) → Except NumeralFault (List String)
  | [] => .ok []
  | (k, v) :: rest => do return ((← k.quote) ++ ": " ++ (← v.quote)) :: (← quoteEntries rest)

def quoteFields : List (String × Value) → Except NumeralFault (List String)
  | [] => .ok []
  | (name, v) :: rest => do return (name ++ "=" ++ (← v.quote)) :: (← quoteFields rest)

end

/-- A value as text: a text stands as it is, everything else is quoted. -/
def display : Value → Except NumeralFault String
  | .text s => .ok s
  | .object _ .model fields => do return " ".intercalate (← quoteFields fields)
  | v => v.quote

def quoteTexts (items : List String) : String :=
  "[" ++ ", ".intercalate (items.map Text.quote) ++ "]"

end Value
end Permit

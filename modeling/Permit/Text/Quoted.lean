import Permit.Text.Basic
import Permit.Text.Printable

namespace Permit.Text

/-- A number in lower-case hexadecimal digits, filled with zeros up to a width. -/
def hex (width n : Nat) : String := padLeft '0' width (String.ofList (Nat.toDigits 16 n))

/-- The escape of a code point: the shortest of the three numeric forms that holds it. -/
def escapePoint (n : Nat) : String :=
  if n < 0x100 then "\\x" ++ hex 2 n
  else if n < 0x10000 then "\\u" ++ hex 4 n
  else "\\U" ++ hex 8 n

/-- The quote that a text is written between. -/
def quoteMark (cs : List Char) : Char :=
  if cs.contains '\'' && !cs.contains '"' then '"' else '\''

/-- One character of a quoted text; `shown` says which characters stand as themselves. -/
def quoteChar (mark : Char) (shown : Char → Bool) (c : Char) : String :=
  if c = mark || c = '\\' then String.ofList ['\\', c]
  else if c = '\n' then "\\n"
  else if c = '\r' then "\\r"
  else if c = '\t' then "\\t"
  else if shown c then c.toString
  else escapePoint c.toNat

def quoteWith (shown : Char → Bool) (s : String) : String :=
  let cs := s.toList
  let mark := quoteMark cs
  mark.toString ++ String.join (cs.map (quoteChar mark shown)) ++ mark.toString

/-- The quoted form of a text: printable characters stand as themselves. -/
def quote (s : String) : String := quoteWith isPrintable s

/-- The quoted form of a text in ASCII characters only. -/
def quoteAscii (s : String) : String := quoteWith (fun c => isPrintable c && c.toNat < 128) s

/-- The quoted form of bytes, marked by a leading `b`; only ASCII stands as itself. -/
def quoteBytes (bytes : List UInt8) : String :=
  "b" ++ quoteAscii (String.ofList (bytes.map fun b => Char.ofNat b.toNat))

end Permit.Text

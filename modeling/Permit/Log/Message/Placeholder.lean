import Permit.Log.Message.Fault
import Permit.Number.Places

namespace Permit.Log

open Number (Binary64)

structure Placeholder where
  /-- Text narrower than the width stands at the left. -/
  leftward : Bool := false
  /-- A plus sign stands before a number that is not negative. -/
  signed : Bool := false
  blank : Bool := false
  alternate : Bool := false
  /-- Zeros fill the width of a number. -/
  zeros : Bool := false
  width : Option Nat := none
  precision : Option Nat := none
deriving Repr, DecidableEq, Inhabited

/-- A number as text in the three parts between which it may be filled. -/
structure Numeral where
  negative : Bool
  /-- The mark of the base. -/
  base : String := ""
  digits : String

namespace Placeholder

def pad (p : Placeholder) (s : String) : String :=
  let spare := "".pushn ' ' (p.width.getD 0 - s.length)
  if p.leftward then s ++ spare else spare ++ s

/-- A text cut to the precision and filled up to the width. -/
def layText (p : Placeholder) (s : String) : String :=
  p.pad (match p.precision with
    | some most => String.ofList (s.toList.take most)
    | none => s)

/-- A number with its sign, filled up to the width by zeros after the sign or by
blanks around it. -/
def layNumber (p : Placeholder) (n : Numeral) : String :=
  let sign := if n.negative then "-" else if p.signed then "+" else if p.blank then " " else ""
  let front := sign ++ n.base
  if p.zeros && !p.leftward then
    front ++ Text.padLeft '0' (p.width.getD 0 - front.length) n.digits
  else p.pad (front ++ n.digits)

/-- An integer in a base, with as many digits as the precision asks for. -/
def integer (p : Placeholder) (base : Nat) (mark : String) (upper : Bool) (n : Int) : String :=
  let digits := String.ofList (Nat.toDigits base n.natAbs)
  let digits := if upper then String.ofList (digits.toList.map Char.toUpper) else digits
  p.layNumber {
    negative := n < 0
    base := if p.alternate then mark else ""
    digits := Text.padLeft '0' (p.precision.getD 0) digits }

def real (p : Placeholder) (form : Number.Notation) (upper : Bool) (x : Binary64) : String :=
  let cs := (x.textIn form p.alternate (p.precision.getD 6)).toList
  let cs := if upper then cs.map Char.toUpper else cs
  match cs with
  | '-' :: rest => p.layNumber ⟨true, "", String.ofList rest⟩
  | cs => p.layNumber ⟨false, "", String.ofList cs⟩

/-- The whole number that is left of a value when its fraction is dropped. -/
def wholeOf (letter : Char) : Value → Except MessageFault Int
  | .int n => .ok n
  | .bool b => .ok (if b then 1 else 0)
  | .float (.nan _) => .error .noIntegerOfNan
  | .float (.infinite _) => .error .noIntegerOfInfinity
  | .float (.finite negative mantissa exponent) =>
    let (n, d) := Binary64.ratio negative mantissa exponent
    .ok (n.tdiv d)
  | v => .error (.needsNumber letter v)

def integerOf (letter : Char) : Value → Except MessageFault Int
  | .int n => .ok n
  | .bool b => .ok (if b then 1 else 0)
  | v => .error (.needsInteger letter v)

/-- The floating-point number nearest to a value. -/
def realOf : Value → Except MessageFault Binary64
  | .float x => .ok x
  | .bool b => .ok (Binary64.ofNat (if b then 1 else 0))
  | .int n =>
    match Binary64.ofInt? n with
    | some x => .ok x
    | none => .error (.numeral .tooLarge)
  | v => .error (.notReal v)

/-- The single character that a value stands for. -/
def characterOf : Value → Except MessageFault Char
  | .text s =>
    match s.toList with
    | [c] => .ok c
    | _ => .error .needsCharacter
  | .int n => if 0 ≤ n && n < 0x110000 then .ok (Char.ofNat n.toNat) else .error .noSuchCharacter
  | .bool b => .ok (Char.ofNat (if b then 1 else 0))
  | _ => .error .needsCharacter

/-- A decimal integer, which may not have too many digits. -/
def decimal (p : Placeholder) (n : Int) : Except MessageFault String := do
  let _ ← (Number.intText? n).mapError .numeral
  return p.integer 10 "" false n

/-- A text with every character beyond ASCII as an escape. -/
def asciiOnly (s : String) : String :=
  String.join (s.toList.map fun c => if c.toNat < 128 then c.toString else Text.escapePoint c.toNat)

/-- The text that a placeholder with a letter makes of a value; `index` is where the
letter stands in the message. -/
def write (p : Placeholder) (letter : Char) (index : Nat) (v : Value) :
    Except MessageFault String :=
  match letter with
  | 's' => (v.display.mapError .numeral).map p.layText
  | 'r' => (v.quote.mapError .numeral).map p.layText
  | 'a' => (v.quote.mapError .numeral).map (p.layText ∘ asciiOnly)
  | 'd' => wholeOf letter v >>= p.decimal
  | 'i' => wholeOf letter v >>= p.decimal
  | 'u' => wholeOf letter v >>= p.decimal
  | 'o' => (integerOf letter v).map (p.integer 8 "0o" false)
  | 'x' => (integerOf letter v).map (p.integer 16 "0x" false)
  | 'X' => (integerOf letter v).map (p.integer 16 "0X" true)
  | 'e' => (realOf v).map (p.real .scientific false)
  | 'E' => (realOf v).map (p.real .scientific true)
  | 'f' => (realOf v).map (p.real .fixed false)
  | 'F' => (realOf v).map (p.real .fixed true)
  | 'g' => (realOf v).map (p.real .general false)
  | 'G' => (realOf v).map (p.real .general true)
  | 'c' => (characterOf v).map fun c => p.pad c.toString
  | _ => .error (.unknownLetter letter index)

end Placeholder
end Permit.Log

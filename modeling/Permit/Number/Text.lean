import Permit.Fault.Kind
import Permit.Number.Decimal
import Permit.Text.Quoted

namespace Permit.Number

inductive NumeralFault where
  /-- More digits than may be converted; reading tells how many there are. -/
  | tooManyDigits (read : Option Nat)
  | notAnInteger (text : String)
  | tooLarge
deriving Repr, DecidableEq

/-- The number of decimal digits that an integer may have as text. -/
def digitLimit : Nat := 4300

namespace NumeralFault

def kind : NumeralFault → FaultKind
  | .tooLarge => .overflow
  | _ => .value

def message : NumeralFault → String
  | .tooManyDigits read =>
    s!"Exceeds the limit ({digitLimit} digits) for integer string conversion" ++
    (match read with
      | some n => s!": value has {n} digits"
      | none => "") ++
    "; use sys.set_int_max_str_digits() to increase the limit"
  | .notAnInteger text =>
    "invalid literal for int() with base 10: " ++ String.ofList ((Text.quote text).toList.take 200)
  | .tooLarge => "int too large to convert to float"

end NumeralFault

def natText (n : Nat) : String := String.ofList (Nat.toDigits 10 n)

def intText (n : Int) : String := (if n < 0 then "-" else "") ++ natText n.natAbs

/-- An integer as text, unless it has more digits than may be converted. -/
def intText? (n : Int) : Except NumeralFault String :=
  let digits := natText n.natAbs
  if digitLimit < digits.length then .error (.tooManyDigits none)
  else .ok ((if n < 0 then "-" else "") ++ digits)

/-- An exponent with its sign and at least two digits. -/
def exponentText (mark : Char) (exponent : Int) : String :=
  mark.toString ++ (if exponent < 0 then "-" else "+") ++
    Text.padLeft '0' 2 (natText exponent.natAbs)

/-- The rules by which a number in its fewest digits is laid out: the leading
powers of ten, from `positionalFrom` up to below `positionalBelow`, at which it is
written without an exponent. -/
structure NumberStyle where
  positionalFrom : Int
  positionalBelow : Int

/-- The layout of numbers in this library's texts: without an exponent from
0.0001 up to below 10^16, and always with a point or an exponent. -/
def numberStyle : NumberStyle := ⟨-4, 16⟩

def zeros (n : Nat) : String := "".pushn '0' n

/-- Digits with a point after the first `count`. -/
def pointed (digits : String) (count : Nat) : String :=
  String.ofList (digits.toList.take count) ++ "." ++ String.ofList (digits.toList.drop count)

def Decimal.text (style : NumberStyle) (d : Decimal) : String :=
  let digits := natText d.digits
  if style.positionalFrom ≤ d.lead && d.lead < style.positionalBelow then
    match d.lead with
    | .negSucc k => "0." ++ zeros k ++ digits
    | .ofNat k =>
      if digits.length ≤ k + 1 then digits ++ zeros (k + 1 - digits.length) ++ ".0"
      else pointed digits (k + 1)
  else
    (if digits.length = 1 then digits else pointed digits 1) ++ exponentText 'e' d.lead

/-- The shortest text that reads back as the number. -/
def Binary64.text : Binary64 → String
  | .nan _ => "nan"
  | .infinite negative => if negative then "-inf" else "inf"
  | .finite negative mantissa exponent =>
    (if negative then "-" else "") ++
      if mantissa = 0 then "0.0" else (Decimal.shortest mantissa exponent).text numberStyle

end Permit.Number

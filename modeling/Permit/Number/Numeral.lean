import Permit.Number.Text
import Permit.Text.Digit

/-!
Numbers read from text. Decimal digits of every script are accepted, and an
underscore may stand between two digits of a floating-point numeral.

The grammar of a floating-point numeral: a sign or none, then `inf`, `infinity`
or `nan` in any case, or digits with at most one point among them and at least
one digit, with an exponent or none.
-/
namespace Permit.Number

/-- A character with the decimal digits of other scripts replaced by ASCII ones. -/
def asciiDigit (c : Char) : Char :=
  match Text.decimalDigit? c with
  | some d => Char.ofNat (48 + d)
  | none => c

def isAsciiDigit (c : Char) : Bool := '0' ≤ c && c ≤ '9'

def digitsValue (cs : List Char) : Nat :=
  cs.foldl (fun n c => 10 * n + (c.toNat - 48)) 0

/-- Leaves out underscores, each of which must stand between two digits; `prev` is
the character before. -/
def dropUnderscores (prev : Char) : List Char → Option (List Char)
  | [] => if prev = '_' then none else some []
  | c :: rest =>
    if c = '_' then
      if isAsciiDigit prev then dropUnderscores c rest else none
    else if prev = '_' && !isAsciiDigit c then none
    else (dropUnderscores c rest).map (c :: ·)

/-- A sign in front of a numeral, and the rest. -/
def signOf : List Char → Bool × List Char
  | '-' :: rest => (true, rest)
  | '+' :: rest => (false, rest)
  | cs => (false, cs)

/-- An exponent: nothing at all, or a mark, a sign or none, and digits. -/
def readExponent : List Char → Option Int
  | [] => some 0
  | mark :: rest =>
    if mark = 'e' || mark = 'E' then
      let (negative, digits) := signOf rest
      if digits.isEmpty || !digits.all isAsciiDigit then none
      else
        let n := digitsValue digits
        some (if negative then -(n : Int) else n)
    else none

/-- The number nearest to `digits · 10 ^ power`. Powers far outside the range are
not computed: the number is infinite or zero. -/
def ofDigits (negative : Bool) (digits : Nat) (power : Int) : Binary64 :=
  let lead := power + (natText digits).length
  if digits = 0 || lead < -400 then .finite negative 0 Binary64.leastExponent
  else if 400 < lead then .infinite negative
  else
    let (num, den) := Decimal.shifted digits 1 power
    Binary64.ofRatio negative num den

/-- A numeral of digits, point and exponent, without a sign. -/
def readUnsigned (negative : Bool) (cs : List Char) : Option Binary64 :=
  let whole := cs.takeWhile isAsciiDigit
  let rest := cs.dropWhile isAsciiDigit
  let (fraction, rest) := match rest with
    | '.' :: rest => (rest.takeWhile isAsciiDigit, rest.dropWhile isAsciiDigit)
    | rest => ([], rest)
  if whole.isEmpty && fraction.isEmpty then none
  else
    (readExponent rest).map fun exponent =>
      ofDigits negative (digitsValue (whole ++ fraction)) (exponent - fraction.length)

/-- A floating-point numeral; blanks around it have been left out. -/
def readFloatChars (cs : List Char) : Option Binary64 := do
  let cs ← dropUnderscores ' ' (cs.map asciiDigit)
  let (negative, body) := signOf cs
  match String.ofList (body.map Char.toLower) with
  | "inf" => some (.infinite negative)
  | "infinity" => some (.infinite negative)
  | "nan" => some (.nan 0)
  | _ => readUnsigned negative body

def readFloat? (s : String) : Option Binary64 := readFloatChars (Text.trimChars s.toList)

/-- Whether a text is a sign or none followed by decimal digits. -/
def isIntegerNumeral (s : String) : Bool :=
  let digits := match Text.trimChars s.toList with
    | '-' :: rest => rest
    | cs => cs
  !digits.isEmpty && digits.all Text.isDecimal

/-- Reads a position: a text of digits. Digits that are not decimal have no value,
and a run of decimal digits may not be too long. -/
def readPosition (s : String) : Except NumeralFault Nat :=
  let cs := s.toList
  let run := cs.takeWhile Text.isDecimal
  if digitLimit < run.length then .error (.tooManyDigits (some run.length))
  else if run.length = cs.length then .ok (digitsValue (cs.map asciiDigit))
  else .error (.notAnInteger s)

end Permit.Number

import Permit.Number.Text

namespace Permit.Number

inductive Notation where
  | fixed
  | scientific
  /-- Fixed for moderate exponents, scientific for others; the precision counts all digits. -/
  | general
deriving Repr, DecidableEq, Inhabited

/-- Digits with a point after the first `count`; no point if no digits follow it,
unless it is to be kept. -/
def withPoint (keepPoint : Bool) (digits : String) (count : Nat) : String :=
  if digits.length ≤ count && !keepPoint then digits else pointed digits count

/-- `num / den` with `places` digits after the point. -/
def fixedText (keepPoint : Bool) (num den places : Nat) : String :=
  let digits := Text.padLeft '0' (places + 1) (natText (Decimal.atPlaces num den places))
  withPoint keepPoint digits (digits.length - places)

/-- `num / den` as one digit, `places` digits after the point and an exponent. -/
def scientificText (keepPoint : Bool) (num den places : Nat) : String :=
  let (digits, lead) := Decimal.significant num den (places + 1)
  withPoint keepPoint (Text.padLeft '0' (places + 1) (natText digits)) 1 ++ exponentText 'e' lead

/-- Leaves out the zeros at the end of a fraction, and the point if nothing else follows it. -/
def dropFractionZeros (s : String) : String :=
  let cs := s.toList
  if cs.contains '.' then
    let kept := cs.reverse.dropWhile (· = '0')
    String.ofList (match kept with
      | '.' :: rest => rest.reverse
      | kept => kept.reverse)
  else s

/-- `num / den` in `digits` digits: without an exponent as long as the first digit
lies among those the precision reaches, at most four places behind the point. -/
def generalText (keepZeros : Bool) (num den digits : Nat) : String :=
  let count := max digits 1
  let (rounded, lead) := Decimal.significant num den count
  let tidy (s : String) : String := if keepZeros then s else dropFractionZeros s
  if -4 ≤ lead && lead < count then
    tidy (fixedText keepZeros num den (count - 1 - lead).toNat)
  else
    tidy (withPoint keepZeros (Text.padLeft '0' count (natText rounded)) 1) ++
      exponentText 'e' lead

def Binary64.textIn (form : Notation) (alternate : Bool) (precision : Nat) :
    Binary64 → String
  | .nan _ => "nan"
  | .infinite negative => if negative then "-inf" else "inf"
  | .finite negative mantissa exponent =>
    let (num, den) := scaled mantissa 1 exponent
    (if negative then "-" else "") ++
      match form with
      | .fixed => fixedText alternate num den precision
      | .scientific => scientificText alternate num den precision
      | .general => generalText alternate num den precision

end Permit.Number

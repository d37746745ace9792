import Permit.Number.Binary64

namespace Permit.Number

/-- A decimal numeral `d.ddd · 10 ^ lead`, its digits without trailing zeros. -/
structure Decimal where
  digits : Nat
  lead : Int
deriving Repr, DecidableEq

namespace Decimal

/-- `num / den` times a power of ten, as a quotient of natural numbers. -/
def shifted (num den : Nat) (power : Int) : Nat × Nat :=
  match power with
  | .ofNat k => (num * Nat.pow 10 k, den)
  | .negSucc k => (num, den * Nat.pow 10 (k + 1))

/-- The power of ten of the leading digit of `num / den`. -/
def leadOf (num den : Nat) : Int :=
  let estimate : Int := ((num.log2 : Int) - (den.log2 : Int)) * 30103 / 100000
  let (n, d) := shifted num den (-estimate)
  if n < d then estimate - 1 else if n < 10 * d then estimate else estimate + 1

/-- The reals that round to a positive number: twice their bounds, over one
denominator, and whether the bounds belong to them. -/
structure Neighbourhood where
  low : Nat
  high : Nat
  den : Nat
  closed : Bool

/-- The neighbourhood of `mantissa · 2 ^ exponent`. Below a power of two the
numbers lie closer together. -/
def neighbourhood (mantissa : Nat) (exponent : Int) : Neighbourhood :=
  let (unit, den) := Binary64.scaled 1 4 exponent
  let narrow := mantissa = Binary64.leastFull && Binary64.leastExponent < exponent
  { low := unit * (4 * mantissa - (if narrow then 1 else 2))
    high := unit * (4 * mantissa + 2)
    den := den
    closed := mantissa % 2 == 0 }

/-- Whether the quotient lies in the neighbourhood. -/
def Neighbourhood.has (b : Neighbourhood) (num den : Nat) : Bool :=
  if b.closed then b.low * den ≤ num * b.den && num * b.den ≤ b.high * den
  else b.low * den < num * b.den && num * b.den < b.high * den

/-- Leaves out trailing zeros; `fuel` bounds their number. -/
def dropZeros : Nat → Nat → Nat
  | 0, n => n
  | fuel + 1, n => if n ≠ 0 && n % 10 = 0 then dropZeros fuel (n / 10) else n

/-- The numeral of `digits · 10 ^ (lead - count + 1)`; a count of digits that was
exceeded by rounding up moves the leading digit. -/
def normalize (digits count : Nat) (lead : Int) : Decimal :=
  if digits = Nat.pow 10 count then ⟨1, lead + 1⟩ else ⟨dropZeros count digits, lead⟩

/-- The better of the two neighbours of `num / den` on the grid of `count` digits
that lie in the neighbourhood: the nearer one, of two equally near the even one. -/
def onGrid (b : Neighbourhood) (num den : Nat) (lead : Int) (count : Nat) : Option Nat :=
  let power : Int := (count : Int) - 1 - lead
  let (n, d) := shifted num den power
  let below := n / d
  let (belowNum, gridDen) := shifted below 1 (-power)
  let (aboveNum, _) := shifted (below + 1) 1 (-power)
  match b.has belowNum gridDen, b.has aboveNum gridDen with
  | true, true => some (roundDiv n d)
  | true, false => some below
  | false, true => some (below + 1)
  | false, false => none

/-- The first grid of at least `count` digits that meets the neighbourhood. Seventeen
digits always do. -/
def shortestFrom (b : Neighbourhood) (num den : Nat) (lead : Int) : Nat → Nat → Decimal
  | 0, count => normalize (num / den) count lead
  | fuel + 1, count =>
    match onGrid b num den lead count with
    | some digits => normalize digits count lead
    | none => shortestFrom b num den lead fuel (count + 1)

/-- The fewest digits that read back as `mantissa · 2 ^ exponent`, for a positive mantissa. -/
def shortest (mantissa : Nat) (exponent : Int) : Decimal :=
  let (num, den) := Binary64.scaled mantissa 1 exponent
  shortestFrom (neighbourhood mantissa exponent) num den (leadOf num den) 17 1

/-- `num / den` rounded to `count` significant digits, a tie to the even digit.
Trailing zeros are kept, so there are `count` digits. -/
def significant (num den count : Nat) : Nat × Int :=
  if num = 0 then (0, 0)
  else
    let lead := leadOf num den
    let (n, d) := shifted num den ((count : Int) - 1 - lead)
    let digits := roundDiv n d
    if digits = Nat.pow 10 count then (Nat.pow 10 (count - 1), lead + 1) else (digits, lead)

/-- `num / den` rounded to `places` digits after the point, a tie to the even digit. -/
def atPlaces (num den places : Nat) : Nat := roundDiv (num * Nat.pow 10 places) den

end Decimal
end Permit.Number

import Permit.Number.Rounding

/-!
Floating-point numbers of 53 significant bits, held exactly: a finite number is a
sign, a whole mantissa and a power of two. A number that is not one carries the
place it came from, since two of them are never equal although one and the same
is never changed by copying.

Comparisons are those of the exact values; nothing is rounded by them.
-/
namespace Permit.Number

inductive Binary64 where
  /-- The value `±mantissa · 2 ^ exponent`. -/
  | finite (negative : Bool) (mantissa : Nat) (exponent : Int)
  | infinite (negative : Bool)
  | nan (origin : Nat)
deriving Repr, DecidableEq, Inhabited

namespace Binary64

/-- The least exponent: the spacing of the numbers next to zero. -/
def leastExponent : Int := -1074

/-- The largest exponent that a full mantissa may have. -/
def greatestExponent : Int := 971

/-- What mantissas are below: the number of 53 bits, `2 ^ 53`. -/
def mantissaBound : Nat := 9007199254740992

/-- The least mantissa of 53 bits, `2 ^ 52`. -/
def leastFull : Nat := 4503599627370496

def zero : Binary64 := .finite false 0 leastExponent

/-- `num · 2 ^ shift / den` as a quotient of natural numbers. -/
def scaled (num den : Nat) (shift : Int) : Nat × Nat :=
  match shift with
  | .ofNat k => (num * Nat.pow 2 k, den)
  | .negSucc k => (num, den * Nat.pow 2 (k + 1))

/-- The exponent at which `num / den` has a mantissa of 53 bits, or the least one. -/
def exponentFor (num den : Nat) : Int :=
  let estimate : Int := (num.log2 : Int) - (den.log2 : Int) - 53
  let (n, d) := scaled num den (-estimate)
  max (if n / d < mantissaBound then estimate else estimate + 1) leastExponent

/-- The number nearest to `±num / den`, a tie going to the even mantissa. A
magnitude that rounds beyond the largest finite number is infinite. -/
def ofRatio (negative : Bool) (num den : Nat) : Binary64 :=
  if num = 0 then .finite negative 0 leastExponent
  else
    let exponent := exponentFor num den
    let (n, d) := scaled num den (-exponent)
    let mantissa := roundDiv n d
    let (mantissa, exponent) :=
      if mantissa = mantissaBound then (leastFull, exponent + 1) else (mantissa, exponent)
    if greatestExponent < exponent then .infinite negative
    else .finite negative mantissa exponent

/-- The number nearest to an integer, if it is finite. -/
def ofInt? (n : Int) : Option Binary64 :=
  match ofRatio (n < 0) n.natAbs 1 with
  | .infinite _ => none
  | x => some x

/-- The exact value of a finite number as numerator and denominator. -/
def ratio (negative : Bool) (mantissa : Nat) (exponent : Int) : Int × Nat :=
  let (n, d) := scaled mantissa 1 exponent
  (if negative then -(n : Int) else n, d)

/-- Order of two quotients with positive denominators. -/
def compareRatio (a b : Int × Nat) : Ordering := compare (a.1 * b.2) (b.1 * a.2)

/-- The order of two numbers by exact value; none when one of them is not a number. -/
def compare? : Binary64 → Binary64 → Option Ordering
  | .nan _, _ => none
  | _, .nan _ => none
  | .infinite s, .infinite t =>
    some (if s = t then .eq else if s then .lt else .gt)
  | .infinite s, .finite .. => some (if s then .lt else .gt)
  | .finite .., .infinite t => some (if t then .gt else .lt)
  | .finite s m e, .finite s' m' e' => some (compareRatio (ratio s m e) (ratio s' m' e'))

def lt (x y : Binary64) : Bool := compare? x y == some .lt
def le (x y : Binary64) : Bool := compare? x y == some .lt || compare? x y == some .eq
def eq (x y : Binary64) : Bool := compare? x y == some .eq

/-- Exact equality of an integer and a number. -/
def eqInt (x : Binary64) (n : Int) : Bool :=
  match x with
  | .finite s m e => compareRatio (ratio s m e) (n, 1) == .eq
  | _ => false

/-- The integer that a number is equal to, if there is one. -/
def toInt? : Binary64 → Option Int
  | .finite s m e =>
    let (n, d) := ratio s m e
    if n % d = 0 then some (n / d) else none
  | _ => none

def isInteger (x : Binary64) : Bool := x.toInt?.isSome

def isZero : Binary64 → Bool
  | .finite _ m _ => m == 0
  | _ => false

def isNegative : Binary64 → Bool
  | .finite s _ _ => s
  | .infinite s => s
  | .nan _ => false

/-- The number of elements of a collection, as a number. -/
def ofNat (n : Nat) : Binary64 := ofRatio false n 1

end Binary64
end Permit.Number

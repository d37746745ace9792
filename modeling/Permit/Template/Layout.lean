import Permit.Template.Fault
import Permit.Number.Numeral

/-!
How a text is laid out in a field of a template: the least width, the character
that fills it, the side on which the text stands and the most characters of it that
are shown.

The grammar is one for values of every kind; what makes sense for numbers only is
read and then refused.

* `Layout.read` reads a layout; `Layout.apply` lays a text out.
-/
namespace Permit.Template

inductive Alignment where
  | left
  | right
  | centre
  /-- Fills between a sign and its digits. -/
  | numeric
deriving Repr, DecidableEq, Inhabited

def Alignment.ofMark? : Char → Option Alignment
  | '<' => some .left
  | '>' => some .right
  | '^' => some .centre
  | '=' => some .numeric
  | _ => none

structure Layout where
  fill : Char := ' '
  alignment : Alignment := .left
  width : Option Nat := none
  precision : Option Nat := none
deriving Repr, DecidableEq, Inhabited

/-- The largest number that may stand in a template. -/
def numberLimit : Nat := 9223372036854775807

/-- A number from decimal digits: the value of all of them and the text after them.
A number over the limit is refused as soon as it is seen. -/
def readNumber (value : Nat) : List Char → Except TemplateFault (Nat × List Char)
  | [] => .ok (value, [])
  | c :: rest =>
    match Text.decimalDigit? c with
    | none => .ok (value, c :: rest)
    | some d =>
      if numberLimit < 10 * value + d then .error .tooManyDigits
      else readNumber (10 * value + d) rest

def readNumber? (cs : List Char) : Except TemplateFault (Option Nat × List Char) := do
  let (value, rest) ← readNumber 0 cs
  return (if rest.length = cs.length then none else some value, rest)

def takeMark (mark : Char) : List Char → Bool × List Char
  | [] => (false, [])
  | c :: rest => if c = mark then (true, rest) else (false, c :: rest)

/-- The fill character and the alignment in front of a layout, as far as they are given. -/
def takeAlignment : List Char → Option Char × Option Alignment × List Char
  | first :: second :: rest =>
    match Alignment.ofMark? second with
    | some a => (some first, some a, rest)
    | none =>
      match Alignment.ofMark? first with
      | some a => (none, some a, second :: rest)
      | none => (none, none, first :: second :: rest)
  | [first] =>
    match Alignment.ofMark? first with
    | some a => (none, some a, [])
    | none => (none, none, [first])
  | [] => (none, none, [])

def takeSign : List Char → Option Char × List Char
  | [] => (none, [])
  | c :: rest => if c = ' ' || c = '+' || c = '-' then (some c, rest) else (none, c :: rest)

/-- The separator of thousands, of which there may be one. -/
def takeSeparator (cs : List Char) : Except TemplateFault (Option Char × List Char) :=
  let (comma, cs) := takeMark ',' cs
  let (underscore, cs) := takeMark '_' cs
  if comma && underscore then .error .bothSeparators
  else if underscore && cs.head? = some ',' then .error .bothSeparators
  else .ok (if comma then some ',' else if underscore then some '_' else none, cs)

def takePrecision (cs : List Char) : Except TemplateFault (Option Nat × List Char) :=
  match takeMark '.' cs with
  | (false, cs) => .ok (none, cs)
  | (true, cs) => do
    match ← readNumber? cs with
    | (none, _) => .error .missingPrecision
    | (some n, rest) => return (some n, rest)

/-- The types of number that may have thousands separated. -/
def separates (separator mark : Char) : Bool :=
  "deEfFgG%".toList.contains mark || (separator == '_' && "boxX".toList.contains mark)

/-- What is left when everything else has been read must be one type or none, and
the only type of a text is `s`. -/
def checkType (whole : List Char) (separator : Option Char) (cs : List Char) :
    Except TemplateFault Unit :=
  match cs with
  | _ :: _ :: _ => .error (.badLayout (String.ofList whole))
  | _ =>
    let mark := cs.head?.getD 's'
    match separator with
    | some separator =>
      if separates separator mark then .error (.unknownType mark)
      else .error (.separatorNotAllowed separator mark)
    | none => if mark = 's' then .ok () else .error (.unknownType mark)

namespace Layout

def read (whole : List Char) : Except TemplateFault Layout := do
  let (fill, alignment, cs) := takeAlignment whole
  let (sign, cs) := takeSign cs
  let (zeroSign, cs) := takeMark 'z' cs
  let (alternate, cs) := takeMark '#' cs
  let (zeros, cs) := if fill.isNone then takeMark '0' cs else (false, cs)
  let (width, cs) ← readNumber? cs
  let (separator, cs) ← takeSeparator cs
  let (precision, cs) ← takePrecision cs
  checkType whole separator cs
  if sign = some ' ' then throw .spaceNotAllowed
  if sign.isSome then throw .signNotAllowed
  if zeroSign then throw .zeroSignNotAllowed
  if alternate then throw .alternateNotAllowed
  if alignment = some .numeric then throw .numericAlignment
  return {
    fill := fill.getD (if zeros then '0' else ' ')
    alignment := alignment.getD .left
    width, precision }

def apply (layout : Layout) (cs : List Char) : List Char :=
  let shown := match layout.precision with
    | some most => cs.take most
    | none => cs
  let spare := layout.width.getD 0 - shown.length
  let before := match layout.alignment with
    | .right => spare
    | .centre => spare / 2
    | _ => 0
  List.replicate before layout.fill ++ shown ++ List.replicate (spare - before) layout.fill

theorem width_le_length_apply (layout : Layout) (cs : List Char) :
    layout.width.getD 0 ≤ (layout.apply cs).length := by
  simp only [apply, List.length_append, List.length_replicate]
  split <;> omega

end Layout
end Permit.Template

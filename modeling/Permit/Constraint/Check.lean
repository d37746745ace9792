import Permit.Constraint.Basic
import Permit.Keyed
import Permit.Number.Numeral
import Permit.Pattern.Match
import Permit.Pattern.Reader

namespace Permit.Constraint

open Number (Binary64)

/-- The text of a value by which it is compared with arguments. -/
def comparedText : Value → Except Fault String
  | .bool b => .ok (if b then "true" else "false")
  | v => v.display.mapError .numeral

/-- The number that a value is, or that its text denotes. -/
def number? : Value → Except Fault (Option Binary64)
  | .int n =>
    match Binary64.ofInt? n with
    | some x => .ok (some x)
    | none => .error (.numeral .tooLarge)
  | .float x => .ok (some x)
  | .text s => .ok (Number.readFloat? s)
  | _ => .ok none

def numericArg (rule : String) (args : List String) : Except Fault Binary64 :=
  match args with
  | [arg] =>
    match Number.readFloat? arg with
    | some x => .ok x
    | none => .error (.definition (.notNumeric rule args))
  | _ => .error (.definition (.notOneArgument rule args))

/-- The number of characters of a text, of elements or of entries. -/
def length? : Value → Option Nat
  | .text s => some s.length
  | .list items => some items.length
  | .tuple items => some items.length
  | .map entries => some entries.length
  | _ => none

/-- Whether a value is present and neither null nor empty. -/
def isFilled : Option Value → Bool
  | none => false
  | some .null => false
  | some v =>
    match length? v with
    | some n => n != 0
    | none => true

def isInteger : Value → Bool
  | .int _ => true
  | .float x => x.isInteger
  | .text s => Number.isIntegerNumeral s
  | _ => false

/-- The texts that stand for a flag, in any case. No letter beyond ASCII has one of
their letters as its small form. -/
def flagTexts : List String := ["true", "false", "0", "1"]

def isFlag : Value → Bool
  | .bool _ => true
  | .int n => n == 0 || n == 1
  | .text s => flagTexts.contains (String.ofList (s.toList.map Char.toLower))
  | _ => false

def isListed (args : List String) (v : Value) : Except Fault Bool := do
  return args.contains (← comparedText v)

/-- Whether all elements are listed; the first that is not ends the search. -/
def allListed (args : List String) : List Value → Except Fault Bool
  | [] => .ok true
  | v :: rest => do if ← isListed args v then allListed args rest else return false

/-- Whether no element is listed; the first that is ends the search. -/
def noneListed (args : List String) : List Value → Except Fault Bool
  | [] => .ok true
  | v :: rest => do if ← isListed args v then return false else noneListed args rest

def checkLength (rule : String) (holds : Binary64 → Binary64 → Bool) (args : List String)
    (v : Value) : Except Fault Bool :=
  match length? v with
  | none => .ok false
  | some n => do return holds (Binary64.ofNat n) (← numericArg rule args)

def checkNumber (rule : String) (holds : Binary64 → Binary64 → Bool) (args : List String)
    (v : Value) : Except Fault Bool := do
  match ← number? v with
  | none => return false
  | some x => return holds x (← numericArg rule args)

/-- Whether a pattern occurs in a value, which must be a text. -/
def checkPattern (args : List String) (v : Value) : Except Fault Bool :=
  match args with
  | [] => .error (.definition .noPattern)
  | pattern :: _ =>
    if pattern = "" then .error (.definition .noPattern)
    else
      match Pattern.parse pattern with
      | .error fault =>
        match fault.kind? with
        | none => .error (.definition (.badPattern args pattern fault))
        | some kind => .error (.pattern kind pattern fault)
      | .ok node =>
        match v with
        | .text s => .ok (node.occursIn s)
        | _ => .ok false

inductive Check where
  | anything
  | string
  | number
  | integer
  | flag
  | mapping
  | sequence
  | oneOf
  | noneOf
  | atLeast
  | atMost
  | above
  | below
  | pattern
  | equals
deriving Repr, DecidableEq, Inhabited

namespace Check

def name : Check → String
  | .anything => "*"
  | .string => "string"
  | .number => "number"
  | .integer => "integer"
  | .flag => "boolean"
  | .mapping => "object"
  | .sequence => "array"
  | .oneOf => "in"
  | .noneOf => "not_in"
  | .atLeast => "min"
  | .atMost => "max"
  | .above => "above"
  | .below => "under"
  | .pattern => "regex"
  | .equals => "equals"

def passes (c : Check) (args : List String) (v : Value) : Except Fault Bool :=
  match c with
  | .anything => .ok true
  | .string =>
    match v with
    | .text _ => .ok true
    | _ => .ok false
  | .number => do return (← number? v).isSome
  | .integer => .ok (isInteger v)
  | .flag => .ok (isFlag v)
  | .mapping => .ok (v.kind == .mapping)
  | .sequence => .ok (v.kind == .sequence)
  | .oneOf =>
    match v.kind with
    | .sequence => allListed args (v.items?.getD [])
    | .mapping => .ok false
    | _ => isListed args v
  | .noneOf =>
    match v.kind with
    | .sequence => noneListed args (v.items?.getD [])
    | _ => do return !(← isListed args v)
  | .atLeast => checkLength c.name (fun x y => y.le x) args v
  | .atMost => checkLength c.name Binary64.le args v
  | .above => checkNumber c.name (fun x y => y.lt x) args v
  | .below => checkNumber c.name Binary64.lt args v
  | .pattern => checkPattern args v
  | .equals => do return (← comparedText v) == ",".intercalate args

end Check

/-- A rule as a function of the value of a field, if the field is there, and of the
arguments. Its answer is taken as a condition. -/
abbrev RuleFunction := Option Value → List String → Except Fault Value

/-- The rule that a field must be there and filled. -/
def required : String := "required"

/-- Whether a rule looks at absent fields as well. -/
def looksAtAbsent (name : String) : Bool := name == required

/-- A check as a rule; an absent field passes. -/
def Check.toRule (c : Check) : RuleFunction := fun v args =>
  match v with
  | none => .ok (.bool true)
  | some v => (c.passes args v).map .bool

/-- The rules by name, in the order in which they were registered. -/
abbrev RuleSet := List (String × RuleFunction)

namespace RuleSet

def find? (rules : RuleSet) (name : String) : Option RuleFunction := Keyed.find? rules name

/-- Registers a rule: in place of one of the same name, or at the end. -/
def register (rules : RuleSet) (name : String) (f : RuleFunction) : RuleSet :=
  Keyed.put rules name f

def names (rules : RuleSet) : List String := Keyed.keys rules

/-- The rules that are known from the start. -/
def builtIn : RuleSet :=
  let entry (c : Check) : String × RuleFunction := (c.name, c.toRule)
  [entry .anything, (required, fun v _ => .ok (.bool (isFilled v)))] ++
    ([.string, .number, .integer, .flag, .mapping, .sequence, .oneOf, .noneOf, .atLeast,
      .atMost, .above, .below, .pattern, .equals] : List Check).map entry

/-- The rules known from the start and others, which take the place of those of the
same name. -/
def withRules (custom : List (String × RuleFunction)) : RuleSet :=
  Keyed.putAll builtIn custom

end RuleSet
end Permit.Constraint

import Permit.Log.Message.Placeholder
import Permit.Value.Equality

/-!
Filling a log message. The values come one after the other from a tuple; a single
value of any other kind may be taken once, and if it is a collection, parts of it may
be taken by key as often as needed.

* `Log.fill` fills a message;
* `Log.text` is the text of a record with its arguments.
-/
namespace Permit.Log

structure Supply where
  values : List Value
  keyed : Option Value
deriving Repr, Inhabited

namespace Supply

/-- The values of a tuple, or a single value. -/
def ofValue : Value → Supply
  | .tuple items => ⟨items, none⟩
  | .map entries => ⟨[.map entries], some (.map entries)⟩
  | .list items => ⟨[.list items], some (.list items)⟩
  | .bytes b => ⟨[.bytes b], some (.bytes b)⟩
  | v => ⟨[v], none⟩

/-- Whether values are left that should have been used. -/
def isLeftOver (s : Supply) : Bool := !s.values.isEmpty && s.keyed.isNone

end Supply

/-- The values and the text that are still to come. -/
structure Filling where
  supply : Supply
  rest : List Char
deriving Inhabited

abbrev Filler := StateT Filling (Except MessageFault)

namespace Filler

def nextValue : Filler Value := do
  let s ← get
  match s.supply.values with
  | [] => throw .tooFewValues
  | v :: rest =>
    set { s with supply := { s.supply with values := rest } }
    return v

/-- Makes the value under a key the only one to come. -/
def select (key : String) : Filler Unit := do
  let s ← get
  match s.supply.keyed with
  | none => throw .noMapping
  | some (.map entries) =>
    match Value.field? entries key with
    | some v => set { s with supply := { s.supply with values := [v] } }
    | none => throw (.noKey (.text key))
  | some container => throw (.keyIntoItems container)

def rest : Filler (List Char) := return (← get).rest

def setRest (cs : List Char) : Filler Unit := modify fun s => { s with rest := cs }

end Filler

/-- The characters up to the parenthesis that closes a key; those within it are counted. -/
def readKey (depth : Nat) : List Char → Except MessageFault (List Char × List Char)
  | [] => .error .unclosedKey
  | c :: rest =>
    if c = ')' && depth = 0 then .ok ([], rest)
    else
      let depth := if c = '(' then depth + 1 else if c = ')' then depth - 1 else depth
      (readKey depth rest).map fun (key, rest) => (c :: key, rest)

def isFlag (c : Char) : Bool := c = '-' || c = '+' || c = ' ' || c = '#' || c = '0'

def isAsciiDigit (c : Char) : Bool := '0' ≤ c && c ≤ '9'

namespace Amount

/-- The largest amount that may be given. -/
def limit : Amount → Nat
  | .width => 9223372036854775807
  | .precision => 2147483647

/-- The value of leading digits; too large an amount is refused as soon as it is seen. -/
def read (amount : Amount) (value : Nat) :
    List Char → Except MessageFault (Nat × List Char)
  | [] => .ok (value, [])
  | c :: rest =>
    if !isAsciiDigit c then .ok (value, c :: rest)
    else
      let value := 10 * value + (c.toNat - 48)
      if amount.limit < value then .error (.tooManyDigits amount) else read amount value rest

/-- An amount taken from the values. -/
def take (amount : Amount) : Filler Int := do
  let n : Int ← match ← Filler.nextValue with
    | .int n => pure n
    | .bool b => pure (if b then 1 else 0)
    | _ => throw .amountNotInteger
  if amount.limit < n.natAbs then throw (.amountOutOfRange amount)
  return n

end Amount

/-- The key in front of a placeholder, if there is one, is looked up. -/
def fillKey : Filler Unit := do
  match ← Filler.rest with
  | '(' :: rest => do
    if (← get).supply.keyed.isNone then throw .noMapping
    let (key, rest) ← readKey 0 rest
    Filler.select (String.ofList key)
    Filler.setRest rest
  | _ => return ()

def readFlags : Filler Placeholder := do
  let cs ← Filler.rest
  let flags := cs.takeWhile isFlag
  Filler.setRest (cs.dropWhile isFlag)
  return {
    leftward := flags.contains '-'
    signed := flags.contains '+'
    blank := flags.contains ' '
    alternate := flags.contains '#'
    zeros := flags.contains '0' }

/-- Reads the width of a placeholder. A negative one asks for text at the left. -/
def readWidth (p : Placeholder) : Filler Placeholder := do
  match ← Filler.rest with
  | '*' :: rest => do
    let n ← Amount.width.take
    Filler.setRest rest
    return { p with width := some n.natAbs, leftward := p.leftward || n < 0 }
  | cs =>
    if cs.head?.any isAsciiDigit then
      let (n, rest) ← Amount.width.read 0 cs
      Filler.setRest rest
      return { p with width := some n }
    else return p

/-- Reads the precision of a placeholder. A negative one counts as zero. -/
def readPrecision (p : Placeholder) : Filler Placeholder := do
  match ← Filler.rest with
  | '.' :: '*' :: rest => do
    let n ← Amount.precision.take
    Filler.setRest rest
    return { p with precision := some n.toNat }
  | '.' :: rest => do
    let (n, rest) ← Amount.precision.read 0 rest
    Filler.setRest rest
    return { p with precision := some n }
  | _ => return p

/-- Reads the letter of a placeholder, in front of which one size mark is overlooked. -/
def readLetter : Filler Char := do
  let cs ← Filler.rest
  let sized := cs.head?.any fun c => c = 'h' || c = 'l' || c = 'L'
  match if sized then cs.drop 1 else cs with
  | [] => throw .incomplete
  | letter :: rest =>
    Filler.setRest rest
    return letter

/-- Fills a placeholder of a message of `length` characters; its percent sign has
been read. -/
def fillPlaceholder (length : Nat) : Filler String := do
  fillKey
  let p ← readFlags >>= readWidth >>= readPrecision
  let letter ← readLetter
  if letter = '%' then return "%"
  let v ← Filler.nextValue
  p.write letter (length - (← Filler.rest).length - 1) v

/-- Fills what is left of a message; `fuel` bounds its length. -/
def fillRest (length : Nat) : (fuel : Nat) → Filler String
  | 0 => return ""
  | fuel + 1 => do
    match ← Filler.rest with
    | [] => return ""
    | '%' :: '%' :: rest => do
      Filler.setRest rest
      return "%" ++ (← fillRest length fuel)
    | '%' :: rest => do
      Filler.setRest rest
      let filled ← fillPlaceholder length
      return filled ++ (← fillRest length fuel)
    | c :: rest => do
      Filler.setRest rest
      return c.toString ++ (← fillRest length fuel)

def fill (message : String) (values : Value) : Except MessageFault String := do
  let cs := message.toList
  let (filled, s) ← (fillRest cs.length (cs.length + 1)).run ⟨Supply.ofValue values, cs⟩
  if s.supply.isLeftOver then throw .tooManyValues
  return filled

/-- The arguments of a record as its message takes them: a single mapping that is not
empty stands for its entries. -/
def arguments (args : Value) : Except MessageFault Value :=
  match args with
  | .tuple [.map (e :: es)] => .ok (.map (e :: es))
  | .list [.map (e :: es)] => .ok (.map (e :: es))
  | .map [(k, v)] =>
    if Value.sameKey k (.int 0) then
      match v with
      | .map (e :: es) => .ok (.map (e :: es))
      | _ => .ok args
    else .error (.noKey (.int 0))
  | v =>
    if !v.isTrue then .ok v
    else
      match v with
      | .text _ => .ok v
      | .bytes _ => .ok v
      | .tuple _ => .ok v
      | .list _ => .ok v
      | .map _ => .ok v
      | v => .error (.notCounted v)

/-- The text of a message with its arguments, which is left as it is if there are none. -/
def text (message args : Value) : Except MessageFault String := do
  let shown ← message.display.mapError .numeral
  if args.isTrue then fill shown args else return shown

end Permit.Log

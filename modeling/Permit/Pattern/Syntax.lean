import Permit.Text.Blank
import Permit.Text.Case
import Permit.Text.Digit
import Permit.Text.Letter

namespace Permit.Pattern

structure Flags where
  ignoreCase : Bool := false
  multiline : Bool := false
  dotAll : Bool := false
  verbose : Bool := false
  ascii : Bool := false
  unicode : Bool := false
deriving Repr, DecidableEq

inductive CharClass where
  | digit
  | space
  | word
deriving Repr, DecidableEq

/-- One element of a set. Code points may lie outside the characters there are. -/
inductive Item where
  | point (n : Nat)
  | range (first last : Nat)
  | charClass (c : CharClass) (negated : Bool)
deriving Repr, DecidableEq

structure CharSet where
  items : List Item
  negated : Bool := false
  ignoreCase : Bool := false
  ascii : Bool := false
deriving Repr, DecidableEq

inductive Anchor where
  | textStart
  | lineStart
  | textEnd
  /-- At the end, or before a line break that ends the text. -/
  | lastLineEnd
  | lineEnd
  | wordEdge (ascii : Bool)
  | notWordEdge (ascii : Bool)
deriving Repr, DecidableEq

inductive Greed where
  | most
  | fewest
  /-- As many as possible, never given back. -/
  | keep
deriving Repr, DecidableEq

structure Width where
  least : Nat
  most : Nat
deriving Repr, DecidableEq

/-- Lengths are counted up to this number only. -/
def widthLimit : Nat := 4294967295

inductive Node where
  | empty
  | never
  | char (set : CharSet)
  | anchor (a : Anchor)
  | seq (first second : Node)
  | alt (first second : Node)
  | group (body : Node)
  | capture (index : Nat) (body : Node)
  | atomic (body : Node)
  | loop (least : Nat) (most : Option Nat) (greed : Greed) (body : Node)
  | reference (index : Nat) (width : Width) (ignoreCase ascii : Bool)
  | ahead (negated : Bool) (body : Node)
  | behind (negated : Bool) (body : Node)
  | ifGroup (index : Nat) (yes no : Node)
deriving Repr, Inhabited

namespace Width

def clamp (least most : Nat) : Width :=
  ⟨min least (widthLimit - 1), min most widthLimit⟩

def add (a b : Width) : Width := clamp (a.least + b.least) (a.most + b.most)

def either (a b : Width) : Width := clamp (min a.least b.least) (max a.most b.most)

end Width

def Node.width : Node → Width
  | .char _ => ⟨1, 1⟩
  | .seq a b => a.width.add b.width
  | .alt a b => a.width.either b.width
  | .group body => body.width
  | .capture _ body => body.width
  | .atomic body => body.width
  | .loop least most _ body =>
    Width.clamp (body.width.least * least) (body.width.most * most.getD widthLimit)
  | .reference _ width .. => width
  | .ifGroup _ yes no => yes.width.either no.width
  | _ => ⟨0, 0⟩

/-- Whether everything that is looked at backwards has a fixed length. -/
def Node.looksBackFixed : Node → Bool
  | .behind _ body => body.looksBackFixed && body.width.least == body.width.most
  | .seq a b => a.looksBackFixed && b.looksBackFixed
  | .alt a b => a.looksBackFixed && b.looksBackFixed
  | .group body => body.looksBackFixed
  | .capture _ body => body.looksBackFixed
  | .atomic body => body.looksBackFixed
  | .loop _ _ _ body => body.looksBackFixed
  | .ahead _ body => body.looksBackFixed
  | .ifGroup _ yes no => yes.looksBackFixed && no.looksBackFixed
  | _ => true

def CharClass.has (cls : CharClass) (ascii : Bool) (c : Char) : Bool :=
  match cls, ascii with
  | .digit, true => c.isDigit
  | .digit, false => Text.isDecimal c
  | .space, true => c == ' ' || (9 ≤ c.toNat && c.toNat ≤ 13)
  | .space, false => Text.isBlank c
  | .word, true => c.isAlphanum || c == '_'
  | .word, false => Text.isAlphanumeric c || c == '_'

def Item.has (ascii : Bool) (c : Char) : Item → Bool
  | .point n => c.toNat == n
  | .range first last => first ≤ c.toNat && c.toNat ≤ last
  | .charClass cls negated => cls.has ascii c != negated

/-- A character in the case that comparisons without case are made in. -/
def foldCase (ascii : Bool) (c : Char) : Char := if ascii then c.toLower else Text.toLower c

/-- The characters that count as `c` when case is ignored. -/
def variants (ascii : Bool) (c : Char) : List Char :=
  if ascii then [c.toLower, c.toUpper] else Text.caseVariants c

/-- Whether an element has a character, case ignored. -/
def Item.hasFolded (ascii : Bool) (c : Char) (item : Item) : Bool :=
  match item with
  | .charClass cls negated => cls.has ascii (foldCase ascii c) != negated
  | .point n =>
    if Text.isCased (Char.ofNat n) then (variants ascii c).any (item.has ascii ·)
    else c.toNat == n
  | .range .. => (variants ascii c).any (item.has ascii ·)

def CharSet.has (set : CharSet) (c : Char) : Bool :=
  let found :=
    if set.ignoreCase then set.items.any (·.hasFolded set.ascii c)
    else set.items.any (·.has set.ascii c)
  found != set.negated

end Permit.Pattern

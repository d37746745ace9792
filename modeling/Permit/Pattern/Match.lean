import Permit.Pattern.Syntax

/-!
Matching a pattern against a text. A node is matched at a place together with
whatever follows it, given as a continuation: the first way in which both succeed
is taken, and the alternatives of a node are tried in order.

Every repetition ends: a round that has used up nothing is followed by no further
one, so there are no more rounds than the least number and the characters left.
-/
namespace Permit.Pattern

/-- A place in a text and what the groups have matched on the way to it. -/
structure Cursor where
  /-- The characters before the place, the nearest in front. -/
  before : List Char
  after : List Char
  position : Nat
  groups : List (Nat × List Char)
deriving Repr

namespace Cursor

def start (text : List Char) : Cursor := ⟨[], text, 0, []⟩

def next? (s : Cursor) : Option (Char × Cursor) :=
  match s.after with
  | [] => none
  | c :: rest =>
    some (c, { s with before := c :: s.before, after := rest, position := s.position + 1 })

def back? : Nat → Cursor → Option Cursor
  | 0, s => some s
  | n + 1, s =>
    match s.before with
    | [] => none
    | c :: rest =>
      back? n { s with before := rest, after := c :: s.after, position := s.position - 1 }

def group? (s : Cursor) (index : Nat) : Option (List Char) :=
  (s.groups.find? (·.1 == index)).map (·.2)

/-- Whether a word character stands before the place but not after it, or the other
way round. -/
def atWordEdge (s : Cursor) (ascii : Bool) : Bool :=
  let isWord (cs : List Char) := cs.head?.any (CharClass.has .word ascii)
  isWord s.before != isWord s.after

def fits (s : Cursor) : Anchor → Bool
  | .textStart => s.before.isEmpty
  | .lineStart => s.before.head?.all (· == '\n')
  | .textEnd => s.after.isEmpty
  | .lastLineEnd => s.after.isEmpty || s.after == ['\n']
  | .lineEnd => s.after.head?.all (· == '\n')
  | .wordEdge ascii => s.atWordEdge ascii
  | .notWordEdge ascii => !s.atWordEdge ascii

def pass? (ignoreCase ascii : Bool) : List Char → Cursor → Option Cursor
  | [], s => some s
  | c :: rest, s =>
    match s.next? with
    | some (d, s) =>
      let same := if ignoreCase then foldCase ascii c == foldCase ascii d else c == d
      if same then pass? ignoreCase ascii rest s else none
    | none => none

end Cursor

/-- What is tried after a node has matched. -/
abbrev Continuation := Cursor → Option Cursor

/-- A node waiting for its continuation. -/
abbrev Step := Continuation → Cursor → Option Cursor

/-- Repeats a step as often as possible. `count` rounds have been made, the last
optional one from `last`; `fuel` bounds the rounds. -/
def repeatMost (step : Step) (least : Nat) (most : Option Nat) (k : Continuation) :
    (fuel : Nat) → (count : Nat) → (last : Option Nat) → Cursor → Option Cursor
  | 0, _, _, _ => none
  | fuel + 1, count, last, s =>
    if count < least then step (repeatMost step least most k fuel (count + 1) last) s
    else if most.all (count < ·) && last != some s.position then
      match step (repeatMost step least most k fuel (count + 1) (some s.position)) s with
      | some found => some found
      | none => k s
    else k s

/-- Repeats a step as rarely as possible. -/
def repeatFewest (step : Step) (least : Nat) (most : Option Nat) (k : Continuation) :
    (fuel : Nat) → (count : Nat) → (last : Option Nat) → Cursor → Option Cursor
  | 0, _, _, _ => none
  | fuel + 1, count, last, s =>
    if count < least then step (repeatFewest step least most k fuel (count + 1) last) s
    else
      match k s with
      | some found => some found
      | none =>
        if most.all (count < ·) && last != some s.position then
          step (repeatFewest step least most k fuel (count + 1) (some s.position)) s
        else none

/-- The rounds that a repetition can have at a place. -/
def roundLimit (least : Nat) (s : Cursor) : Nat := least + s.after.length + 2

/-- Matches a node at a place, and what follows after it. -/
def Node.run : Node → Continuation → Cursor → Option Cursor
  | .empty, k, s => k s
  | .never, _, _ => none
  | .char set, k, s =>
    match s.next? with
    | some (c, s) => if set.has c then k s else none
    | none => none
  | .anchor a, k, s => if s.fits a then k s else none
  | .seq first second, k, s => first.run (second.run k) s
  | .alt first second, k, s =>
    match first.run k s with
    | some found => some found
    | none => second.run k s
  | .group body, k, s => body.run k s
  | .capture index body, k, s =>
    body.run
      (fun t => k { t with
        groups := (index, s.after.take (t.position - s.position)) :: t.groups })
      s
  | .atomic body, k, s =>
    match body.run some s with
    | some t => k t
    | none => none
  | .loop least most greed body, k, s =>
    match greed with
    | .most => repeatMost body.run least most k (roundLimit least s) 0 none s
    | .fewest => repeatFewest body.run least most k (roundLimit least s) 0 none s
    | .keep =>
      match repeatMost body.run least most some (roundLimit least s) 0 none s with
      | some t => k t
      | none => none
  | .reference index _ ignoreCase ascii, k, s =>
    match (s.group? index).bind fun text => s.pass? ignoreCase ascii text with
    | some t => k t
    | none => none
  | .ahead negated body, k, s =>
    match body.run some s, negated with
    | some t, false => k { s with groups := t.groups }
    | none, true => k s
    | _, _ => none
  | .behind negated body, k, s =>
    match (Cursor.back? body.width.least s).bind (body.run some), negated with
    | some t, false => k { s with groups := t.groups }
    | none, true => k s
    | _, _ => none
  | .ifGroup index yes no, k, s =>
    if (s.group? index).isSome then yes.run k s else no.run k s

/-- Looks for a match at a place and at every later one. -/
def Node.search (node : Node) : List Char → Cursor → Bool
  | [], s => (node.run some s).isSome
  | _ :: rest, s =>
    (node.run some s).isSome ||
      match s.next? with
      | some (_, s) => node.search rest s
      | none => false

/-- Whether a pattern matches somewhere in a text. -/
def Node.occursIn (node : Node) (text : String) : Bool :=
  node.search text.toList (Cursor.start text.toList)

end Permit.Pattern

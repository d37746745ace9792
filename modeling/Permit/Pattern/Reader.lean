import Permit.Number.Numeral
import Permit.Pattern.Fault
import Permit.Pattern.Syntax

/-!
Reading a pattern from text. The text is taken as tokens, single characters or
escapes of two characters, with one token of look-ahead; a backslash that ends the
text is found as soon as it comes into view.

The grammar is that of alternatives of sequences of repeated items. An item is a
character, a set, an escape, an anchor or a group, and a group may capture, be
named, switch flags, look ahead or behind, depend on another group or be a comment.
-/
namespace Permit.Pattern

/-- A character, or the character that a backslash stands before. -/
inductive Token where
  | plain (c : Char)
  | escape (c : Char)
deriving Repr, DecidableEq

def Token.text : Token → String
  | .plain c => c.toString
  | .escape c => String.ofList ['\\', c]

structure Progress where
  next : Option Token
  rest : List Char
  position : Nat
  /-- The index of the next group. -/
  groups : Nat := 1
  names : List (String × Nat) := []
  /-- The groups that have ended, with their widths. -/
  closed : List (Nat × Width) := []
  /-- Inside a look-behind, the index of the next group when it began. -/
  behindFrom : Option Nat := none
  /-- Groups that something depends on, with the positions to report. -/
  wanted : List (Nat × Nat) := []
  flags : Flags := {}

abbrev Reader := StateT Progress (Except PatternFault)

namespace Reader

/-- The first token of a text, if there is one, and what follows it. -/
def tokenOf (position : Nat) : List Char → Except PatternFault (Option Token × List Char)
  | [] => .ok (none, [])
  | ['\\'] => .error (.at .escapeAtEnd position)
  | '\\' :: c :: rest => .ok (some (.escape c), rest)
  | c :: rest => .ok (some (.plain c), rest)

/-- Fails `back` characters before the position. -/
def fail {α : Type} (problem : Problem) (back : Nat := 0) : Reader α := do
  throw (.at problem ((← get).position - back))

def take : Reader (Option Token) := do
  let s ← get
  match s.next with
  | none => return none
  | some token =>
    let position := s.position + token.text.length
    let (next, rest) ← tokenOf position s.rest
    set { s with next := next, rest := rest, position := position }
    return some token

def peek : Reader (Option Token) := do return (← get).next

/-- Takes the next token if it is a given character. -/
def accept (c : Char) : Reader Bool := do
  if (← peek) = some (.plain c) then
    discard take
    return true
  else return false

/-- Takes up to `n` characters as long as they satisfy a condition. -/
def takeWhile (p : Char → Bool) : Nat → Reader String
  | 0 => return ""
  | n + 1 => do
    match ← peek with
    | some (.plain c) =>
      if p c then
        discard take
        return c.toString ++ (← takeWhile p n)
      else return ""
    | _ => return ""

def remaining : Reader Nat := do
  let s ← get
  return s.rest.length + 2

/-- Takes the tokens up to a terminator, which is taken too. -/
def takeUntil (terminator : Char) (what : String) : (fuel : Nat) → (taken : String) → Reader String
  | 0, _ => fail .tooDeep
  | fuel + 1, taken => do
    match ← take with
    | none =>
      if taken.isEmpty then fail (.missingName what)
      else fail (.openName terminator) taken.length
    | some token =>
      if token = .plain terminator then
        if taken.isEmpty then fail (.missingName what) 1 else return taken
      else takeUntil terminator what fuel (taken ++ token.text)

def isNameStart (c : Char) : Bool :=
  c == '_' || (Text.isAlphanumeric c && !Text.isDigit c)

def isNamePart (c : Char) : Bool :=
  c == '_' || (Text.isAlphanumeric c && (Text.isDecimal c || !Text.isDigit c))

def isName (name : String) : Bool :=
  match name.toList with
  | [] => false
  | c :: rest => isNameStart c && rest.all isNamePart

/-- Takes the name of a group up to its terminator. -/
def takeName (terminator : Char) : Reader String := do
  let name ← takeUntil terminator "group name" (← remaining) ""
  if isName name then return name else fail (.badName name) (name.length + 1)

def isOpen (index : Nat) : Reader Bool := do
  return ((← get).closed.find? (·.1 == index)).isNone

/-- Refuses a reference from within a look-behind to a group that began in it. -/
def checkLookBehind (index : Nat) : Reader Unit := do
  match (← get).behindFrom with
  | none => return ()
  | some first =>
    if ← isOpen index then fail .openGroup
    if first ≤ index then fail .groupInLookBehind

/-- A reference to a group that has ended. -/
def reference (flags : Flags) (index back : Nat) : Reader Node := do
  match (← get).closed.find? (·.1 == index) with
  | none => fail .openGroup back
  | some (_, width) =>
    checkLookBehind index
    return .reference index width flags.ignoreCase flags.ascii

def pointSet (flags : Flags) (n : Nat) : Node :=
  .char { items := [.point n], ignoreCase := flags.ignoreCase, ascii := flags.ascii }

def isOctal (c : Char) : Bool := '0' ≤ c && c ≤ '7'

def isHex (c : Char) : Bool := c.isDigit || ('a' ≤ c && c ≤ 'f') || ('A' ≤ c && c ≤ 'F')

def hexValue (cs : List Char) : Nat :=
  cs.foldl (fun n c => 16 * n + (if c.isDigit then c.toNat - 48 else c.toLower.toNat - 87)) 0

def octalValue (cs : List Char) : Nat := cs.foldl (fun n c => 8 * n + (c.toNat - 48)) 0

/-- The control characters that have an escape of their own. -/
def controlPoint? : Char → Option Nat
  | 'a' => some 7
  | 'b' => some 8
  | 'f' => some 12
  | 'n' => some 10
  | 'r' => some 13
  | 't' => some 9
  | 'v' => some 11
  | '\\' => some 92
  | _ => none

def charClass? : Char → Option Item
  | 'd' => some (.charClass .digit false)
  | 'D' => some (.charClass .digit true)
  | 's' => some (.charClass .space false)
  | 'S' => some (.charClass .space true)
  | 'w' => some (.charClass .word false)
  | 'W' => some (.charClass .word true)
  | _ => none

/-- A numeric escape of exactly `digits` hexadecimal digits. -/
def hexEscape (c : Char) (digits : Nat) : Reader Nat := do
  let taken ← takeWhile isHex digits
  let escape := String.ofList ['\\', c] ++ taken
  if taken.length ≠ digits then fail (.incompleteEscape escape) escape.length
  let point := hexValue taken.toList
  if 0x10FFFF < point then fail (.badEscape escape) escape.length
  return point

/-- The escapes of a code point by number or name, shared by sets and sequences. -/
def numericEscape? (c : Char) : Option (Reader Nat) :=
  match c with
  | 'x' => some (hexEscape c 2)
  | 'u' => some (hexEscape c 4)
  | 'U' => some (hexEscape c 8)
  | 'N' => some do
    if !(← accept '\x7b') then fail .missingBrace
    let name ← takeUntil '\x7d' "character name" (← remaining) ""
    fail (.unknownCharacter name) (name.length + 4)
  | _ => none

def setEscape (c : Char) : Reader Item := do
  let escape := String.ofList ['\\', c]
  match controlPoint? c, charClass? c, numericEscape? c with
  | some n, _, _ => return .point n
  | _, some item, _ => return item
  | _, _, some read => return .point (← read)
  | none, none, none =>
    if isOctal c then
      let digits := c.toString ++ (← takeWhile isOctal 2)
      let value := octalValue digits.toList
      if 0o377 < value then fail (.octalTooLarge ("\\" ++ digits)) (digits.length + 1)
      return .point value
    else if c.isAlphanum then fail (.badEscape escape) 2
    else return .point c.toNat

def escape (flags : Flags) (c : Char) : Reader Node := do
  match c with
  | 'A' => return .anchor .textStart
  | 'Z' => return .anchor .textEnd
  | 'b' => return .anchor (.wordEdge flags.ascii)
  | 'B' => return .anchor (.notWordEdge flags.ascii)
  | '0' =>
    return pointSet flags (octalValue (← takeWhile isOctal 2).toList)
  | _ =>
    match charClass? c, controlPoint? c, numericEscape? c with
    | some item, _, _ =>
      return .char { items := [item], ignoreCase := flags.ignoreCase, ascii := flags.ascii }
    | _, some n, _ => return pointSet flags n
    | _, _, some read => return pointSet flags (← read)
    | none, none, none =>
      if c.isDigit then
        let second ← takeWhile Char.isDigit 1
        let third ←
          if isOctal c && second.toList.any isOctal then takeWhile isOctal 1 else pure ""
        let digits := c.toString ++ second ++ third
        if third != "" then
          let value := octalValue digits.toList
          if 0o377 < value then fail (.octalTooLarge ("\\" ++ digits)) (digits.length + 1)
          return pointSet flags value
        else
          let index := Number.digitsValue digits.toList
          if index < (← get).groups then reference flags index (digits.length + 1)
          else fail (.noSuchGroup index) digits.length
      else if c.isAlpha then fail (.badEscape (String.ofList ['\\', c])) 2
      else return pointSet flags c.toNat

/-- One end of a range, or a member of a set, with its text. -/
def setMember (token : Token) : Reader Item :=
  match token with
  | .plain c => return .point c.toNat
  | .escape c => setEscape c

/-- The members of a set up to the closing bracket; `here` is where the set began. -/
def setItems (here : Nat) : (fuel : Nat) → (items : List Item) → Reader (List Item)
  | 0, _ => fail .tooDeep
  | fuel + 1, items => do
    match ← take with
    | none => throw (.at .openSet here)
    | some token =>
      if token = .plain ']' && !items.isEmpty then return items
      else
        let first ← setMember token
        if ← accept '-' then
          match ← take with
          | none => throw (.at .openSet here)
          | some (.plain ']') => return items ++ [first, .point '-'.toNat]
          | some last =>
            let last' ← setMember last
            let problem := Problem.badRange (token.text ++ "-" ++ last.text)
            let back := token.text.length + 1 + last.text.length
            match first, last' with
            | .point low, .point high =>
              if high < low then fail problem back
              else setItems here fuel (items ++ [.range low high])
            | _, _ => fail problem back
        else setItems here fuel (items ++ [first])

/-- A set, its opening bracket already taken. -/
def charSet (flags : Flags) : Reader Node := do
  let here := (← get).position - 1
  let negated ← accept '^'
  let items ← setItems here (← remaining) []
  return .char
    { items := items, negated := negated, ignoreCase := flags.ignoreCase, ascii := flags.ascii }

/-- The bounds of a repetition that a mark stands for; none if the braces after the
mark are no bounds, so that the mark stands for itself. -/
def bounds (mark : Char) : Reader (Option (Nat × Option Nat)) := do
  match mark with
  | '?' => return some (0, some 1)
  | '*' => return some (0, none)
  | '+' => return some (1, none)
  | _ =>
    if (← peek) = some (.plain '\x7d') then return none
    let start ← get
    let low ← takeWhile Char.isDigit (← remaining)
    let high ←
      if ← accept ',' then takeWhile Char.isDigit (← remaining) else pure low
    if !(← accept '\x7d') then
      set start
      return none
    let least := Number.digitsValue low.toList
    let most := Number.digitsValue high.toList
    if widthLimit ≤ least then throw .tooManyRepeats
    if high = "" then return some (least, none)
    if widthLimit ≤ most then throw .tooManyRepeats
    if most < least then throw (.at .leastOverMost start.position)
    return some (least, some most)

def flag? : Char → Option Flags
  | 'i' => some { ignoreCase := true }
  | 'm' => some { multiline := true }
  | 's' => some { dotAll := true }
  | 'x' => some { verbose := true }
  | 'a' => some { ascii := true }
  | 'u' => some { unicode := true }
  | 'L' => some {}
  | _ => none

def union (f g : Flags) : Flags :=
  { ignoreCase := f.ignoreCase || g.ignoreCase
    multiline := f.multiline || g.multiline
    dotAll := f.dotAll || g.dotAll
    verbose := f.verbose || g.verbose
    ascii := f.ascii || g.ascii
    unicode := f.unicode || g.unicode }

def intersect (f g : Flags) : Bool :=
  (f.ignoreCase && g.ignoreCase) || (f.multiline && g.multiline) || (f.dotAll && g.dotAll) ||
    (f.verbose && g.verbose)

/-- Flags in force inside a group that turns some on and some off. -/
def switch (flags on off : Flags) : Flags :=
  let kept :=
    if on.ascii || on.unicode then { flags with ascii := false, unicode := false } else flags
  let all := union kept on
  { all with
    ignoreCase := all.ignoreCase && !off.ignoreCase
    multiline := all.multiline && !off.multiline
    dotAll := all.dotAll && !off.dotAll
    verbose := all.verbose && !off.verbose }

/-- The flags turned on, up to the mark that ends them, from the first letter. -/
def flagsOn : (fuel : Nat) → (letter : Char) → (on : Flags) → Reader (Flags × Char)
  | 0, _, _ => fail .tooDeep
  | fuel + 1, letter, on => do
    if letter = 'L' then fail .localeFlag
    let on := union on ((flag? letter).getD {})
    if on.ascii && on.unicode then fail .clashingKinds
    match ← take with
    | none => fail .flagEnd
    | some token =>
      match token with
      | .plain c =>
        if c = ')' || c = '-' || c = ':' then return (on, c)
        else if (flag? c).isSome then flagsOn fuel c on
        else if Text.isAlphanumeric c && !Text.isDigit c then fail .unknownFlag 1
        else fail .flagEnd 1
      | .escape _ => fail .flagEnd 2

/-- The flags turned off, up to the colon, from the first letter. -/
def flagsOff : (fuel : Nat) → (letter : Char) → (off : Flags) → Reader Flags
  | 0, _, _ => fail .tooDeep
  | fuel + 1, letter, off => do
    if letter = 'a' || letter = 'u' || letter = 'L' then fail .keptFlag
    let off := union off ((flag? letter).getD {})
    match ← take with
    | none => fail .missingColon
    | some token =>
      match token with
      | .plain c =>
        if c = ':' then return off
        else if (flag? c).isSome then flagsOff fuel c off
        else if Text.isAlphanumeric c && !Text.isDigit c then fail .unknownFlag 1
        else fail .missingColon 1
      | .escape _ => fail .missingColon 2

/-- Flags after the opening of a group, from the first character: either for the
whole pattern (none) or for the group, those turned on and those turned off. -/
def groupFlags (first : Char) : Reader (Option (Flags × Flags)) := do
  let (on, stop) ← if first = '-' then pure ({}, '-') else flagsOn (← remaining) first {}
  if stop = ')' then
    modify fun s => { s with flags := union s.flags on }
    return none
  let off ←
    if stop = '-' then
      match ← take with
      | none => fail .missingFlag
      | some (.plain c) =>
        if (flag? c).isSome then flagsOff (← remaining) c {}
        else if Text.isAlphanumeric c && !Text.isDigit c then fail .unknownFlag 1
        else fail .missingFlag 1
      | some (.escape _) => fail .missingFlag 2
    else pure {}
  if intersect on off then fail .onAndOff 1
  return some (on, off)

/-- Opens a capturing group and gives its index. -/
def openGroup (name : Option String) : Reader Nat := do
  let s ← get
  let index := s.groups
  set { s with groups := index + 1 }
  match name with
  | none => return index
  | some name =>
    match s.names.find? (·.1 == name) with
    | some (_, previous) => fail (.redefinedName name index previous) (name.length + 1)
    | none =>
      modify fun s => { s with names := (name, index) :: s.names }
      return index

def closeGroup (index : Nat) (body : Node) : Reader Unit :=
  modify fun s => { s with closed := (index, body.width) :: s.closed }

/-- The closing parenthesis of a group that began at `start`. -/
def closing (start : Nat) : Reader Unit := do
  if !(← accept ')') then throw (.at .unterminatedGroup start)

inductive GroupForm where
  | capture (name : Option String)
  | plain (on off : Flags)
  | atomic
  | look (behind negated : Bool)
  | dependent (index : Nat)

inductive Opening where
  | comment
  | flags
  | item (node : Node)
  | body (form : GroupForm)

/-- Groups are numbered up to here only. -/
def groupLimit : Nat := 1073741823

/-- The group that something depends on, by name or number. -/
def condition : Reader Nat := do
  let name ← takeUntil ')' "group name" (← remaining) ""
  let back := name.length + 1
  if isName name then
    match (← get).names.find? (·.1 == name) with
    | none => fail (.unknownName name) back
    | some (_, index) =>
      checkLookBehind index
      return index
  else
    if !name.toList.all Char.isDigit then fail (.badName name) back
    let index := Number.digitsValue name.toList
    if index = 0 then fail .badGroupNumber back
    if groupLimit ≤ index then fail (.noSuchGroup index) back
    modify fun s =>
      if s.wanted.any (·.1 == index) then s
      else { s with wanted := s.wanted ++ [(index, s.position - back)] }
    checkLookBehind index
    return index

def comment (start : Nat) : (fuel : Nat) → Reader Unit
  | 0 => fail .tooDeep
  | fuel + 1 => do
    match ← take with
    | none => throw (.at .unterminatedComment start)
    | some token => if token = .plain ')' then return () else comment start fuel

/-- The opening of a group, after its parenthesis at `start`. -/
def opening (flags : Flags) (start : Nat) : Reader Opening := do
  if !(← accept '?') then return .body (.capture none)
  match ← take with
  | none => fail .unexpectedEnd
  | some (.escape c) => fail (.unknownExtension ("?" ++ (Token.escape c).text)) 3
  | some (.plain 'P') =>
    if ← accept '<' then return .body (.capture (some (← takeName '>')))
    else if ← accept '=' then
      let name ← takeName ')'
      match (← get).names.find? (·.1 == name) with
      | none => fail (.unknownName name) (name.length + 1)
      | some (_, index) => return .item (← reference flags index (name.length + 1))
    else
      match ← take with
      | none => fail .unexpectedEnd
      | some token => fail (.unknownExtension ("?P" ++ token.text)) (token.text.length + 2)
  | some (.plain ':') => return .body (.plain {} {})
  | some (.plain '#') =>
    comment start (← remaining)
    return .comment
  | some (.plain '=') => return .body <| .look false false
  | some (.plain '!') => return .body <| .look false true
  | some (.plain '<') =>
    match ← take with
    | none => fail .unexpectedEnd
    | some token =>
      if token = .plain '=' then return .body <| .look true false
      else if token = .plain '!' then return .body <| .look true true
      else fail (.unknownExtension ("?<" ++ token.text)) (token.text.length + 2)
  | some (.plain '(') => return .body (.dependent (← condition))
  | some (.plain '>') => return .body .atomic
  | some (.plain c) =>
    if c = '-' || (flag? c).isSome then
      match ← groupFlags c with
      | none => return .flags
      | some (on, off) => return .body (.plain on off)
    else fail (.unknownExtension ("?" ++ c.toString)) 2

/-- The nodes of a sequence, read last to first. -/
def sequenceOf : List Node → Node
  | [] => .empty
  | [node] => node
  | last :: earlier => .seq (sequenceOf earlier) last

/-- Repeats the last node of a sequence. The mark of the repetition stood at `here`. -/
def repeatLast (items : List Node) (least : Nat) (most : Option Nat) (here : Nat) :
    Reader (List Node) := do
  match items with
  | [] => throw (.at .nothingToRepeat here)
  | .anchor _ :: _ => throw (.at .nothingToRepeat here)
  | .loop .. :: _ => throw (.at .repeatedRepeat here)
  | node :: earlier =>
    let greed : Greed ←
      if ← accept '?' then pure .fewest
      else if ← accept '+' then pure .keep
      else pure .most
    return .loop least most greed node :: earlier

def skipLine : (fuel : Nat) → Reader Unit
  | 0 => fail .tooDeep
  | fuel + 1 => do
    match ← take with
    | none => return ()
    | some token => if token = .plain '\n' then return () else skipLine fuel

/-- Whether a token is left out of a verbose pattern. -/
def isLayout (c : Char) : Bool := c == ' ' || (9 ≤ c.toNat && c.toNat ≤ 13)

mutual

/-- Alternatives up to a closing parenthesis or the end. -/
def alternatives (fuel : Nat) (flags : Flags) (nested first : Bool) : Reader Node :=
  match fuel with
  | 0 => fail .tooDeep
  | fuel + 1 => do
    let items ← sequence fuel flags nested first []
    let node := sequenceOf items
    if ← accept '|' then
      let whole := (← get).flags
      return .alt node (← alternatives fuel (if nested then flags else whole) nested false)
    else return node

/-- A sequence, continued after the nodes that have been read, last to first. -/
def sequence (fuel : Nat) (flags : Flags) (nested first : Bool) (items : List Node) :
    Reader (List Node) :=
  match fuel with
  | 0 => fail .tooDeep
  | fuel + 1 => do
    match ← peek with
    | none => return items
    | some (.escape c) =>
      discard take
      sequence fuel flags nested first ((← escape flags c) :: items)
    | some (.plain c) =>
      if c = '|' || c = ')' then return items
      let here := (← get).position
      discard take
      if flags.verbose && isLayout c then sequence fuel flags nested first items
      else if flags.verbose && c = '#' then
        skipLine (← remaining)
        sequence fuel flags nested first items
      else
        match c with
        | '[' => sequence fuel flags nested first ((← charSet flags) :: items)
        | '.' =>
          let any : CharSet :=
            if flags.dotAll then { items := [], negated := true }
            else { items := [.point 10], negated := true }
          sequence fuel flags nested first (.char any :: items)
        | '^' =>
          let a : Anchor := if flags.multiline then .lineStart else .textStart
          sequence fuel flags nested first (.anchor a :: items)
        | '$' =>
          let a : Anchor := if flags.multiline then .lineEnd else .lastLineEnd
          sequence fuel flags nested first (.anchor a :: items)
        | '(' =>
          match ← opening flags here with
          | .comment => sequence fuel flags nested first items
          | .flags =>
            if !first || !items.isEmpty then throw (.at .lateFlags here)
            sequence fuel (← get).flags nested first items
          | .item node => sequence fuel flags nested first (node :: items)
          | .body form => sequence fuel flags nested first ((← group fuel flags here form) :: items)
        | _ =>
          if c = '?' || c = '*' || c = '+' || c = '\x7b' then
            match ← bounds c with
            | none => sequence fuel flags nested first (pointSet flags c.toNat :: items)
            | some (least, most) =>
              sequence fuel flags nested first (← repeatLast items least most here)
          else sequence fuel flags nested first (pointSet flags c.toNat :: items)

/-- The body of a group that began at `start`, up to its closing parenthesis. -/
def group (fuel : Nat) (flags : Flags) (start : Nat) (form : GroupForm) : Reader Node :=
  match fuel with
  | 0 => fail .tooDeep
  | fuel + 1 => do
    match form with
    | .capture name =>
      let index ← openGroup name
      let body ← alternatives fuel flags true false
      closing start
      closeGroup index body
      return .capture index body
    | .plain on off =>
      let body ← alternatives fuel (switch flags on off) true false
      closing start
      return .group body
    | .atomic =>
      let body ← alternatives fuel flags true false
      closing start
      return .atomic body
    | .look behind negated =>
      let outer := (← get).behindFrom
      if behind && outer.isNone then
        modify fun s => { s with behindFrom := some s.groups }
      let body ← alternatives fuel flags true false
      if behind && outer.isNone then modify fun s => { s with behindFrom := none }
      closing start
      return if behind then .behind negated body else .ahead negated body
    | .dependent index =>
      let yes ← sequence fuel flags true false []
      let no ← if ← accept '|' then sequence fuel flags true false [] else pure []
      if (← peek) = some (.plain '|') then fail .tooManyBranches
      closing start
      return .ifGroup index (sequenceOf yes) (sequenceOf no)

end

end Reader

def parse (pattern : String) : Except PatternFault Node := do
  let cs := pattern.toList
  let (next, rest) ← Reader.tokenOf 0 cs
  let (node, s) ← (Reader.alternatives (4 * (cs.length + 2)) {} false true).run
    { next := next, rest := rest, position := 0 }
  if s.next.isSome then throw (.at .unbalanced s.position)
  if s.flags.ascii && s.flags.unicode then throw .clashingFlags
  match s.wanted.find? fun (index, _) => s.groups ≤ index with
  | some (index, position) => throw (.at (.noSuchGroup index) position)
  | none =>
    if node.looksBackFixed then return node else throw .variableLookBehind

end Permit.Pattern

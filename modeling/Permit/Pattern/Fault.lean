import Permit.Fault.Kind
import Permit.Text.Quoted

namespace Permit.Pattern

inductive Problem where
  | escapeAtEnd
  | badEscape (escape : String)
  | incompleteEscape (escape : String)
  | octalTooLarge (escape : String)
  | missingBrace
  | unknownCharacter (name : String)
  | openSet
  | badRange (range : String)
  | nothingToRepeat
  | repeatedRepeat
  | leastOverMost
  | unexpectedEnd
  | missingName (what : String)
  | openName (terminator : Char)
  | badName (name : String)
  | unknownName (name : String)
  | redefinedName (name : String) (index previous : Nat)
  | unknownExtension (mark : String)
  | openGroup
  | groupInLookBehind
  | badGroupNumber
  | noSuchGroup (index : Nat)
  | tooManyBranches
  | unterminatedGroup
  | unterminatedComment
  | unbalanced
  | lateFlags
  | flagEnd
  | unknownFlag
  | missingFlag
  | missingColon
  | localeFlag
  | clashingKinds
  | keptFlag
  | onAndOff
  /-- More nesting than the pattern has characters; no pattern leads here. -/
  | tooDeep
deriving Repr, DecidableEq

def Problem.message : Problem → String
  | .escapeAtEnd => "bad escape (end of pattern)"
  | .badEscape escape => "bad escape " ++ escape
  | .incompleteEscape escape => "incomplete escape " ++ escape
  | .octalTooLarge escape => s!"octal escape value {escape} outside of range 0-0o377"
  | .missingBrace => "missing \x7b"
  | .unknownCharacter name => "undefined character name " ++ Text.quote name
  | .openSet => "unterminated character set"
  | .badRange range => "bad character range " ++ range
  | .nothingToRepeat => "nothing to repeat"
  | .repeatedRepeat => "multiple repeat"
  | .leastOverMost => "min repeat greater than max repeat"
  | .unexpectedEnd => "unexpected end of pattern"
  | .missingName what => "missing " ++ what
  | .openName terminator => s!"missing {terminator}, unterminated name"
  | .badName name => "bad character in group name " ++ Text.quote name
  | .unknownName name => "unknown group name " ++ Text.quote name
  | .redefinedName name index previous =>
    s!"redefinition of group name {Text.quote name} as group {index}; was group {previous}"
  | .unknownExtension mark => "unknown extension " ++ mark
  | .openGroup => "cannot refer to an open group"
  | .groupInLookBehind => "cannot refer to group defined in the same lookbehind subpattern"
  | .badGroupNumber => "bad group number"
  | .noSuchGroup index => s!"invalid group reference {index}"
  | .tooManyBranches => "conditional backref with more than two branches"
  | .unterminatedGroup => "missing ), unterminated subpattern"
  | .unterminatedComment => "missing ), unterminated comment"
  | .unbalanced => "unbalanced parenthesis"
  | .lateFlags => "global flags not at the start of the expression"
  | .flagEnd => "missing -, : or )"
  | .unknownFlag => "unknown flag"
  | .missingFlag => "missing flag"
  | .missingColon => "missing :"
  | .localeFlag => "bad inline flags: cannot use 'L' flag with a str pattern"
  | .clashingKinds => "bad inline flags: flags 'a', 'u' and 'L' are incompatible"
  | .keptFlag => "bad inline flags: cannot turn off flags 'a', 'u' and 'L'"
  | .onAndOff => "bad inline flags: flag turned on and off"
  | .tooDeep => "pattern too deep"

inductive PatternFault where
  | at (problem : Problem) (position : Nat)
  /-- What is looked at backwards has no fixed length. -/
  | variableLookBehind
  | tooManyRepeats
  | clashingFlags
deriving Repr, DecidableEq

namespace PatternFault

/-- Whether the fault is one of the pattern's own grammar. The others are ordinary
failures of the kind given. -/
def kind? : PatternFault → Option FaultKind
  | .tooManyRepeats => some .overflow
  | .clashingFlags => some .value
  | _ => none

/-- The line and column of a position, both counted from one. -/
def lineAndColumn (pattern : List Char) (position : Nat) : Nat × Nat :=
  let before := pattern.take position
  let line := before.count '\n'
  (line + 1, if line = 0 then position + 1 else (before.reverse.takeWhile (· != '\n')).length + 1)

def message (pattern : String) : PatternFault → String
  | .at problem position =>
    let cs := pattern.toList
    let place :=
      if cs.contains '\n' then
        let (line, column) := lineAndColumn cs position
        s!" (line {line}, column {column})"
      else ""
    s!"{problem.message} at position {position}" ++ place
  | .variableLookBehind => "look-behind requires fixed-width pattern"
  | .tooManyRepeats => "the repetition number is too large"
  | .clashingFlags => "ASCII and UNICODE flags are incompatible"

end PatternFault
end Permit.Pattern

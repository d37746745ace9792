import Permit.Text.Digit

namespace Permit.Path

/-- The selector of every element. -/
def wildcard : String := "*"

/-- Whether a segment is made of decimal digits, with at most a line break after them. -/
def isIndex (segment : String) : Bool :=
  let cs := segment.toList
  let rest := cs.dropWhile Text.isDecimal
  !(cs.takeWhile Text.isDecimal).isEmpty && (rest == [] || rest == ['\n'])

/-- Whether a segment selects elements of a sequence. -/
def isSelector (segment : String) : Bool := segment == wildcard || isIndex segment

end Permit.Path

import Permit.Fault.Kind
import Permit.Text.Quoted

namespace Permit

inductive TemplateFault where
  /-- A brace that is neither doubled nor part of a field. -/
  | loneBrace (brace : Char)
  | unclosedField
  | braceInName
  | missingConversion
  | textAfterConversion
  | unclosedLayout
  | unknownConversion (mark : Char)
  | tooDeep
  | noPosition (index : Nat)
  | tooManyDigits
  | unknownField (name : String)
  | emptyStep
  | unclosedIndex
  | textAfterIndex
  | noAttribute (name : String)
  | indexOutOfRange
  | indexNotNumber
  | missingPrecision
  | badLayout (layout : String)
  | unknownType (mark : Char)
  | separatorNotAllowed (separator mark : Char)
  | bothSeparators
  | signNotAllowed
  | spaceNotAllowed
  | zeroSignNotAllowed
  | alternateNotAllowed
  | numericAlignment
deriving Repr, DecidableEq

namespace TemplateFault

def kind : TemplateFault → FaultKind
  | .noPosition _ => .index
  | .indexOutOfRange => .index
  | .indexNotNumber => .type
  | .unknownField _ => .key
  | .noAttribute _ => .attribute
  | _ => .value

/-- A mark that shows as itself in a message, or its code point. -/
def markText (last : Nat) (mark : Char) : String :=
  if 32 < mark.toNat && mark.toNat < last then mark.toString
  else "\\x" ++ Text.hex 0 mark.toNat

def message : TemplateFault → String
  | .loneBrace brace => s!"Single '{brace}' encountered in format string"
  | .unclosedField => "expected '\x7d' before end of string"
  | .braceInName => "unexpected '\x7b' in field name"
  | .missingConversion => "end of string while looking for conversion specifier"
  | .textAfterConversion => "expected ':' after conversion specifier"
  | .unclosedLayout => "unmatched '\x7b' in format spec"
  | .unknownConversion mark =>
    if 32 < mark.toNat && mark.toNat < 127 then s!"Unknown conversion specifier '{mark}'"
    else "Unknown conversion specifier " ++ markText 127 mark
  | .tooDeep => "Max string recursion exceeded"
  | .noPosition index =>
    s!"Replacement index {index} out of range for positional args tuple"
  | .tooManyDigits => "Too many decimal digits in format string"
  | .unknownField name => Text.quote name
  | .emptyStep => "Empty attribute in format string"
  | .unclosedIndex => "Missing ']' in format string"
  | .textAfterIndex => "Only '.' or '[' may follow ']' in format field specifier"
  | .noAttribute name => s!"'str' object has no attribute '{name}'"
  | .indexOutOfRange => "string index out of range"
  | .indexNotNumber => "string indices must be integers, not 'str'"
  | .missingPrecision => "Format specifier missing precision"
  | .badLayout layout => s!"Invalid format specifier '{layout}' for object of type 'str'"
  | .unknownType mark =>
    s!"Unknown format code '{markText 128 mark}' for object of type 'str'"
  | .separatorNotAllowed separator mark =>
    s!"Cannot specify '{separator}' with '{markText 128 mark}'."
  | .bothSeparators => "Cannot specify both ',' and '_'."
  | .signNotAllowed => "Sign not allowed in string format specifier"
  | .spaceNotAllowed => "Space not allowed in string format specifier"
  | .zeroSignNotAllowed =>
    "Negative zero coercion (z) not allowed in string format specifier"
  | .alternateNotAllowed => "Alternate form (#) not allowed in string format specifier"
  | .numericAlignment => "'=' alignment not allowed in string format specifier"

end TemplateFault
end Permit

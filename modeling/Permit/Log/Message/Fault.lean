import Permit.Fault.Kind
import Permit.Value.Quoted

namespace Permit.Log

/-- What a placeholder takes from the values besides the one it writes. -/
inductive Amount where
  | width
  | precision
deriving Repr, DecidableEq, Inhabited

inductive MessageFault where
  | numeral (fault : Number.NumeralFault)
  | tooFewValues
  | tooManyValues
  | noMapping
  | unclosedKey
  | noKey (key : Value)
  | keyIntoItems (container : Value)
  | amountNotInteger
  | amountOutOfRange (amount : Amount)
  | tooManyDigits (amount : Amount)
  | incomplete
  | unknownLetter (letter : Char) (index : Nat)
  | needsInteger (letter : Char) (given : Value)
  | needsNumber (letter : Char) (given : Value)
  | notReal (given : Value)
  | noIntegerOfNan
  | noIntegerOfInfinity
  | needsCharacter
  | noSuchCharacter
  /-- The values of a record are no collection. -/
  | notCounted (given : Value)
deriving Repr

namespace MessageFault

def kind : MessageFault → FaultKind
  | .numeral fault => fault.kind
  | .noKey _ => .key
  | .amountOutOfRange _ => .overflow
  | .noIntegerOfInfinity => .overflow
  | .noSuchCharacter => .overflow
  | .unclosedKey => .value
  | .tooManyDigits _ => .value
  | .incomplete => .value
  | .unknownLetter .. => .value
  | .noIntegerOfNan => .value
  | _ => .type

def message : MessageFault → String
  | .numeral fault => fault.message
  | .tooFewValues => "not enough arguments for format string"
  | .tooManyValues => "not all arguments converted during string formatting"
  | .noMapping => "format requires a mapping"
  | .unclosedKey => "incomplete format key"
  | .noKey key => key.quote.toOption.getD ""
  | .keyIntoItems (.bytes _) => "byte indices must be integers or slices, not str"
  | .keyIntoItems _ => "list indices must be integers or slices, not str"
  | .amountNotInteger => "* wants int"
  | .amountOutOfRange .width => "Python int too large to convert to C ssize_t"
  | .amountOutOfRange .precision => "Python int too large to convert to C int"
  | .tooManyDigits .width => "width too big"
  | .tooManyDigits .precision => "precision too big"
  | .incomplete => "incomplete format"
  | .unknownLetter letter index =>
    let shown := if 31 ≤ letter.toNat && letter.toNat ≤ 126 then letter else '?'
    s!"unsupported format character '{shown}' (0x" ++ Text.hex 0 letter.toNat ++
      s!") at index {index}"
  | .needsInteger letter given =>
    s!"%{letter} format: an integer is required, not " ++ given.typeName
  | .needsNumber letter given =>
    s!"%{letter} format: a real number is required, not " ++ given.typeName
  | .notReal given => "must be real number, not " ++ given.typeName
  | .noIntegerOfNan => "cannot convert float NaN to integer"
  | .noIntegerOfInfinity => "cannot convert float infinity to integer"
  | .needsCharacter => "%c requires int or char"
  | .noSuchCharacter => "%c arg not in range(0x110000)"
  | .notCounted given => s!"object of type '{given.typeName}' has no len()"

end MessageFault
end Permit.Log

namespace Permit

inductive Complaint where
  | missing
  | notText
  | badBytes
  | notListed (names : List String)
  | notInteger
  | unreadableInteger
  | tooManyDigits
  | notFinite
  | fraction
  | below (least : Int)
  | notFlag
  | unreadableFlag
  /-- A text that the structure itself refuses. -/
  | refused (reason : String)
deriving Repr, DecidableEq

namespace Complaint

def code : Complaint → String
  | .missing => "missing"
  | .notText => "string_type"
  | .badBytes => "string_unicode"
  | .notListed _ => "enum"
  | .notInteger => "int_type"
  | .unreadableInteger => "int_parsing"
  | .tooManyDigits => "int_parsing_size"
  | .notFinite => "finite_number"
  | .fraction => "int_from_float"
  | .below _ => "greater_than_equal"
  | .notFlag => "bool_type"
  | .unreadableFlag => "bool_parsing"
  | .refused _ => "value_error"

/-- Names in quotes, the last two joined by `or`. -/
def choice : List String → String
  | [] => ""
  | [name] => s!"'{name}'"
  | [first, last] => s!"'{first}' or '{last}'"
  | name :: rest => s!"'{name}', " ++ choice rest

def message : Complaint → String
  | .missing => "Field required"
  | .notText => "Input should be a valid string"
  | .badBytes => "Input should be a valid string, unable to parse raw data as a unicode string"
  | .notListed names => "Input should be " ++ choice names
  | .notInteger => "Input should be a valid integer"
  | .unreadableInteger =>
    "Input should be a valid integer, unable to parse string as an integer"
  | .tooManyDigits => "Unable to parse input string as an integer, exceeded maximum size"
  | .notFinite => "Input should be a finite number"
  | .fraction => "Input should be a valid integer, got a number with a fractional part"
  | .below least => s!"Input should be greater than or equal to {least}"
  | .notFlag => "Input should be a valid boolean"
  | .unreadableFlag => "Input should be a valid boolean, unable to interpret input"
  | .refused reason => "Value error, " ++ reason

end Complaint

structure Issue where
  place : List String
  complaint : Complaint
deriving Repr, DecidableEq

/-- A value read from data, or all that is wrong with the data. -/
abbrev Reading (α : Type) := Except (List Issue) α

namespace Reading

def complain {α : Type} (field : String) (complaint : Complaint) : Reading α :=
  .error [⟨[field], complaint⟩]

/-- Two readings of the same data; the issues of both are kept. -/
def both {α β : Type} (a : Reading α) (b : Reading β) : Reading (α × β) :=
  match a, b with
  | .ok x, .ok y => .ok (x, y)
  | .error left, .error right => .error (left ++ right)
  | .error left, .ok _ => .error left
  | .ok _, .error right => .error right

/-- A function applied to what two readings give; the issues of both are kept. -/
def ap {α β : Type} (f : Reading (α → β)) (a : Reading α) : Reading β :=
  (both f a).map fun (g, x) => g x

end Reading
end Permit

namespace Permit

inductive FaultKind where
  | type
  | value
  | key
  | index
  | attribute
  | overflow
  | runtime
  /-- The machine has no answer. -/
  | system
deriving Repr, DecidableEq, Inhabited

end Permit

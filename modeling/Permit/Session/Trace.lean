namespace Permit

structure Span where
  name : String
  failed : Bool := false
  attributes : List (String × Nat) := []
deriving Repr, DecidableEq, Inhabited

/-- The spans that are open, the innermost first, and those that have ended, the last
one first. -/
structure Spans where
  unfinished : List Span := []
  ended : List Span := []
deriving Repr, DecidableEq, Inhabited

namespace Spans

def enter (s : Spans) (name : String) : Spans :=
  { s with unfinished := ⟨name, false, []⟩ :: s.unfinished }

def leave (s : Spans) (failed : Bool) : Spans :=
  match s.unfinished with
  | [] => s
  | span :: outer => ⟨outer, { span with failed } :: s.ended⟩

def setAttribute (s : Spans) (name : String) (n : Nat) : Spans :=
  match s.unfinished with
  | [] => s
  | span :: outer =>
    { s with unfinished := { span with attributes := span.attributes ++ [(name, n)] } :: outer }

/-- The ended spans in the order in which they ended, and the state without them. -/
def collect (s : Spans) : List Span × Spans := (s.ended.reverse, { s with ended := [] })

end Spans
end Permit

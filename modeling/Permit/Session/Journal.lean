import Permit.Log.Level

namespace Permit

structure Entry where
  level : Int
  logger : String
  message : String
  /-- The check that the record is about, if it names one. -/
  check : Option String := none
deriving Repr, DecidableEq, Inhabited

structure Journal where
  threshold : Option Int := none
  /-- The records, the last one first. -/
  entries : List Entry := []
deriving Repr, DecidableEq, Inhabited

namespace Journal

def note (j : Journal) (e : Entry) : Journal :=
  match j.threshold with
  | none => j
  | some least => if least ≤ e.level then { j with entries := e :: j.entries } else j

/-- The records in order, and the journal without them. -/
def collect (j : Journal) : List Entry × Journal := (j.entries.reverse, { j with entries := [] })

end Journal
end Permit

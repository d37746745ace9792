import Permit.Keyed
import Permit.Number.Binary64

namespace Permit

/-- What is counted, with the labels by which counts are told apart. -/
inductive Counter where
  | authorizations (check outcome : String)
  | compilations (status : String)
  | projections (target : String)
  | rejectedFields (check : String)
deriving Repr, DecidableEq, Inhabited

structure Sample where
  name : String
  labels : List (String × String)
  amount : Nat
deriving Repr, DecidableEq, Inhabited

def Counter.name : Counter → String
  | .authorizations .. => "policy_authorizations_total"
  | .compilations _ => "policy_compilations_total"
  | .projections _ => "policy_projections_total"
  | .rejectedFields _ => "policy_rejected_fields_total"

def Counter.labels : Counter → List (String × String)
  | .authorizations check outcome => [("check", check), ("outcome", outcome)]
  | .compilations status => [("status", status)]
  | .projections target => [("target", target)]
  | .rejectedFields check => [("check", check)]

structure Metrics where
  /-- Each counter once, with its count. -/
  counts : List (Counter × Nat) := []
  /-- The durations of compilations, in seconds. -/
  durations : List Number.Binary64 := []
deriving Repr, Inhabited

namespace Metrics

def count (m : Metrics) (c : Counter) : Nat := (Keyed.find? m.counts c).getD 0

def add (m : Metrics) (c : Counter) (amount : Nat := 1) : Metrics :=
  { m with counts := Keyed.put m.counts c (m.count c + amount) }

/-- Adding raises the count of one counter and of no other. -/
theorem count_add (m : Metrics) (c k : Counter) (amount : Nat) :
    (m.add c amount).count k = m.count k + if c = k then amount else 0 := by
  by_cases h : c = k
  · subst h; simp [count, add, Keyed.find?_put]
  · simp [count, add, Keyed.find?_put, h]

def observe (m : Metrics) (seconds : Number.Binary64) : Metrics :=
  { m with durations := seconds :: m.durations }

/-- The bounds by which durations are sorted, with their texts. -/
def bounds : List (String × Number.Binary64) :=
  [("0.0001", .ofRatio false 1 10000), ("0.0005", .ofRatio false 5 10000),
   ("0.001", .ofRatio false 1 1000), ("0.005", .ofRatio false 5 1000),
   ("0.01", .ofRatio false 1 100), ("0.05", .ofRatio false 5 100),
   ("0.1", .ofRatio false 1 10), ("0.5", .ofRatio false 5 10), ("+Inf", .infinite false)]

/-- The number of durations up to a bound. -/
def upTo (m : Metrics) (bound : Number.Binary64) : Nat :=
  m.durations.countP fun seconds => seconds.le bound

def durationName : String := "policy_compile_duration_seconds"

/-- The number of durations; what is not a number is not one. -/
def durationSamples (m : Metrics) : List Sample :=
  [⟨durationName ++ "_count", [], m.upTo (.infinite false)⟩]

/-- The samples in the order of their names and labels, those that are zero left out. -/
def arrange (samples : List Sample) : List Sample :=
  let key (s : Sample) : List String := s.name :: s.labels.flatMap fun l => [l.1, l.2]
  (samples.filter (·.amount != 0)).mergeSort fun a b => !(decide (key b < key a))

def totals (m : Metrics) : List Sample :=
  arrange (m.counts.map (fun (c, n) => ⟨c.name, c.labels, n⟩) ++ m.durationSamples)

def buckets (m : Metrics) : List Sample :=
  arrange (bounds.map (fun (text, bound) =>
    ⟨durationName ++ "_bucket", [("le", text)], m.upTo bound⟩) ++ m.durationSamples)

end Metrics
end Permit

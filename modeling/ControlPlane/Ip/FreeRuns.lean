import ControlPlane.Ip.Address
import ControlPlane.Sort

/-! What is left of a span when some addresses are taken: its maximal free runs, ascending. -/

namespace ControlPlane.Ip

/-- The gaps that ascending numbers leave between `low` and `high`. -/
def gaps (low high : Nat) : List Nat → List (Nat × Nat)
  | [] => if low ≤ high then [(low, high)] else []
  | n :: ns =>
    if low < n then (low, n - 1) :: gaps (n + 1) high ns else gaps (max low (n + 1)) high ns

/-- The free runs of a span. Taken addresses of the other family or outside the span count for
nothing. -/
def freeRuns (span : Span) (taken : List Address) : List Span :=
  let family := span.first.family
  let inside := taken.filter span.contains
  let numbers := sortOn id (inside.map Address.value)
  (gaps span.first.value span.last.value numbers).filterMap fun (first, last) => do
    return ⟨← Address.ofValue? family first, ← Address.ofValue? family last⟩

end ControlPlane.Ip

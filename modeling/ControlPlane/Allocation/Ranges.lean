import ControlPlane.Ip.FreeRuns
import ControlPlane.Store.Ipam
import ControlPlane.Store.Transaction

/-! How allocating, releasing and rebuilding change the ranges of free addresses. -/

namespace ControlPlane

open Ip (Address freeRuns)

def FreeRange.take (range : FreeRange) (address : Address) : Tx Ipam Unit := do
  let fresh ← Tx.ident .range
  match range.carve address fresh with
  | none => throw (.internal s!"address {address} is not in range {range.id}")
  | some .remove => modify fun ipam => ipam.eraseRange range.id
  | some (.shrink rest) => Tx.change fun ipam => ipam.saveRange rest
  | some (.split head tail) => do
    Tx.change fun ipam => ipam.saveRange head
    Tx.change fun ipam => ipam.insertRange tail

/-- Gives an address back to a pool. It joins the ranges that end before it and start after it;
the range before keeps its row. -/
def Pool.reclaim (pool : Pool) (address : Address) : Tx Ipam Unit := do
  let ranges := (← get).poolRanges pool.id
  if ranges.any fun range => range.span.contains address then return
  let before := ranges.find? fun range => range.span.last.next? = some address
  let after := ranges.find? fun range => range.span.first.previous? = some address
  match before, after with
  | some before, some after => do
    Tx.change fun ipam => ipam.saveRange { before with span := ⟨before.span.first, after.span.last⟩ }
    modify fun ipam => ipam.eraseRange after.id
  | some before, none =>
    Tx.change fun ipam => ipam.saveRange { before with span := ⟨before.span.first, address⟩ }
  | none, some after =>
    Tx.change fun ipam => ipam.saveRange { after with span := ⟨address, after.span.last⟩ }
  | none, none => do
    let fresh ← Tx.ident .range
    Tx.change fun ipam => ipam.insertRange ⟨fresh, pool.id, ⟨address, address⟩⟩

/-- Gives an address back to the first pool of a subnet that contains it, if one does. -/
def Ipam.reclaim (subnet : SubnetId) (address : Address) : Tx Ipam Unit := do
  match ((← get).poolsOf subnet).find? fun pool => pool.span.contains address with
  | some pool => pool.reclaim address
  | none => return

/-- Makes the ranges of a pool its free runs. A pool whose ranges are right keeps their rows. -/
def Pool.rebuild (allocated : List Address) (pool : Pool) : Tx Ipam Unit := do
  let stored := (← get).poolRanges pool.id
  let runs := freeRuns pool.span allocated
  if stored.map FreeRange.span = runs then return
  stored.forM fun range => modify fun ipam => ipam.eraseRange range.id
  runs.forM fun run => do
    let fresh ← Tx.ident .range
    Tx.change fun ipam => ipam.insertRange ⟨fresh, pool.id, run⟩

def Ipam.rebuild (subnet : SubnetId) : Tx Ipam Unit := do
  let ipam ← get
  let allocated := (ipam.allocationsOf subnet).map Allocation.address
  (ipam.poolsOf subnet).forM (Pool.rebuild allocated)

end ControlPlane

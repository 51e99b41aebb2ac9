import ControlPlane.Ident

/-! Networks and the provider segments that their ports are bound to. -/

namespace ControlPlane

structure Segment where
  id : SegmentId
  networkType : String
  physicalNetwork : Option String := none
  segmentationId : Option Nat := none
  deriving DecidableEq

structure Network where
  id : NetworkId
  name : String
  adminStateUp : Bool
  shared : Bool
  segments : List Segment
  deriving DecidableEq

def Network.segment? (network : Network) (id : SegmentId) : Option Segment :=
  network.segments.find? fun segment => segment.id = id

end ControlPlane

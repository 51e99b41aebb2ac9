import ControlPlane.Port.Agent

/-! What checks fail with. All that is refused before a call is made is refused as input. -/

namespace ControlPlane

open Ip (Address Cidr Span)

namespace Error

def IsInput (error : Error) : Prop := ∃ text, error = .invalidInput text

/-- An error that a command may end with whose caller named some addresses: the stores are in order,
and no address is in use but one that was named. -/
def Due (named : List Address) : Error → Prop
  | .store _ | .internal _ => False
  | .addressInUse _ address => address ∈ named
  | _ => True

variable {named : List Address} {error : Error}

theorem IsInput.due (h : error.IsInput) : error.Due named := by
  obtain ⟨text, rfl⟩ := h
  trivial

theorem isInput_of_elim {α : Type} {found : Option α} {text : String}
    (h : found.elim (.error (.invalidInput text)) (.ok : α → Except Error α) = .error error) :
    error.IsInput := by
  cases found with
  | none => exact ⟨text, (Except.error.inj h).symm⟩
  | some a => cases h

theorem ofFaults_eq_error {faults : List Fault} (h : ofFaults faults = .error error) :
    ∃ text, error = .validation text faults := by
  cases faults with
  | nil => cases h
  | cons fault rest => exact ⟨_, (Except.error.inj h).symm⟩

theorem ofFaults_due {faults : List Fault} (h : ofFaults faults = .error error) :
    error.Due named := by
  obtain ⟨_, rfl⟩ := ofFaults_eq_error h
  trivial

theorem mapM_eq_error {α β : Type} {f : α → Except Error β} {items : List α}
    (h : items.mapM f = .error error) : ∃ item ∈ items, f item = .error error := by
  rw [← List.mapM'_eq_mapM] at h
  induction items with
  | nil => cases h
  | cons item rest ih =>
    rcases bind_eq_error_iff.1 h with hitem | ⟨_, _, h⟩
    · exact ⟨item, List.mem_cons_self, hitem⟩
    · rcases bind_eq_error_iff.1 h with hrest | ⟨_, _, h⟩
      · obtain ⟨other, hother, hf⟩ := ih hrest
        exact ⟨other, List.mem_cons_of_mem _ hother, hf⟩
      · cases h

end Error

variable {error : Error}

namespace Subnet

variable {cidr : Cidr} {gateway : Option Address}

theorem parseCidr_isInput {text : String} {family : Ip.Family}
    (h : parseCidr text family = .error error) : error.IsInput := by
  unfold parseCidr at h
  split at h
  · exact ⟨_, (Except.error.inj h).symm⟩
  · split at h
    · exact ⟨_, (Except.error.inj h).symm⟩
    · split at h
      · exact ⟨_, (Except.error.inj h).symm⟩
      · cases h

theorem resolveGateway_isInput {choice : GatewayChoice}
    (h : resolveGateway cidr choice = .error error) : error.IsInput := by
  unfold resolveGateway at h
  split at h
  · cases h
  · cases h
  · split at h
    · cases h
    · exact ⟨_, (Except.error.inj h).symm⟩

theorem checkPool_isInput {host : Span} {spec : PoolSpec}
    (h : checkPool cidr host gateway spec = .error error) : error.IsInput := by
  rcases Error.bind_eq_error_iff.1 h with h | ⟨first, _, h⟩
  · exact Error.isInput_of_elim h
  rcases Error.bind_eq_error_iff.1 h with h | ⟨last, _, h⟩
  · exact Error.isInput_of_elim h
  rcases Error.guard_eq_error_iff.1 h with ⟨_, rfl⟩ | ⟨_, h⟩
  · exact ⟨_, rfl⟩
  rcases Error.guard_eq_error_iff.1 h with ⟨_, rfl⟩ | ⟨_, h⟩
  · exact ⟨_, rfl⟩
  rcases Error.guard_eq_error_iff.1 h with ⟨_, rfl⟩ | ⟨_, h⟩
  · exact ⟨_, rfl⟩
  split at h
  · rcases Error.guard_eq_error_iff.1 h with ⟨_, rfl⟩ | ⟨_, h⟩
    · exact ⟨_, rfl⟩
    · cases h
  · cases h

theorem checkDisjoint_isInput {spans : List Span} (h : checkDisjoint spans = .error error) :
    error.IsInput := by
  induction spans using checkDisjoint.induct with
  | case1 a b rest hlt =>
    rw [checkDisjoint, if_pos hlt] at h
    exact ⟨_, (Except.error.inj h).symm⟩
  | case2 a b rest hlt ih =>
    rw [checkDisjoint, if_neg hlt] at h
    exact ih h
  | case3 spans hspans =>
    rw [checkDisjoint] at h
    · cases h
    · exact hspans

theorem poolBounds_isInput {specs : Option (List PoolSpec)}
    (h : poolBounds cidr gateway specs = .error error) : error.IsInput := by
  unfold poolBounds at h
  split at h
  · unfold validatePools at h
    split at h
    · exact ⟨_, (Except.error.inj h).symm⟩
    · rcases Error.bind_eq_error_iff.1 h with h | ⟨pools, _, h⟩
      · obtain ⟨spec, _, hspec⟩ := Error.mapM_eq_error h
        exact checkPool_isInput hspec
      · rcases Error.bind_eq_error_iff.1 h with h | ⟨_, _, h⟩
        · exact checkDisjoint_isInput h
        · cases h
  · cases h

end Subnet

namespace Allocation

theorem requestedSubnet_isInput {network : NetworkId} {subnets : List Subnet}
    {request : FixedIpRequest} (h : requestedSubnet network subnets request = .error error) :
    error.IsInput := by
  unfold requestedSubnet at h
  split at h
  · exact Error.isInput_of_elim h
  · exact Error.isInput_of_elim h
  · exact ⟨_, (Except.error.inj h).symm⟩

theorem resolve_isInput {network : NetworkId} {subnets : List Subnet} {seen : List Address}
    {requests : List FixedIpRequest} (h : resolve network subnets seen requests = .error error) :
    error.IsInput := by
  induction requests generalizing seen with
  | nil => cases h
  | cons request rest ih =>
    rcases Error.bind_eq_error_iff.1 h with hsubnet | ⟨subnet, _, h⟩
    · exact requestedSubnet_isInput hsubnet
    split at h
    · rcases Error.bind_eq_error_iff.1 h with hrest | ⟨_, _, h⟩
      · exact ih hrest
      · cases h
    · rcases Error.guard_eq_error_iff.1 h with ⟨_, rfl⟩ | ⟨_, h⟩
      · exact ⟨_, rfl⟩
      rcases Error.guard_eq_error_iff.1 h with ⟨_, rfl⟩ | ⟨_, h⟩
      · exact ⟨_, rfl⟩
      rcases Error.bind_eq_error_iff.1 h with hrest | ⟨_, _, h⟩
      · exact ih hrest
      · cases h

end Allocation

theorem Port.initialBinding_isInput {port : Port} {request : PortRequest}
    (h : initialBinding port request = .error error) : error.IsInput := by
  unfold initialBinding at h
  extract_lets at h
  split at h
  · split at h
    · exact ⟨_, (Except.error.inj h).symm⟩
    · cases h
  · cases h

theorem PortUpdate.checkOwner_isInput {update : PortUpdate} {port : Port}
    (h : update.checkOwner port = .error error) : error.IsInput := by
  unfold checkOwner at h
  extract_lets distributed checkHost at h
  rcases Error.guard_eq_error_iff.1 h with ⟨_, rfl⟩ | ⟨_, h⟩
  · exact ⟨_, rfl⟩
  · unfold checkHost at h
    split at h
    · exact ⟨_, (Except.error.inj h).symm⟩
    · cases h

theorem Port.keepAndWant_isInput {current kept : List AllocatedIp} {requests : List FixedIpRequest}
    (h : keepAndWant current kept requests = .error error) : error.IsInput := by
  induction requests generalizing kept with
  | nil => cases h
  | cons request rest ih =>
    unfold keepAndWant at h
    split at h
    · rcases Error.bind_eq_error_iff.1 h with hrest | ⟨_, _, h⟩
      · exact ih hrest
      · cases h
    · split at h
      · exact ⟨_, (Except.error.inj h).symm⟩
      · exact ih h

end ControlPlane

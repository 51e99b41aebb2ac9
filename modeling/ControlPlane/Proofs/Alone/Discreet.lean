import ControlPlane.Port.Create
import ControlPlane.Proofs.Alone
import ControlPlane.Proofs.Ports.Transactions
import ControlPlane.Proofs.Ranges.Hidden

/-! Discreet operations: no transaction of theirs hides an address, and they send no event. -/

namespace ControlPlane

open Operation

/-- A call that hides no address, turns no supply back and sends no event. -/
def Call.Discreet : {α : Type} → Call α → Prop
  | _, .ipam tx => tx.Reveals
  | _, .ports tx => tx.Advances
  | _, .notify _ => False
  | _, _ => True

/-- A call that sends no event. -/
def Call.Silent : {α : Type} → Call α → Prop
  | _, .notify _ => False
  | _, _ => True

theorem Operation.Makes.silent {α : Type} {operation : Operation α}
    (h : operation.Makes Call.Discreet) : operation.Makes Call.Silent := by
  refine Program.All.mono h fun c hc => ?_
  cases c with
  | notify event => exact hc
  | _ => trivial

/-- A sound state in which no more addresses are hidden than in some tables. -/
structure State.Revealed (ipam : Ipam) (state : State) : Prop where
  sound : state.ipam.Sound False state.supply
  reveals : ipam.Reveals state.ipam

theorem State.Revealed.of_extends {ipam : Ipam} {before after : State} (h : before.Revealed ipam)
    (hipam : after.ipam = before.ipam) (hext : after.supply.Extends before.supply) :
    after.Revealed ipam :=
  ⟨hipam ▸ h.sound.of_extends hext, hipam ▸ h.reveals⟩

theorem Call.Discreet.ensures {α : Type} {c : Call α} (h : c.Discreet) (ipam : Ipam) :
    (Program.call c .done).Ensures (State.Revealed ipam) fun _ => State.Revealed ipam := by
  refine Program.ensures_call fun before answer after hr => ?_
  cases c with
  | ipam tx =>
    have hreveals : tx.Reveals := h
    have hext := State.runIpam_extends (hreveals {}).advances hr
    refine ⟨hext, fun hd hp => ?_⟩
    obtain ⟨hsound, hafter⟩ := State.runIpam_keeps (hreveals before.ipam) hr hd ⟨rfl, hp.sound⟩
      ⟨hp.sound.of_extends hext, .refl _⟩
    exact ⟨hsound, hp.reveals.trans hafter⟩
  | ports tx =>
    obtain ⟨refuser, hr⟩ := hr
    have hext := State.runReviewed_extends h hr
    exact ⟨hext, fun _ hp => hp.of_extends (State.runReviewed_cases hr).1 hext⟩
  | ident kind =>
    cases hr
    have hext := before.supply.ident_extends kind
    exact ⟨hext, fun _ hp => hp.of_extends rfl hext⟩
  | time =>
    cases hr
    have hext : before.drawTime.2.supply.Extends before.supply := ⟨rfl, Nat.le_refl _⟩
    exact ⟨hext, fun _ hp => hp.of_extends rfl hext⟩
  | bind driver context =>
    cases hr
    exact ⟨.refl _, fun _ hp => hp⟩
  | postcommit driver context =>
    cases hr
    exact ⟨.refl _, fun _ hp => hp⟩
  | notify event => exact h.elim

/-- What is hidden when a discreet operation ends was hidden before. -/
theorem Operation.Makes.revealed {α : Type} {operation : Operation α} {result : Except Error α}
    {first last : State} (h : operation.Makes Call.Discreet)
    (hrun : operation.run.Alone first result last) (hd : last.supply.Distinct)
    (hs : first.ipam.Sound False first.supply) : last.Revealed first.ipam := by
  have hensures {β : Type} {p : Program β} (hp : p.All Call.Discreet) :
      p.Ensures (State.Revealed first.ipam) fun _ => State.Revealed first.ipam := by
    induction p with
    | done a => exact Program.ensures_done fun _ hp => hp
    | call c next ih => exact (hp.1.ensures first.ipam).bind fun answer => ih answer (hp.2 answer)
  exact (hensures h first result last hrun).2 hd ⟨hs, .refl _⟩

theorem Operation.readIpam_discreet {α : Type} (f : Ipam → α) :
    (Operation.readIpam f).Makes Call.Discreet :=
  makes_ipam (Allocation.read_reveals f)

theorem Network.fetch_discreet (id : NetworkId) : (fetch id).Makes Call.Discreet := by
  refine (readIpam_discreet _).bind fun found => ?_
  cases found <;> trivial

namespace Allocation

theorem allots_discreet (port : PortId) : Allots Call.Discreet port where
  read := read_reveals
  generate := generateTx_reveals port
  rebuild := rebuildTx_reveals
  allocate subnet address _ := allocateTx_reveals port subnet address

theorem giveBack_discreet (ips : List AllocatedIp) : (giveBack ips).Makes Call.Discreet :=
  makes_forM fun ip _ => makes_ipam (releaseTx_reveals ip)

theorem forPort_discreet (port : PortId) (config : Config) (network : NetworkId)
    (requests : List FixedIpRequest) :
    (forPort config port network requests).Makes Call.Discreet :=
  (allots_discreet port).forPort_makes releaseTx_reveals config network requests

end Allocation

/-- Binding a port sends no event unless it may. -/
theorem PortContext.binds_discreet (drivers : List String) : Binds Call.Discreet drivers false where
  bind _ _ _ := trivial
  commit id asked candidate := (Binding.commitTx_closes drivers id asked candidate).advances
  postcommit _ _ := trivial
  notify := nofun

namespace Port

theorem remove_discreet (id : PortId) : (remove id).Makes Call.Discreet :=
  makes_ports ((removeTx_removes id {}).advances)

theorem abandon_discreet {α : Type} (id : PortId) (ips : List AllocatedIp) (error : Error) :
    (abandon id ips error : Operation α).Makes Call.Discreet :=
  (remove_discreet id).bind fun _ => (Allocation.giveBack_discreet ips).bind fun _ =>
    makes_throw error

theorem initialIps_discreet (config : Config) (port : Port)
    (requests : Option (List FixedIpRequest)) :
    (initialIps config port requests).Makes Call.Discreet := by
  unfold initialIps
  split
  · exact makes_pure _
  · exact Allocation.forPort_discreet port.id config port.network _

theorem insert_discreet (config : Config) (port : Port) (binding : Binding) (mac : Option String) :
    (insert config port binding mac).Makes Call.Discreet :=
  makes_ports (insertTx_stores config port binding mac {}).advances

theorem create_discreet (setup : Setup) (request : PortRequest) :
    (create setup request).Makes Call.Discreet := by
  refine (makes_except _).bind fun _ => (Network.fetch_discreet _).bind fun network => ?_
  refine (makes_ask trivial).bind fun now => (makes_ask trivial).bind fun id => ?_
  refine (makes_except _).bind fun binding => ?_
  refine (insert_discreet setup.config _ binding request.mac).bind fun port => ?_
  refine ((initialIps_discreet setup.config port request.fixedIps).orElse fun error =>
    abandon_discreet port.id [] error).bind fun ips => ?_
  have hbind := (PortContext.binds_discreet setup.drivers).bindWithin_makes
    setup.config.binding.maxBindTries { port, network, binding } false
  refine (hbind.orElse fun error => abandon_discreet port.id ips error).bind fun context => ?_
  exact makes_pure _

end Port

end ControlPlane

import ControlPlane.Proofs.Operations
import ControlPlane.Proofs.Requests

/-! Operations on addresses earn the licences that they use: they release what they were answered
to be allocated to their port. -/

namespace ControlPlane

open Operation

/-- From some moves on, a command works for no port but one. -/
def Dedicated (inv : List Move → State → Prop) (tag : Nat) (port : PortId) (past : List Move) :
    Prop :=
  ∀ moves state, past <+: moves → inv moves state → ∀ other, Serves moves tag other → other = port

variable {setup : Setup} {inv : List Move → State → Prop} {tag : Nat} {past later : List Move}
  {port : PortId} {ips : List AllocatedIp}

theorem Dedicated.mono (h : Dedicated inv tag port past) (hp : past <+: later) :
    Dedicated inv tag port later :=
  fun moves state hm => h moves state (hp.trans hm)

namespace Keeps

theorem generateOnce (hk : Keeps setup inv tag) {candidates : List Subnet}
    (h : ∀ subnet ∈ candidates, Takes past tag port subnet) :
    (Allocation.generateOnce port candidates).Sound inv tag
      (fun ip later => Learned later tag port ip) past := by
  cases candidates with
  | nil => exact sound_throw
  | cons first rest =>
    refine hk.ipam (fun moves _ hm _ => .generate port first.network (first :: rest)
      fun subnet hs => (h subnet hs).mono hm) ?_
    intro others before ip after _ _ hr hfresh
    have hgives := State.runIpam_commit (Allocation.generateTx_gives port _ _) hr hfresh trivial
    exact ⟨after, saw_snoc rfl, hgives⟩

theorem generate (hk : Keeps setup inv tag) {candidates : List Subnet}
    (h : ∀ subnet ∈ candidates, Takes past tag port subnet) :
    (Allocation.generate port candidates).Sound inv tag
      (fun ip later => Learned later tag port ip) past := by
  refine (hk.generateOnce h).orElse fun error later hlater => ?_
  split
  · have hrebuild : (Allocation.rebuild (candidates.map Subnet.id)).Sound inv tag
        (fun _ _ => True) later := hk.makes fun _ _ _ _ => Allocation.rebuild_made _
    exact hrebuild.bind fun _ last hlast _ => hk.generateOnce fun subnet hs =>
      (h subnet hs).mono (hlater.trans hlast)
  · exact sound_throw

theorem allocateAddress (hk : Keeps setup inv tag) {subnet : Subnet}
    (h : Takes past tag port subnet) (address : Ip.Address) :
    (Allocation.allocateAddress port subnet address).Sound inv tag
      (fun ip later => Learned later tag port ip) past := by
  have hallocate (hh : subnet.isHostAddress address = true) :
      (Operation.ipam (Allocation.allocateTx port subnet address)).Sound inv tag
        (fun ip later => Learned later tag port ip) past := by
    refine hk.ipam (fun _ _ hm _ => .allocate port subnet address hh (h.mono hm)) ?_
    intro others before ip after _ _ hr hfresh
    have hgives := State.runIpam_commit (Allocation.allocateTx_gives port _ _) hr hfresh trivial
    exact ⟨after, saw_snoc rfl, hgives⟩
  unfold Allocation.allocateAddress
  extract_lets
  split
  · exact sound_throw_bind
  · rename_i hh
    exact hallocate (by simpa using hh)

theorem allocate (hk : Keeps setup inv tag) {candidates : List Subnet}
    (h : ∀ subnet ∈ candidates, Takes past tag port subnet) (address : Option Ip.Address) :
    (Allocation.allocate port candidates address).Sound inv tag
      (fun ip later => Learned later tag port ip) past := by
  unfold Allocation.allocate
  split
  · exact hk.generate h
  · split
    · rename_i hfind
      exact hk.allocateAddress (h _ (List.mem_of_find?_eq_some hfind)) _
    · exact sound_throw

theorem allocateTarget (hk : Keeps setup inv tag) {target : Allocation.Target}
    (h : Takes past tag port target.subnet) :
    (Allocation.allocateTarget port target).Sound inv tag
      (fun ip later => Learned later tag port ip) past := by
  unfold Allocation.allocateTarget
  split
  · exact hk.allocateAddress h _
  · exact hk.generate (List.forall_mem_singleton.2 h)

theorem dualStack (hk : Keeps setup inv tag) {subnets : List Subnet}
    (h : ∀ subnet ∈ subnets, Takes past tag port subnet)
    {operation : Operation AllocatedIp} (hop : operation ∈ Allocation.dualStack port subnets) :
    operation.Sound inv tag (fun ip later => Learned later tag port ip) past := by
  obtain ⟨_, _, rfl, hlisted⟩ := Allocation.mem_dualStack hop
  exact hk.generate fun subnet hs => h subnet (hlisted subnet hs)

theorem ofPort (hk : Keeps setup inv tag) (port : PortId) :
    (Allocation.ofPort port).Sound inv tag
      (fun ips later => ∀ ip ∈ ips, Learned later tag port ip) past := by
  refine hk.readIpam _ fun others before _ hinv ip hip => ⟨before, saw_snoc rfl, ?_⟩
  obtain ⟨row, hrow, rfl⟩ := List.mem_map.1 hip
  rw [Ipam.portAllocations, List.mem_filter, decide_eq_true_eq, Table.mem_values] at hrow
  obtain ⟨⟨key, hkey⟩, hport⟩ := hrow
  have heq := (hk.orderly hinv).labelled hkey
  rw [heq] at hkey
  rw [Ipam.holder?, Allocation.allocated, hkey, Option.map_some, hport]

theorem release (hk : Keeps setup inv tag) (hd : Dedicated inv tag port past) {reclaim : Bool}
    (hr : setup.config.ipam.reclaimOnRelease = true → reclaim = true) {ip : AllocatedIp}
    (h : Learned past tag port ip) :
    (Allocation.release reclaim ip).Sound inv tag (fun _ _ => True) past := by
  refine hk.makes fun moves state hm hi => Allocation.release_made ip hr fun other ho => ?_
  rw [hd moves state hm hi other ho]
  exact h.mono hm

theorem releases (hk : Keeps setup inv tag) (hd : Dedicated inv tag port past) {reclaim : Bool}
    (hr : setup.config.ipam.reclaimOnRelease = true → reclaim = true)
    (h : ∀ ip ∈ ips, Learned past tag port ip) :
    (ips.forM (Allocation.release reclaim)).Sound inv tag (fun _ _ => True) past :=
  sound_forM fun ip hip _ hlater => hk.release (hd.mono hlater) hr ((h ip hip).mono hlater)

theorem giveBack (hk : Keeps setup inv tag) (hd : Dedicated inv tag port past)
    (h : ∀ ip ∈ ips, Learned past tag port ip) :
    (Allocation.giveBack ips).Sound inv tag (fun _ _ => True) past :=
  hk.releases hd (fun _ => rfl) h

theorem releasePort (hk : Keeps setup inv tag) (hd : Dedicated inv tag port past) :
    (Allocation.releasePort setup.config.ipam port).Sound inv tag (fun _ _ => True) past := by
  refine (hk.ofPort port).bind fun ips later hlater hips => ?_
  refine (hk.releases (hd.mono hlater) id hips).bind fun _ _ _ _ => ?_
  exact sound_pure trivial

theorem gather (port : PortId) {operations : List (Operation AllocatedIp)}
    (h : ∀ operation ∈ operations, ∀ later, past <+: later → operation.Sound inv tag
      (fun ip last => Learned last tag port ip) later) :
    (Allocation.gather operations).Sound inv tag
      (fun result later => ∀ ip ∈ result.1, Learned later tag port ip) past := by
  induction operations generalizing past with
  | nil => exact List.forall_mem_nil _
  | cons operation rest ih =>
    have hhead := h operation List.mem_cons_self past (List.prefix_refl past)
    refine Program.Sound.bind hhead fun result later hlater hr => ?_
    cases result with
    | error error => exact List.forall_mem_nil _
    | ok ip =>
      have hrest : (Allocation.gather rest).Sound inv tag
          (fun result later => ∀ ip ∈ result.1, Learned later tag port ip) later :=
        ih fun other ho last hlast => h other (List.mem_cons_of_mem _ ho) last (hlater.trans hlast)
      refine hrest.bind fun gathered last hlast hg => ?_
      exact List.forall_mem_cons.2 ⟨(hr ip rfl).mono hlast, hg⟩

theorem subnetsOf (hk : Keeps setup inv tag) (network : NetworkId) :
    (Operation.readIpam fun ipam => ipam.subnetsOf network).Sound inv tag
      (fun subnets later => ∀ subnet ∈ subnets, Met later subnet) past := by
  refine hk.readIpam _ fun others before _ hinv subnet hs => ⟨tag, before, passed_snoc, ?_⟩
  have hmem := (List.mem_filter.1 (mem_sortOn.1 hs)).1
  obtain ⟨key, hkey⟩ := Table.mem_values.1 hmem
  rw [(hk.orderly hinv).subnet hkey]
  exact hkey

theorem forPort (hk : Keeps setup inv tag) (hsupplies : Supplies past tag port)
    (hd : Dedicated inv tag port past) (config : Config)
    (network : NetworkId) (requests : List FixedIpRequest) :
    (Allocation.forPort config port network requests).Sound inv tag
      (fun ips later => ∀ ip ∈ ips, Learned later tag port ip) past := by
  unfold Allocation.forPort
  extract_lets
  split
  · exact sound_throw_bind
  refine (hk.subnetsOf network).bind fun subnets later hlater hmet => ?_
  have htakes {last : List Move} (hlast : later <+: last) :
      ∀ subnet ∈ subnets, Takes last tag port subnet := fun subnet hs =>
    .inr ⟨hsupplies.mono (hlater.trans hlast), (hmet subnet hs).mono hlast⟩
  refine sound_bind_except fun targets htargets => ?_
  refine (sound_lift (gather port fun operation hop last hlast => ?_)).bind
    fun result last hlast hips => ?_
  · split at hop
    · exact hk.dualStack (htakes hlast) hop
    · obtain ⟨target, ht, rfl⟩ := List.mem_map.1 hop
      obtain ⟨_, _, hanswers⟩ := Allocation.resolve_mem htargets target ht
      exact hk.allocateTarget (htakes hlast _ hanswers.mem)
  · obtain ⟨ips, error⟩ := result
    cases error with
    | none => exact sound_pure hips
    | some error =>
      refine (hk.giveBack (hd.mono (hlater.trans hlast)) hips).bind fun _ _ _ _ => ?_
      exact sound_throw

end Keeps

end ControlPlane

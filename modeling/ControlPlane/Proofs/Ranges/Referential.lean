import ControlPlane.Proofs.Ip.HostRange
import ControlPlane.Proofs.Ranges.Exchange
import ControlPlane.Proofs.Schedules

/-! What the rows of the address store refer to. Ranges are of pools that exist, pools and allocations
of subnets that exist, and the subnets of one network share no address. -/

namespace ControlPlane

open Ip (Address Cidr Span hostBounds)

namespace Ipam

/-- An allocation gives out an address that hosts of its subnet can have, in the network of that. -/
def Houses (ipam : Ipam) (allocation : Allocation) : Prop :=
  ∃ subnet, ipam.subnets.find? allocation.subnet = some subnet ∧
    allocation.network = subnet.network ∧ subnet.isHostAddress allocation.address = true

/-- Every subnet has a block of its own within its network, and every allocation is at home. -/
structure Settled (ipam : Ipam) : Prop where
  block : ∀ ⦃id subnet⦄, ipam.subnets.find? id = some subnet →
    subnet.cidr.isCanonical = true ∧ subnet.cidr.family = subnet.family
  apart : ∀ ⦃id id' subnet subnet'⦄, ipam.subnets.find? id = some subnet →
    ipam.subnets.find? id' = some subnet' → subnet.network = subnet'.network → id ≠ id' →
    Subnet.overlaps subnet.cidr subnet'.cidr = false
  housed : ∀ ⦃key allocation⦄, ipam.allocations.find? key = some allocation → ipam.Houses allocation

/-- The tables of subnets and allocations. -/
def homes (ipam : Ipam) : Table SubnetId Subnet × Table (SubnetId × Address) Allocation :=
  (ipam.subnets, ipam.allocations)

variable {ipam kept : Ipam} {subnet : Subnet} {allocation : Allocation} {supply : Supply}
  {known : Subnet → Prop} {eager : Prop}

theorem subnets_eq (h : kept.grounds = ipam.grounds) : kept.subnets = ipam.subnets :=
  (congrArg Ipam.subnets h :)

theorem Houses.of_subnets (h : ipam.Houses allocation) (hs : kept.subnets = ipam.subnets) :
    kept.Houses allocation := by
  obtain ⟨subnet, hfind, hhome⟩ := h
  exact ⟨subnet, hs ▸ hfind, hhome⟩

namespace Settled

theorem of_allocations (h : ipam.Settled) (hs : kept.subnets = ipam.subnets)
    (ha : ∀ ⦃key allocation⦄, kept.allocations.find? key = some allocation →
      ipam.allocations.find? key = some allocation ∨ ipam.Houses allocation) : kept.Settled := by
  refine ⟨fun id subnet hf => h.block (hs ▸ hf),
    fun id id' subnet subnet' hf hf' => h.apart (hs ▸ hf) (hs ▸ hf'), fun key allocation hf => ?_⟩
  rcases ha hf with hf | hhome
  · exact (h.housed hf).of_subnets hs
  · exact hhome.of_subnets hs

theorem of_homes (h : ipam.Settled) (heq : kept.homes = ipam.homes) : kept.Settled := by
  obtain ⟨hs, ha⟩ := Prod.mk.inj heq
  exact h.of_allocations hs fun _ _ hf => .inl (ha ▸ hf)

/-- A new subnet is put beside those that it does not overlap. -/
theorem insert_subnet (h : ipam.Settled) (hnone : ipam.subnets.find? subnet.id = none)
    (hblock : subnet.cidr.isCanonical = true ∧ subnet.cidr.family = subnet.family)
    (hapart : ∀ id other, ipam.subnets.find? id = some other → other.network = subnet.network →
      Subnet.overlaps other.cidr subnet.cidr = false) :
    ({ ipam with subnets := ipam.subnets.insert subnet.id subnet } : Ipam).Settled := by
  have hcases {id : SubnetId} {found : Subnet}
      (hf : (ipam.subnets.insert subnet.id subnet).find? id = some found) :
      subnet.id = id ∧ subnet = found ∨ ipam.subnets.find? id = some found := by
    rw [Table.find?_insert] at hf
    split at hf
    · exact .inl ⟨‹_›, Option.some.inj hf⟩
    · exact .inr hf
  refine ⟨fun id found hf => ?_, fun id id' found found' hf hf' hnetwork hne => ?_,
    fun key allocation hf => ?_⟩
  · rcases hcases hf with ⟨_, rfl⟩ | hf
    · exact hblock
    · exact h.block hf
  · rcases hcases hf with ⟨rfl, rfl⟩ | hf <;> rcases hcases hf' with ⟨rfl, rfl⟩ | hf'
    · exact absurd rfl hne
    · rw [Subnet.overlaps_comm]
      exact hapart id' found' hf' hnetwork.symm
    · exact hapart id found hf hnetwork
    · exact h.apart hf hf' hnetwork hne
  · obtain ⟨home, hfind, hhome⟩ := h.housed hf
    refine ⟨home, (Table.find?_insert.trans (if_neg fun heq => ?_)).trans hfind, hhome⟩
    rw [← heq, hnone] at hfind
    cases hfind

/-- An address is allocated but once in a network. -/
theorem allocated_once (h : ipam.Settled) (hkeys : ipam.Labelled) {ip other : AllocatedIp}
    {row row' : Allocation} (hrow : ipam.allocation? ip = some row)
    (hother : ipam.allocation? other = some row') (hnetwork : row.network = row'.network)
    (haddress : ip.address = other.address) : ip = other := by
  obtain ⟨home, hhome, hhomed, hhost⟩ := h.housed hrow
  obtain ⟨home', hhome', hhomed', hhost'⟩ := h.housed hother
  obtain ⟨hs, ha⟩ := Prod.mk.inj (hkeys hrow)
  obtain ⟨hs', ha'⟩ := Prod.mk.inj (hkeys hother)
  have hshared : Subnet.overlaps home.cidr home'.cidr = true := by
    refine Subnet.overlaps_iff.2 ⟨ip.address, ?_, ?_⟩
    · exact Cidr.contains_iff_fixes.2 (Ip.isHostAddress_iff_fixes.1 (ha ▸ hhost)).1
    · exact Cidr.contains_iff_fixes.2 (Ip.isHostAddress_iff_fixes.1 (haddress ▸ ha' ▸ hhost')).1
  have hsame : ip.subnet = other.subnet := by
    refine Decidable.byContradiction fun hne => ?_
    rw [hs, hs'] at hne
    rw [h.apart hhome hhome' (hhomed.symm.trans (hnetwork.trans hhomed')) hne] at hshared
    cases hshared
  obtain ⟨address, subnet⟩ := ip
  obtain ⟨address', subnet'⟩ := other
  cases haddress
  cases hsame
  rfl

theorem eraseSubnet (h : ipam.Settled) (hkeys : ipam.Labelled) (id : SubnetId) :
    (ipam.eraseSubnet id).Settled := by
  have hsubnet {id' : SubnetId} {found : Subnet}
      (hf : (ipam.eraseSubnet id).subnets.find? id' = some found) :
      ipam.subnets.find? id' = some found := by
    simp only [Ipam.eraseSubnet, Table.find?_erase] at hf
    split at hf
    · cases hf
    · exact hf
  refine ⟨fun id' found hf => h.block (hsubnet hf),
    fun _ _ _ _ hf hf' => h.apart (hsubnet hf) (hsubnet hf'), fun key allocation hf => ?_⟩
  have hf : (ipam.allocations.filter fun key _ => key.1 ≠ id).find? key = some allocation := hf
  rw [Table.find?_filter, Option.filter_eq_some_iff, decide_eq_true_eq] at hf
  obtain ⟨home, hfind, hhome⟩ := h.housed hf.1
  refine ⟨home, ?_, hhome⟩
  have hne : allocation.subnet ≠ id := fun heq => hf.2 (by rw [hkeys hf.1]; exact heq)
  exact (Table.find?_erase.trans (if_neg hne)).trans hfind

/-- A known subnet that is stored houses those of its host addresses that are allocated from it. -/
theorem insert_allocation (h : ipam.Settled) (hc : ipam.Charted known supply) (hk : known subnet)
    (hstored : ipam.subnets.contains subnet.id = true) {address : Address} {port : PortId}
    (hhost : subnet.isHostAddress address = true) (hs : kept.subnets = ipam.subnets)
    (ha : kept.allocations = ipam.allocations.insert (subnet.id, address)
      ⟨subnet.network, subnet.id, address, port⟩) : kept.Settled := by
  refine h.of_allocations hs fun key allocation hf => ?_
  rw [ha, Table.find?_insert] at hf
  split at hf
  · obtain ⟨stored, hfind⟩ := Table.contains_iff.1 hstored
    obtain rfl := hc.same hk hfind
    cases hf
    exact .inr ⟨stored, hfind, rfl, hhost⟩
  · exact .inl hf

end Settled

end Ipam

/-- A transaction that leaves subnets and allocations settled, if it allocates from known subnets. -/
def Tx.Settles {α : Type} (known : Subnet → Prop) (tx : Tx Ipam α) : Prop :=
  tx.Ensures
    (fun ipam supply => ipam.Sound False supply ∧ ipam.Charted known supply ∧ ipam.Settled)
    (fun _ ipam _ => ipam.Settled) fun _ => True

variable {known : Subnet → Prop} {α : Type}

theorem Tx.Spares.settles {tx : Tx Ipam α} (h : tx.Spares Ipam.homes) : tx.Settles known := by
  have hkept (homes : Table SubnetId Subnet × Table (SubnetId × Address) Allocation) := h homes
  refine fun ipam supply => ?_
  have ⟨hext, hpost⟩ := hkept ipam.homes ipam supply
  refine ⟨hext, fun hd ⟨_, _, hsettled⟩ => ?_⟩
  have hpost := hpost hd rfl
  split at hpost
  · exact hsettled.of_homes hpost
  · trivial

namespace Subnet

theorem parseCidr_eq_ok {text : String} {family : Ip.Family} {cidr : Cidr}
    (h : parseCidr text family = .ok cidr) : cidr.isCanonical = true ∧ cidr.family = family := by
  unfold parseCidr at h
  split at h
  · cases h
  · split at h
    · cases h
    · rename_i hfamily
      split at h
      · cases h
      · rename_i hcanonical
        cases h
        exact ⟨by simpa using hcanonical, Decidable.not_not.1 hfamily⟩

theorem createTx_settles {request : SubnetRequest} {cidr : Cidr} {gateway : Option Address}
    {bounds : List Span} (hc : parseCidr request.cidr request.family = .ok cidr) :
    (createTx request cidr gateway bounds).Settles known := by
  refine Tx.ensures_get_bind fun seen => ?_
  refine Tx.ensures_guard (fun _ _ _ _ => trivial) fun _ => ?_
  split
  · exact Tx.ensures_throw_bind fun _ _ _ => trivial
  rename_i hnone
  refine Tx.ensures_ident_bind fun id => ?_
  extract_lets subnet
  refine Tx.ensures_change_bind (fun _ _ _ _ _ => trivial) ?_
  -- Once the subnet is stored, its pools change neither subnets nor allocations.
  have hpools : (bounds.mapM (addPool subnet.id)).Ensures (fun ipam _ => ipam.Settled)
      (fun _ ipam _ => ipam.Settled) fun _ => True := by
    have hspares := (Tx.spares_mapM fun span => addPool_spares subnet.id span :
      (bounds.mapM (addPool subnet.id)).Spares Ipam.unpooled).of Ipam.homes fun _ => rfl
    exact (hspares.keeps fun homes =>
      ({ subnets := homes.1, allocations := homes.2 } : Ipam).Settled).weaken
      (fun _ _ _ h => h.of_homes rfl) (fun _ _ _ _ h => h.of_homes rfl) fun _ h => h
  refine (hpools.of_pre ?_).bind fun _ => Tx.ensures_pure fun _ _ h => h
  rintro kept later _ ⟨ipam, ⟨supply, ⟨rfl, _, _, hsettled⟩, _⟩, hf⟩
  obtain ⟨hfresh, rfl⟩ := Ipam.insertSubnet_eq hf
  refine hsettled.insert_subnet hfresh (parseCidr_eq_ok hc) fun id' other ho hnetwork => ?_
  have hlisted : other ∈ ipam.subnetsOf request.network :=
    Ipam.mem_subnetsOf.2 ⟨⟨id', ho⟩, hnetwork⟩
  exact Bool.not_eq_true _ ▸ List.find?_eq_none.1 hnone other hlisted

theorem deleteTx_settles (id : SubnetId) : (deleteTx id).Settles known := by
  refine Tx.ensures_get_bind fun seen => ?_
  refine Tx.ensures_guard (fun _ _ _ _ => trivial) fun _ => ?_
  refine Tx.ensures_guard (fun _ _ _ _ => trivial) fun _ => ?_
  refine Tx.ensures_modify_bind (Tx.ensures_pure ?_)
  rintro _ supply ⟨ipam, ⟨rfl, hsound, _, hsettled⟩, rfl⟩
  exact hsettled.eraseSubnet (fun _ _ hk => (hsound.allocation hk).1) id

end Subnet

namespace Allocation

theorem settles_of_start {tx : Tx Ipam α} {post : Ipam → α → Ipam → Supply → Prop}
    {fails : Ipam → Error → Prop}
    (h : ∀ ipam, tx.Ensures (fun tables supply => tables = ipam ∧ ipam.Sound False supply)
      (post ipam) (fails ipam))
    (hpost : ∀ ipam answer kept supply, ipam.Charted known supply → ipam.Settled →
      post ipam answer kept supply → kept.Settled) : tx.Settles known := by
  have hkept (ipam : Ipam) := (h ipam).any_fails.frame
    (fun supply => ipam.Charted known supply ∧ ipam.Settled)
    fun _ _ he h => ⟨h.1.of_layout rfl he, h.2⟩
  refine (Tx.Ensures.exists hkept ⟨{}⟩).weaken ?_ ?_ fun _ h => h
  · rintro ipam supply _ ⟨hsound, hc, hs⟩
    exact ⟨ipam, ⟨hc, hs⟩, rfl, hsound⟩
  · rintro answer kept supply _ ⟨ipam, ⟨hc, hs⟩, hafter⟩
    exact hpost ipam answer kept supply hc hs hafter

theorem generateTx_settles (port : PortId) (network : NetworkId) {candidates : List Subnet}
    (hk : ∀ subnet ∈ candidates, known subnet) :
    (generateTx port network candidates).Settles known := by
  refine settles_of_start (generateTx_lowest False port network candidates) ?_
  rintro ipam _ kept supply hc hs ⟨_, rfl, _, hl⟩
  cases hl with
  | taken hf hr hg =>
    have hmem := hk _ (List.mem_of_find?_eq_some hf)
    exact hs.insert_allocation hc hmem hg.stored (hg.seated hc hmem).2.1
      (Ipam.subnets_eq hg.grounds) hg.allocations

theorem allocateTx_settles (port : PortId) {subnet : Subnet} {address : Address}
    (hk : known subnet) (hhost : subnet.isHostAddress address = true) :
    (allocateTx port subnet address).Settles known := by
  refine settles_of_start (fun ipam => ((allocateTx_adds port subnet address ipam).and
    (allocateTx_spares port subnet address ipam.grounds)).of_pre ?_) ?_
  · rintro _ _ _ ⟨rfl, _⟩
    exact ⟨rfl, rfl⟩
  · rintro ipam _ kept supply hc hs ⟨⟨_, hstored, _, hadds⟩, hgrounds⟩
    exact hs.insert_allocation hc hk hstored hhost (Ipam.subnets_eq hgrounds) hadds

theorem releaseTx_settles (reclaim : Bool) (ip : AllocatedIp) :
    (releaseTx reclaim ip).Settles known := by
  have herases (ipam : Ipam) := releaseTx_erases (False.elim : False → reclaim = true) ip ipam
  refine settles_of_start (fun ipam => ((herases ipam).and
    (releaseTx_spares reclaim ip ipam.grounds)).of_pre ?_) ?_
  · rintro _ _ _ ⟨rfl, h⟩
    exact ⟨⟨rfl, h⟩, rfl⟩
  · rintro ipam _ kept supply _ hs ⟨⟨_, _, herased⟩, hgrounds⟩
    refine hs.of_allocations (Ipam.subnets_eq hgrounds) fun key allocation hf => .inl ?_
    rw [herased, Table.find?_erase] at hf
    split at hf
    · cases hf
    · exact hf

end Allocation

section Calls

variable {β : Type} {c : Call β} {answer : β} {setup : Setup} {licence : Licence}
  {before after : State}

def Call.Settles (known : Subnet → Prop) : {α : Type} → Call α → Prop
  | _, .ipam tx => tx.Settles known
  | _, _ => True

theorem Call.Made.settles (hm : c.Made setup licence)
    (hk : ∀ ⦃port subnet⦄, licence.take port subnet → known subnet) : c.Settles known := by
  cases hm with
  | readIpam f =>
    exact (Tx.spares_get.bind fun _ => Tx.spares_pure _ : Tx.Spares Ipam.homes _).settles
  | createNetwork network => exact (Network.createTx_spares network fun _ => rfl).settles
  | deleteNetwork id => exact (Network.deleteTx_spares id fun _ => rfl).settles
  | createSubnet hc _ _ => exact Subnet.createTx_settles hc
  | deleteSubnet id => exact Subnet.deleteTx_settles id
  | generate port network candidates hl =>
    exact Allocation.generateTx_settles port network fun subnet hs => hk (hl subnet hs)
  | rebuild id =>
    have hspares : (Allocation.rebuildTx id).Spares Ipam.homes :=
      (Allocation.rebuildTx_spares id).of Ipam.homes fun _ => rfl
    exact hspares.settles
  | allocate port subnet address hh hl => exact Allocation.allocateTx_settles port (hk hl) hh
  | release ip => exact Allocation.releaseTx_settles _ ip
  | _ => trivial

theorem Call.Settles.result (h : c.Settles known) (hr : c.Result before answer after)
    (hd : after.supply.Distinct) (hsound : before.ipam.Sound False before.supply)
    (hc : before.ipam.Charted known before.supply) (hs : before.ipam.Settled) :
    after.ipam.Settled := by
  cases c with
  | ipam tx =>
    have hensures : tx.Settles known := h
    exact State.runIpam_keeps hensures hr hd ⟨hsound, hc, hs⟩ hs
  | ports tx =>
    obtain ⟨_, hr⟩ := hr
    exact (State.runReviewed_cases hr).1 ▸ hs
  | _ =>
    cases hr
    exact hs

end Calls

section Moves

variable {moves past : List Move} {move : Move} {tag : Nat} {port : PortId} {subnet : Subnet}

/-- The subnets that callers name to allocate from are such as were stored at some time before. -/
def Informed (moves : List Move) : Prop :=
  ∀ ⦃past tag command rest⦄, moves = past ++ .start tag command :: rest →
    ∀ subnet ∈ command.candidates, Met past subnet

theorem Informed.of_snoc (h : Informed (moves ++ [move])) : Informed moves := by
  rintro past tag command rest rfl
  exact h (List.append_assoc ..)

theorem Takes.met (h : Takes moves tag port subnet) (hi : Informed moves) : Met moves subnet := by
  rcases h with ⟨command, hs, hmem⟩ | ⟨_, hm⟩
  · obtain ⟨past, rest, rfl⟩ := List.append_of_mem hs
    exact (hi rfl subnet hmem).mono (List.prefix_append _ _)
  · exact hm

end Moves

namespace Ipam

/-- What rows of the address store have to do with each other. -/
structure Referential (ipam : Ipam) : Prop where
  subnet : ∀ ⦃id subnet⦄, ipam.subnets.find? id = some subnet →
    subnet.id = id ∧ subnet.cidr.isCanonical = true ∧ subnet.cidr.family = subnet.family
  apart : ∀ ⦃id id' subnet subnet' address⦄, ipam.subnets.find? id = some subnet →
    ipam.subnets.find? id' = some subnet' → subnet.network = subnet'.network →
    subnet.contains address = true → subnet'.contains address = true → id = id'
  pool : ∀ ⦃id pool⦄, ipam.pools.find? id = some pool → pool.id = id ∧ pool.span.Proper ∧
    ∃ subnet host, ipam.subnets.find? pool.subnet = some subnet ∧
      hostBounds subnet.cidr = some host ∧ pool.span.Within host ∧
      ∀ gateway, subnet.gateway = some gateway → pool.span.contains gateway = false
  disjoint : ∀ ⦃id id' pool pool' address⦄, ipam.pools.find? id = some pool →
    ipam.pools.find? id' = some pool' → pool.subnet = pool'.subnet →
    pool.span.contains address = true → pool'.span.contains address = true → id = id'
  range : ∀ ⦃id range⦄, ipam.ranges.find? id = some range →
    range.id = id ∧ ipam.pools.contains range.pool = true
  allocation : ∀ ⦃key allocation⦄, ipam.allocations.find? key = some allocation →
    key = (allocation.subnet, allocation.address) ∧ ipam.Houses allocation

variable {ipam : Ipam} {supply : Supply}

theorem Settled.refers (h : ipam.Settled) (hsound : ipam.Sound False supply)
    (hplaced : ipam.Placed) : ipam.Referential := by
  refine ⟨fun id subnet hf => ⟨(hsound.laid.subnet hf).1, h.block hf⟩, ?_, ?_, ?_, ?_,
    fun key allocation hf => ⟨(hsound.allocation hf).1, h.housed hf⟩⟩
  · intro id id' subnet subnet' address hf hf' hnetwork ha ha'
    refine Decidable.byContradiction fun hne => ?_
    have hshared := Subnet.overlaps_iff.2 ⟨address, ha, ha'⟩
    rw [h.apart hf hf' hnetwork hne] at hshared
    cases hshared
  · intro id pool hf
    obtain ⟨hid, _, hproper, hstored⟩ := hsound.laid.pool hf
    obtain ⟨subnet, hfind⟩ := Table.contains_iff.1 hstored
    have hseats := hplaced hf hfind
    obtain ⟨host, hhost, hwithin⟩ := hseats.within hproper
    refine ⟨hid, hproper, subnet, host, hfind, hhost, hwithin, fun gateway hg => ?_⟩
    exact Bool.eq_false_iff.2 fun hc => (hseats gateway hc).2 hg
  · exact fun _ _ _ _ _ hf hf' hs ha ha' => hsound.laid.pool_unique hf hf' hs ha ha'
  · intro id range hf
    obtain ⟨pool, hp, _⟩ := hsound.tidy.within hf
    exact ⟨(hsound.tidy.key hf).1, Table.contains_iff.2 ⟨pool, hp⟩⟩

end Ipam

namespace Scene

variable {allowed : Setup → Command → Prop} {moves : List Move} {first scene : Scene}

theorem Run.settled (run : Run allowed first moves scene) (hfirst : first.Initial)
    (hfresh : ∀ move ∈ moves, move.Fresh) (hinformed : Informed moves) :
    scene.state.ipam.Settled := by
  let inv (moves : List Move) (state : State) : Prop :=
    state.ipam.Charted (Met moves) state.supply ∧ (Informed moves → state.ipam.Settled)
  have hinit : first.state.ipam.Settled := by
    obtain ⟨networks, hipam⟩ := hfirst.ipam
    have hempty : Ipam.Settled {} := ⟨nofun, nofun, nofun⟩
    exact hipam ▸ hempty.of_homes (Ipam.part_networks (fun _ _ => rfl) networks {})
  refine (run.induct inv hfirst hfresh (nofun : False → _) ⟨hfirst.charted, fun _ => hinit⟩
    ?_ ?_ ?_).2.2 hinformed
  · exact fun _ _ _ _ _ _ h => ⟨h.1.of_idle rfl, fun hi => h.2 hi.of_snoc⟩
  · intro moves before after setup command tag α c answer _ hf hm hr hd ⟨hc, hs⟩
    refine ⟨hc.call hf hm hr hd, fun hi => ?_⟩
    have hsettles := hm.settles fun port subnet htake => Takes.met htake hi.of_snoc
    exact hsettles.result hr hd hf.sound hc (hs hi.of_snoc)
  · exact fun _ _ _ _ _ h => ⟨h.1.of_idle rfl, fun hi => h.2 hi.of_snoc⟩

/-- Whatever is asked of control planes, if the subnets that callers offer were created before. -/
theorem Run.referential (run : Run allowed first moves scene) (hfirst : first.Initial)
    (hfresh : ∀ move ∈ moves, move.Fresh)
    (hoffered : ∀ past tag command rest, moves = past ++ .start tag command :: rest →
      ∀ subnet ∈ command.candidates, Created past subnet) :
    scene.state.ipam.Referential ∧ ∀ network address,
      ∀ subnet ∈ scene.state.ipam.subnetsOf network,
      ∀ other ∈ scene.state.ipam.subnetsOf network,
        subnet.contains address = true → other.contains address = true → subnet = other := by
  have hinformed : Informed moves := by
    rintro past tag command rest rfl subnet hmem
    obtain ⟨_, hpast⟩ := run.of_prefix (List.prefix_append past _)
    have hcreated := hoffered past tag command rest rfl subnet hmem
    refine hpast.created_met hfirst (fun move hmove => ?_) hcreated
    exact hfresh move (List.mem_append_left _ hmove)
  obtain ⟨hfaithful, hcharted⟩ := run.charted hfirst hfresh
  have hreferential := (run.settled hfirst hfresh hinformed).refers hfaithful.sound
    hcharted.placed
  refine ⟨hreferential, fun network address subnet hs other ho ha ha' => ?_⟩
  obtain ⟨⟨id, hf⟩, hn⟩ := Ipam.mem_subnetsOf.1 hs
  obtain ⟨⟨id', hf'⟩, hn'⟩ := Ipam.mem_subnetsOf.1 ho
  obtain rfl := hreferential.apart hf hf' (hn.trans hn'.symm) ha ha'
  exact Option.some.inj (hf.symm.trans hf')

/-- A subnet is created, and an address allocated from it that its creator was answered. -/
def offer : List Move × Scene := sample.play (opening ++
  .start {} (.allocateAddress ⟨9⟩ subnet AllocatedIp.sample.address) :: Turn.moves 1 2)
where
  opening : List Turn := .start {} (.createSubnet .sample) :: Turn.moves 0 2
  subnet : Subnet := .sample

theorem offer_run : Run (fun _ _ => True) sample offer.1 offer.2 :=
  play_run fun turn _ => by cases turn <;> trivial

theorem offer_created : Created (sample.play offer.opening).1 offer.subnet := by
  refine created_of_reply (start_mem_play [] _ {} (.createSubnet .sample)) ?_
  decide +kernel

theorem offer_referential : offer.2.state.ipam.holder? .sample = some ⟨9⟩ ∧
    offer.2.state.ipam.Referential := by
  have hoffers : ∀ n, (hn : n < offer.1.length) →
      offer.1[n].offered = if n = 3 then [offer.subnet] else [] := by decide +kernel
  have hlength : (sample.play offer.opening).1.length = 3 := by decide +kernel
  refine ⟨by decide +kernel, (offer_run.referential sample_initial (by decide +kernel) ?_).1⟩
  intro past tag command rest heq subnet hmem
  have hn : past.length < offer.1.length := by simp [heq]
  have hmove : offer.1[past.length] = .start tag command := by simp [heq]
  have hoffered := hoffers past.length hn
  rw [hmove] at hoffered
  have hmem : subnet ∈ Move.offered (.start tag command) := hmem
  rw [hoffered] at hmem
  split at hmem
  · rename_i hthree
    obtain rfl := List.mem_singleton.1 hmem
    have hpast : past <+: offer.1 := ⟨_, heq.symm⟩
    have hopening : (sample.play offer.opening).1 <+: offer.1 := prefix_play _ _
    rw [List.prefix_iff_eq_take.1 hpast, hthree, ← hlength, ← List.prefix_iff_eq_take.1 hopening]
    exact offer_created
  · cases hmem

end Scene

end ControlPlane

import ControlPlane.Proofs.Ports.Uniqueness

/-! Networks and what refers to them. Who deletes a network looks for its ports, then for its
subnets, and removes it after that; nobody looks again. So ports and subnets outlive their network
just where a deletion was overtaken by who stored them. -/

namespace ControlPlane

open Tx

/-- A licensed call stores a network or removes one, or it stores a new subnet in a network that is
there or removes one. Else it changes neither networks nor subnets. -/
inductive Licence.Founds (licence : Licence) (before after : Ipam) : Prop
  | kept (networks : after.networks = before.networks) (subnets : after.subnets = before.subnets)
  | opened (network : Network) (networks : after.networks = before.networks.insert network.id network)
    (subnets : after.subnets = before.subnets)
  | closed (id : NetworkId) (hl : licence.drop id)
    (networks : after.networks = before.networks.erase id) (subnets : after.subnets = before.subnets)
  | laid (subnet : Subnet) (new : before.subnets.find? subnet.id = none)
    (home : before.networks.contains subnet.network = true)
    (networks : after.networks = before.networks)
    (subnets : after.subnets = before.subnets.insert subnet.id subnet)
  | cleared (id : SubnetId) (networks : after.networks = before.networks)
    (subnets : after.subnets = before.subnets.erase id)

/-- A port was stored and its network removed, both after the command that created the port had seen
the network, and the one that deleted the network had seen it without ports. -/
inductive Port.Stranded (moves : List Move) (id : PortId) (network : NetworkId) : Prop
  | intro (past rest : List Move) (gift removal : Move) (request : PortRequest)
    (split : moves = past ++ rest) (stored : gift ∈ rest) (removed : removal ∈ rest)
    (begins : gift.Begins fun state => state.ports.ports.contains id)
    (created : .start gift.tag (.createPort request) ∈ moves) (entered : Entered past gift.tag network)
    (ends : removal.Ends fun state => state.ipam.networks.contains network)
    (deleted : .start removal.tag (.deleteNetwork network) ∈ moves)
    (portless : Portless past removal.tag network)

/-- A subnet was stored between the listing of the subnets of its network by the command that deleted
the network, and the removal of the network. -/
inductive Subnet.Stranded (moves : List Move) (id : SubnetId) (network : NetworkId) : Prop
  | intro (past early mid late : List Move) (look gift removal : Move)
    (split : moves = past ++ look :: (early ++ gift :: (mid ++ removal :: late)))
    (begins : gift.Begins fun state => state.ipam.subnets.contains id)
    (ends : removal.Ends fun state => state.ipam.networks.contains network)
    (deleted : .start removal.tag (.deleteNetwork network) ∈ moves)
    (cleared : Cleared (past ++ look :: (early ++ gift :: mid)) removal.tag network past look)

/-- Who stored the ports and subnets that are there, and who removed the networks that are not. -/
structure Homed (moves : List Move) (state : State) : Prop where
  port : ∀ ⦃id port⦄, state.ports.ports.find? id = some port → ∃ early gift late request,
    Since (fun state => (state.ports.ports.find? id).map Port.network) (some port.network) moves
      early gift late ∧
    gift.Begins (fun state => state.ports.ports.contains id) ∧
    .start gift.tag (.createPort request) ∈ early ∧ Entered early gift.tag port.network
  subnet : ∀ ⦃id subnet⦄, state.ipam.subnets.find? id = some subnet → ∃ early gift late home,
    Since (fun state => state.ipam.subnets.find? id) (some subnet) moves early gift late ∧
    gift.Begins (fun state => state.ipam.subnets.contains id) ∧
    gift.after? = some home ∧ home.ipam.networks.contains subnet.network = true
  network : ∀ id, Tracks (fun state => state.ipam.networks.contains id)
    (fun past tag => (licence past tag).drop id) moves state

/-- What a transaction does to networks and subnets. -/
def Tx.Founds (licence : Licence) {α : Type} (tx : Tx Ipam α) : Prop :=
  ∀ ipam, tx.Ensures (fun tables _ => tables = ipam) (fun _ tables _ => licence.Founds ipam tables)
    fun _ => True

section Calls

variable {licence : Licence} {setup : Setup} {α : Type} {tx : Tx Ipam α} {c : Call α}
  {before after : State} {answer : α}

theorem Licence.Founds.of_eq {first kept ipam : Ipam} (h : licence.Founds first kept)
    (hn : ipam.networks = kept.networks) (hs : ipam.subnets = kept.subnets) :
    licence.Founds first ipam := by
  cases h with
  | kept networks subnets => exact .kept (hn.trans networks) (hs.trans subnets)
  | opened network networks subnets => exact .opened network (hn.trans networks) (hs.trans subnets)
  | closed id hl networks subnets => exact .closed id hl (hn.trans networks) (hs.trans subnets)
  | laid subnet new home networks subnets =>
    exact .laid subnet new home (hn.trans networks) (hs.trans subnets)
  | cleared id networks subnets => exact .cleared id (hn.trans networks) (hs.trans subnets)

theorem Tx.Spares.founds (h : tx.Spares Ipam.grounds) : tx.Founds licence := by
  intro ipam
  refine (h ipam.grounds).weaken (fun _ _ _ heq => heq ▸ rfl) (fun _ tables _ _ heq => ?_) fun _ h => h
  exact .kept (congrArg Ipam.networks heq :) (congrArg Ipam.subnets heq :)

theorem Network.createTx_founds (network : Network) : (createTx network).Founds licence := by
  intro ipam
  refine ensures_modify_bind (ensures_pure ?_)
  rintro _ _ ⟨_, rfl, rfl⟩
  exact .opened network rfl rfl

theorem Network.deleteTx_founds {id : NetworkId} (hl : licence.drop id) :
    (deleteTx id).Founds licence := by
  intro ipam
  refine ensures_get_bind fun seen => ensures_guard (fun _ _ _ _ => trivial) fun _ => ?_
  refine ensures_modify_bind (ensures_pure ?_)
  rintro _ _ ⟨_, ⟨rfl, rfl⟩, rfl⟩
  exact .closed id hl rfl rfl

theorem Subnet.deleteTx_founds (id : SubnetId) : (deleteTx id).Founds licence := by
  intro ipam
  refine ensures_get_bind fun seen => ?_
  refine ensures_guard (fun _ _ _ _ => trivial) fun _ => ?_
  refine ensures_guard (fun _ _ _ _ => trivial) fun _ => ?_
  refine ensures_modify_bind (ensures_pure ?_)
  rintro _ _ ⟨_, ⟨rfl, rfl⟩, rfl⟩
  exact .cleared id rfl rfl

/-- A subnet is stored in the transaction that has seen its network. -/
theorem Subnet.createTx_founds (request : SubnetRequest) (cidr : Ip.Cidr)
    (gateway : Option Ip.Address) (bounds : List Ip.Span) :
    (createTx request cidr gateway bounds).Founds licence := by
  intro ipam
  refine ensures_get_bind fun seen => ensures_guard (fun _ _ _ _ => trivial) fun hhome => ?_
  rw [Bool.not_eq_true, Bool.not_eq_false'] at hhome
  split
  · exact ensures_throw_bind fun _ _ _ => trivial
  refine ensures_ident_bind fun id => ?_
  extract_lets subnet
  refine ensures_change_bind (fun _ _ _ _ _ => trivial) ?_
  have hpools : (bounds.mapM (addPool subnet.id)).Spares Ipam.unpooled :=
    spares_mapM fun span => addPool_spares subnet.id span
  refine ((hpools.keeps fun part => licence.Founds ipam part).of_pre ?_).bind fun _ =>
    ensures_pure fun _ _ h => h.of_eq rfl rfl
  rintro kept later _ ⟨_, ⟨_, ⟨rfl, rfl⟩, _⟩, hf⟩
  obtain ⟨hnew, rfl⟩ := Ipam.insertSubnet_eq hf
  exact .laid subnet hnew hhome rfl rfl

def Call.Founds (licence : Licence) : {α : Type} → Call α → Prop
  | _, .ipam tx => tx.Founds licence
  | _, _ => True

theorem Call.Made.founds (hm : c.Made setup licence) : c.Founds licence := by
  cases hm with
  | readIpam f => exact (spares_get.bind fun _ => spares_pure _ : Tx.Spares Ipam.grounds _).founds
  | createNetwork network => exact Network.createTx_founds network
  | deleteNetwork id hl => exact Network.deleteTx_founds hl
  | createSubnet => exact Subnet.createTx_founds _ _ _ _
  | deleteSubnet id => exact Subnet.deleteTx_founds id
  | generate port network candidates =>
    exact (Allocation.generateTx_spares port network candidates).founds
  | rebuild id => exact (Allocation.rebuildTx_spares id).grounds.founds
  | allocate port subnet address =>
    exact (Allocation.allocateTx_spares port subnet address).founds
  | release ip => exact (Allocation.releaseTx_spares _ ip).founds
  | _ => trivial

theorem Call.Founds.result (h : c.Founds licence) (hr : c.Result before answer after)
    (hd : after.supply.Distinct) : licence.Founds before.ipam after.ipam := by
  have hkept : licence.Founds before.ipam before.ipam := .kept rfl rfl
  cases c with
  | ipam tx =>
    have hfounds : tx.Founds licence := h
    exact State.runIpam_keeps (hfounds before.ipam) hr hd rfl hkept
  | ports tx =>
    obtain ⟨_, hr⟩ := hr
    exact (State.runReviewed_cases hr).1 ▸ hkept
  | _ =>
    cases hr
    exact hkept

end Calls

variable {moves early late : List Move} {before after : State} {setup : Setup} {tag : Nat}
  {α : Type} {c : Call α} {answer : α} {id : PortId} {port : Port} {subnet : Subnet} {gift : Move}

/-- A port that is stored after a call was stored before it, or the command that creates it stores it
now, in a network that it has seen. -/
theorem Faithful.port_origin {eager : Prop} (h : Faithful eager moves before)
    (hm : c.Made setup (licence moves tag)) (hr : c.Result before answer after)
    (hd : after.supply.Distinct) (hp : after.ports.ports.find? id = some port) :
    (∃ former, before.ports.ports.find? id = some former ∧ port.network = former.network) ∨
      before.ports.ports.find? id = none ∧ Entered moves tag port.network ∧
        ∃ request, .start tag (.createPort request) ∈ moves := by
  cases (hm.abides False.elim).ports hr hd h.keyed with
  | evolves he _ =>
    obtain ⟨former, hformer, hc⟩ := he.ports hp
    exact .inl ⟨former, hformer, hc.network⟩
  | inserted asked new binding hl hnew hsave =>
    obtain ⟨hdrew, hidle, request, _, hasked, hentered⟩ := hl
    obtain ⟨mac, rfl, _⟩ := hnew
    rw [(Ports.saveBinding_eq hsave).2] at hp
    simp only [Ports.savePort, Table.find?_insert] at hp
    split at hp
    · cases hp
      subst id
      exact .inr ⟨h.find?_eq_none hdrew hidle, hentered, request, hasked⟩
    · exact .inl ⟨port, hp, rfl⟩

theorem Ports.mem_portsOf {store : Ports} {network : NetworkId} : port ∈ store.portsOf network ↔
    (∃ id, store.ports.find? id = some port) ∧ port.network = network := by
  simp [portsOf, Table.mem_values]

namespace Homed

theorem idle {state : State} {move : Move} (h : Homed moves state) (hafter : move.after? = none) :
    Homed (moves ++ [move]) state := by
  constructor
  · intro id port hp
    obtain ⟨early, gift, late, request, hsince, hrest⟩ := h.port hp
    exact ⟨early, gift, late ++ [move], request, hsince.idle hafter, hrest⟩
  · intro id subnet hs
    obtain ⟨early, gift, late, home, hsince, hrest⟩ := h.subnet hs
    exact ⟨early, gift, late ++ [move], home, hsince.idle hafter, hrest⟩
  · exact fun id => (h.network id).idle hafter

theorem call {eager : Prop} (h : Homed moves before) (hf : Faithful eager moves before)
    (hm : c.Made setup (licence moves tag)) (hr : c.Result before answer after)
    (hd : after.supply.Distinct) : Homed (moves ++ [.call tag c before answer after]) after := by
  have hfounds := hm.founds.result hr hd
  constructor
  · intro id port hp
    rcases hf.port_origin hm hr hd hp with ⟨former, hformer, hn⟩ | ⟨hnone, hentered, request, hasked⟩
    · obtain ⟨early, gift, late, request, hsince, hrest⟩ := h.port hformer
      rw [← hn] at hsince hrest
      refine ⟨early, gift, late ++ [_], request, hsince.snoc ?_, hrest⟩
      rintro _ ⟨⟩
      simp [hp]
    · refine ⟨moves, _, [], request, .of_call ?_, ⟨?_, ?_⟩, hasked, hentered⟩
      · simp [hp]
      · simp [Table.contains, hnone]
      · simp [Table.contains, hp]
  · intro id subnet hs
    have hold (hstored : before.ipam.subnets.find? id = some subnet) :
        ∃ early gift late home, Since (fun state => state.ipam.subnets.find? id) (some subnet)
          (moves ++ [.call tag c before answer after]) early gift late ∧
        gift.Begins (fun state => state.ipam.subnets.contains id) ∧
        gift.after? = some home ∧ home.ipam.networks.contains subnet.network = true := by
      obtain ⟨early, gift, late, home, hsince, hrest⟩ := h.subnet hstored
      refine ⟨early, gift, late ++ [_], home, hsince.snoc ?_, hrest⟩
      rintro _ ⟨⟩
      exact hs
    cases hfounds with
    | kept _ subnets => exact hold (subnets ▸ hs)
    | opened _ _ subnets => exact hold (subnets ▸ hs)
    | closed _ _ _ subnets => exact hold (subnets ▸ hs)
    | laid new hnew hhome networks subnets =>
      have hs' := hs
      rw [subnets, Table.find?_insert] at hs'
      split at hs'
      · cases hs'
        subst id
        refine ⟨moves, _, [], after, .of_call hs, ⟨?_, ?_⟩, rfl, networks ▸ hhome⟩
        · simp [Table.contains, hnew]
        · simp [Table.contains, hs]
      · exact hold hs'
    | cleared _ _ subnets =>
      have hs' := hs
      rw [subnets, Table.find?_erase] at hs'
      split at hs'
      · cases hs'
      · exact hold hs'
  · intro id
    apply (h.network id).call
    intro hstored
    cases hfounds with
    | kept networks => exact .inl (networks ▸ hstored)
    | opened network networks =>
      left
      simp only [networks, Table.contains_iff, Table.find?_insert] at hstored ⊢
      split
      · exact ⟨network, rfl⟩
      · exact hstored
    | closed closed hl networks =>
      simp only [networks, Table.contains_iff, Table.find?_erase] at hstored ⊢
      by_cases heq : id = closed
      · exact .inr (heq ▸ hl)
      · rw [if_neg heq]
        exact .inl hstored
    | laid _ _ _ networks => exact .inl (networks ▸ hstored)
    | cleared _ networks => exact .inl (networks ▸ hstored)

/-- A stored port whose network is gone was stored, and the network removed, after both commands had
seen what they went by. -/
theorem port_stranded {state : State} (h : Homed moves state)
    (hp : state.ports.ports.find? id = some port)
    (hgone : state.ipam.networks.contains port.network = false) :
    Port.Stranded moves id port.network := by
  obtain ⟨early, gift, late, request, hsince, hbegins, hasked, hentered⟩ := h.port hp
  have hmoves := hsince.split
  have hcreated : .start gift.tag (.createPort request) ∈ moves := by
    rw [hmoves]
    exact List.mem_append_left _ hasked
  have ⟨home, ⟨sight, hsight, htag, hsees, hafter⟩, hstored⟩ := hentered
  obtain ⟨front, back, hsplit⟩ := List.append_of_mem hsight
  have hmoves' : moves = front ++ sight :: (back ++ gift :: late) := by simp [hmoves, hsplit]
  obtain ⟨mid, removal, rest, hrest, hends, hdeleted, hportless, _⟩ :=
    h.network port.network hmoves' hafter hstored hgone
  have hsplit : moves = (front ++ sight :: mid) ++ removal :: rest := by simp [hmoves', hrest]
  have hdeleted : .start removal.tag (.deleteNetwork port.network) ∈ moves := by
    rw [hsplit]
    exact List.mem_append_left _ hdeleted
  have hentered' : Entered (front ++ sight :: mid) gift.tag port.network :=
    ⟨home, ⟨sight, by simp, htag, hsees, hafter⟩, hstored⟩
  rcases List.append_eq_append_iff.1 (hmoves.symm.trans hsplit) with
    ⟨between, hfront, hlate⟩ | ⟨between, hearly, hrest⟩
  · -- The deletion looked for ports before the port was stored, as it would have found that.
    rw [hfront] at hportless
    obtain ⟨seen, ⟨look, hlook, htag, hsees, hafter⟩, hnone⟩ := hportless
    have hearly : look ∈ early := by
      refine (List.mem_append.1 hlook).resolve_right fun hbetween => ?_
      have hstill := hsince.holds look (hlate ▸ List.mem_append_left _ hbetween) seen hafter
      obtain ⟨found, hfound, hnetwork⟩ := Option.map_eq_some_iff.1 hstill
      exact List.not_mem_nil (hnone ▸ Ports.mem_portsOf.2 ⟨⟨id, hfound⟩, hnetwork⟩)
    exact .intro _ _ gift removal request hmoves List.mem_cons_self (by simp [hlate]) hbegins hcreated
      hentered hends hdeleted ⟨seen, ⟨look, hearly, htag, hsees, hafter⟩, hnone⟩
  · exact .intro _ _ gift removal request hsplit (by simp [hrest]) List.mem_cons_self hbegins hcreated
      hentered' hends hdeleted hportless

/-- A stored subnet whose network is gone was not there yet when its network was surveyed. -/
theorem subnet_stranded {state : State} {id : SubnetId} (h : Homed moves state)
    (hf : state.ipam.subnets.find? id = some subnet) (hid : subnet.id = id)
    (hgone : state.ipam.networks.contains subnet.network = false) :
    Subnet.Stranded moves id subnet.network := by
  obtain ⟨early, gift, late, home, hsince, hbegins, hafter, hstored⟩ := h.subnet hf
  obtain ⟨mid, removal, rest, rfl, hends, hdeleted, _, past, look, hcleared⟩ :=
    h.network subnet.network hsince.split hafter hstored hgone
  have hsplit : moves = (early ++ gift :: mid) ++ removal :: rest := by simp [hsince.split]
  have hasked : .start removal.tag (.deleteNetwork subnet.network) ∈ moves := by
    rw [hsplit]
    exact List.mem_append_left _ hdeleted
  have ⟨others, listed, hothers, _, _, hlooked, hcleared'⟩ := hcleared
  have hstill {move : Move} {state : State} (hmove : move ∈ gift :: mid)
      (hafter : move.after? = some state) : state.ipam.subnets.find? id = some subnet := by
    refine hsince.holds move ?_ state hafter
    rw [← List.cons_append]
    exact List.mem_append_left _ hmove
  rcases split_cases hothers with ⟨between, rfl, _⟩ | hlate
  · refine .intro past between mid rest look gift removal ?_ hbegins hends hasked ?_
    · simp [hsplit]
    · simpa using hcleared
  · -- It would have been listed, and then it would have been gone before the network was removed.
    have hlisted : listed.ipam.subnets.find? id = some subnet :=
      hstill (hlate look List.mem_cons_self) hlooked
    obtain ⟨state, ⟨move, hmove, _, _, hafter⟩, hnone⟩ :=
      hcleared' subnet (Ipam.mem_subnetsOf.2 ⟨⟨id, hlisted⟩, rfl⟩)
    have hstored := hstill (hlate move (List.mem_cons_of_mem _ hmove)) hafter
    rw [hid, hstored] at hnone
    cases hnone

end Homed

namespace Scene

variable {allowed : Setup → Command → Prop} {first scene : Scene}

theorem Run.homed (run : Run allowed first moves scene) (hfirst : first.Initial)
    (hfresh : ∀ move ∈ moves, move.Fresh) :
    Faithful False moves scene.state ∧ Homed moves scene.state := by
  have hinit : Homed [] first.state := by
    obtain ⟨networks, hipam⟩ := hfirst.ipam
    have hsubnets : first.state.ipam.subnets = .empty := by
      rw [hipam]
      exact Ipam.part_networks (fun _ _ => rfl) networks {}
    constructor
    · intro id port hp
      rw [hfirst.ports] at hp
      cases hp
    · intro id subnet hs
      rw [hsubnets] at hs
      cases hs
    · exact fun _ => .nil
  refine run.induct (fun moves state => Homed moves state) hfirst hfresh nofun hinit ?_ ?_ ?_
  · exact fun _ _ _ _ _ _ h => h.idle rfl
  · exact fun _ _ _ _ _ _ _ _ _ _ hf hm hr hd h => h.call hf hm hr hd
  · exact fun _ _ _ _ _ h => h.idle rfl

/-- In every scene of every run, the network of each port and of each subnet is stored, unless it was
deleted by a command that looked for what refers to it before that was stored. -/
theorem Run.networks_outlive (run : Run allowed first moves scene) (hfirst : first.Initial)
    (hfresh : ∀ move ∈ moves, move.Fresh) :
    (∀ id port, scene.state.ports.ports.find? id = some port →
      (∃ network, scene.state.ipam.networks.find? port.network = some network) ∨
        Port.Stranded moves id port.network) ∧
    ∀ id subnet, scene.state.ipam.subnets.find? id = some subnet →
      (∃ network, scene.state.ipam.networks.find? subnet.network = some network) ∨
        Subnet.Stranded moves id subnet.network := by
  obtain ⟨hfaithful, hhomed⟩ := run.homed hfirst hfresh
  have hcases (id : NetworkId) : (∃ network, scene.state.ipam.networks.find? id = some network) ∨
      scene.state.ipam.networks.contains id = false := by
    rw [← Table.contains_iff, ← Bool.not_eq_true]
    exact Classical.em _
  constructor
  · intro id port hp
    exact (hcases port.network).imp_right fun hgone => hhomed.port_stranded hp hgone
  · intro id subnet hs
    have hid := hfaithful.orderly.subnet hs
    exact (hcases subnet.network).imp_right fun hgone => hhomed.subnet_stranded hs hid hgone

/-- While one command is between two of its calls, another runs to its end. -/
def overtaking (slow fast : Command) : List Move × Scene := sample.play (
  .start {} slow :: Turn.moves 0 3 ++ .start {} fast :: Turn.moves 1 8 ++ Turn.moves 0 8)

theorem overtaking_run (slow fast : Command) : Run (fun _ command => command = slow ∨ command = fast)
    sample (overtaking slow fast).1 (overtaking slow fast).2 := by
  apply play_run
  intro turn hturn
  simp only [Turn.moves, List.mem_append, List.mem_cons, List.mem_replicate] at hturn
  rcases hturn with ((rfl | ⟨_, rfl⟩) | rfl | ⟨_, rfl⟩) | ⟨_, rfl⟩
  · exact .inl rfl
  · trivial
  · exact .inr rfl
  · trivial
  · trivial

/-- A network is deleted after it was found for a new port. -/
def desertion : List Move × Scene :=
  overtaking (.createPort { network := ⟨7⟩, fixedIps := some [] }) (.deleteNetwork ⟨7⟩)

/-- A subnet is created after those of its network were listed to be deleted with it. -/
def settlement : List Move × Scene := overtaking (.deleteNetwork ⟨7⟩) (.createSubnet .sample)

theorem desertion_rests : (∀ move ∈ desertion.1, move.Fresh) ∧ desertion.2.running = [] ∧
    desertion.2.state.ipam.networks.find? ⟨7⟩ = none ∧
    ∃ port ∈ desertion.2.state.ports.ports.find? ⟨0⟩, port.network = ⟨7⟩ :=
  ⟨by decide +kernel, List.isEmpty_iff.1 (by decide +kernel),
    Option.isNone_iff_eq_none.1 (by decide +kernel), by decide +kernel⟩

theorem settlement_rests : (∀ move ∈ settlement.1, move.Fresh) ∧ settlement.2.running = [] ∧
    settlement.2.state.ipam.networks.find? ⟨7⟩ = none ∧
    ∃ subnet ∈ settlement.2.state.ipam.subnets.find? ⟨0⟩, subnet.network = ⟨7⟩ :=
  ⟨by decide +kernel, List.isEmpty_iff.1 (by decide +kernel),
    Option.isNone_iff_eq_none.1 (by decide +kernel), by decide +kernel⟩

theorem overtaken_stranded :
    Port.Stranded desertion.1 ⟨0⟩ ⟨7⟩ ∧ Subnet.Stranded settlement.1 ⟨0⟩ ⟨7⟩ := by
  constructor
  · obtain ⟨hfresh, _, hgone, port, hport, hnetwork⟩ := desertion_rests
    have hrun : Run _ sample desertion.1 desertion.2 := overtaking_run _ _
    have h := (hrun.networks_outlive sample_initial hfresh).1 _ port hport
    rw [hnetwork, hgone] at h
    exact h.resolve_left nofun
  · obtain ⟨hfresh, _, hgone, subnet, hsubnet, hnetwork⟩ := settlement_rests
    have hrun : Run _ sample settlement.1 settlement.2 := overtaking_run _ _
    have h := (hrun.networks_outlive sample_initial hfresh).2 _ subnet hsubnet
    rw [hnetwork, hgone] at h
    exact h.resolve_left nofun

/-- Neither the networks of ports nor those of subnets are always stored once nothing runs. -/
theorem not_networks_stored :
    (¬ ∀ (allowed : Setup → Command → Prop) (first scene : Scene) (moves : List Move) (id : PortId)
      (port : Port), Run allowed first moves scene → first.Initial → (∀ move ∈ moves, move.Fresh) →
      (∀ setup command, allowed setup command → (∃ request, command = .createPort request) ∨
        ∃ id, command = .deleteNetwork id) →
      scene.running = [] → scene.state.ports.ports.find? id = some port →
      ∃ network, scene.state.ipam.networks.find? port.network = some network) ∧
    ¬ ∀ (allowed : Setup → Command → Prop) (first scene : Scene) (moves : List Move) (id : SubnetId)
      (subnet : Subnet), Run allowed first moves scene → first.Initial →
      (∀ move ∈ moves, move.Fresh) →
      (∀ setup command, allowed setup command → (∃ request, command = .createSubnet request) ∨
        ∃ id, command = .deleteNetwork id) →
      scene.running = [] → scene.state.ipam.subnets.find? id = some subnet →
      ∃ network, scene.state.ipam.networks.find? subnet.network = some network := by
  constructor
  · intro h
    obtain ⟨hfresh, hrunning, hgone, port, hport, hnetwork⟩ := desertion_rests
    have hrun : Run _ sample desertion.1 desertion.2 := overtaking_run _ _
    obtain ⟨network, hstored⟩ := h _ _ _ _ _ port hrun sample_initial hfresh
      (fun _ _ hasked => hasked.imp (⟨_, ·⟩) (⟨_, ·⟩)) hrunning hport
    rw [hnetwork, hgone] at hstored
    cases hstored
  · intro h
    obtain ⟨hfresh, hrunning, hgone, subnet, hsubnet, hnetwork⟩ := settlement_rests
    have hrun : Run _ sample settlement.1 settlement.2 := overtaking_run _ _
    obtain ⟨network, hstored⟩ := h _ _ _ _ _ subnet hrun sample_initial hfresh
      (fun _ _ hasked => hasked.symm.imp (⟨_, ·⟩) (⟨_, ·⟩)) hrunning hsubnet
    rw [hnetwork, hgone] at hstored
    cases hstored

end Scene

end ControlPlane

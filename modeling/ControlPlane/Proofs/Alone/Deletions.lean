import ControlPlane.Proofs.Faithful
import ControlPlane.Proofs.Ranges.Frames
import ControlPlane.Proofs.Schedules

/-! Deleting a network, with nothing in between. Its subnets go one by one, and one in which an
address is allocated is found only when those listed before it are gone. -/

namespace ControlPlane

/-- Removes some subnets with all that is theirs. -/
def Ipam.eraseSubnets (ipam : Ipam) (subnets : List Subnet) : Ipam :=
  subnets.foldl (fun ipam subnet => ipam.eraseSubnet subnet.id) ipam

/-- A subnet has kept its row, its pools and their free ranges. -/
structure Ipam.SameSubnet (before : Ipam) (id : SubnetId) (after : Ipam) : Prop where
  row : after.subnets.find? id = before.subnets.find? id
  pools : after.poolsOf id = before.poolsOf id
  ranges : after.rangesOf id = before.rangesOf id

/-- A subnet in which an address is allocated, while none is in those that are listed before it. -/
structure Ipam.FirstHeld (ipam : Ipam) (subnets front : List Subnet) (subnet : Subnet) : Prop where
  listed : front ++ [subnet] <+: subnets
  vacant : ∀ other ∈ front, ipam.allocationsOf other.id = []
  held : ipam.allocationsOf subnet.id ≠ []

/-- Why a subnet is not deleted whose addresses are in use. -/
def Ipam.heldError (ipam : Ipam) (id : SubnetId) : Error :=
  .inUse s!"Subnet {id} has {Text.decimal (ipam.allocationsOf id).length} allocated addresses"

/-- What deleting some subnets comes to: all are gone, or those before the first that is held. -/
inductive Subnet.Deletes (state : State) (subnets : List Subnet) : Except Error Unit → State → Prop
  | all (vacant : ∀ subnet ∈ subnets, state.ipam.allocationsOf subnet.id = []) :
    Deletes state subnets (.ok ()) { state with ipam := state.ipam.eraseSubnets subnets }
  | held {front : List Subnet} {subnet : Subnet}
    (first : state.ipam.FirstHeld subnets front subnet) :
    Deletes state subnets (.error (state.ipam.heldError subnet.id))
      { state with ipam := state.ipam.eraseSubnets front }

/-- Why a network is not deleted, and the state that is left. -/
inductive Network.Refuses (state : State) (id : NetworkId) : Error → State → Prop
  | missing (absent : state.ipam.networks.find? id = none) :
    Refuses state id (Network.missing id) state
  | occupied {network : Network} (stored : state.ipam.networks.find? id = some network)
    (ports : state.ports.portsOf id ≠ []) :
    Refuses state id
      (.inUse s!"Network {id} has {Text.decimal (state.ports.portsOf id).length} ports") state
  | held {network : Network} {front : List Subnet} {subnet : Subnet}
    (stored : state.ipam.networks.find? id = some network) (ports : state.ports.portsOf id = [])
    (first : state.ipam.FirstHeld (state.ipam.subnetsOf id) front subnet) :
    Refuses state id (state.ipam.heldError subnet.id)
      { state with ipam := state.ipam.eraseSubnets front }

section EraseSubnets

variable {eager : Prop} {ipam : Ipam} {supply : Supply} {id other : SubnetId} {subnet : Subnet}
  {subnets : List Subnet}

@[simp] theorem Ipam.eraseSubnets_nil : ipam.eraseSubnets [] = ipam := rfl

@[simp] theorem Ipam.eraseSubnets_cons :
    ipam.eraseSubnets (subnet :: subnets) = (ipam.eraseSubnet subnet.id).eraseSubnets subnets := rfl

/-- A subnet without allocations takes none with it. -/
theorem Ipam.Sound.eraseSubnet_allocations (h : ipam.Sound eager supply)
    (hnone : ipam.allocationsOf id = []) :
    (ipam.eraseSubnet id).allocations = ipam.allocations := by
  refine Table.eq_of_find? fun key => ?_
  simp only [Ipam.eraseSubnet, Table.find?_filter]
  cases hfound : ipam.allocations.find? key with
  | none => rfl
  | some allocation =>
    have hkey := (h.allocation hfound).1
    have hmem := List.filter_eq_nil_iff.1 hnone allocation (Table.mem_values.2 ⟨key, hfound⟩)
    have hne : key.1 ≠ id := by simpa [hkey] using hmem
    simp [hne]

theorem Ipam.eraseSubnet_poolsOf (hne : other ≠ id) :
    (ipam.eraseSubnet id).poolsOf other = ipam.poolsOf other := by
  simp only [Ipam.poolsOf, Ipam.eraseSubnet, Table.values_filter, List.filter_filter]
  congr 1
  refine List.filter_congr fun pool _ => ?_
  by_cases hother : pool.subnet = other
  · simp [hother, hne]
  · simp [hother]

theorem Ipam.Sound.eraseSubnet_rangesOf (h : ipam.Sound eager supply) (hne : other ≠ id) :
    (ipam.eraseSubnet id).rangesOf other = ipam.rangesOf other := by
  have hholds (p : PoolId) :
      (ipam.eraseSubnet id).holdsPool other p = ipam.holdsPool other p := by
    rw [Bool.eq_iff_iff, Laid.holdsPool_iff (h.eraseSubnet id).laid, Laid.holdsPool_iff h.laid]
    refine exists_congr fun pool => and_congr_left fun hpool => ?_
    simp [Ipam.eraseSubnet, Table.find?_filter, Option.filter_eq_some_iff, hpool, hne]
  have hexclusive (p : PoolId) (hp : ipam.holdsPool other p = true) :
      ipam.holdsPool id p = false := by
    obtain ⟨pool, hfound, rfl⟩ := (Laid.holdsPool_iff h.laid).1 hp
    rw [← Bool.not_eq_true, Laid.holdsPool_iff h.laid]
    simpa [hfound] using hne
  simp only [Ipam.rangesOf, hholds]
  simp only [Ipam.eraseSubnet, Table.values_filter, List.filter_filter]
  congr 1
  refine List.filter_congr fun range _ => ?_
  by_cases hp : ipam.holdsPool other range.pool = true
  · simp [hp, hexclusive _ hp]
  · simp [hp]

theorem Ipam.Sound.eraseSubnets_frame (h : ipam.Sound eager supply)
    (hvacant : ∀ subnet ∈ subnets, ipam.allocationsOf subnet.id = []) :
    (ipam.eraseSubnets subnets).networks = ipam.networks ∧
      (ipam.eraseSubnets subnets).allocations = ipam.allocations ∧
      ∀ id, (∀ subnet ∈ subnets, subnet.id ≠ id) →
        ipam.SameSubnet id (ipam.eraseSubnets subnets) := by
  induction subnets generalizing ipam with
  | nil => exact ⟨rfl, rfl, fun _ _ => ⟨rfl, rfl, rfl⟩⟩
  | cons subnet rest ih =>
    obtain ⟨hhead, hrest⟩ := List.forall_mem_cons.1 hvacant
    have hallocations := h.eraseSubnet_allocations hhead
    have hrest : ∀ other ∈ rest, (ipam.eraseSubnet subnet.id).allocationsOf other.id = [] := by
      simpa [Ipam.allocationsOf, hallocations] using hrest
    obtain ⟨hnetworks, hkept, hsame⟩ := ih (h.eraseSubnet subnet.id) hrest
    refine ⟨hnetworks, hkept.trans hallocations, fun id hid => ?_⟩
    obtain ⟨hne, hid⟩ := List.forall_mem_cons.1 hid
    have hsame := hsame id hid
    refine ⟨hsame.row.trans ?_, hsame.pools.trans (eraseSubnet_poolsOf hne.symm),
      hsame.ranges.trans (h.eraseSubnet_rangesOf hne.symm)⟩
    simp [Ipam.eraseSubnet, Table.find?_erase, hne.symm]

end EraseSubnets

namespace Subnet

variable {state last : State} {id : SubnetId} {subnet : Subnet} {subnets : List Subnet}
  {result : Except Error Unit}

theorem fetch_alone {answer : Except Error Subnet}
    (h : state.ipam.subnets.find? id = some subnet) :
    (fetch id).run.Alone state answer last ↔ answer = .ok subnet ∧ last = state := by
  refine (Operation.alone_bind_of fun _ _ => Operation.alone_readIpam).trans ?_
  rw [h]
  exact Program.alone_done

theorem deleteTx_result (h : state.ipam.subnets.find? id = some subnet) :
    state.runIpam (deleteTx id) =
      if state.ipam.allocationsOf id = [] then
        (.ok (), { state with ipam := state.ipam.eraseSubnet id })
      else (.error (state.ipam.heldError id), state) := by
  have hstored : state.ipam.subnets.contains id = true := Table.contains_iff.2 ⟨subnet, h⟩
  have hattempt : (deleteTx id).attempt state.ipam state.supply =
      if state.ipam.allocationsOf id = [] then
        (.ok (.commit (), state.ipam.eraseSubnet id), state.supply)
      else (.error (state.ipam.heldError id), state.supply) := by
    unfold deleteTx
    rw [Tx.attempt_get_bind]
    simp only [hstored, Bool.not_true]
    by_cases hnone : state.ipam.allocationsOf id = []
    · simp [hnone]
      rfl
    · simp [hnone]
      rfl
  unfold State.runIpam
  rw [hattempt]
  by_cases hnone : state.ipam.allocationsOf id = []
  · simp [hnone]
  · simp [hnone]

theorem delete_alone (h : state.ipam.subnets.find? id = some subnet) :
    (delete id).run.Alone state result last ↔
      if state.ipam.allocationsOf id = [] then
        result = .ok () ∧ last = { state with ipam := state.ipam.eraseSubnet id }
      else result = .error (state.ipam.heldError id) ∧ last = state := by
  refine (Operation.alone_bind_of fun _ _ => fetch_alone h).trans ?_
  rw [Operation.alone_ipam, deleteTx_result h]
  split <;> rw [Prod.mk.injEq]

/-- What deleting the rest comes to once a subnet without allocations is gone. -/
theorem deletes_cons {eager : Prop} (hsound : state.ipam.Sound eager state.supply)
    (hnone : state.ipam.allocationsOf subnet.id = []) :
    Deletes state (subnet :: subnets) result last ↔
      Deletes { state with ipam := state.ipam.eraseSubnet subnet.id } subnets result last := by
  have hallocations := hsound.eraseSubnet_allocations hnone
  have hof (other : SubnetId) : (state.ipam.eraseSubnet subnet.id).allocationsOf other =
      state.ipam.allocationsOf other := by
    simp only [Ipam.allocationsOf, hallocations]
  have herror (other : SubnetId) : (state.ipam.eraseSubnet subnet.id).heldError other =
      state.ipam.heldError other := by
    simp only [Ipam.heldError, hof]
  constructor
  · intro h
    cases h with
    | all hvacant =>
      refine .all fun other hmem => ?_
      simpa [hof] using hvacant other (List.mem_cons_of_mem _ hmem)
    | @held front other hfirst =>
      have hlisted := hfirst.listed
      cases front with
      | nil =>
        obtain ⟨rfl, _⟩ := List.cons_prefix_cons.1 hlisted
        exact absurd hnone hfirst.held
      | cons head front =>
        obtain ⟨rfl, htail⟩ := List.cons_prefix_cons.1 hlisted
        have hvacant := (List.forall_mem_cons.1 hfirst.vacant).2
        rw [← herror]
        have hheld : (state.ipam.eraseSubnet head.id).allocationsOf other.id ≠ [] := by
          simpa [hof] using hfirst.held
        exact .held ⟨htail, by simpa [hof] using hvacant, hheld⟩
  · intro h
    cases h with
    | all hvacant =>
      exact .all (List.forall_mem_cons.2 ⟨hnone, by simpa [hof] using hvacant⟩)
    | @held front other hfirst =>
      have hvacant : ∀ other ∈ front, state.ipam.allocationsOf other.id = [] := by
        simpa [hof] using hfirst.vacant
      have h : Deletes state (subnet :: subnets) (.error (state.ipam.heldError other.id)) _ :=
        .held ⟨List.cons_prefix_cons.2 ⟨rfl, hfirst.listed⟩,
          List.forall_mem_cons.2 ⟨hnone, hvacant⟩, by simpa [hof] using hfirst.held⟩
      simpa [herror] using h

/-- Whoever deletes subnets that are stored stops at the first that is held. -/
theorem deletes_alone {eager : Prop} (hsound : state.ipam.Sound eager state.supply)
    (hstored : ∀ subnet ∈ subnets, state.ipam.subnets.find? subnet.id = some subnet)
    (hdistinct : subnets.Pairwise fun a b => a.id ≠ b.id) :
    (subnets.forM fun subnet => delete subnet.id).run.Alone state result last ↔
      Deletes state subnets result last := by
  induction subnets generalizing state with
  | nil =>
    refine Program.alone_done.trans ⟨?_, fun h => ?_⟩
    · rintro ⟨rfl, rfl⟩
      exact .all nofun
    · cases h with
      | all _ => exact ⟨rfl, rfl⟩
      | held hfirst => simpa using hfirst.listed
  | cons subnet rest ih =>
    obtain ⟨hhead, hrest⟩ := List.forall_mem_cons.1 hstored
    obtain ⟨hne, hdistinct⟩ := List.pairwise_cons.1 hdistinct
    have hone (answer : Except Error Unit) (after : State) :
        (delete subnet.id).run.Alone state answer after ↔ _ := delete_alone hhead
    by_cases hnone : state.ipam.allocationsOf subnet.id = []
    · have hkept : ∀ other ∈ rest,
          (state.ipam.eraseSubnet subnet.id).subnets.find? other.id = some other := by
        intro other hmem
        simp [Ipam.eraseSubnet, Table.find?_erase, (hne other hmem).symm, hrest other hmem]
      simp only [hnone, if_true] at hone
      refine (Operation.alone_bind_of hone).trans ?_
      rw [deletes_cons hsound hnone]
      exact ih (hsound.eraseSubnet subnet.id) hkept hdistinct
    · simp only [hnone, if_false] at hone
      refine (Operation.alone_bind_error hone).trans ⟨?_, fun h => ?_⟩
      · rintro ⟨rfl, rfl⟩
        have hfirst : last.ipam.FirstHeld (subnet :: rest) [] subnet :=
          ⟨by simp, by simp, hnone⟩
        exact .held hfirst
      · cases h with
        | all hvacant => exact absurd (hvacant subnet List.mem_cons_self) hnone
        | @held front other hfirst =>
          have hlisted := hfirst.listed
          cases front with
          | nil =>
            obtain ⟨rfl, _⟩ := List.cons_prefix_cons.1 hlisted
            exact ⟨rfl, rfl⟩
          | cons head front =>
            obtain ⟨rfl, _⟩ := List.cons_prefix_cons.1 hlisted
            exact absurd (hfirst.vacant head List.mem_cons_self) hnone

end Subnet

namespace Ipam

variable {eager : Prop} {ipam : Ipam} {supply : Supply} {network : NetworkId}

theorem Sound.subnetsOf_distinct (h : ipam.Sound eager supply) :
    (ipam.subnetsOf network).Pairwise fun a b => a.id ≠ b.id := by
  have hvalues : ipam.subnets.values.Pairwise fun a b => a.id ≠ b.id := by
    refine Table.values_pairwise fun id other a b ha hb hne => ?_
    rw [(h.laid.subnet ha).1, (h.laid.subnet hb).1]
    exact hne
  exact ((sortOn_perm _ _).pairwise_iff Ne.symm).2 (hvalues.filter _)

end Ipam

namespace Network

variable {state last : State} {id : NetworkId} {error : Error}

theorem fetch_missing_alone {answer : Except Error Network}
    (h : state.ipam.networks.find? id = none) :
    (fetch id).run.Alone state answer last ↔ answer = .error (missing id) ∧ last = state := by
  refine (Operation.alone_bind_of fun _ _ => Operation.alone_readIpam).trans ?_
  rw [h]
  exact Program.alone_done

theorem fetch_alone {network : Network} {answer : Except Error Network}
    (h : state.ipam.networks.find? id = some network) :
    (fetch id).run.Alone state answer last ↔ answer = .ok network ∧ last = state := by
  refine (Operation.alone_bind_of fun _ _ => Operation.alone_readIpam).trans ?_
  rw [h]
  exact Program.alone_done

theorem deleteTx_result (h : state.ipam.networks.contains id = true) :
    state.runIpam (deleteTx id) = (.ok (), { state with ipam := state.ipam.eraseNetwork id }) := by
  have hattempt : (deleteTx id).attempt state.ipam state.supply =
      (.ok (.commit (), state.ipam.eraseNetwork id), state.supply) := by
    unfold deleteTx
    rw [Tx.attempt_get_bind, h]
    rfl
  unfold State.runIpam
  rw [hattempt]

/-- Alone, a deletion fails just in these ways. -/
theorem delete_refused_iff {eager : Prop} (hsound : state.ipam.Sound eager state.supply) :
    (delete id).run.Alone state (.error error) last ↔ Refuses state id error last := by
  cases hfound : state.ipam.networks.find? id with
  | none =>
    refine (Operation.alone_bind_error fun _ _ => fetch_missing_alone hfound).trans
      ⟨?_, fun h => ?_⟩
    · rintro ⟨⟨⟩, rfl⟩
      exact .missing hfound
    · cases h with
      | missing => exact ⟨rfl, rfl⟩
      | occupied hstored | held hstored =>
        rw [hfound] at hstored
        cases hstored
  | some network =>
    refine (Operation.alone_bind_of fun _ _ => fetch_alone hfound).trans ?_
    refine (Operation.alone_bind_of fun _ _ => Operation.alone_readPorts).trans ?_
    by_cases hports : state.ports.portsOf id = []
    · simp only [hports, List.length_nil, ne_eq, not_true_eq_false, if_false]
      refine (Operation.alone_bind_of fun _ _ => Operation.alone_readIpam).trans ?_
      have hdeletes (result : Except Error Unit) (mid : State) :
          ((state.ipam.subnetsOf id).forM fun subnet => Subnet.delete subnet.id).run.Alone state
            result mid ↔ Subnet.Deletes state (state.ipam.subnetsOf id) result mid :=
        Subnet.deletes_alone hsound hsound.subnetsOf_stored hsound.subnetsOf_distinct
      refine Program.alone_bind.trans ⟨?_, fun h => ?_⟩
      · rintro ⟨result, mid, hrun, hrest⟩
        cases (hdeletes result mid).1 hrun with
        | all hvacant =>
          -- The network is still there, so that nothing is left that can fail.
          have hnetworks := (hsound.eraseSubnets_frame hvacant).1
          have hstored : (state.ipam.eraseSubnets (state.ipam.subnetsOf id)).networks.contains id =
              true := by
            rw [hnetworks]
            exact Table.contains_iff.2 ⟨network, hfound⟩
          have hrest := Operation.alone_ipam.1 hrest
          rw [deleteTx_result hstored] at hrest
          cases hrest
        | held hfirst =>
          obtain ⟨⟨⟩, rfl⟩ := Program.alone_done.1 hrest
          exact .held hfound hports hfirst
      · cases h with
        | missing habsent =>
          rw [hfound] at habsent
          cases habsent
        | occupied _ hsome => exact absurd hports hsome
        | held _ _ hfirst => exact ⟨_, _, (hdeletes _ _).2 (.held hfirst), .done _ _⟩
    · simp only [List.length_eq_zero_iff, ne_eq, hports, not_false_eq_true, if_true]
      refine Program.alone_done.trans ⟨?_, fun h => ?_⟩
      · rintro ⟨⟨⟩, rfl⟩
        exact .occupied hfound hports
      · cases h with
        | missing habsent =>
          rw [hfound] at habsent
          cases habsent
        | occupied => exact ⟨rfl, rfl⟩
        | held _ hnone => exact absurd hnone hports

end Network

namespace Scene

variable {allowed : Setup → Command → Prop} {moves : List Move} {first scene : Scene}

/-- Whatever was asked before, a deletion that fails leaves ports, networks and allocations alone,
but subnets of the network in which no address is allocated may be gone: those that are listed before
the first in which one is. -/
theorem Run.deletion_refused (run : Run allowed first moves scene) (hfirst : first.Initial)
    (hfresh : ∀ move ∈ moves, move.Fresh) (id : NetworkId) (error : Error) (last : State) :
    ((Network.delete id).run.Alone scene.state (.error error) last ↔
      Network.Refuses scene.state id error last) ∧
    (Network.Refuses scene.state id error last →
      last.ports = scene.state.ports ∧ last.ipam.networks = scene.state.ipam.networks ∧
      last.ipam.allocations = scene.state.ipam.allocations ∧
      ∀ subnet ∈ scene.state.ipam.subnets.values, scene.state.ipam.SameSubnet subnet.id last.ipam ∨
        subnet.network = id ∧ scene.state.ipam.allocationsOf subnet.id = []) := by
  have hfaithful : Faithful False moves scene.state := run.faithful hfirst hfresh nofun
  have hsound := hfaithful.sound
  refine ⟨Network.delete_refused_iff hsound, fun h => ?_⟩
  cases h with
  | missing | occupied => exact ⟨rfl, rfl, rfl, fun _ _ => .inl ⟨rfl, rfl, rfl⟩⟩
  | @held _ front held hstored hports hfirst =>
    obtain ⟨hnetworks, hallocations, hsame⟩ := hsound.eraseSubnets_frame hfirst.vacant
    refine ⟨rfl, hnetworks, hallocations, fun subnet hmem => ?_⟩
    by_cases hgone : ∃ other ∈ front, other.id = subnet.id
    · obtain ⟨other, hother, hid⟩ := hgone
      have hlisted : other ∈ scene.state.ipam.subnetsOf id :=
        hfirst.listed.subset (List.mem_append_left _ hother)
      obtain ⟨key, hfound⟩ := Table.mem_values.1 hmem
      have hkey := (hsound.laid.subnet hfound).1
      have hfound' := hsound.subnetsOf_stored other hlisted
      rw [hid, hkey, hfound] at hfound'
      cases hfound'
      exact .inr ⟨(Ipam.mem_subnetsOf.1 hlisted).2, hfirst.vacant subnet hother⟩
    · refine .inl (hsame subnet.id ?_)
      simpa using hgone

/-- An address of the second of two subnets is allocated to a port that is not stored. -/
def clinging : List Move × Scene := sample.play (
  .start {} (.createSubnet .sample) :: Turn.moves 0 2 ++
  .start {} (.createSubnet { SubnetRequest.sample with cidr := "10.0.1.0/29" }) :: Turn.moves 1 2 ++
  .start {} (.allocateForPort ⟨9⟩ ⟨7⟩ [{ subnet := some ⟨3⟩ }]) :: Turn.moves 2 4)

theorem clinging_run : Run (fun setup _ => setup.drivers = []) sample clinging.1 clinging.2 :=
  play_run (by decide +kernel)

theorem clinging_fresh : ∀ move ∈ clinging.1, move.Fresh := by decide +kernel

/-- The first subnet, of which nobody has an address, is gone. -/
theorem clinging_performs : ∃ error last,
    (Network.delete ⟨7⟩).run.Alone clinging.2.state (.error error) last ∧
      last.ipam.subnets.contains ⟨0⟩ = false ∧ last.ipam.subnets.contains ⟨3⟩ = true :=
  (Network.delete ⟨7⟩).performs_error [] clinging.2.state (by decide +kernel)

theorem clinging_refused : ∃ error last, Network.Refuses clinging.2.state ⟨7⟩ error last ∧
    last.ipam.subnets.contains ⟨0⟩ = false ∧
    last.ipam.allocations = clinging.2.state.ipam.allocations := by
  obtain ⟨error, last, halone, hgone, _⟩ := clinging_performs
  have ⟨hrefuses, hkeeps⟩ := clinging_run.deletion_refused sample_initial clinging_fresh ⟨7⟩ error last
  have hrefused := hrefuses.1 halone
  obtain ⟨_, _, hallocations, _⟩ := hkeeps hrefused
  exact ⟨error, last, hrefused, hgone, hallocations⟩

/-- A deletion that fails may have changed something. -/
theorem not_unchanged_of_refused : ¬ ∀ (allowed : Setup → Command → Prop) (first scene : Scene)
    (moves : List Move) (id : NetworkId) (error : Error) (last : State),
    Run allowed first moves scene → first.Initial → (∀ move ∈ moves, move.Fresh) →
    scene.running = [] → (Network.delete id).run.Alone scene.state (.error error) last →
    last.ipam = scene.state.ipam ∧ last.ports = scene.state.ports := by
  intro h
  obtain ⟨error, last, halone, hgone, _⟩ := clinging_performs
  have hrunning : clinging.2.running = [] := List.isEmpty_iff.1 (by decide +kernel)
  have hsame := h _ _ _ _ _ error last clinging_run sample_initial clinging_fresh hrunning halone
  have hthere : clinging.2.state.ipam.subnets.contains ⟨0⟩ = true := by decide +kernel
  rw [hsame.1, hthere] at hgone
  cases hgone

end Scene

end ControlPlane

import ControlPlane.Proofs.Alone.Requests
import ControlPlane.Proofs.Orphans
import ControlPlane.Proofs.Ports.Attempts
import ControlPlane.Proofs.Ports.Reachable
import ControlPlane.Proofs.Ports.Stages
import ControlPlane.Proofs.Ports.Updates

/-! What creating or updating a port answers, with nothing in between: the port as it is stored when the
answer is given, and the addresses that it has then. -/

namespace ControlPlane

open Operation

/-- Where ports are left as they are, whatever holds of them still does. -/
theorem Operation.Ensures.spares {α : Type} {operation : Operation α} {fails : Prop}
    (h : ∀ first : State, operation.Ensures
      (fun state => state = first ∧ first.ipam.Sound False first.supply)
      (fun _ state => state.ports = first.ports) fun _ _ => fails) (holds : Ports → Prop) :
    operation.Ensures (fun state => state.ipam.Sound False state.supply ∧ holds state.ports)
      (fun _ state => holds state.ports) fun _ _ => fails := by
  have hnamed (first : State) : operation.Ensures
      (fun state => state = first ∧ first.ipam.Sound False first.supply ∧ holds first.ports) _ _ :=
    (h first).of_pre fun _ hp => ⟨hp.1, hp.2.1⟩
  refine (Ensures.named hnamed).weaken (fun _ hp => hp) ?_ ?_
  · rintro _ state ⟨first, ⟨_, hfirst⟩, hports⟩
    exact hports ▸ hfirst
  · rintro _ _ ⟨_, _, hf⟩
    exact hf

theorem Allocation.releases_spare (reclaim : Bool) (ips : List AllocatedIp) (holds : Ports → Prop) :
    (ips.forM (release reclaim)).Ensures
      (fun state => state.ipam.Sound False state.supply ∧ holds state.ports)
      (fun _ state => holds state.ports) fun _ _ => False := by
  refine Ensures.spares (fun first => ?_) holds
  exact (releases_ensures reclaim ips first).weaken (fun _ hp => hp) (fun _ _ hf => hf.ports)
    fun _ _ hf => hf

namespace Port

variable {setup : Setup} {id : PortId} {network : Network} {update : PortUpdate} {first : State}
  {port : Port} {request : PortRequest} {binding : Binding}

/-- What is saved is shown as it is stored, although a binding that asks for the same is kept. -/
theorem Saving.ready {store last : Ports} {drivers : List String} {former : Port}
    {closing : Closing (Option Saved)} {kept : Saved} (hs : store.Shaped) (hlast : last.Keyed)
    (hformer : store.ports.find? id = some former) (hcheck : update.checkOwner former = .ok ())
    (h : Saving store.Aligns store drivers id network update closing last)
    (hkept : closing.answer = some kept) :
    kept.context.port.id = id ∧ kept.context.Ready last := by
  cases h with
  | gone => cases hkept
  | @saved found port formerBinding row aligned tables _ context news hfound hbinding haligned hport
      hsaved hcontext hnetwork hasked =>
    cases Option.some.inj (hformer.symm.trans hfound)
    cases hkept
    obtain ⟨hosts, hentry, hid, hrows⟩ := hs.rows hformer hbinding
    have hkind := (PortUpdate.checkOwner_iff.1 hcheck).1
    have hchanged := (update.applyToBinding_port _).trans (hrows.own.trans hid)
    obtain ⟨hosts, hwith, _⟩ := haligned.onHost hsaved hrows hentry hchanged hkind
    obtain ⟨hwith, hpid, hpkind⟩ := hport.with hwith hid
    have hwith := hsaved.with hwith hchanged
    subst hcontext
    refine ⟨hpid, ⟨.of_with (hpid.symm ▸ hwith) ?_, hlast, fun hd => ?_⟩⟩
    · rw [hasked]
      cases hsaved with
      | same hsame => exact PortUpdate.applyToBinding_agrees hsame
      | stored => exact Binding.agrees_refl _
    · have hvif := hrows.formed.distributed.2 (hkind.symm.trans (hpkind.symm.trans hd))
      rw [hasked, PortUpdate.applyToBinding_distributed hvif]
      rfl

theorem save_ready (drivers : List String) (id : PortId) (network : Network)
    (update : PortUpdate) : (save drivers id network update).Ensures
      (fun state => state.ports.Keyed ∧ state.ports.Shaped ∧ ∃ former,
        state.ports.ports.find? id = some former ∧ update.checkOwner former = .ok ())
      (fun saved state => ∀ kept, saved = some kept →
        kept.context.port.id = id ∧ kept.context.Ready state.ports) fun _ _ => True := by
  have hsave : (Operation.ports (saveTx drivers id network update)).Ensures
      (fun state => state.ports.Keyed ∧ state.ports.Shaped ∧ ∃ former,
        state.ports.ports.find? id = some former ∧ update.checkOwner former = .ok ())
      (fun saved state => ∀ kept, saved = some kept →
        kept.context.port.id = id ∧ kept.context.Ready state.ports) fun _ _ => True := by
    have hcloses := saveTx_closes drivers id network update
    refine ensures_ports hcloses.advances ?_
    rintro before answer last refuser ⟨hkeyed, hshaped, former, hformer, hcheck⟩ hr _ hd
    have hlast := (State.runReviewed_closes hcloses hkeyed hr hd).1.keyed
    have htx := saveTx_ensures drivers id network update alignHosts_aligns before.ports
    rcases State.runReviewed_ensures htx hr hd ⟨rfl, hkeyed⟩ with
      ⟨_, rfl, _⟩ | ⟨saved, tables, rfl, _, _, hc⟩ | ⟨saved, closing, rfl, ⟨_, hc⟩, hends⟩
    · trivial
    · rintro kept rfl
      cases hc
    · rintro kept rfl
      refine Saving.ready hshaped hlast hformer hcheck hc ?_
      rcases hends with rfl | ⟨_, _, rfl⟩ <;> rfl
  refine hsave.bind fun saved => ?_
  cases saved with
  | none => exact ensures_pure fun _ hp => hp
  | some kept =>
    refine (ensures_lift (kept.context.announce_ensures drivers)).bind fun _ => ?_
    exact ensures_pure fun _ hp => hp

section Quiet

theorem fetchNetwork_quiet (id : NetworkId) : (Network.fetch id).Makes (Call.Quiet setup) := by
  refine (makes_ipam ⟨.readIpam _, trivial⟩).bind fun found => ?_
  cases found <;> trivial

theorem allots_quiet (id : PortId) : Allocation.Allots (Call.Quiet setup) id where
  read f := ⟨.readIpam f, trivial⟩
  generate network candidates := ⟨.generate id network candidates fun _ _ => trivial, trivial⟩
  rebuild id := ⟨.rebuild id, trivial⟩
  allocate subnet address hh := ⟨.allocate id subnet address hh trivial, trivial⟩

theorem releaseTx_quiet (ip : AllocatedIp) :
    (Call.ipam (Allocation.releaseTx true ip)).Quiet setup :=
  ⟨.release ip (fun _ => rfl) trivial, trivial⟩

theorem releases_quiet (ips : List AllocatedIp) :
    (ips.forM (Allocation.release setup.config.ipam.reclaimOnRelease)).Makes (Call.Quiet setup) :=
  makes_forM fun ip _ => makes_ipam ⟨.release ip (fun h => h) trivial, trivial⟩

theorem giveBack_quiet (ips : List AllocatedIp) :
    (Allocation.giveBack ips).Makes (Call.Quiet setup) :=
  makes_forM fun ip _ => makes_ipam (releaseTx_quiet ip)

theorem releasePort_quiet (id : PortId) :
    (Allocation.releasePort setup.config.ipam id).Makes (Call.Quiet setup) :=
  (makes_ipam ⟨.readIpam _, trivial⟩).bind fun ips =>
    (releases_quiet ips).bind fun _ => makes_pure ips

theorem save_quiet (id : PortId) (network : Network) (update : PortUpdate) :
    (save setup.drivers id network update).Makes (Call.Quiet setup) :=
  save_makes ⟨.savePort id network update trivial, trivial⟩
    fun driver context => ⟨.postcommit driver context, trivial⟩

theorem abandon_quiet {α : Type} (id : PortId) (ips : List AllocatedIp) (error : Error) :
    (abandon id ips error : Operation α).Makes (Call.Quiet setup) :=
  (makes_ports ⟨.removePort id trivial, trivial⟩).bind fun _ => (giveBack_quiet ips).bind fun _ =>
    makes_throw error

theorem initialIps_quiet (config : Config) (port : Port) (requests : Option (List FixedIpRequest)) :
    (initialIps config port requests).Makes (Call.Quiet setup) := by
  unfold initialIps
  split
  · exact makes_pure _
  · exact (allots_quiet port.id).forPort_makes releaseTx_quiet config port.network _

end Quiet

theorem update_reports (setup : Setup) (id : PortId) (update : PortUpdate)
    (hsound : first.ipam.Sound False first.supply) (hkeyed : first.ports.Keyed)
    (hshaped : first.ports.Shaped) (hassorted : first.ipam.Assorted) :
    (Port.update setup id update).Reports setup Ports.Shown (fun state => state = first)
      fun details state => details.port.id = id ∧
        state.ports.Stores details.port details.binding ∧
        details.fixedIps = (state.ipam.portAllocations id).map Allocation.allocated := by
  refine reports_bind_except fun _ _ => ?_
  have hfind : (find id).Ensures (fun state => state = first)
      (fun found state => state = first ∧ found = first.ports.ports.find? id) fun _ _ => True := by
    refine ensures_readPorts ?_
    rintro _ rfl
    exact ⟨rfl, rfl⟩
  refine Mute.bind (reports_quiet (makes_ports ⟨.readPorts _, trivial⟩) hfind) fun found => ?_
  cases found with
  | none => exact reports_throw _
  | some port =>
  refine reports_bind_except fun _ hcheck => ?_
  have hfetch : (Network.fetch port.network).Ensures
      (fun state => state = first ∧ some port = first.ports.ports.find? id)
      (fun _ state => Found first id port state) fun _ _ => True := by
    refine (Network.fetch_ensures fun _ _ _ => trivial).weaken (fun _ hp => hp) ?_ fun _ _ h => h
    exact fun _ _ hp => ⟨hp.1, hsound, hkeyed, hp.2.symm⟩
  refine Mute.bind (reports_quiet (fetchNetwork_quiet _) hfetch) fun network => ?_
  have hstage := (stage_ready setup.config id update port hassorted).beside
    (first.ports.ports.find? id = some port)
  refine Mute.bind (reports_quiet ?_ (hstage.of_pre fun _ hp => ⟨hp.found, hp⟩)) fun changes => ?_
  · exact stage_makes (allots_quiet port.id) releaseTx_quiet update.fixedIps
  -- Nothing but addresses has changed so far.
  have hsave := ((save_ensures setup.drivers id network update first changes).and
    (save_ready setup.drivers id network update)).orElse fun error =>
      (undo_ensures id changes error first _).of_pre fun _ hp => hp.1
  refine Mute.bind (reports_quiet ?_ (hsave.of_pre ?_)) fun saved => ?_
  · exact (save_quiet id network update).orElse fun error =>
      (giveBack_quiet changes.added).bind fun _ => makes_throw error
  · rintro state ⟨hfound, hready⟩
    rw [hready.staged.gained.ports]
    exact ⟨hready, hkeyed, hshaped, port, hfound, hcheck⟩
  cases saved with
  | none =>
    have hrelease := Allocation.releasePort_ensures setup.config.ipam id first
    exact Mute.bind (reports_quiet (releasePort_quiet id) hrelease.advances) fun _ => reports_throw _
  | some saved =>
    have hrelease := Allocation.releases_spare setup.config.ipam.reclaimOnRelease changes.removed
      fun store => saved.context.port.id = id ∧ saved.context.Ready store
    refine Mute.bind (reports_quiet (releases_quiet changes.removed) (hrelease.of_pre ?_)) fun _ => ?_
    · rintro state ⟨⟨_, ⟨⟩, hp⟩, hready⟩
      exact ⟨hp.sound, hready saved rfl⟩
    extract_lets news
    refine Reports.bind_still (saved.context.bindWithin_reports true _ news) ?_ ?_
    · exact fun context => (makes_ipam ⟨.readIpam _, trivial⟩).bind fun _ => makes_pure _
    · intro context ports
      refine ensures_readIpam_bind fun state => ensures_pure ?_
      rintro _ ⟨rfl, ⟨hid, hshown⟩, hports⟩
      exact ⟨⟨hid, hshown, rfl⟩, hports⟩

theorem draw_new : (Operation.ask (.ident .port)).Ensures first.Drawing
    (fun id _ => ¬ first.supply.Drawn id.value) fun _ _ => True := by
  refine ensures_lift (Program.ensures_call fun before id after hr => ?_)
  cases hr
  refine ⟨before.supply.ident_extends .port, fun hd hp hdrawn => ?_⟩
  exact Supply.ident_not_drawn hd (hdrawn.of_extends hp.supply)

theorem insert_ready (config : Config) (network : Network)
    (hb : initialBinding port request = .ok binding) :
    (insert config port binding request.mac).Ensures
      (fun state => state.ports.Keyed ∧ state.ports.ports.find? port.id = none)
      (fun new state => new.id = port.id ∧
        PortContext.Ready { port := new, network, binding } state.ports) fun _ _ => True := by
  obtain ⟨hown, hformed⟩ := initialBinding_formed hb
  have hunbound := (initialBinding_unbound hb).2
  have hadvances := (insertTx_stores config port binding request.mac {}).advances
  refine ensures_ports hadvances ?_
  rintro before answer last refuser ⟨hkeyed, hnone⟩ hr _ hd
  have htx := insertTx_stores config port binding request.mac before.ports
  rcases State.runReviewed_ensures htx hr hd rfl with
    ⟨_, rfl, _⟩ | ⟨_, _, _, _, _, hc, _⟩ | ⟨new, _, rfl, ⟨stored, rfl, ⟨mac, hnew, _⟩, hsave⟩, hends⟩
  · trivial
  · cases hc
  obtain rfl : stored = new := by
    rcases hends with hc | ⟨_, _, hc⟩ <;> cases hc
    rfl
  have hid : stored.id = port.id := by rw [hnew]
  have hkind : stored.isDistributed = port.isDistributed := by rw [hnew, isDistributed, isDistributed]
  rw [← hid] at hown hnone
  have hevolves : (before.ports.savePort stored).Evolves (fun _ _ _ => False) last.ports :=
    hkeyed.insert hnone hown hunbound hsave
  have hwith := ((Ports.With.refl before.ports stored.id).savePort rfl).saveBinding hown hsave
  refine ⟨hid, ⟨.of_with hwith (Binding.agrees_refl binding), hevolves.keyed, fun hd => ?_⟩⟩
  have hvif : binding.vif = .distributed := hformed.distributed.2 (hkind.symm.trans hd)
  show binding.vif.needsBinding = false
  rw [hvif]
  rfl

theorem initialIps_spare (config : Config) (port : Port) (requests : Option (List FixedIpRequest))
    (holds : Ports → Prop) : (initialIps config port requests).Ensures
      (fun state => state.ipam.Sound False state.supply ∧ holds state.ports)
      (fun _ state => holds state.ports) fun _ _ => True := by
  unfold initialIps
  split
  · exact ensures_pure fun _ hp => hp.2
  · refine Ensures.spares (fun first => ?_) holds
    refine (Allocation.forPort_ensures config port.id port.network _ first).weaken ?_
      (fun _ _ hg => hg.ports) fun _ _ _ => trivial
    rintro _ ⟨rfl, hsound⟩
    exact .nil hsound

theorem abandon_fails {α : Type} {pre : State → Prop} (id : PortId) (ips : List AllocatedIp)
    (error : Error) (post : α → State → Prop) :
    (abandon id ips error : Operation α).Ensures pre post fun _ _ => True := by
  intro state
  have hfails : (abandon id ips error : Operation α).Ensures pre post fun _ _ => True :=
    (remove_ensures id ips state).advances.bind fun _ =>
      (Allocation.giveBack_ensures id ips state).advances.bind fun _ =>
        ensures_throw fun _ _ => trivial
  exact hfails state

theorem create_reports (setup : Setup) (request : PortRequest) (h : first.Stocked) :
    (create setup request).Reports setup Ports.Shown (fun state => state = first)
      fun details state => ¬ first.supply.Drawn details.port.id.value ∧
        state.ports.Stores details.port details.binding := by
  have hstart (state : State) (hp : state = first) : first.Drawing state := hp ▸ ⟨rfl, rfl, .refl _⟩
  refine Reports.of_pre ?_ hstart
  refine reports_bind_except fun _ _ => ?_
  have hfetch : (Network.fetch request.network).Ensures first.Drawing (fun _ => first.Drawing)
      fun _ _ => True := Network.fetch_ensures fun _ _ _ => trivial
  refine Mute.bind (reports_quiet (fetchNetwork_quiet _) hfetch) fun network => ?_
  have htime : (Operation.ask .time).Ensures first.Drawing (fun _ => first.Drawing)
      fun _ _ => True := time_ensures
  refine Mute.bind (reports_quiet (makes_ask ⟨.time, trivial⟩) htime) fun now => ?_
  have hdraw : (Operation.ask (.ident .port)).Ensures first.Drawing
      (fun id state => first.ports.entry id = .absent ∧ first.Drawing state) fun _ _ => True :=
    draw_ensures h
  refine Mute.bind (reports_quiet (makes_ask ⟨.ident .port fun _ => trivial, trivial⟩)
    ((hdraw.and draw_new).of_pre fun _ hp => ⟨hp, hp⟩)) fun id => ?_
  refine reports_bind_except fun binding hb => ?_
  have hinsert := ((insert_ensures setup.config _ hb h).and
    (insert_ready setup.config network hb)).beside (¬ first.supply.Drawn id.value)
  refine Mute.bind (reports_quiet (makes_ports ⟨.insertPort _ _ _ trivial, trivial⟩)
    (hinsert.of_pre ?_)) fun port => ?_
  · rintro state ⟨⟨habsent, hp⟩, hnew⟩
    refine ⟨hnew, ⟨habsent, hp⟩, hp.ports ▸ h.keyed, ?_⟩
    rw [hp.ports]
    exact congrArg Entry.port habsent
  let context : PortContext := { port, network, binding }
  let Kept (store : Ports) : Prop := ¬ first.supply.Drawn port.id.value ∧ context.Ready store
  have hips := (initialIps_spare setup.config port request.fixedIps Kept).orElse fun error =>
    abandon_fails port.id [] error _
  refine Mute.bind (reports_quiet ?_ (hips.of_pre ?_)) fun ips => ?_
  · exact (initialIps_quiet _ _ _).orElse fun error => abandon_quiet _ _ error
  · rintro state ⟨hnew, hadds, hid, hready⟩
    exact ⟨hadds.sound, hid ▸ hnew, hready⟩
  have hbind : (context.bindWithin setup.drivers false setup.config.binding.maxBindTries
      false).Reports setup Ports.Shown
      (fun state => context.port.id = port.id ∧ context.Ready state.ports)
      fun last state => last.port.id = port.id ∧ state.ports.Shown last :=
    context.bindWithin_reports false _ false
  have hbind := hbind.orElse (abandon_quiet port.id ips) fun error => abandon_fails port.id ips error _
  extract_lets
  refine Reports.bind_still ((hbind.beside (¬ first.supply.Drawn port.id.value)).of_pre ?_) ?_ ?_
  · exact fun state hp => ⟨hp.1, rfl, hp.2⟩
  · exact fun context => makes_pure _
  · intro context ports
    refine ensures_pure ?_
    rintro state ⟨⟨hnew, hid, hshown⟩, hports⟩
    exact ⟨⟨hid ▸ hnew, hshown⟩, hports⟩

theorem fetchTx_alone {state last : State} {answer : Except Error (Port × Binding)}
    (hport : state.ports.ports.find? id = some port) :
    (Operation.ports (fetchTx id)).run.Alone state answer last ↔
      answer = .ok (port, primaryBinding state.ports id) ∧ last = state := by
  have hfetch (refuser : Option (String × Error)) : state.runReviewed refuser (fetchTx id) =
      (.ok (port, primaryBinding state.ports id), state) := by
    have htx : (fetchTx id).attempt state.ports state.supply =
        (.ok (.commit (port, primaryBinding state.ports id), state.ports), state.supply) := by
      unfold fetchTx
      rw [Tx.attempt_get_bind]
      simp only [hport]
      rfl
    simp only [State.runReviewed, State.runPorts, htx]
    rfl
  simp only [Operation.alone_ports, hfetch, exists_const, Prod.mk.injEq]

theorem fetch_alone {state last : State} {answer : Except Error PortDetails}
    (hport : state.ports.ports.find? id = some port) :
    (fetch id).run.Alone state answer last ↔
      answer = .ok ⟨port, primaryBinding state.ports id,
        (state.ipam.portAllocations id).map Allocation.allocated⟩ ∧ last = state := by
  refine (Operation.alone_bind_of fun _ _ => fetchTx_alone hport).trans ?_
  exact (Operation.alone_bind_of fun _ _ => Operation.alone_readIpam).trans Program.alone_done

end Port

/-- What a port is given is what it has, if it had nothing before. -/
theorem Ipam.Gains.perm {before after : Ipam} {port : PortId} {ips : List AllocatedIp}
    (h : before.Gains port ips after) (hl : after.Labelled)
    (hnone : ∀ ip, before.holder? ip ≠ some port) :
    ((after.portAllocations port).map Allocation.allocated).Perm ips := by
  refine (List.perm_ext_iff_of_nodup (hl.nodup_portAllocations port) h.nodup).2 fun ip => ?_
  rw [hl.mem_portAllocations]
  constructor
  · intro hholder
    by_contra hip
    rw [Ipam.holder?_congr (h.others ip hip)] at hholder
    exact hnone ip hholder
  · exact fun hip => (h.gained ip hip).2

/-- Who fetches a port is told what was answered for it, but for the order of its addresses. -/
def PortDetails.Told (details : PortDetails) (id : PortId) (state : State) : Prop :=
  ∃ seen, (∀ answer last, (Port.fetch id).run.Alone state answer last ↔
      answer = .ok seen ∧ last = state) ∧
    seen.port = details.port ∧ details.binding.agrees seen.binding = true ∧
    seen.fixedIps.Perm details.fixedIps

theorem Ports.Stores.told {state : State} {details : PortDetails}
    (h : state.ports.Stores details.port details.binding)
    (hips : ((state.ipam.portAllocations details.port.id).map Allocation.allocated).Perm
      details.fixedIps) : details.Told details.port.id state := by
  obtain ⟨row, hrow, hagrees⟩ := h.row
  refine ⟨_, fun _ _ => Port.fetch_alone h.found, rfl, ?_, hips⟩
  rw [Port.primaryBinding, hrow]
  exact hagrees

/-- The operations that answer with a port, and which port that is. If the port is new, its identifier
is to be `spare`. -/
inductive Port.Writes (setup : Setup) (spare : Prop) :
    Operation PortDetails → (PortDetails → PortId) → Prop
  | create (request : PortRequest) (h : spare) :
    Writes setup spare (Port.create setup request) fun details => details.port.id
  | update (id : PortId) (update : PortUpdate) :
    Writes setup spare (Port.update setup id update) fun _ => id

instance Command.decidableAllocates (command : Command) : Decidable command.Allocates :=
  decidable_of_iff ((match command with
    | .generate .. | .allocate .. | .allocateAddress .. | .allocateForPort .. => true
    | _ => false) = true) (by cases command <;> simp [Command.Allocates])

namespace Scene

variable {allowed : Setup → Command → Prop} {moves : List Move} {first scene : Scene}

section Rest

variable (run : Run allowed first moves scene) (hfirst : first.Initial)
  (hfresh : ∀ move ∈ moves, move.Fresh) (hrunning : scene.running = []) {ip : AllocatedIp}
  {port : PortId}

include run hfirst hfresh hrunning

theorem Run.known_of_update {early late : List Move} {gift : Move} {update : PortUpdate}
    (hkeeping : Keeping moves port ip early gift late)
    (hs : .start gift.tag (.updatePort port update) ∈ moves) : ∃ network, Known moves port network := by
  obtain ⟨hfaithful, hsettled⟩ := run.holders_settled hfirst hfresh
  -- Either the port is still there or it was seen before it was removed.
  cases hgone : scene.state.ports.ports.contains port with
  | true =>
    obtain ⟨_, hport⟩ := Table.contains_iff.1 hgone
    exact ⟨_, hfaithful.stored hport⟩
  | false =>
    have horphan := run.orphaned_of_update hfirst hfresh hrunning hkeeping hgone hs
    have hloses : ∃ move ∈ moves, move.Loses port := by
      cases horphan with
      | deleted _ _ _ removal _ split loses => exact ⟨removal, by simp [split], loses⟩
      | withdrawn _ _ _ _ removal _ split _ _ loses => exact ⟨removal, by simp [split], loses⟩
    obtain ⟨move, hmove, hl⟩ := hloses
    obtain ⟨_, _, hseen⟩ := hsettled.gone hmove hl
    exact ⟨_, hseen.known⟩

/-- Once nothing runs, who has an address was drawn for a port, even if that is gone. -/
theorem Run.holder_drawn
    (hallocates : ∀ setup command, allowed setup command → ¬ command.Allocates)
    (hheld : scene.state.ipam.holder? ip = some port) : scene.state.supply.Drawn port.value := by
  obtain ⟨hfaithful, hsettled⟩ := run.holders_settled hfirst hfresh
  obtain ⟨early, gift, late, hkeeping, subnet, htakes⟩ := hsettled.held hheld
  have hfront : early <+: moves := ⟨gift :: late, hkeeping.split.symm⟩
  have hmanaged {command : Command} (hs : .start gift.tag command ∈ early) : ¬ command.Allocates := by
    obtain ⟨setup, _, may, _⟩ := run.rests hfirst hfresh hrunning (hfront.subset hs)
    exact hallocates setup command may
  rcases htakes with ⟨command, hs, hcandidate⟩ | ⟨⟨command, hs, hsupplies⟩, _⟩
  · have hnot := hmanaged hs
    cases command with
    | generate | allocate | allocateAddress => exact (hnot trivial).elim
    | _ => cases hcandidate
  · have hnot := hmanaged hs
    cases command with
    | createPort request => exact hfaithful.drawn (Drew.mono hsupplies hfront)
    | updatePort id update =>
      cases hsupplies
      obtain ⟨network, hknown⟩ :=
        run.known_of_update hfirst hfresh hrunning hkeeping (hfront.subset hs)
      obtain ⟨tag, hdrew, _⟩ := hfaithful.known hknown
      exact hfaithful.drawn hdrew
    | allocateForPort => exact (hnot trivial).elim
    | _ => exact hsupplies.elim

end Rest

/-- Identifiers that are still to be drawn have no addresses: nobody has allocated addresses by hand, or
at least only to ports that were drawn. -/
def Spares (allowed : Setup → Command → Prop) (state : State) : Prop :=
  (∀ setup command, allowed setup command → ¬ command.Allocates) ∨
    ∀ ip port, state.ipam.holder? ip = some port → state.supply.Drawn port.value

/-- Whatever was asked before, if nobody has bound ports by hand: who creates or updates a port while
nothing else runs has each commit go through, tells listeners of the port as it is in the end, and is
answered what is stored then. -/
theorem Run.reports_stored (run : Run allowed first moves scene) (hfirst : first.Initial)
    (hfresh : ∀ move ∈ moves, move.Fresh)
    (hmanaged : ∀ setup command, allowed setup command → ¬ command.ByHand)
    (hrunning : scene.running = []) {setup : Setup} {operation : Operation PortDetails}
    {named : PortDetails → PortId}
    (hwrites : Port.Writes setup (Spares allowed scene.state) operation named) {tag : Nat}
    {own : List Move} {result : Except Error PortDetails} {last : State}
    (hplays : operation.run.Plays tag scene.state own result last) (hd : last.supply.Distinct) :
    Chained tag (Call.Reports setup last.ports.Shown) scene.state own last ∧
      ∀ details, result = .ok details → details.Told (named details) last := by
  obtain ⟨hfaithful, hlasting⟩ := run.lasting hfirst hfresh hmanaged
  have hstocked := hfaithful.stocked
  cases hwrites with
  | create request hspares =>
    obtain ⟨hchained, hpost⟩ := (Port.create_reports setup request hstocked hplays).2 hd rfl
    refine ⟨hchained.mono fun _ _ hc => hc.mono fun _ h => h.2, ?_⟩
    rintro details rfl
    obtain ⟨hnew, hstores⟩ := hpost details rfl
    have hadds : scene.state.Adds details.port.id details.fixedIps last :=
      hplays.ensures (Port.create_ensures setup request hstocked) hd rfl
    refine hstores.told (hadds.gains.perm hadds.sound.labelled fun ip hholder => hnew ?_)
    rcases hspares with hallocates | hdrawn
    · exact run.holder_drawn hfirst hfresh hrunning hallocates hholder
    · exact hdrawn ip _ hholder
  | update id update =>
    have hreports := Port.update_reports setup id update hstocked.sound hstocked.keyed
      hlasting.shaped (run.assorted hfirst hfresh)
    obtain ⟨hchained, hpost⟩ := (hreports hplays).2 hd rfl
    refine ⟨hchained.mono fun _ _ hc => hc.mono fun _ h => h.2, ?_⟩
    rintro details rfl
    obtain ⟨rfl, hstores, hips⟩ := hpost details rfl
    exact hstores.told (.of_eq hips.symm)

theorem thwart_managed :
    Run (fun _ command => ¬ command.ByHand ∧ ¬ command.Allocates) sample thwart.1 thwart.2 :=
  play_run (by decide +kernel)

/-- A driver declines to bind a port until it is asked again. -/
def hesitation : List Saying :=
  List.replicate 7 ({} : Saying) ++
    List.replicate 8 { bound := some { segment := ⟨8⟩, vifType := "ovs" } }

/-- A port is created on a host and another is moved there. -/
theorem thwart_reports :
    (∃ own details last, (Port.create thwart.setup thwart.request).run.Plays 2 thwart.2.state own
        (.ok details) last ∧
      Chained 2 (Call.Reports thwart.setup last.ports.Shown) thwart.2.state own last ∧
      details.Told details.port.id last ∧ details.binding.vif = .bound "ovs") ∧
    ∃ own details last, (Port.update thwart.setup ⟨3⟩ { host := some "node" }).run.Plays 2
        thwart.2.state own (.ok details) last ∧
      Chained 2 (Call.Reports thwart.setup last.ports.Shown) thwart.2.state own last ∧
      details.Told ⟨3⟩ last ∧ details.binding.vif = .bound "ovs" := by
  have hrunning : thwart.2.running = [] := List.isEmpty_iff.1 (by decide +kernel)
  have hreports := @Run.reports_stored _ _ _ _ thwart_managed sample_initial thwart_fresh
    (fun _ _ h => h.1) hrunning
  constructor
  · obtain ⟨details, own, last, hplays, hd, hvif⟩ :=
      (Port.create thwart.setup thwart.request).plays_ok 2 hesitation thwart.2.state
        (P := fun details _ last => last.supply.Distinct ∧ details.binding.vif = .bound "ovs")
        (by decide +kernel)
    obtain ⟨hchained, htold⟩ := hreports (.create thwart.request (.inl fun _ _ h => h.2)) hplays hd
    exact ⟨own, details, last, hplays, hchained, htold details rfl, hvif⟩
  · obtain ⟨details, own, last, hplays, hd, hvif⟩ :=
      (Port.update thwart.setup ⟨3⟩ { host := some "node" }).plays_ok 2 hesitation thwart.2.state
        (P := fun details _ last => last.supply.Distinct ∧ details.binding.vif = .bound "ovs")
        (by decide +kernel)
    obtain ⟨hchained, htold⟩ := hreports (.update ⟨3⟩ { host := some "node" }) hplays hd
    exact ⟨own, details, last, hplays, hchained, htold details rfl, hvif⟩

end Scene

end ControlPlane

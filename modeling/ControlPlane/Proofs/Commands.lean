import ControlPlane.Proofs.Commands.Ports
import ControlPlane.Proofs.Ranges.Frames

/-! Whatever a control plane is asked to do, it makes no call without a licence. So what calls with
a licence keep holds in every scene of every run. -/

namespace ControlPlane

open Operation

variable {setup : Setup} {inv : List Move → State → Prop} {tag : Nat} {past later : List Move}
  {id port : PortId}

theorem Port.initialBinding_unbound {port : Port} {request : PortRequest} {binding : Binding}
    (h : initialBinding port request = .ok binding) :
    binding.port = port.id ∧ ¬ binding.Bound := by
  unfold initialBinding at h
  extract_lets at h
  split at h
  · split at h
    · cases h
    · cases h
      exact ⟨rfl, fun ⟨_, hk⟩ => VifType.noConfusion hk⟩
  · cases h
    exact ⟨rfl, fun ⟨_, hk⟩ => VifType.noConfusion hk⟩

namespace Keeps

theorem remove (hk : Keeps setup inv tag) (h : ∀ moves, past <+: moves → (licence moves tag).remove id) :
    (Port.remove id).Sound inv tag (fun _ _ => True) past :=
  hk.makes fun moves _ hm _ => Port.remove_made (h moves hm)

theorem abandon {α : Type} {post : α → List Move → Prop} {ips : List AllocatedIp}
    (hk : Keeps setup inv tag) (hd : Dedicated inv tag port past) (hdrew : Drew past tag id)
    (h : ∀ ip ∈ ips, Learned past tag port ip) (error : Error) :
    (Port.abandon id ips error).Sound inv tag post past := by
  refine (hk.remove fun _ hm => .inl (hdrew.mono hm)).bind fun _ later hlater _ => ?_
  have hips : ∀ ip ∈ ips, Learned later tag port ip := fun ip hip => (h ip hip).mono hlater
  exact (hk.giveBack (hd.mono hlater) hips).bind fun _ _ _ _ => sound_throw

theorem initialIps (hk : Keeps setup inv tag) {port : Port} (hsupplies : Supplies past tag port.id)
    (hd : Dedicated inv tag port.id past) (config : Config)
    (requests : Option (List FixedIpRequest)) :
    (Port.initialIps config port requests).Sound inv tag
      (fun ips later => ∀ ip ∈ ips, Learned later tag port.id ip) past := by
  unfold Port.initialIps
  split
  · exact sound_pure (List.forall_mem_nil _)
  · exact hk.forPort hsupplies hd config port.network _

theorem createSubnet (hk : Keeps setup inv tag) (request : SubnetRequest) :
    (Subnet.create request).Sound inv tag (fun details later => ∃ state, Saw later tag .ipam state ∧
      state.ipam.subnets.find? details.subnet.id = some details.subnet) past := by
  refine sound_bind_except fun _ _ => ?_
  refine sound_bind_except fun cidr hc => ?_
  refine sound_bind_except fun gateway hg => ?_
  refine sound_bind_except fun bounds hb => ?_
  refine hk.ipam (fun _ _ _ _ => .createSubnet hc hg hb) ?_
  intro others before details after _ _ hr hfresh
  have hgives := State.runIpam_commit (Subnet.createTx_gives request cidr gateway bounds) hr hfresh
    trivial
  exact ⟨after, saw_snoc rfl, hgives⟩

theorem deleteSubnet (hk : Keeps setup inv tag) (id : SubnetId) :
    (Subnet.delete id).Sound inv tag (fun _ later => ∃ state,
      SawSince past later tag .ipam state ∧ state.ipam.subnets.find? id = none) past := by
  refine (hk.makes fun _ _ _ _ => Subnet.fetch_made id).bind fun _ fetched hfetched _ => ?_
  refine hk.ipam (fun _ _ _ _ => .deleteSubnet id) ?_
  intro others before answer after _ _ hr hfresh
  have hgone := State.runIpam_commit (Subnet.deleteTx_erases id) hr hfresh trivial
  exact ⟨after, (sawSince_snoc rfl).mono hfetched (List.prefix_refl _), hgone⟩

/-- A command that removes a network saw it without ports before, and each of the subnets that it
listed gone. -/
theorem deleteNetwork (hk : Keeps setup inv tag) {id : NetworkId}
    (hs : .start tag (.deleteNetwork id) ∈ past) :
    (Network.delete id).Sound inv tag (fun _ _ => True) past := by
  have hlist {past : List Move} : (Port.list id).Sound inv tag
      (fun ports later => ports = [] → Portless later tag id) past :=
    hk.readPorts _ fun _ before _ hnone => ⟨before, saw_snoc rfl, hnone⟩
  have hsurvey {past : List Move} : (Operation.readIpam fun ipam => ipam.subnetsOf id).Sound inv tag
      (fun subnets later => ∃ front look listed, later = front ++ [look] ∧ look.tag = tag ∧
        look.sees? = some .ipam ∧ look.after? = some listed ∧ listed.ipam.subnetsOf id = subnets) past :=
    hk.readIpam _ fun others before _ _ => ⟨past ++ others, _, before, rfl, rfl, rfl, rfl, rfl⟩
  refine (hk.makes fun _ _ _ _ => Network.fetch_made id).bind fun _ fetched hfetched _ => ?_
  refine hlist.bind fun ports seen hseen hportless => ?_
  dsimp only
  split
  · exact sound_throw_bind
  rename_i hcount
  rw [ne_eq, Decidable.not_not, List.length_eq_zero_iff] at hcount
  refine hsurvey.bind fun subnets surveyed hsurveyed hlisted => ?_
  obtain ⟨front, look, listed, rfl, hown, hsees, hlooked, rfl⟩ := hlisted
  have hclear : ((listed.ipam.subnetsOf id).forM fun subnet => Subnet.delete subnet.id).Sound inv tag
      (fun _ later => ∀ subnet ∈ listed.ipam.subnetsOf id, ∃ state,
        SawSince (front ++ [look]) later tag .ipam state ∧ state.ipam.subnets.find? subnet.id = none)
      (front ++ [look]) := by
    apply sound_forM_each
    · intro subnet later last hlast ⟨state, hsince, hnone⟩
      exact ⟨state, hsince.mono (List.prefix_refl _) hlast, hnone⟩
    · intro subnet _ later hlater
      refine (hk.deleteSubnet subnet.id).mono fun _ last hlast ⟨state, hsince, hnone⟩ => ?_
      exact ⟨state, hsince.mono hlater (List.prefix_refl last), hnone⟩
  refine (hclear.mono fun _ later hlater h => And.intro hlater h).bind
    fun _ cleared hcleared ⟨⟨rest, hrest⟩, hgone⟩ => ?_
  have hasked := ((hfetched.trans hseen).trans (hsurveyed.trans hcleared)).subset hs
  have hempty := (hportless hcount).mono (hsurveyed.trans hcleared)
  have hsplit : cleared = front ++ look :: rest := by simp [← hrest]
  have hcleared : Cleared cleared tag id front look := by
    refine ⟨rest, listed, hsplit, hown, hsees, hlooked, fun subnet hs => ?_⟩
    obtain ⟨state, ⟨others, hothers, hsaw⟩, hnone⟩ := hgone subnet hs
    obtain rfl : others = rest := List.append_cancel_left (hothers.symm.trans hrest.symm)
    exact ⟨state, hsaw, hnone⟩
  exact hk.makes fun moves _ hm _ => makes_ipam
    (.deleteNetwork id ⟨hm.subset hasked, hempty.mono hm, front, look, hcleared.mono hm⟩)

theorem drawPort (hk : Keeps setup inv tag) (hidle : Idle past tag) (hundrawn : Undrawn past tag) :
    (Operation.ask (.ident .port)).Sound inv tag
      (fun id later => Drew later tag id ∧ Idle later tag) past := by
  refine sound_lift fun others before id after hothers hinv hr hfresh => ?_
  have hdraw : ∀ id, ¬ Drew (past ++ others) tag id := by
    rintro id ⟨move, hmove, htag, hm⟩
    rcases List.mem_append.1 hmove with hmove | hmove
    · rw [hundrawn move hmove htag] at hm
      cases hm
    · exact hothers move hmove htag
  refine ⟨hk.call (.ident .port fun _ => hdraw) hinv hr hfresh, ?_, ?_⟩
  · exact ⟨_, List.mem_append_right _ (List.mem_singleton_self _), rfl, rfl⟩
  · cases hr
    exact forall_own hidle hothers rfl

theorem create (hk : Keeps setup inv tag) {request : PortRequest}
    (hs : .start tag (.createPort request) ∈ past) (hidle : Idle past tag)
    (hundrawn : Undrawn past tag) :
    (Port.create setup request).Sound inv tag (fun _ _ => True) past := by
  have htime {past : List Move} (hidle : Idle past tag) (hundrawn : Undrawn past tag) :
      (Operation.ask .time).Sound inv tag
        (fun _ later => Idle later tag ∧ Undrawn later tag) past := by
    refine sound_lift fun others before time after hothers hinv hr hfresh => ?_
    refine ⟨hk.call .time hinv hr hfresh, ?_, forall_own hundrawn hothers rfl⟩
    cases hr
    exact forall_own hidle hothers rfl
  refine sound_bind_except fun _ _ => ?_
  refine (hk.fetchNetwork request.network).bind fun network afterNetwork hnetwork hn => ?_
  obtain ⟨hn, hentered, hidle', hundrawn'⟩ := hn
  refine (htime (hidle' hidle) (hundrawn' hundrawn)).bind fun now afterTime htime hquiet => ?_
  refine (hk.drawPort hquiet.1 hquiet.2).bind fun id afterDraw hdraw hdrew => ?_
  refine sound_bind_except fun binding hb => ?_
  have hasked := ((hnetwork.trans htime).trans hdraw).subset hs
  have hentered := hentered.mono (htime.trans hdraw)
  refine (hk.insert request.mac hasked hdrew.1 hdrew.2 ⟨rfl, rfl, rfl, rfl, hb⟩ hentered).bind
    fun port stored hstored hp => ?_
  have hpast := ((hnetwork.trans htime).trans hdraw).trans hstored
  have hd : Dedicated inv tag port.id stored := by
    refine hk.dedicated (hpast.subset hs) fun moves state other hm hi ho => ?_
    rw [hp.1]
    exact (hk.orderly hi).drew ho (hdrew.1.mono (hstored.trans hm))
  have hown : Drew stored tag port.id := hp.1 ▸ hdrew.1.mono hstored
  have hsupplies : Supplies stored tag port.id := ⟨_, hpast.subset hs, hown⟩
  have hips := (hk.initialIps hsupplies hd setup.config request.fixedIps).orElse
    fun error later hlater =>
      hk.abandon (hd.mono hlater) (hown.mono hlater) (List.forall_mem_nil _) error
  refine hips.bind fun ips allocated hallocated hips => ?_
  have hsure : Sure allocated tag { port, network, binding } := by
    have hknown := hp.2.2.mono hallocated
    rw [hp.2.1] at hknown
    exact .inr ⟨hknown, hn.2.mono (((htime.trans hdraw).trans hstored).trans hallocated)⟩
  have hbind := (hk.bindWithin false setup.config.binding.maxBindTries false hsure).orElse
    fun error later hlater => hk.abandon (hd.mono (hallocated.trans hlater))
      (hown.mono (hallocated.trans hlater)) (fun ip hip => (hips ip hip).mono hlater) error
  exact hbind.bind fun context later _ _ => sound_pure trivial

theorem stage (hk : Keeps setup inv tag) {port : Port} (hsupplies : Supplies past tag port.id)
    (hd : Dedicated inv tag port.id past) (config : Config)
    (requests : Option (List FixedIpRequest)) :
    (Port.stage config port requests).Sound inv tag
      (fun changes later => ∀ ip ∈ changes.added ++ changes.removed, Learned later tag port.id ip)
      past := by
  cases requests with
  | none => exact sound_pure (List.forall_mem_nil _)
  | some requests =>
    show (Port.stageIps config port requests).Sound inv tag _ past
    unfold Port.stageIps
    extract_lets change
    have hchange (u : Unit) :
        (change u).Sound inv tag
          (fun changes later => ∀ ip ∈ changes.added ++ changes.removed,
            Learned later tag port.id ip) past := by
      refine (hk.ofPort port.id).bind fun current later hlater hcurrent => ?_
      refine sound_bind_except fun pair _ => ?_
      obtain ⟨kept, wanted⟩ := pair
      have hremoved (last : List Move) (hlast : later <+: last) :
          ∀ ip ∈ current.filter fun ip => !kept.contains ip, Learned last tag port.id ip :=
        fun ip hip => (hcurrent ip (List.mem_filter.1 hip).1).mono hlast
      dsimp only
      split
      · exact sound_pure (hremoved later (List.prefix_refl later))
      · refine (hk.forPort (hsupplies.mono hlater) (hd.mono hlater) config port.network wanted).bind ?_
        intro added last hlast hadded
        refine sound_pure fun ip hip => ?_
        rcases List.mem_append.1 hip with hip | hip
        · exact hadded ip hip
        · exact hremoved last hlast ip hip
    split
    · exact sound_throw_bind
    · exact hchange ()

theorem update (hk : Keeps setup inv tag) {update : PortUpdate}
    (hs : .start tag (.updatePort id update) ∈ past) :
    (Port.update setup id update).Sound inv tag (fun _ _ => True) past := by
  have hd : Dedicated inv tag id past := hk.dedicated hs fun _ _ _ _ _ ho => ho.symm
  refine sound_bind_except fun _ _ => (hk.findPort id).bind fun found seen hseen hfound => ?_
  cases found with
  | none => exact sound_throw
  | some port =>
    obtain ⟨hid, hport⟩ := hfound port rfl
    have hknown := hport.known
    refine sound_bind_except fun _ hcheck => ?_
    refine (hk.fetchNetwork port.network).bind fun network fetched hfetched hn => ?_
    have hpast := hseen.trans hfetched
    have hdport : Dedicated inv tag port.id fetched := hid ▸ hd.mono hpast
    have hsupplies : Supplies fetched tag port.id := ⟨_, hpast.subset hs, hid.symm⟩
    refine (hk.stage hsupplies hdport setup.config update.fixedIps).bind
      fun changes staged hstaged hips => ?_
    have hadded : ∀ ip ∈ changes.added, Learned staged tag port.id ip :=
      fun ip hip => hips ip (List.mem_append_left _ hip)
    have hremoved : ∀ ip ∈ changes.removed, Learned staged tag port.id ip :=
      fun ip hip => hips ip (List.mem_append_right _ hip)
    have hundo {answer : Option Port.Saved → List Move → Prop} (error : Error) (later : List Move)
        (hlater : staged <+: later) : (Port.undo changes error).Sound inv tag answer later := by
      have hgive := hk.giveBack (hdport.mono (hstaged.trans hlater)) fun ip hip =>
        (hadded ip hip).mono hlater
      exact hgive.bind fun _ _ _ _ => sound_throw
    have hlicence : (licence staged tag).save id update :=
      ⟨(hpast.trans hstaged).subset hs, port, hport.mono (hfetched.trans hstaged), hcheck⟩
    refine ((hk.save network hlicence).orElse hundo).bind fun answer saved hsaved ha => ?_
    cases answer with
    | none =>
      have hrelease := hk.releasePort ((hd.mono hpast).mono (hstaged.trans hsaved))
      exact hrelease.bind fun _ _ _ _ => sound_throw
    | some answer =>
      have hof := ha answer rfl
      have hsure : Sure saved tag answer.context := by
        rw [Sure, hof.port, hof.network, hn.1.1]
        have hlater := hstaged.trans hsaved
        exact .inr ⟨hknown.mono (hfetched.trans hlater), hn.1.2.mono hlater⟩
      have hrelease := hk.releases (hdport.mono (hstaged.trans hsaved)) (fun h => h) fun ip hip =>
        (hremoved ip hip).mono hsaved
      refine hrelease.bind fun _ released hreleased _ => ?_
      refine (hk.bindWithin true _ _ (hsure.mono hreleased)).bind fun context _ _ _ => ?_
      exact (hk.ofPort id).bind fun ips _ _ _ => sound_pure trivial

theorem delete (hk : Keeps setup inv tag) (hs : .start tag (.deletePort id) ∈ past) :
    (Port.delete setup id).Sound inv tag (fun _ _ => True) past := by
  have hd : Dedicated inv tag id past := hk.dedicated hs fun _ _ _ _ _ ho => ho.symm
  have hrelease {past : List Move} (hd : Dedicated inv tag id past) : Operation.Sound inv tag
      (fun _ _ => True) past (do
        let _ ← Allocation.releasePort setup.config.ipam id
        Operation.ask (.notify (.deleted id))) := by
    refine (hk.releasePort hd).bind fun _ _ _ _ => hk.makes fun _ _ _ _ => ?_
    exact makes_ask (.notify (.deleted id))
  have hremove := hk.remove fun _ hm => .inr (hm.subset hs)
  refine hremove.bind fun removed later hlater _ => ?_
  cases removed with
  | false => exact sound_throw_bind
  | true => exact hrelease (hd.mono hlater)

theorem boundContext (hk : Keeps setup inv tag) (id : PortId) (host : String) :
    (Port.boundContext setup id host).Sound inv tag
      (fun found later => ∀ context ∈ found, Shown later tag id host context) past := by
  refine (hk.findPort id).bind fun found seen hseen hfound => ?_
  cases found with
  | none => exact sound_pure (by simp)
  | some port =>
    have hknown := (hfound port rfl).2.known
    refine (hk.fetchNetwork port.network).bind fun network fetched hfetched hn => ?_
    refine (hk.load network id (some host)).bind fun context loaded hloaded hcontext => ?_
    cases context with
    | none => exact sound_pure (by simp)
    | some context =>
      obtain ⟨hof, state, hsaw, hfind, hrow⟩ := hcontext context rfl
      have hsure : Sure loaded tag context := by
        rw [Sure, hof.port, hof.network, hn.1.1]
        exact .inr ⟨hknown.mono (hfetched.trans hloaded), hn.1.2.mono hloaded⟩
      dsimp only
      split
      · exact sound_pure (by simp)
      · rename_i hhost
        rw [ne_eq, Decidable.not_not] at hhost
        have hasks : state.ports.Asks id host :=
          ⟨context.port, context.binding, hfind, hof.port, hrow, hhost⟩
        refine (hk.bindWithin true _ false hsure).bind fun final last hlast ⟨hid, hwent⟩ => ?_
        rw [hof.port] at hid hwent
        refine sound_pure fun shown hshown => ?_
        cases hshown
        exact ⟨hid, loaded, state, hlast, hsaw, hasks, hhost ▸ hwent⟩

theorem bindOnHost (hk : Keeps setup inv tag) (id : PortId) (host : String) :
    (Port.bindOnHost setup id host).Sound inv tag (fun _ _ => True) past := by
  unfold Port.bindOnHost
  extract_lets bindPort
  have hbind (u : Unit) : (bindPort u).Sound inv tag (fun _ _ => True) past := by
    refine (hk.findPort id).bind fun found seen hseen hfound => ?_
    cases found with
    | none => exact sound_pure trivial
    | some port =>
      have hport := (hfound port rfl).2
      have hknown := hport.known
      dsimp only
      split
      · exact sound_throw_bind
      · rename_i hdistributed
        rw [Bool.not_eq_true, Bool.not_eq_false'] at hdistributed
        refine (hk.fetchNetwork port.network).bind fun network fetched hfetched hn => ?_
        have hlicence : (licence fetched tag).host id := ⟨port, hport.mono hfetched, hdistributed⟩
        refine (hk.hostBinding host hlicence).bind fun answer bound hbound hof => ?_
        cases answer with
        | none => exact sound_pure trivial
        | some answer =>
          have hsure : Sure bound tag { port := answer.1, network, binding := answer.2 } := by
            rw [Sure, hof answer rfl, hn.1.1]
            exact .inr ⟨hknown.mono (hfetched.trans hbound), hn.1.2.mono hbound⟩
          exact (hk.bindWithin true _ false hsure).bind fun _ _ _ _ => sound_pure trivial
  split
  · exact sound_throw_bind
  · exact hbind ()

theorem not_serves (hk : Keeps setup inv tag) {command : Command} {moves : List Move}
    {state : State} (hs : .start tag command ∈ past) (hm : past <+: moves) (hi : inv moves state)
    (h : ∀ drew port, ¬ command.Serves drew port) : ¬ Serves moves tag port := by
  rintro ⟨served, hserved, ho⟩
  have heq := (hk.orderly hi).starts hserved (hm.subset hs)
  exact h _ port (heq ▸ ho)

/-- A command replies with what its operation answers. -/
theorem replies {α : Type} {post : α → List Move → Prop} {operation : Operation α} {f : α → Reply}
    {command : Command} (h : operation.Sound inv tag post past)
    (hf : ∀ a later, post a later → command.Backed later tag (f a)) :
    (do return f (← operation) : Operation Reply).Sound inv tag
      (fun reply later => command.Backed later tag reply) past :=
  h.bind fun a later _ ha => sound_pure (hf a later ha)

/-- A command that has just started makes no call but with the licence that it has by then. -/
theorem operation (hk : Keeps setup inv tag) {command : Command} (hs : .start tag command ∈ past)
    (hidle : Idle past tag) (hundrawn : Undrawn past tag) :
    (setup.operation command).Sound inv tag (fun reply later => command.Backed later tag reply)
      past := by
  have hdone {α : Type} {post : α → List Move → Prop} {operation : Operation α} {f : α → Reply}
      {command : Command} (h : operation.Sound inv tag post past)
      (hf : ∀ a later, command.Backed later tag (f a)) :
      (do return f (← operation) : Operation Reply).Sound inv tag
        (fun reply later => command.Backed later tag reply) past :=
    replies h fun a later _ => hf a later
  have hplain {α : Type} {operation : Operation α} {f : α → Reply} {command : Command}
      (hm : ∀ licence, operation.Makes (Call.Made setup licence))
      (hf : ∀ a later, command.Backed later tag (f a)) :
      (do return f (← operation) : Operation Reply).Sound inv tag
        (fun reply later => command.Backed later tag reply) past :=
    hdone (hk.makes fun moves _ _ _ => hm (licence moves tag)) hf
  cases command with
  | createNetwork request => exact hplain (fun _ => Network.create_made request) fun _ _ => trivial
  | network id => exact hplain (fun _ => Network.fetch_made id) fun _ _ => trivial
  | deleteNetwork id => exact hdone (hk.deleteNetwork hs) fun _ _ => trivial
  | createSubnet request => exact replies (hk.createSubnet request) fun _ _ h => h
  | subnet id => exact hplain (fun _ => Subnet.fetch_made id) fun _ _ => trivial
  | deleteSubnet id => exact hplain (fun _ => Subnet.delete_made id) fun _ _ => trivial
  | subnets network => exact hplain (fun _ => readIpam_made _) fun _ _ => trivial
  | pools subnet => exact hplain (fun _ => readIpam_made _) fun _ _ => trivial
  | ranges subnet => exact hplain (fun _ => readIpam_made _) fun _ _ => trivial
  | allocations subnet => exact hplain (fun _ => readIpam_made _) fun _ _ => trivial
  | portIps port => exact hdone (hk.ofPort port) fun _ _ => trivial
  | generate port candidates =>
    exact hdone (hk.generate fun _ hm => .inl ⟨_, hs, hm⟩) fun _ _ => trivial
  | allocate port candidates address =>
    exact hdone (hk.allocate (fun _ hm => .inl ⟨_, hs, hm⟩) address) fun _ _ => trivial
  | allocateAddress port subnet address =>
    have hoffered : Takes past tag port subnet := .inl ⟨_, hs, List.mem_singleton_self subnet⟩
    exact hdone (hk.allocateAddress hoffered address) fun _ _ => trivial
  | allocateForPort port network requests =>
    have hd := hk.dedicated hs fun _ _ _ _ _ ho => ho.symm
    exact hdone (hk.forPort ⟨_, hs, rfl⟩ hd setup.config network requests) fun _ _ => trivial
  | release ip =>
    refine hdone (hk.makes fun moves state hm hi => ?_) fun _ _ => trivial
    refine Allocation.release_made ip id fun port ho => ?_
    exact absurd ho (hk.not_serves hs hm hi fun _ _ h => h)
  | giveBack ips =>
    refine hdone (hk.makes fun moves state hm hi => ?_) fun _ _ => trivial
    refine Allocation.giveBack_made fun ip _ port ho => ?_
    exact absurd ho (hk.not_serves hs hm hi fun _ _ h => h)
  | releasePort port =>
    have hd := hk.dedicated hs fun _ _ _ _ _ ho => ho.symm
    exact hdone (hk.releasePort hd) fun _ _ => trivial
  | rebuild subnets => exact hplain (fun _ => Allocation.rebuild_made subnets) fun _ _ => trivial
  | createPort request => exact hdone (hk.create hs hidle hundrawn) fun _ _ => trivial
  | port id => exact hplain (fun _ => Port.fetch_made id) fun _ _ => trivial
  | ports network => exact hplain (fun _ => Port.list_made network) fun _ _ => trivial
  | updatePort id update => exact hdone (hk.update hs) fun _ _ => trivial
  | deletePort id => exact hdone (hk.delete hs) fun _ _ => trivial
  | boundContext id host =>
    refine replies (hk.boundContext id host) fun found later h => ?_
    cases found with
    | none => trivial
    | some context => exact h context rfl
  | bindOnHost id host => exact hdone (hk.bindOnHost id host) fun _ _ => trivial
  | report id status =>
    exact hdone (hk.makes fun _ _ hm _ => Port.report_made (hm.subset hs)) fun _ _ => trivial
  | load network id host => exact hdone (hk.load network id host) fun _ _ => trivial
  | negotiate context =>
    exact (sound_lift (hk.negotiate context)).bind fun _ _ _ _ => sound_pure trivial
  | commit id asked candidate =>
    exact hdone (hk.commit fun moves hm => .inl ⟨_, hm.subset hs, trivial⟩) fun _ _ => trivial
  | bind context mayTell news =>
    exact hdone (hk.bindWithin mayTell _ news (.inl ⟨_, hs, trivial⟩)) fun _ _ => trivial

end Keeps

namespace Scene

variable {allowed : Setup → Command → Prop} {moves : List Move} {first scene : Scene}

/-- What starts and ends keep, and all calls with a licence, holds at the end of every run. -/
theorem Run.keeps (inv : List Move → State → Prop) (run : Run allowed first moves scene)
    (hrunning : first.running = []) (hfresh : ∀ move ∈ moves, move.Fresh)
    (hinv : inv [] first.state)
    (hstart : ∀ ⦃moves state setup command tag⦄, allowed setup command →
      (∀ move ∈ moves, move.tag < tag) → inv moves state → inv (moves ++ [.start tag command]) state)
    (hkeeps : ∀ ⦃setup command⦄, allowed setup command → ∀ tag, Keeps setup inv tag)
    (hfinish : ∀ ⦃moves state tag answer⦄, Ends moves tag answer → inv moves state →
      inv (moves ++ [.finish tag answer]) state) : inv moves scene.state := by
  have hi : Invariant allowed inv (fun tag answer past => Ends past tag answer) := by
    refine ⟨fun {moves state setup command tag} may htags hinv => ⟨hstart may htags hinv, ?_⟩,
      fun {past others state tag answer} ⟨command, hs, hbacked⟩ _ hinv => hfinish ?_ hinv⟩
    · have hs : Move.start tag command ∈ moves ++ [.start tag command] :=
        List.mem_append_right _ (List.mem_singleton_self _)
      have hown {P : Move → Prop} (hP : P (.start tag command)) :
          ∀ move ∈ moves ++ [.start tag command], move.tag = tag → P move := by
        intro move hmove htag
        rcases List.mem_append.1 hmove with hmove | hmove
        · exact absurd htag (Nat.ne_of_lt (htags move hmove))
        · rw [List.mem_singleton.1 hmove]
          exact hP
      have hsound := (hkeeps may tag).operation hs (hown trivial) (hown rfl)
      exact Program.Sound.mono hsound fun _ _ hlater h => ⟨command, hlater.subset hs, h⟩
    · exact Ends.mono ⟨command, hs, hbacked⟩ (List.prefix_append past others)
  exact (run.kept hi hrunning hinv hfresh).holds

end Scene

end ControlPlane

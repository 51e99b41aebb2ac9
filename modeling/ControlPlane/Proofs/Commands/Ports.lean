import ControlPlane.Proofs.Commands.Addresses
import ControlPlane.Proofs.Replies
import ControlPlane.Proofs.Ports.Transactions

/-! Operations on ports earn the licences that they use: a new port is stored under the identifier
drawn for it, and a candidate is committed after it was negotiated. -/

namespace ControlPlane

open Operation

/-- A context shows a port in its network as it was stored, unless the caller made it up. -/
def Sure (moves : List Move) (tag : Nat) (context : PortContext) : Prop :=
  (∃ command, .start tag command ∈ moves ∧ command.ByHand) ∨
    Known moves context.port.id context.network.id ∧ Stored moves context.network

variable {setup : Setup} {inv : List Move → State → Prop} {tag : Nat} {past later : List Move}
  {id port : PortId} {context candidate : PortContext}

theorem Sure.mono (h : Sure past tag context) (hp : past <+: later) : Sure later tag context := by
  rcases h with ⟨command, hs, hc⟩ | h
  · exact .inl ⟨command, hp.subset hs, hc⟩
  · exact .inr ⟨h.1.mono hp, h.2.mono hp⟩

theorem Sure.of (h : Sure past tag context) (hc : candidate.Of context.port.id context.network) :
    Sure past tag candidate := by
  rcases h with h | h
  · exact .inl h
  · rw [← hc.port, ← hc.network] at h
    exact .inr h

theorem Negotiated.network (h : Negotiated past context candidate) :
    candidate.network = context.network := by
  rcases h with rfl | ⟨_, _, _, _, _, _, _, rfl⟩
  · rfl
  · rfl

namespace Keeps

theorem fetchNetwork (hk : Keeps setup inv tag) (id : NetworkId) :
    (Network.fetch id).Sound inv tag (fun network later =>
      (network.id = id ∧ Stored later network) ∧ Entered later tag network.id ∧
        (Idle past tag → Idle later tag) ∧ (Undrawn past tag → Undrawn later tag)) past := by
  have hread : (Operation.readIpam fun ipam => ipam.networks.find? id).Sound inv tag
      (fun found later => (∀ network ∈ found, (network.id = id ∧ Stored later network) ∧
        Entered later tag network.id) ∧
        (Idle past tag → Idle later tag) ∧ (Undrawn past tag → Undrawn later tag)) past := by
    refine hk.readIpam _ fun others before hothers hinv => ⟨fun network hn => ?_, ?_, ?_⟩
    · have hid : network.id = id := (hk.orderly hinv).network hn
      have hstored : before.ipam.networks.find? network.id = some network := hid ▸ hn
      exact ⟨⟨hid, tag, before, passed_snoc, hstored⟩, before, saw_snoc rfl,
        Table.contains_iff.2 ⟨network, hstored⟩⟩
    · exact fun h => forall_own h hothers rfl
    · exact fun h => forall_own h hothers rfl
  refine hread.bind fun found later _ hf => ?_
  cases found with
  | none => exact sound_throw
  | some network =>
    obtain ⟨hstored, hentered⟩ := hf.1 network rfl
    exact sound_pure ⟨hstored, hentered, hf.2⟩

theorem findPort (hk : Keeps setup inv tag) (id : PortId) :
    (Port.find id).Sound inv tag
      (fun found later => ∀ port ∈ found, port.id = id ∧ Seen later id port) past := by
  refine hk.readPorts _ fun moves before hinv port hp => ⟨?_, ?_⟩
  · exact (hk.orderly hinv).keyed.port hp
  · exact ⟨tag, before, passed_snoc, hp⟩

theorem load (hk : Keeps setup inv tag) (network : Network) (id : PortId) (host : Option String) :
    (PortContext.load network id host).Sound inv tag
      (fun found later => ∀ context ∈ found, context.Of id network ∧ ∃ state,
        Saw later tag .ports state ∧ state.ports.ports.find? id = some context.port ∧
        state.ports.bindingAt context.port host = some context.binding) past := by
  refine hk.readPorts _ fun moves before hinv context hc => ?_
  obtain ⟨port, hp, hc⟩ := Option.bind_eq_some_iff.1 hc
  obtain ⟨binding, hb, hc⟩ := Option.bind_eq_some_iff.1 hc
  cases hc
  exact ⟨⟨(hk.orderly hinv).keyed.port hp, rfl⟩, before, saw_snoc rfl, hp, hb⟩

theorem tryDrivers (hk : Keeps setup inv tag) (context : PortContext) {drivers : List String}
    (hd : ∀ driver ∈ drivers, driver ∈ setup.drivers) :
    (context.candidate.tryDrivers drivers).Sound inv tag
      (fun candidate later => Negotiated later context candidate) past := by
  induction drivers generalizing past with
  | nil => exact .inl rfl
  | cons driver rest ih =>
    obtain ⟨hdriver, hrest⟩ := List.forall_mem_cons.1 hd
    intro others before answer after _ hinv hr hfresh
    refine ⟨hk.call (.bind context.candidate hdriver) hinv hr hfresh, ?_⟩
    cases answer with
    | none => exact ih hrest
    | some result =>
      dsimp only
      split
      · rename_i haccepts
        have hmove := List.mem_append_right (past ++ others) (List.mem_singleton_self
          (Move.call tag (.bind driver context.candidate) before (some result) after))
        exact .inr ⟨tag, driver, result, before, after, hmove, haccepts, rfl⟩
      · exact ih hrest

theorem negotiate (hk : Keeps setup inv tag) (context : PortContext) :
    (context.negotiate setup.drivers).Sound inv tag
      (fun candidate later => Negotiated later context candidate) past :=
  hk.tryDrivers context fun _ h => h

theorem announce (hk : Keeps setup inv tag) (context : PortContext) :
    Operation.Sound inv tag (fun _ _ => True) past
      (ExceptT.lift (context.announce setup.drivers)) :=
  sound_lift (hk.program fun _ _ _ _ => PortContext.announce_made context setup.drivers)

theorem commit (hk : Keeps setup inv tag) {asked : Binding}
    (h : ∀ moves, past <+: moves → (licence moves tag).commit id asked candidate) :
    (Binding.commit setup.drivers id asked candidate).Sound inv tag
      (fun outcome later => ∀ context ∈ outcome.context?, context.Of id candidate.network ∧
        Went past later tag id asked.host context.binding.host) past := by
  have hcommit : (Operation.ports (Binding.commitTx setup.drivers id asked candidate)).Sound inv tag
      (fun outcome later => ∀ context ∈ outcome.context?, context.Of id candidate.network ∧
        Went past later tag id asked.host context.binding.host) past := by
    refine hk.ports (fun others _ _ _ => .commit _ _ _ (h _ (List.prefix_append _ others))) ?_
    intro others before outcome after refuser hinv hr hfresh
    have hkeyed := (hk.orderly hinv).keyed
    have htx := Binding.commitTx_ensures setup.drivers id asked candidate before.ports
    rcases State.runReviewed_ensures htx hr hfresh rfl with
      ⟨_, ha, _⟩ | ⟨_, _, ha, hports, hpost⟩ | ⟨_, _, ha, hpost, hclosing⟩
    · cases ha
    · cases ha
      generalize hclosing : Closing.rollback outcome = closing at hpost
      cases hpost with
      | gone =>
        cases hclosing
        simp [CommitOutcome.context?]
      | @retry port live hp hlive =>
        cases hclosing
        rintro _ ⟨⟩
        refine ⟨⟨hkeyed.port hp, rfl⟩, ?_⟩
        rcases hkeyed.bindingAt hp hlive with hhost | ⟨hkind, hb⟩
        · exact .inl hhost
        · refine .inr ⟨after, sawSince_snoc rfl, port, live, ?_⟩
          rw [hports]
          exact ⟨hp, hkind, hb, rfl⟩
      | committed => cases hclosing
    · cases ha
      generalize after.ports = tables at hpost
      cases hpost with
      | committed hl hs hsave hport hnetwork hbinding =>
        rcases hclosing with hc | ⟨_, _, hc⟩
        · cases hc
        · cases hc
          rintro _ ⟨⟩
          refine ⟨⟨hport ▸ hs.id_eq.trans (hkeyed.port hl.found), hnetwork⟩, .inl ?_⟩
          rw [hbinding]
          exact hl.host_eq
      | _ => rcases hclosing with hc | ⟨_, _, hc⟩ <;> cases hc
  refine hcommit.bind fun outcome later _ ho => ?_
  cases outcome with
  | committed context =>
    refine (hk.announce context).bind fun _ last hlast _ => sound_pure fun context hc => ?_
    exact ⟨(ho context hc).1, (ho context hc).2.mono (List.prefix_refl past) hlast⟩
  | retry context => exact sound_pure ho
  | gone => exact sound_pure ho

theorem finish (hk : Keeps setup inv tag) (context : PortContext) (tell : Bool) :
    (context.finish tell).Sound inv tag (fun final _ => final = context) past := by
  unfold PortContext.finish
  have hnotify : (Operation.ask (.notify (.updated context))).Sound inv tag (fun _ _ => True) past :=
    hk.makes fun _ _ _ _ => makes_ask (.notify (.updated context))
  split
  · exact hnotify.bind fun _ _ _ _ => sound_pure rfl
  · exact sound_pure rfl

/-- Binding a port shows the port, on the host that it was on unless it was moved meanwhile. -/
theorem bindWithin (hk : Keeps setup inv tag) (mayTell : Bool) (tries : Nat) (news : Bool)
    (h : Sure past tag context) :
    (context.bindWithin setup.drivers mayTell tries news).Sound inv tag
      (fun final later => final.port.id = context.port.id ∧
        Went past later tag context.port.id context.binding.host final.binding.host) past := by
  induction tries generalizing context news past with
  | zero =>
    unfold PortContext.bindWithin
    split
    · exact sound_pure ⟨rfl, .inl rfl⟩
    · exact (hk.finish context _).mono fun _ _ _ heq => heq ▸ ⟨rfl, .inl rfl⟩
  | succ tries ih =>
    unfold PortContext.bindWithin
    split
    · rename_i hpending
      rw [PortContext.isPending, Bool.and_eq_true] at hpending
      refine (sound_lift (hk.negotiate context)).bind fun candidate later hlater hn => ?_
      -- Drivers were asked without a lock, but others can only add moves until the commit.
      have hlicence (moves : List Move) (hm : later <+: moves) :
          (licence moves tag).commit context.port.id context.binding candidate := by
        rcases h.mono (hlater.trans hm) with h | h
        · exact .inl h
        · exact .inr ⟨context, rfl, rfl, hpending.2, h.1, h.2, hn.mono hm⟩
      refine (hk.commit hlicence).bind fun outcome last hlast ho => ?_
      rw [hn.network] at ho
      have hsure := h.mono (hlater.trans hlast)
      have hnext {next : PortContext} (hc : next ∈ outcome.context?) (news : Bool) :
          (next.bindWithin setup.drivers mayTell tries news).Sound inv tag
            (fun final later => final.port.id = context.port.id ∧
              Went past later tag context.port.id context.binding.host final.binding.host) last := by
        obtain ⟨hof, hwent⟩ := ho next hc
        refine (ih news (hsure.of hof)).mono fun final end_ hend hfinal => ?_
        obtain ⟨hid, hw⟩ := hfinal
        rw [hof.port] at hid hw
        exact ⟨hid, (hwent.mono hlater (List.prefix_refl last)).trans hw (hlater.trans hlast) hend⟩
      cases outcome with
      | committed committed => exact hnext rfl _
      | retry live => exact hnext rfl _
      | gone => exact sound_pure ⟨rfl, .inl rfl⟩
    · exact (hk.finish context _).mono fun _ _ _ heq => heq ▸ ⟨rfl, .inl rfl⟩

theorem save (hk : Keeps setup inv tag) (network : Network) {update : PortUpdate}
    (h : (licence past tag).save id update) :
    (Port.save setup.drivers id network update).Sound inv tag
      (fun answer _ => ∀ saved ∈ answer, saved.context.Of id network) past := by
  have hsave : (Operation.ports (Port.saveTx setup.drivers id network update)).Sound inv tag
      (fun answer _ => ∀ saved ∈ answer, saved.context.Of id network) past := by
    obtain ⟨hs, port, hseen, hcheck⟩ := h
    refine hk.ports (fun others _ _ _ => .savePort id network update ?_) ?_
    · have hlater := List.prefix_append past others
      exact ⟨hlater.subset hs, port, hseen.mono hlater, hcheck⟩
    intro others before answer after refuser hinv hr hfresh
    have hcloses := Port.saveTx_closes setup.drivers id network update
    have hkeyed := (hk.orderly hinv).keyed
    exact (State.runReviewed_closes hcloses hkeyed hr hfresh).2 answer rfl
  refine hsave.bind fun answer later _ ha => ?_
  cases answer with
  | none => exact sound_pure ha
  | some saved =>
    exact (hk.announce saved.context).bind fun _ _ _ _ => sound_pure ha

theorem hostBinding (hk : Keeps setup inv tag) (host : String) (h : (licence past tag).host id) :
    (Operation.ports (Port.hostBinding id host)).Sound inv tag
      (fun answer _ => ∀ found ∈ answer, found.1.id = id) past := by
  obtain ⟨port, hseen, hdistributed⟩ := h
  refine hk.ports (fun others _ _ _ => .hostBinding id host ?_) ?_
  · exact ⟨port, hseen.mono (List.prefix_append past others), hdistributed⟩
  intro others before answer after refuser hinv hr hfresh
  have hkeyed := (hk.orderly hinv).keyed
  exact (State.runReviewed_closes (Port.hostBinding_closes id host) hkeyed hr hfresh).2 answer rfl

theorem insert (hk : Keeps setup inv tag) {port : Port} {binding : Binding} {request : PortRequest}
    (mac : Option String) (hs : .start tag (.createPort request) ∈ past)
    (hdrew : Drew past tag port.id) (hidle : Idle past tag) (hb : request.Describes port binding)
    (hn : Entered past tag port.network) :
    (Port.insert setup.config port binding mac).Sound inv tag
      (fun new later => new.id = port.id ∧ new.network = port.network ∧
        Known later new.id new.network) past := by
  refine hk.ports (fun others _ hothers _ => .insertPort port binding mac ?_) ?_
  · have hlater := List.prefix_append past others
    exact ⟨hdrew.mono hlater, hidle.others hothers, request, hb, hlater.subset hs, hn.mono hlater⟩
  · intro others before new after refuser hinv hr hfresh
    have hinsert := Port.insertTx_stores setup.config port binding mac before.ports
    rcases State.runReviewed_ensures hinsert hr hfresh rfl with
      ⟨_, ha, _⟩ | ⟨_, _, _, _, _, hc, _⟩ | ⟨_, _, ha, ⟨stored, rfl, ⟨mac, hnew, _⟩, hsave⟩, hclosing⟩
    · cases ha
    · cases hc
    · obtain rfl : stored = new := by
        rcases hclosing with hc | ⟨_, _, hc⟩
        · cases hc
          exact (Except.ok.inj ha).symm
        · cases hc
      refine ⟨by rw [hnew], by rw [hnew], tag, after, stored, passed_snoc, ?_, rfl⟩
      rw [(Ports.saveBinding_eq hsave).2]
      simp only [Ports.savePort, Table.find?_insert, if_true]

theorem dedicated (hk : Keeps setup inv tag) {command : Command} (hs : .start tag command ∈ past)
    (h : ∀ moves state other, past <+: moves → inv moves state →
      command.Serves (Drew moves tag) other → other = port) : Dedicated inv tag port past := by
  intro moves state hm hi other ho
  obtain ⟨served, hserved, ho⟩ := ho
  have heq := (hk.orderly hi).starts hserved (hm.subset hs)
  exact h moves state other hm hi (heq ▸ ho)

end Keeps

end ControlPlane

import ControlPlane.Proofs.Commands
import ControlPlane.Proofs.Ports.Retained
import ControlPlane.Proofs.Ranges.Holders
import ControlPlane.Proofs.Ranges.Lifecycle

/-! What a call with a licence makes of the stores and of the supply. -/

namespace ControlPlane

/-- What is committed with a licence. -/
def Licence.Commits (licence : Licence) (key : BindingKey) (old new : Binding) : Prop :=
  ∃ id asked candidate, licence.commit id asked candidate ∧
    Binding.Commits id asked candidate.binding key old new

/-- A port may be given addresses, of some subnet. -/
def Licence.Gives (licence : Licence) (port : PortId) : Prop := ∃ subnet, licence.take port subnet

/-- A licensed call lets rows evolve and removes no port but one that it may, or it stores a new port
with its binding. -/
inductive Licence.Changes (licence : Licence) (before after : Ports) : Prop
  | evolves (h : before.Evolves licence.Commits after)
    (hkept : ∀ id, before.ports.contains id = true →
      after.ports.contains id = true ∨ licence.remove id)
  | inserted (port new : Port) (binding : Binding) (hl : licence.insert port binding)
    (hnew : ∃ mac, new = { port with mac } ∧ before.Offers port.network mac)
    (hsave : (before.savePort new).saveBinding binding = .ok after)

theorem RowChange.mono {bound bound' : Binding → Binding → Prop} {old new : Option Binding}
    (h : RowChange bound old new) (hb : ∀ old new, bound old new → bound' old new) :
    RowChange bound' old new := by
  cases h with
  | same => exact .same _
  | removed => exact .removed _
  | created hn => exact .created hn
  | distributed ho hn => exact .distributed ho hn
  | reset hi hr => exact .reset hi hr
  | bound ho hbound => exact .bound ho (hb _ _ hbound)

theorem Ports.Evolves.mono {bound bound' : BindingKey → Binding → Binding → Prop}
    {before after : Ports} (h : before.Evolves bound after)
    (hb : ∀ key old new, bound key old new → bound' key old new) : before.Evolves bound' after :=
  ⟨h.keyed, fun key => (h.rows key).mono (hb key), h.ports⟩

namespace State

variable {eager : Prop} {α : Type} {state after : State} {answer : Except Error α}

theorem runIpam_sound {tx : Tx Ipam (Ending α)}
    (h : tx.Ensures (Ipam.Sound eager) (fun _ => Ipam.Sound eager) fun _ => True)
    (hr : (answer, after) = state.runIpam tx) (hd : after.supply.Distinct)
    (hs : state.ipam.Sound eager state.supply) :
    after.ipam.Sound eager after.supply ∧ after.supply.Extends state.supply := by
  have hext := runIpam_extends h.advances hr
  exact ⟨runIpam_keeps h hr hd hs (hs.of_extends hext), hext⟩

theorem runReviewed_sound {tx : Tx Ports (Closing α)} {refuser : Option (String × Error)}
    (h : tx.Advances) (hr : (answer, after) = state.runReviewed refuser tx)
    (hs : state.ipam.Sound eager state.supply) :
    after.ipam.Sound eager after.supply ∧ after.supply.Extends state.supply := by
  have hext := runReviewed_extends h hr
  rw [(runReviewed_cases hr).1]
  exact ⟨hs.of_extends hext, hext⟩

end State

/-- What a call does to the stores: it keeps the addresses sound, gives and releases none without a
licence, and changes no port or binding without one. -/
def Call.Abides (eager : Prop) (licence : Licence) : {α : Type} → Call α → Prop
  | _, .ipam tx =>
    tx.Ensures (Ipam.Sound eager) (fun _ => Ipam.Sound eager) (fun _ => True) ∧
      tx.Hands licence.Gives licence.release
  | _, .ports tx => ∀ store : Ports, store.Keyed →
    tx.Ensures (fun tables _ => tables = store) (fun _ tables _ => licence.Changes store tables)
      fun _ => True
  | _, _ => True

namespace Call.Made

variable {eager : Prop} {setup : Setup} {licence : Licence} {α : Type} {c : Call α}
  {before after : State} {answer : α}

theorem abides (h : c.Made setup licence)
    (heager : eager → setup.config.ipam.reclaimOnRelease = true) : c.Abides eager licence := by
  have hcloses {β : Type} {tx : Tx Ports (Closing β)} {about : β → Prop}
      {bound : BindingKey → Binding → Binding → Prop} (h : tx.Closes bound about)
      (hbound : ∀ key old new, bound key old new → licence.Commits key old new)
      (hretains : tx.Retains) : (Call.ports tx).Abides eager licence := by
    intro store hk
    refine ((h store).and (hretains.keeps store)).weaken (fun _ _ _ heq => ⟨⟨heq, hk⟩, heq⟩)
      (fun _ _ _ _ hc => ?_) fun _ _ => trivial
    exact .evolves (hc.1.evolves.mono hbound) fun id hid => .inl (hc.2 id hid)
  have hquiet {β : Type} {tx : Tx Ports (Closing β)} {about : β → Prop}
      (h : tx.Closes (fun _ _ _ => False) about) (hretains : tx.Retains) :
      (Call.ports tx).Abides eager licence := hcloses h (fun _ _ _ hf => hf.elim) hretains
  cases h with
  | readIpam f =>
    refine ⟨Tx.ensures_get_bind fun seen => Tx.ensures_pure fun _ _ h => h.2, ?_⟩
    exact (Tx.spares_get.bind fun seen => Tx.spares_pure _).hands
  | createNetwork network =>
    exact ⟨(Network.createTx_ensures network).any_fails,
      (Network.createTx_spares network fun _ => rfl).hands⟩
  | deleteNetwork id =>
    exact ⟨(Network.deleteTx_ensures id).any_fails,
      (Network.deleteTx_spares id fun _ => rfl).hands⟩
  | createSubnet hc hg hb =>
    exact ⟨(Subnet.createTx_ensures hb).any_fails, (Subnet.createTx_spares _ _ _ _).hands⟩
  | deleteSubnet id => exact ⟨(Subnet.deleteTx_ensures id).any_fails, Subnet.deleteTx_hands id⟩
  | generate port network candidates hl =>
    exact ⟨Allocation.generateTx_ensures port network candidates,
      Allocation.generateTx_hands network fun subnet hs => ⟨subnet, hl subnet hs⟩⟩
  | rebuild id =>
    exact ⟨(Allocation.rebuildTx_ensures id).any_fails,
      (Allocation.rebuildTx_spares id).allocations.hands⟩
  | allocate port subnet address _ hl =>
    exact ⟨(Allocation.allocateTx_ensures eager port subnet address).any_fails,
      Allocation.allocateTx_hands subnet address ⟨subnet, hl⟩⟩
  | release ip hreclaim hl =>
    refine ⟨(Allocation.releaseTx_ensures (fun he => hreclaim (heager he)) ip).any_fails, ?_⟩
    exact (Allocation.releaseTx_hands _ ip).mono fun other heq => heq ▸ hl
  | readPorts f =>
    intro store hk
    refine Tx.ensures_get_bind fun seen => Tx.ensures_pure ?_
    rintro _ _ ⟨_, rfl⟩
    exact .evolves hk.evolves fun _ hid => .inl hid
  | fetchPort id => exact hquiet (Port.fetchTx_closes id) (Port.fetchTx_retains id)
  | insertPort port binding mac hl =>
    intro store hk
    refine (Port.insertTx_stores setup.config port binding mac store).to_post ?_
    rintro _ tables _ _ ⟨new, _, hnew, hsave⟩
    exact .inserted port new binding hl hnew hsave
  | removePort id hl =>
    intro store hk
    refine ((Port.removeTx_closes id store).and (Port.removeTx_removes id store)).weaken
      (fun _ _ _ heq => ⟨⟨heq, hk⟩, heq⟩) (fun _ _ _ _ hc => ?_) fun _ _ => trivial
    refine .evolves (hc.1.evolves.mono fun _ _ _ hf => hf.elim) fun other ho => ?_
    rcases hc.2 other ho with hkept | rfl
    · exact .inl hkept
    · exact .inr hl
  | savePort id network update hl =>
    exact hquiet (Port.saveTx_closes _ id network update) (Port.saveTx_retains _ id network update)
  | hostBinding id host hl =>
    exact hquiet (Port.hostBinding_closes id host) (Port.hostBinding_retains id host)
  | status id network status hl =>
    exact hquiet (Port.statusTx_closes _ id network status)
      (Port.statusTx_retains _ id network status)
  | commit id asked candidate hl =>
    exact hcloses (Binding.commitTx_closes setup.drivers id asked candidate)
      (fun _ _ _ hb => ⟨id, asked, candidate, hl, hb⟩)
      (Binding.commitTx_retains setup.drivers id asked candidate)
  | bind => trivial
  | postcommit => trivial
  | notify => trivial
  | ident => trivial
  | time => trivial

end Call.Made

namespace Call.Abides

variable {eager : Prop} {licence : Licence} {α : Type} {c : Call α} {before after : State}
  {answer : α}

theorem sound (h : c.Abides eager licence) (hr : c.Result before answer after)
    (hd : after.supply.Distinct) (hk : before.ports.Keyed)
    (hs : before.ipam.Sound eager before.supply) :
    after.ipam.Sound eager after.supply ∧ after.supply.Extends before.supply := by
  cases c with
  | ipam tx => exact State.runIpam_sound h.1 hr hd hs
  | ports tx =>
    obtain ⟨_, hr⟩ := hr
    exact State.runReviewed_sound (h _ hk).advances hr hs
  | ident kind =>
    cases hr
    have hext := before.supply.ident_extends kind
    exact ⟨hs.of_extends hext, hext⟩
  | time =>
    cases hr
    exact ⟨hs.of_extends ⟨rfl, Nat.le_refl _⟩, rfl, Nat.le_refl _⟩
  | _ =>
    cases hr
    exact ⟨hs, .refl _⟩

theorem ports (h : c.Abides eager licence) (hr : c.Result before answer after)
    (hd : after.supply.Distinct) (hk : before.ports.Keyed) :
    licence.Changes before.ports after.ports := by
  have hkept : licence.Changes before.ports before.ports :=
    .evolves hk.evolves fun _ hid => .inl hid
  cases c with
  | ipam tx =>
    rw [(State.runIpam_cases hr).1]
    exact hkept
  | ports tx =>
    obtain ⟨_, hr⟩ := hr
    rcases State.runReviewed_ensures (h before.ports hk) hr hd rfl with
      ⟨_, _, hports, _⟩ | ⟨_, _, _, hports, _⟩ | ⟨_, _, _, hpost, _⟩
    · rw [hports]
      exact hkept
    · rw [hports]
      exact hkept
    · exact hpost
  | _ =>
    cases hr
    exact hkept

theorem holders (h : c.Abides eager licence) (hr : c.Result before answer after)
    (hd : after.supply.Distinct) (hl : before.ipam.Labelled) (ip : AllocatedIp) :
    HolderChange licence.Gives (licence.release ip) (before.ipam.holder? ip)
      (after.ipam.holder? ip) := by
  cases c with
  | ipam tx => exact State.runIpam_holders h.2 hl hr hd ip
  | ports tx =>
    obtain ⟨_, hr⟩ := hr
    rw [(State.runReviewed_cases hr).1]
    exact .same _
  | _ =>
    cases hr
    exact .same _

end Call.Abides

/-- Only a call for an identifier draws one, and it is new. -/
theorem Call.Made.drawn {setup : Setup} {licence : Licence} {α : Type} {c : Call α}
    {before after : State} {answer : α} {id : PortId} (h : c.Made setup licence)
    (hr : c.Result before answer after) (hd : after.supply.Distinct)
    (hid : c.drawn? answer = some id) :
    licence.draw ∧ ¬ before.supply.Drawn id.value ∧ after.supply.Drawn id.value := by
  cases h with
  | ident kind hl =>
    cases kind with
    | port =>
      cases hid
      cases hr
      exact ⟨hl rfl, Supply.ident_not_drawn hd, before.supply.ident_drawn .port⟩
    | _ => cases hid
  | _ => cases hid

end ControlPlane

import ControlPlane.Proofs.Ports.Commits
import ControlPlane.Proofs.Ports.Saving

/-! Ports that stay. No transaction of the port store but one removes a port, whatever port it is. -/

namespace ControlPlane

/-- A transaction that removes no port. -/
def Tx.Retains {α : Type} (tx : Tx Ports α) : Prop :=
  ∀ id, tx.Ensures (fun store _ => store.ports.contains id = true)
    (fun _ store _ => store.ports.contains id = true) fun _ => True

namespace Ports

variable {store after : Ports} {id : PortId} {binding : Binding}

theorem contains_saveBinding (h : store.saveBinding binding = .ok after)
    (hc : store.ports.contains id = true) : after.ports.contains id = true := by
  obtain ⟨_, rfl⟩ := saveBinding_eq h
  exact hc

theorem contains_saveHostBinding (h : store.saveHostBinding binding = .ok after)
    (hc : store.ports.contains id = true) : after.ports.contains id = true := by
  obtain ⟨_, _, h⟩ := Error.bind_eq_ok_iff.1 h
  split at h
  · cases h
  · cases h
    exact hc

theorem contains_saveBindingOf {port : Port} (h : store.saveBindingOf port binding = .ok after)
    (hc : store.ports.contains id = true) : after.ports.contains id = true := by
  unfold saveBindingOf at h
  split at h
  · exact contains_saveHostBinding h hc
  · exact contains_saveBinding h hc

end Ports

namespace Tx

variable {α β ι : Type} {tx : Tx Ports α}

theorem Retains.bind {f : α → Tx Ports β} (h : tx.Retains) (hf : ∀ a, (f a).Retains) :
    (tx >>= f).Retains :=
  fun id => (h id).bind fun a => hf a id

theorem Retains.keeps (h : tx.Retains) (store : Ports) :
    tx.Ensures (fun tables _ => tables = store)
      (fun _ tables _ => ∀ id, store.ports.contains id = true → tables.ports.contains id = true)
      fun _ => True := by
  intro tables supply
  refine ⟨(h ⟨0⟩ tables supply).1, ?_⟩
  rintro hd rfl
  split
  · rename_i hok
    intro id hid
    have hpost := (h id tables supply).2 hd hid
    simpa only [hok] using hpost
  · trivial

theorem retains_pure (a : α) : (pure a : Tx Ports α).Retains :=
  fun _ => ensures_pure fun _ _ h => h

theorem retains_throw (error : Error) : (throw error : Tx Ports α).Retains :=
  fun _ => ensures_throw fun _ _ _ => trivial

theorem retains_get : (get : Tx Ports Ports).Retains :=
  fun _ => ensures_get.to_post fun _ _ _ _ h => h.2

theorem retains_time : (Tx.time : Tx Ports Timestamp).Retains :=
  fun _ => ensures_time fun _ _ h => h

theorem retains_savePort (port : Port) :
    (modify fun store : Ports => store.savePort port : Tx Ports PUnit).Retains :=
  fun _ => ensures_modify fun _ _ h => Ports.contains_savePort h

theorem retains_change {f : Ports → Except Error Ports} (h : ∀ store kept id, f store = .ok kept →
    store.ports.contains id = true → kept.ports.contains id = true) : (Tx.change f).Retains := by
  refine fun id => ensures_change fun store _ hc => ?_
  split
  · exact h store _ id ‹_› hc
  · trivial

theorem retains_saveHostBinding (binding : Binding) :
    (Tx.change fun store : Ports => store.saveHostBinding binding).Retains :=
  retains_change fun _ _ _ => Ports.contains_saveHostBinding

theorem retains_forM {items : List ι} {body : ι → Tx Ports Unit} (h : ∀ item, (body item).Retains) :
    (items.forM body).Retains :=
  fun id => ensures_forM (fun _ (store : Ports) _ => store.ports.contains id = true)
    fun _ item _ _ => h item id

end Tx

open Tx

namespace Port

theorem fetchTx_retains (id : PortId) : (fetchTx id).Retains := by
  refine retains_get.bind fun seen => ?_
  split
  · exact retains_throw _
  · exact retains_pure _

theorem hostBinding_retains (id : PortId) (host : String) : (hostBinding id host).Retains := by
  refine retains_get.bind fun seen => ?_
  split
  · split
    · exact (retains_saveHostBinding _).bind fun _ => retains_pure _
    · split
      · exact retains_pure _
      · exact (retains_saveHostBinding _).bind fun _ => retains_pure _
  · exact retains_pure _

theorem statusTx_retains (drivers : List String) (id : PortId) (network : Network)
    (status : PortStatus) : (statusTx drivers id network status).Retains := by
  refine retains_get.bind fun seen => ?_
  split
  · exact retains_pure _
  · split
    · exact retains_pure _
    · exact retains_time.bind fun time => (retains_savePort _).bind fun _ => retains_pure _

theorem alignHosts_retains (primary : Binding) : (alignHosts primary).Retains := by
  refine retains_get.bind fun seen => retains_forM fun binding => ?_
  split
  · exact retains_saveHostBinding _
  · exact retains_pure _

theorem saveTx_retains (drivers : List String) (id : PortId) (network : Network)
    (update : PortUpdate) : (saveTx drivers id network update).Retains := by
  refine retains_get.bind fun seen => ?_
  split
  · exact retains_pure _
  split
  · exact retains_throw _
  extract_lets updated binding bindingChanged portChanged finish align
  have hfinish (port : Port) : (finish port).Retains := by
    unfold finish
    extract_lets
    split
    · exact (retains_change fun _ _ _ => Ports.contains_saveBinding).bind fun _ => retains_pure _
    · exact retains_pure _
  have hstore (u : Unit) : (align u).Retains := by
    unfold align
    split
    · exact retains_time.bind fun time => (retains_savePort _).bind fun _ => hfinish _
    · exact (retains_pure _).bind hfinish
  split
  · exact (alignHosts_retains _).bind hstore
  · exact hstore ()

theorem removeTx_removes (id : PortId) (store : Ports) :
    (removeTx id).Ensures (fun tables _ => tables = store)
      (fun _ tables _ => ∀ other, store.ports.contains other = true →
        tables.ports.contains other = true ∨ other = id) fun _ => True := by
  refine (removeTx_erases id store).weaken (fun _ _ _ h => h) ?_ fun _ _ => trivial
  rintro _ tables _ _ (⟨_, _, rfl⟩ | ⟨_, rfl⟩) other ho
  · exact .inl ho
  · by_cases heq : other = id
    · exact .inr heq
    · refine .inl ?_
      rw [Table.contains_iff] at ho ⊢
      simpa only [Ports.erasePort, Table.find?_erase, if_neg heq] using ho

end Port

theorem Binding.commitTx_retains (drivers : List String) (id : PortId) (asked : Binding)
    (candidate : PortContext) : (commitTx drivers id asked candidate).Retains := by
  intro other tables supply
  have h := commitTx_ensures drivers id asked candidate tables
  refine ⟨(h tables supply).1, fun hd hc => ?_⟩
  have hpost := (h tables supply).2 hd rfl
  split
  · rename_i hok
    simp only [hok] at hpost
    cases hpost with
    | committed _ hs hsave => exact Ports.contains_saveBindingOf hsave (hs.contains hc)
    | _ => exact hc
  · trivial

end ControlPlane

import ControlPlane.Proofs.Ports.Rows

/-! What a commit makes of the port store. It finds no row, or one that asks for something else by
now, or it puts the result of a candidate into the row; and on a host that can always be saved. -/

namespace ControlPlane

variable {store after : Ports} {id : PortId} {binding : Binding} {host : String}

namespace Ports

theorem Keyed.host_row (h : store.Keyed)
    (hb : store.row? (.host id host) = some binding) :
    binding.port = id ∧ binding.host = some host := ⟨(h.row hb).1, h.host hb⟩

/-- The binding of a port as seen from a host is for that host, or it is the only one of the port. -/
theorem Keyed.bindingAt {port : Port} {seen : Option String} (h : store.Keyed)
    (hp : store.ports.find? id = some port) (hb : store.bindingAt port seen = some binding) :
    binding.host = seen ∨ port.isDistributed = false ∧ store.bindings.find? id = some binding := by
  have hid := h.port hp
  unfold Ports.bindingAt at hb
  split at hb
  · obtain ⟨name, hname, hb⟩ := Option.bind_eq_some_iff.1 hb
    have hrow : store.row? (.host port.id name) = some binding := hb
    exact .inl ((h.host hrow).trans hname.symm)
  · rename_i hkind
    rw [Bool.not_eq_true] at hkind
    exact .inr ⟨hkind, hid ▸ hb⟩

theorem Keyed.port_bindingAt {port : Port} {seen : Option String} (h : store.Keyed)
    (hp : store.ports.find? id = some port) (hb : store.bindingAt port seen = some binding) :
    binding.port = id := by
  have hid := h.port hp
  unfold Ports.bindingAt at hb
  split at hb
  · obtain ⟨name, _, hb⟩ := Option.bind_eq_some_iff.1 hb
    have hrow : store.row? (.host port.id name) = some binding := hb
    exact (h.row hrow).1.trans hid
  · have hrow : store.row? (.primary port.id) = some binding := hb
    exact (h.row hrow).1.trans hid

end Ports

structure PortContext.Of (context : PortContext) (id : PortId) (network : Network) : Prop where
  port : context.port.id = id
  network : context.network = network

theorem Ports.Evolves.saveBindingOf {bound : BindingKey → Binding → Binding → Prop}
    {tables last : Ports} {port : Port} {live : Binding} {host : Option String}
    (h : store.Evolves bound tables) (hkeyed : store.Keyed) (hp : store.ports.find? id = some port)
    (hlive : store.bindingAt port host = some live) (hport : binding.port = live.port)
    (hhost : binding.host = live.host) (hlast : tables.saveBindingOf port binding = .ok last)
    (hc : ∀ key, key.port = id → RowChange (bound key) (some live) (some binding)) :
    store.Evolves bound last := by
  have hid := hkeyed.port hp
  unfold bindingAt at hlive
  unfold Ports.saveBindingOf at hlast
  split at hlive
  · rename_i hd
    rw [if_pos hd] at hlast
    obtain ⟨name, hname, hlive⟩ := Option.bind_eq_some_iff.1 hlive
    have hrow : store.row? (.host id name) = some live := hid ▸ hlive
    obtain ⟨hkey, hlivehost⟩ := hkeyed.host_row hrow
    refine (h.saveHostBinding hlast (hhost.trans hlivehost) ?_).1
    rw [hport.trans hkey, hrow]
    exact hc _ rfl
  · rename_i hd
    rw [if_neg hd] at hlast
    have hrow : store.row? (.primary id) = some live := hid ▸ hlive
    refine (h.saveBinding hlast ?_).1
    rw [hport.trans (hkeyed.row hrow).1]
    exact hrow ▸ hc (.primary id) rfl

/-- The status that a candidate asks for. One that no driver bound asks for none. -/
def PortContext.wanted? (candidate : PortContext) : Option PortStatus :=
  candidate.binding.segment.bind fun _ => candidate.newStatus

/-- A port is left as it is, or stored with the status that is wanted. -/
inductive Port.Restated (port : Port) (wanted : Option PortStatus) (store : Ports) :
    Port → Ports → Prop
  | same (h : wanted = none) : Restated port wanted store port store
  | saved {status : PortStatus} (h : wanted = some status) (time : Timestamp) :
    Restated port wanted store { port with status, updatedAt := time }
      (store.savePort { port with status, updatedAt := time })

theorem Port.Restated.id_eq {port changed : Port} {wanted : Option PortStatus}
    (h : port.Restated wanted store changed after) : changed.id = port.id := by
  cases h <;> rfl

theorem Port.Restated.contains {port changed : Port} {wanted : Option PortStatus}
    (h : port.Restated wanted store changed after) (hc : store.ports.contains id = true) :
    after.ports.contains id = true := by
  cases h with
  | same => exact hc
  | saved => exact Ports.contains_savePort hc

theorem Port.Restated.evolves {bound : BindingKey → Binding → Binding → Prop} {port changed : Port}
    {wanted : Option PortStatus} (h : port.Restated wanted store changed after) (hk : store.Keyed)
    (hp : store.ports.find? id = some port) : store.Evolves bound after := by
  cases h with
  | same => exact hk.evolves
  | saved _ time =>
    have hfind : store.ports.find? port.id = some port := (hk.port hp).symm ▸ hp
    exact hk.evolves.savePort hfind ⟨rfl, rfl⟩

theorem Binding.withStatus_ensures (store : Ports) (port : Port) (candidate : PortContext)
    (fails : Error → Prop) :
    (withStatus port candidate).Ensures (fun tables _ => tables = store)
      (fun changed tables _ => port.Restated candidate.wanted? store changed tables) fails := by
  unfold withStatus PortContext.wanted?
  split
  · rename_i hsegment hstatus
    rw [hsegment, hstatus]
    have htime : (Tx.time : Tx Ports Timestamp).Ensures (fun tables _ => tables = store)
        (fun _ tables _ => tables = store) fails := Tx.ensures_time fun _ _ h => h
    refine htime.bind fun time => Tx.ensures_modify_bind (Tx.ensures_pure ?_)
    rintro _ _ ⟨_, rfl, rfl⟩
    exact .saved rfl time
  · rename_i hnone
    refine Tx.ensures_pure ?_
    rintro _ _ rfl
    refine .same (Option.bind_eq_none_iff.2 fun segment hsegment => ?_)
    exact Option.eq_none_iff_forall_ne_some.2 fun status => hnone segment status hsegment

/-- The row that a commit finds, which asks for what was `asked` still. -/
structure Binding.Live (store : Ports) (id : PortId) (asked : Binding) (port : Port)
    (live : Binding) : Prop where
  found : store.ports.find? id = some port
  row : store.bindingAt port asked.host = some live
  current : live.isCurrent asked = true

theorem Binding.Live.host_eq {port : Port} {live asked : Binding} (h : Live store id asked port live) :
    live.host = asked.host := by
  have hinputs := (Bool.and_eq_true_iff.1 h.current).2
  simp only [sameInputs, Bool.and_eq_true, decide_eq_true_eq] at hinputs
  exact hinputs.1.1

/-- A commit finds no row, or one that asks for something else by now, or it puts the result of the
candidate into the row. -/
inductive Binding.Committing (store : Ports) (drivers : List String) (id : PortId) (asked : Binding)
    (candidate : PortContext) : Closing CommitOutcome → Ports → Prop
  | gone (h : ∀ port, store.ports.find? id = some port → store.bindingAt port asked.host = none) :
    Committing store drivers id asked candidate (.rollback .gone) store
  | retry {port : Port} {live : Binding} (hp : store.ports.find? id = some port)
    (hlive : store.bindingAt port asked.host = some live) (hc : live.isCurrent asked = false) :
    Committing store drivers id asked candidate
      (.rollback (.retry { port, network := candidate.network, binding := live })) store
  | committed {port changed : Port} {live : Binding} {tables after : Ports} {context : PortContext}
    (hl : Live store id asked port live) (hs : port.Restated candidate.wanted? store changed tables)
    (hsave : tables.saveBindingOf port (live.copyResult candidate.binding) = .ok after)
    (hport : context.port = changed) (hnetwork : context.network = candidate.network)
    (hbinding : context.binding = live.copyResult candidate.binding) :
    Committing store drivers id asked candidate (.review drivers context (.committed context)) after

/-- The row that a commit finds cannot be saved. -/
def Binding.Unsaved (store : Ports) (id : PortId) (asked : Binding) (candidate : PortContext)
    (error : Error) : Prop :=
  ∃ port changed live tables, Live store id asked port live ∧
    port.Restated candidate.wanted? store changed tables ∧
    tables.saveBindingOf port (live.copyResult candidate.binding) = .error error

theorem Binding.commitTx_ensures (drivers : List String) (id : PortId) (asked : Binding)
    (candidate : PortContext) (store : Ports) :
    (commitTx drivers id asked candidate).Ensures (fun tables _ => tables = store)
      (fun closing tables _ => Committing store drivers id asked candidate closing tables)
      (Unsaved store id asked candidate) := by
  refine Tx.ensures_get_bind fun seen => ?_
  split
  · rename_i hnone
    refine Tx.ensures_pure ?_
    rintro _ _ ⟨rfl, rfl⟩
    refine .gone fun port hp => ?_
    rw [hnone] at hp
    cases hp
  rename_i port hport
  split
  · rename_i hnone
    refine Tx.ensures_pure ?_
    rintro _ _ ⟨rfl, rfl⟩
    refine .gone fun other hp => ?_
    rw [hport] at hp
    cases hp
    exact hnone
  rename_i live hlive
  split
  · rename_i hcurrent
    refine Tx.ensures_pure ?_
    rintro _ _ ⟨rfl, rfl⟩
    exact .retry hport hlive (by simpa using hcurrent)
  rename_i hcurrent
  extract_lets binding
  have hfound : Live seen id asked port live := ⟨hport, hlive, by simpa using hcurrent⟩
  have hstatus := (withStatus_ensures seen port candidate (Unsaved store id asked candidate)).frame
    (fun _ => seen = store) fun _ _ _ h => h
  refine (hstatus.of_pre ?_).bind fun changed => ?_
  · rintro _ _ _ ⟨rfl, h⟩
    exact ⟨h, rfl⟩
  refine Tx.ensures_change_bind ?_ (Tx.ensures_pure ?_)
  · rintro tables _ error ⟨rfl, hs⟩ hsave
    exact ⟨port, changed, live, tables, hfound, hs, hsave⟩
  · rintro _ _ ⟨tables, ⟨rfl, hs⟩, hsave⟩
    exact .committed hfound hs hsave rfl rfl rfl

theorem Ports.exists_saveHostBinding (hc : store.ports.contains binding.port = true)
    (hhost : binding.hasHost = true) : ∃ last, store.saveHostBinding binding = .ok last := by
  have hrequire : store.requirePort binding.port = .ok () := by rw [requirePort, if_pos hc]
  obtain ⟨host, hname, hne⟩ := (Option.any_eq_true _ _).1 hhost
  rw [saveHostBinding, hrequire, hname, Option.filter_some, if_pos hne]
  exact ⟨_, rfl⟩

theorem Ports.exists_saveBinding (hc : store.ports.contains binding.port = true) :
    ∃ last, store.saveBinding binding = .ok last := by
  have hrequire : store.requirePort binding.port = .ok () := by rw [requirePort, if_pos hc]
  rw [saveBinding, hrequire]
  exact ⟨_, rfl⟩

theorem Ports.exists_saveBindingOf (port : Port) (hc : store.ports.contains binding.port = true)
    (hhost : binding.hasHost = true) : ∃ last, store.saveBindingOf port binding = .ok last := by
  unfold saveBindingOf
  split
  · exact exists_saveHostBinding hc hhost
  · exact exists_saveBinding hc

theorem Ports.Keyed.not_unsaved {asked : Binding} {candidate : PortContext} {error : Error}
    (h : store.Keyed) (hhost : asked.hasHost = true) :
    ¬ Binding.Unsaved store id asked candidate error := by
  rintro ⟨port, changed, live, tables, hl, hs, hsave⟩
  have hlive : live.port = id := h.port_bindingAt hl.found hl.row
  have hport : (live.copyResult candidate.binding).port = id := hlive
  have hname : (live.copyResult candidate.binding).hasHost = true := by
    rw [Binding.hasHost] at hhost ⊢
    exact hl.host_eq.symm ▸ hhost
  have hcontains : tables.ports.contains (live.copyResult candidate.binding).port = true :=
    hport ▸ hs.contains (Table.contains_iff.2 ⟨port, hl.found⟩)
  obtain ⟨last, hlast⟩ := exists_saveBindingOf port hcontains hname
  rw [hlast] at hsave
  cases hsave

/-- What a commit makes of a row: the result of a candidate is put into one that still asks for what
was `asked`. -/
structure Binding.Commits (id : PortId) (asked candidate : Binding) (key : BindingKey)
    (old new : Binding) : Prop where
  port : key.port = id
  inputs : old.sameInputs asked = true
  result : new = old.copyResult candidate

theorem Binding.commitTx_closes (drivers : List String) (id : PortId) (asked : Binding)
    (candidate : PortContext) :
    (commitTx drivers id asked candidate).Closes
      (Commits id asked candidate.binding)
      fun outcome => ∀ context ∈ outcome.context?, context.Of id candidate.network := by
  intro store
  have hcommit := (commitTx_ensures drivers id asked candidate store).frame (fun _ => store.Keyed)
    fun _ _ _ h => h
  refine hcommit.weaken (fun _ _ _ h => ⟨h.2, h.1⟩) ?_ fun _ _ => trivial
  rintro closing tables supply _ ⟨hk, h⟩
  cases h with
  | gone => exact ⟨hk.evolves, by simp [Closing.answer, CommitOutcome.context?]⟩
  | retry hp hlive hc =>
    refine ⟨hk.evolves, fun context hcontext => ?_⟩
    cases hcontext
    exact ⟨hk.port hp, rfl⟩
  | committed hl hs hsave hport hnetwork hbinding =>
    have h : store.Evolves (Commits id asked candidate.binding) _ := hs.evolves hk hl.found
    have hid := hs.id_eq.trans (hk.port hl.found)
    have hcurrent := Bool.and_eq_true_iff.1 hl.current
    have hkept (live : Binding) : (live.copyResult candidate.binding).port = live.port ∧
        (live.copyResult candidate.binding).host = live.host := ⟨rfl, rfl⟩
    refine ⟨h.saveBindingOf hk hl.found hl.row (hkept _).1 (hkept _).2 hsave fun key hkey => ?_, ?_⟩
    · exact .bound hcurrent.1 ⟨hkey, hcurrent.2, rfl⟩
    · intro context hcontext
      cases hcontext
      exact ⟨hport ▸ hid, hnetwork⟩

end ControlPlane

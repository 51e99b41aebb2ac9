import ControlPlane.Port.Agent
import ControlPlane.Proofs.Supply

/-! Binding rows and what a transaction may make of one: leave it, remove it, create it unbound,
bind it when it asked for that, or forget its result when its inputs change. -/

namespace ControlPlane

/-- Where a binding is stored: with its port, or with its port and a host. -/
inductive BindingKey
  | primary (port : PortId)
  | host (port : PortId) (host : String)
  deriving DecidableEq

def BindingKey.port : BindingKey → PortId
  | primary port => port
  | host port _ => port

def Ports.row? (store : Ports) : BindingKey → Option Binding
  | .primary port => store.bindings.find? port
  | .host port host => store.hostBindings.find? (port, host)

def Binding.Bound (binding : Binding) : Prop := ∃ kind, binding.vif = .bound kind

/-- Ports are stored under their own identifiers, and bindings with ports that exist. -/
structure Ports.Keyed (store : Ports) : Prop where
  port : ∀ ⦃id port⦄, store.ports.find? id = some port → port.id = id
  row : ∀ ⦃key binding⦄, store.row? key = some binding →
    binding.port = key.port ∧ store.ports.contains key.port = true
  host : ∀ ⦃port host binding⦄, store.row? (.host port host) = some binding →
    binding.host = some host

/-- What becomes of a row. `bound` says what it may be bound to. -/
inductive RowChange (bound : Binding → Binding → Prop) : Option Binding → Option Binding → Prop
  | same (row : Option Binding) : RowChange bound row row
  | removed (row : Option Binding) : RowChange bound row none
  | created {new : Binding} (h : ¬ new.Bound) : RowChange bound none (some new)
  | distributed {old new : Binding} (ho : old.vif = .distributed) (hn : new.vif = .distributed) :
    RowChange bound (some old) (some new)
  | reset {old new : Binding} (hi : new.sameInputs old = false) (hr : new.reset = new) :
    RowChange bound (some old) (some new)
  | bound {old new : Binding} (ho : old.vif.needsBinding = true) (hb : bound old new) :
    RowChange bound (some old) (some new)

/-- What a port keeps as long as it lives. -/
structure Port.Continues (port former : Port) : Prop where
  network : port.network = former.network
  mac : port.mac = former.mac

/-- How a transaction changes the rows of a store and keeps what ports keep. -/
structure Ports.Evolves (bound : BindingKey → Binding → Binding → Prop) (before after : Ports) :
    Prop where
  keyed : after.Keyed
  rows : ∀ key, RowChange (bound key) (before.row? key) (after.row? key)
  ports : ∀ ⦃id port⦄, after.ports.find? id = some port →
    ∃ former, before.ports.find? id = some former ∧ port.Continues former

def Closing.answer {α : Type} : Closing α → α
  | .commit a => a
  | .rollback a => a
  | .review _ _ a => a

/-- A transaction has changed rows as it may, and answers with what it is asked `about`. -/
structure Ports.Closes {α : Type} (bound : BindingKey → Binding → Binding → Prop) (about : α → Prop)
    (before : Ports) (closing : Closing α) (after : Ports) (_ : Supply) : Prop where
  evolves : before.Evolves bound after
  answer : about closing.answer

/-- What a transaction does to the rows of any store, and what it answers. -/
def Tx.Closes {α : Type} (bound : BindingKey → Binding → Binding → Prop) (about : α → Prop)
    (tx : Tx Ports (Closing α)) : Prop :=
  ∀ store, tx.Ensures (fun tables _ => tables = store ∧ store.Keyed)
    (Ports.Closes bound about store) fun _ => True

namespace Ports

variable {bound : BindingKey → Binding → Binding → Prop} {store after : Ports} {id : PortId}
  {port former : Port} {binding old : Binding}

theorem Keyed.evolves (h : store.Keyed) : store.Evolves bound store :=
  ⟨h, fun _ => .same _, fun _ port hp => ⟨port, hp, rfl, rfl⟩⟩

theorem contains_of_requirePort {u : Unit} (h : store.requirePort id = .ok u) :
    store.ports.contains id = true := by
  unfold requirePort at h
  split at h
  · rename_i hc
    exact hc
  · cases h

theorem contains_savePort (h : store.ports.contains id = true) :
    (store.savePort port).ports.contains id = true := by
  obtain ⟨p, hp⟩ := Table.contains_iff.1 h
  simp only [savePort, Table.contains_iff, Table.find?_insert]
  split
  · exact ⟨_, rfl⟩
  · exact ⟨p, hp⟩

theorem Keyed.savePort (h : store.Keyed) : (store.savePort port).Keyed := by
  refine ⟨fun k p hp => ?_, fun key binding hr => ?_, h.host⟩
  · simp only [Ports.savePort, Table.find?_insert] at hp
    split at hp
    · cases hp
      exact ‹_›
    · exact h.port hp
  · obtain ⟨hkey, hc⟩ := h.row hr
    exact ⟨hkey, contains_savePort hc⟩

theorem Evolves.savePort (h : store.Evolves bound after)
    (hf : store.ports.find? port.id = some former) (hc : port.Continues former) :
    store.Evolves bound (after.savePort port) := by
  refine ⟨h.keyed.savePort, h.rows, fun k p hp => ?_⟩
  simp only [Ports.savePort, Table.find?_insert] at hp
  split at hp
  · cases hp
    subst k
    exact ⟨former, hf, hc⟩
  · exact h.ports hp

/-- One row is put into its place. What becomes of it is measured from the start of the
transaction. -/
theorem Evolves.putRow {last : Ports} (key : BindingKey) (h : store.Evolves bound after)
    (hports : last.ports = after.ports) (hself : last.row? key = some binding)
    (hother : ∀ k, k ≠ key → last.row? k = after.row? k) (hport : binding.port = key.port)
    (hcontains : after.ports.contains key.port = true)
    (hhost : ∀ port host, key = .host port host → binding.host = some host)
    (hc : RowChange (bound key) (store.row? key) (some binding)) : store.Evolves bound last := by
  refine ⟨⟨fun id port hp => ?_, fun k b hb => ?_, fun port host b hb => ?_⟩, fun k => ?_,
    fun id port hp => ?_⟩
  · rw [hports] at hp
    exact h.keyed.port hp
  · by_cases hk : k = key
    · subst hk
      rw [hself] at hb
      cases hb
      exact ⟨hport, hports ▸ hcontains⟩
    · rw [hother k hk] at hb
      rw [hports]
      exact h.keyed.row hb
  · by_cases hk : BindingKey.host port host = key
    · subst hk
      rw [hself] at hb
      cases hb
      exact hhost port host rfl
    · rw [hother _ hk] at hb
      exact h.keyed.host hb
  · by_cases hk : k = key
    · subst hk
      rw [hself]
      exact hc
    · rw [hother k hk]
      exact h.rows k
  · rw [hports] at hp
    exact h.ports hp

theorem saveBinding_eq {last : Ports} (h : store.saveBinding binding = .ok last) :
    store.ports.contains binding.port = true ∧
      last = { store with bindings := store.bindings.insert binding.port binding } := by
  obtain ⟨_, hr, h⟩ := Error.bind_eq_ok_iff.1 h
  exact ⟨contains_of_requirePort hr, (Except.ok.inj h).symm⟩

theorem Evolves.saveBinding {last : Ports} (h : store.Evolves bound after)
    (hk : after.saveBinding binding = .ok last)
    (hc : RowChange (bound (.primary binding.port)) (store.row? (.primary binding.port))
      (some binding)) :
    store.Evolves bound last ∧ last.ports = after.ports := by
  obtain ⟨hcontains, rfl⟩ := saveBinding_eq hk
  refine ⟨h.putRow (.primary binding.port) rfl ?_ ?_ rfl hcontains nofun hc, rfl⟩
  · simp [row?, Table.find?_insert]
  · intro k hne
    cases k with
    | primary port =>
      simp only [row?, Table.find?_insert]
      rw [if_neg fun hh => hne (by rw [hh])]
    | host port host => rfl

theorem Keyed.insert {new : Port} {last : Ports} (h : store.Keyed)
    (hnone : store.ports.find? new.id = none) (hport : binding.port = new.id)
    (hb : ¬ binding.Bound) (hsave : (store.savePort new).saveBinding binding = .ok last) :
    (store.savePort new).Evolves bound last := by
  have hrow : (store.savePort new).row? (.primary binding.port) = none := by
    rw [Option.eq_none_iff_forall_ne_some]
    intro old hold
    have hold : store.row? (.primary binding.port) = some old := hold
    have hc := (h.row hold).2
    rw [Table.contains_iff] at hc
    simp only [BindingKey.port, hport, hnone] at hc
    obtain ⟨_, hc⟩ := hc
    cases hc
  refine (h.savePort.evolves.saveBinding hsave ?_).1
  rw [hrow]
  exact .created hb

theorem saveHostBinding_eq {last : Ports} {host : String} (hhost : binding.host = some host)
    (h : store.saveHostBinding binding = .ok last) : host ≠ "" ∧
      store.ports.contains binding.port = true ∧
      last = { store with hostBindings := store.hostBindings.insert (binding.port, host) binding } := by
  obtain ⟨_, hr, h⟩ := Error.bind_eq_ok_iff.1 h
  split at h
  · cases h
  rename_i other hother
  obtain ⟨heq, hne⟩ := Option.filter_eq_some_iff.1 hother
  rw [hhost] at heq
  cases heq
  exact ⟨of_decide_eq_true hne, contains_of_requirePort hr, (Except.ok.inj h).symm⟩

theorem Evolves.saveHostBinding {last : Ports} {host : String} (h : store.Evolves bound after)
    (hk : after.saveHostBinding binding = .ok last) (hhost : binding.host = some host)
    (hc : RowChange (bound (.host binding.port host)) (store.row? (.host binding.port host))
      (some binding)) :
    store.Evolves bound last ∧ last.ports = after.ports ∧ last.bindings = after.bindings := by
  obtain ⟨_, hcontains, rfl⟩ := saveHostBinding_eq hhost hk
  refine ⟨h.putRow (.host binding.port host) rfl ?_ ?_ rfl hcontains ?_ hc, rfl, rfl⟩
  · simp [row?, Table.find?_insert]
  · intro k hne
    cases k with
    | primary port => rfl
    | host port other =>
      simp only [row?, Table.find?_insert]
      rw [if_neg]
      intro hh
      cases hh
      exact hne rfl
  · intro port other hkey
    cases hkey
    exact hhost

theorem row?_erasePort {key : BindingKey} :
    (after.erasePort id).row? key = if key.port = id then none else after.row? key := by
  cases key with
  | primary port =>
    simp only [row?, erasePort, Table.find?_erase, BindingKey.port, eq_comm]
  | host port host =>
    simp only [row?, erasePort, Table.find?_filter, BindingKey.port]
    by_cases hport : port = id
    · simp [hport]
    · cases after.hostBindings.find? (port, host) <;> simp [Option.filter, hport]

theorem Evolves.erasePort (h : store.Evolves bound after) (id : PortId) :
    store.Evolves bound (after.erasePort id) := by
  have hrow {key : BindingKey} {binding : Binding}
      (hr : (after.erasePort id).row? key = some binding) :
      key.port ≠ id ∧ after.row? key = some binding := by
    rw [row?_erasePort] at hr
    split at hr
    · cases hr
    · exact ⟨‹_›, hr⟩
  have hport {k : PortId} {port : Port} (hp : (after.erasePort id).ports.find? k = some port) :
      after.ports.find? k = some port := by
    simp only [Ports.erasePort, Table.find?_erase] at hp
    split at hp
    · cases hp
    · exact hp
  refine ⟨⟨fun k port hp => h.keyed.port (hport hp), fun key binding hr => ?_,
    fun port host binding hr => h.keyed.host (hrow hr).2⟩, fun key => ?_,
    fun k port hp => h.ports (hport hp)⟩
  · obtain ⟨hne, hr⟩ := hrow hr
    have ⟨hkey, hc⟩ := h.keyed.row hr
    refine ⟨hkey, ?_⟩
    rw [Table.contains_iff] at hc ⊢
    simp only [Ports.erasePort, Table.find?_erase]
    rw [if_neg hne]
    exact hc
  · rw [row?_erasePort]
    split
    · exact .removed _
    · exact h.rows key

end Ports

/-- Removing a port never fails. A port that is not stored is none to remove. -/
theorem Port.removeTx_erases (id : PortId) (store : Ports) :
    (removeTx id).Ensures (fun tables _ => tables = store)
      (fun closing tables _ => closing = .rollback false ∧ store.ports.contains id = false ∧
          tables = store ∨ closing = .commit true ∧ tables = store.erasePort id)
      fun _ => False := by
  refine Tx.ensures_get_bind fun seen => ?_
  split
  · rename_i hnone
    refine Tx.ensures_pure ?_
    rintro _ _ ⟨rfl, rfl⟩
    exact .inl ⟨rfl, by simpa using hnone, rfl⟩
  · refine Tx.ensures_modify_bind (Tx.ensures_pure ?_)
    rintro _ _ ⟨_, ⟨rfl, rfl⟩, rfl⟩
    exact .inr ⟨rfl, rfl⟩

theorem Tx.Closes.advances {α : Type} {bound : BindingKey → Binding → Binding → Prop}
    {about : α → Prop} {tx : Tx Ports (Closing α)} (h : tx.Closes bound about) : tx.Advances :=
  (h {}).advances

theorem State.runReviewed_closes {α : Type} {bound : BindingKey → Binding → Binding → Prop}
    {about : α → Prop} {tx : Tx Ports (Closing α)} {refuser : Option (String × Error)}
    {state after : State} {answer : Except Error α} (h : tx.Closes bound about)
    (hk : state.ports.Keyed) (hr : (answer, after) = state.runReviewed refuser tx)
    (hd : after.supply.Distinct) :
    state.ports.Evolves bound after.ports ∧ ∀ a, answer = .ok a → about a := by
  rcases State.runReviewed_ensures (h state.ports) hr hd ⟨rfl, hk⟩ with
    ⟨error, rfl, hports, _⟩ | ⟨a, tables, rfl, hports, hpost⟩ | ⟨a, closing, rfl, hpost, hclosing⟩
  · rw [hports]
    exact ⟨hk.evolves, nofun⟩
  · rw [hports]
    refine ⟨hk.evolves, fun b hb => ?_⟩
    cases hb
    exact hpost.answer
  · refine ⟨hpost.evolves, fun b hb => ?_⟩
    cases hb
    rcases hclosing with rfl | ⟨drivers, context, rfl⟩
    · exact hpost.answer
    · exact hpost.answer

end ControlPlane

import ControlPlane.Proofs.Ports.Transactions

/-! Entries: a port with its primary binding and its bindings on hosts. A transaction of the port
store rewrites the entry of one port and leaves all others as they are. -/

namespace ControlPlane

/-- The rows that belong to one port. -/
structure Entry where
  port : Option Port
  primary : Option Binding
  hosts : String → Option Binding

def Entry.absent : Entry := ⟨none, none, fun _ => none⟩

def Entry.putHost (entry : Entry) (host : String) (binding : Binding) : Entry :=
  { entry with hosts := fun other => if other = host then some binding else entry.hosts other }

namespace Ports

def entry (store : Ports) (id : PortId) : Entry where
  port := store.ports.find? id
  primary := store.row? (.primary id)
  hosts host := store.row? (.host id host)

/-- One store is another but for the entry of a port. -/
def With (store : Ports) (id : PortId) (entry : Entry) (after : Ports) : Prop :=
  ∀ other, after.entry other = if other = id then entry else store.entry other

variable {store tables last : Ports} {id : PortId} {entry : Entry} {port : Port} {binding : Binding}
  {host : String}

theorem With.refl (store : Ports) (id : PortId) : store.With id (store.entry id) store := by
  intro other
  split
  · rw [‹other = id›]
  · rfl

theorem With.entry_eq (h : store.With id entry last) : last.entry id = entry :=
  (h id).trans (if_pos rfl)

theorem With.savePort (h : store.With id entry tables) (hid : port.id = id) :
    store.With id { entry with port := some port } (tables.savePort port) := by
  intro other
  have hother := h other
  by_cases ho : other = id
  · subst ho
    rw [if_pos rfl] at hother ⊢
    subst hother
    simp only [Ports.entry, Ports.savePort, Table.find?_insert, hid, if_true, row?]
  · have hne : port.id ≠ other := fun heq => ho (heq.symm.trans hid)
    rw [if_neg ho] at hother ⊢
    rw [← hother]
    simp only [Ports.entry, Ports.savePort, Table.find?_insert, if_neg hne, row?]

theorem With.saveBinding (h : store.With id entry tables) (hport : binding.port = id)
    (hsave : tables.saveBinding binding = .ok last) :
    store.With id { entry with primary := some binding } last := by
  obtain ⟨_, rfl⟩ := saveBinding_eq hsave
  intro other
  have hother := h other
  by_cases ho : other = id
  · subst ho
    rw [if_pos rfl] at hother ⊢
    subst hother
    simp only [Ports.entry, Table.find?_insert, hport, if_true, row?]
  · have hne : binding.port ≠ other := fun heq => ho (heq.symm.trans hport)
    rw [if_neg ho] at hother ⊢
    rw [← hother]
    simp only [Ports.entry, Table.find?_insert, if_neg hne, row?]

theorem With.saveHostBinding (h : store.With id entry tables) (hport : binding.port = id)
    (hhost : binding.host = some host) (hsave : tables.saveHostBinding binding = .ok last) :
    store.With id (entry.putHost host binding) last := by
  obtain ⟨_, _, rfl⟩ := saveHostBinding_eq hhost hsave
  intro other
  have hother := h other
  by_cases ho : other = id
  · subst ho
    rw [if_pos rfl] at hother ⊢
    subst hother
    simp only [Ports.entry, Entry.putHost, Table.find?_insert, hport, Prod.mk.injEq, true_and,
      row?, eq_comm]
  · have hne (name : String) : (binding.port, host) ≠ (other, name) :=
      fun heq => ho ((congrArg Prod.fst heq).symm.trans hport)
    rw [if_neg ho] at hother ⊢
    rw [← hother]
    simp only [Ports.entry, Table.find?_insert, if_neg (hne _), row?]

theorem With.erasePort (h : store.With id entry tables) :
    store.With id .absent (tables.erasePort id) := by
  intro other
  have hother := h other
  have hport : (tables.erasePort id).ports.find? other =
      if other = id then none else tables.ports.find? other := Table.find?_erase
  by_cases ho : other = id
  · subst ho
    simp only [Ports.entry, row?_erasePort, BindingKey.port, hport, if_true, Entry.absent]
  · rw [if_neg ho] at hother ⊢
    rw [← hother]
    simp only [Ports.entry, row?_erasePort, BindingKey.port, hport, ho, if_false]

theorem exists_host_of_saved (h : tables.saveHostBinding binding = .ok last) :
    ∃ host, binding.host = some host := by
  obtain ⟨_, _, h⟩ := Error.bind_eq_ok_iff.1 h
  split at h
  · cases h
  · rename_i host hhost
    exact ⟨host, (Option.filter_eq_some_iff.1 hhost).1⟩

theorem With.trans {entry' : Entry} (h : store.With id entry tables)
    (h' : tables.With id entry' last) : store.With id entry' last := by
  intro other
  rw [h' other]
  split
  · rfl
  · rw [h other, if_neg ‹_›]

/-- A store whose entry of a port has the port as it was has all ports as they were. -/
theorem With.ports_eq (h : store.With id entry tables) (hport : entry.port = store.ports.find? id) :
    tables.ports = store.ports := by
  apply Table.eq_of_find?
  intro other
  have hother := congrArg Entry.port (h other)
  by_cases ho : other = id
  · rw [if_pos ho, hport, ← ho] at hother
    exact hother
  · rw [if_neg ho] at hother
    exact hother

theorem eq_of_entry (h : ∀ id, tables.entry id = store.entry id) : tables = store := by
  have hports : tables.ports = store.ports :=
    Table.eq_of_find? fun id => congrArg Entry.port (h id)
  have hbindings : tables.bindings = store.bindings :=
    Table.eq_of_find? fun id => congrArg Entry.primary (h id)
  have hhosts : tables.hostBindings = store.hostBindings :=
    Table.eq_of_find? fun key => congrFun (congrArg Entry.hosts (h key.1)) key.2
  cases tables
  cases store
  cases hports
  cases hbindings
  cases hhosts
  rfl

/-- A store from which the entry of a port is gone that had none before is what it was. -/
theorem With.eq_of_absent (h : store.With id .absent last) (hs : store.entry id = .absent) :
    last = store := by
  refine eq_of_entry fun other => (h other).trans ?_
  split
  · rw [‹other = id›, hs]
  · rfl

theorem Keyed.entry_eq_absent (h : store.Keyed) (hn : store.ports.find? id = none) :
    store.entry id = .absent := by
  have hrow (key : BindingKey) (hkey : key.port = id) : store.row? key = none := by
    rw [Option.eq_none_iff_forall_ne_some]
    intro row hr
    obtain ⟨_, hc⟩ := h.row hr
    rw [Table.contains_iff, hkey, hn] at hc
    obtain ⟨_, hc⟩ := hc
    cases hc
  simp only [Ports.entry, hn, hrow (.primary id) rfl, hrow (.host id _) rfl, Entry.absent]

/-- A commit stores the port that it has found, and its result in the primary row or in one on a
host. -/
theorem Keyed.committed {asked live result : Binding} {changed : Port} {wanted : Option PortStatus}
    (hk : store.Keyed) (hl : Binding.Live store id asked port live)
    (hs : port.Restated wanted store changed tables)
    (hsave : tables.saveBindingOf port (live.copyResult result) = .ok last) :
    ∃ primary hosts, store.With id ⟨some changed, primary, hosts⟩ last ∧
      (primary = store.row? (.primary id) ∨
        store.row? (.primary id) = some live ∧ primary = some (live.copyResult result)) := by
  have hid := hk.port hl.found
  have hlive : live.port = id := hk.port_bindingAt hl.found hl.row
  have hown : (live.copyResult result).port = id := hlive
  have hwith : store.With id { store.entry id with port := some changed } tables := by
    cases hs with
    | same =>
      have hentry : store.entry id = { store.entry id with port := some port } := by
        rw [← hl.found]
        rfl
      exact hentry ▸ .refl store id
    | saved => exact (With.refl store id).savePort hid
  have hrow := hl.row
  unfold saveBindingOf at hsave
  split at hsave
  · obtain ⟨host, hhost⟩ := exists_host_of_saved hsave
    exact ⟨_, _, hwith.saveHostBinding hown hhost hsave, .inl rfl⟩
  · rename_i hd
    rw [Ports.bindingAt, if_neg hd, hid] at hrow
    exact ⟨_, _, hwith.saveBinding hown hsave, .inr ⟨hrow, rfl⟩⟩

end Ports

end ControlPlane

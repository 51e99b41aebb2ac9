import ControlPlane.Proofs.Ports.Entries

/-! The shape of the port store: which rows a port has, and what each of them may say. -/

namespace ControlPlane

/-- What a row may say. It stands `apart` if it is the primary row of a distributed port. -/
structure Binding.Formed (apart : Bool) (row : Binding) : Prop where
  distributed : row.vif = .distributed ↔ apart = true
  hostless : apart = true → row.host = none
  blank : ¬ row.Bound → row.driver = none ∧ row.segment = none ∧ row.details = []
  hosted : row.Bound ∨ row.vif = .bindingFailed → row.hasHost = true

/-- A row of a distributed port on one of its hosts. -/
structure Binding.OnHost (row : Binding) (port : Port) (primary : Binding) (name : String) : Prop where
  distributed : port.isDistributed = true
  port : row.port = port.id
  host : row.host = some name
  named : name ≠ ""
  formed : row.Formed false
  follows : row.follows primary = true

/-- The rows of a port: its primary binding, and others on hosts only if it is distributed. -/
structure Port.Rows (port : Port) (primary : Binding) (hosts : String → Option Binding) : Prop where
  own : primary.port = port.id
  formed : primary.Formed port.isDistributed
  onHost : ∀ ⦃host row⦄, hosts host = some row → row.OnHost port primary host

/-- Either a port is stored with its rows, or nothing is. -/
inductive Entry.Shaped (id : PortId) : Entry → Prop
  | absent : Shaped id .absent
  | present {port : Port} {primary : Binding} {hosts : String → Option Binding} (hid : port.id = id)
    (rows : port.Rows primary hosts) : Shaped id ⟨some port, some primary, hosts⟩

def Ports.Shaped (store : Ports) : Prop := ∀ id, (store.entry id).Shaped id

/-- A store keeps its shape, and ports that are not `new` stay distributed or not. -/
structure Ports.Shapes (new : PortId → Prop) (before after : Ports) : Prop where
  shaped : after.Shaped
  kinds : ∀ ⦃id port⦄, after.ports.find? id = some port →
    new id ∨ ∃ former, before.ports.find? id = some former ∧
      port.isDistributed = former.isDistributed

/-- What a transaction keeps of a store of which something `holds`. -/
def Tx.Shapes {α : Type} (new : PortId → Prop) (holds : Ports → Prop) (tx : Tx Ports α) : Prop :=
  ∀ store, tx.Ensures (fun tables _ => tables = store ∧ store.Keyed ∧ store.Shaped ∧ holds store)
    (fun _ tables _ => store.Shapes new tables) fun _ => True

/-- What becomes of a row on a host when all are brought in line with a primary binding, of which
those that are `done` were. -/
inductive Aligned (primary : Binding) (done : Binding → Prop) :
    Option Binding → Option Binding → Prop
  | none : Aligned primary done none none
  | kept {row : Binding} (h : done row → row.follows primary = true) :
    Aligned primary done (some row) (some row)
  | followed (row : Binding) : Aligned primary done (some row) (some (row.follow primary))

/-- The rows of a port on its hosts are brought in line with its primary binding. -/
def Ports.Aligns (store : Ports) (primary : Binding) (after : Ports) : Prop :=
  ∃ hosts, store.With primary.port { store.entry primary.port with hosts } after ∧
    ∀ host, Aligned primary (fun _ => True) ((store.entry primary.port).hosts host) (hosts host)

variable {new : PortId → Prop} {store tables : Ports} {id : PortId} {entry : Entry}
  {port former : Port} {primary row live asked : Binding} {update : PortUpdate} {host : String}
  {hosts hosts' : String → Option Binding} {candidate : PortContext}

theorem Binding.formed_of_reset (h : row.reset = row) : row.Formed false := by
  have hvif : row.vif = .unbound := h ▸ rfl
  refine ⟨?_, nofun, fun _ => ?_, ?_⟩
  · simp [hvif]
  · rw [← h]
    exact ⟨rfl, rfl, rfl⟩
  · rintro (⟨kind, hkind⟩ | hfailed)
    · rw [hvif] at hkind
      cases hkind
    · rw [hvif] at hfailed
      cases hfailed

theorem Binding.follows_follow (row primary : Binding) :
    (row.follow primary).follows primary = true := by
  simp [follow, follows, reset, Json.agrees_refl]

namespace Aligned

variable {done done' : Binding → Prop} {old aligned : Option Binding}

theorem of_none (old : Option Binding) : Aligned primary (· ∈ []) old old := by
  cases old with
  | none => exact .none
  | some row => exact .kept nofun

theorem mono (h : Aligned primary done old aligned)
    (hd : ∀ row, old = some row → done' row → done row ∨ row.follows primary = true) :
    Aligned primary done' old aligned := by
  cases h with
  | none => exact .none
  | kept hf => exact .kept fun h => (hd _ rfl h).elim hf id
  | followed row => exact .followed row

end Aligned

namespace PortUpdate

theorem checkOwner_iff : update.checkOwner port = .ok () ↔
    (update.applyTo port).isDistributed = port.isDistributed ∧
      (port.isDistributed = true → update.host = none) := by
  have howner : (update.applyTo port).isDistributed =
      (update.deviceOwner.getD port.deviceOwner == distributedOwner) := rfl
  unfold checkOwner
  extract_lets distributed checkHost
  rw [Error.guard_eq_ok_iff, howner, Decidable.not_not]
  refine and_congr_right fun heq => ?_
  have hcheck : checkHost () = if (port.isDistributed && update.host.isSome) = true
      then .error Port.hostNotGiven else .ok () := by rw [← heq]; rfl
  rw [hcheck]
  cases port.isDistributed <;> cases update.host <;> simp

/-- What suits a port suits every port that is distributed exactly if it is. -/
theorem checkOwner_congr (h : update.checkOwner port = .ok ())
    (hkind : former.isDistributed = port.isDistributed) : update.checkOwner former = .ok () := by
  rw [checkOwner_iff] at h ⊢
  refine ⟨?_, hkind ▸ h.2⟩
  cases howner : update.deviceOwner with
  | none => simp only [Port.isDistributed, applyTo, howner, Option.getD_none]
  | some owner =>
    have howners : (owner == distributedOwner) = port.isDistributed := by
      simpa only [Port.isDistributed, applyTo, howner, Option.getD_some] using h.1
    rw [hkind, ← howners]
    simp only [Port.isDistributed, applyTo, howner, Option.getD_some]

theorem applyToBinding_formed (hcheck : update.checkOwner port = .ok ())
    (h : primary.Formed port.isDistributed)
    (hi : (update.applyToBinding primary).sameInputs primary = false) :
    (update.applyToBinding primary).Formed port.isDistributed := by
  have hhost := (checkOwner_iff.1 hcheck).2
  unfold applyToBinding at hi ⊢
  extract_lets at hi ⊢
  rename_i changed
  split at hi
  · rename_i hc
    rw [if_pos hc]
    rw [hi, Bool.false_or, decide_eq_true_eq] at hc
    have hvif : primary.vif = .distributed := hc
    have happart := h.distributed.1 hvif
    have hchost : changed.host = primary.host := by simp [changed, hhost happart]
    refine ⟨h.distributed, fun ha => hchost.trans (h.hostless ha), h.blank, fun hb => ?_⟩
    rw [Binding.hasHost, hchost]
    exact h.hosted hb
  · rename_i hc
    rw [if_neg hc]
    have hvif : primary.vif ≠ .distributed := fun hvif => hc (by simp [changed, hvif])
    have happart : port.isDistributed = false := by
      rw [← Bool.not_eq_true, ← h.distributed]
      exact hvif
    rw [happart]
    exact Binding.formed_of_reset rfl

end PortUpdate

namespace Port.Rows

theorem of_port (h : former.Rows primary hosts) (hid : port.id = former.id)
    (hkind : port.isDistributed = former.isDistributed) : port.Rows primary hosts := by
  refine ⟨h.own.trans hid.symm, hkind ▸ h.formed, fun host row hr => ?_⟩
  have hrow := h.onHost hr
  exact { hrow with distributed := hkind.trans hrow.distributed, port := hrow.port.trans hid.symm }

theorem hosts_none (h : port.Rows primary hosts) (hkind : port.isDistributed = false) :
    hosts = fun _ => none := by
  funext host
  rw [Option.eq_none_iff_forall_ne_some]
  intro row hr
  have hrow := (h.onHost hr).distributed
  rw [hkind] at hrow
  cases hrow

theorem putHost (h : port.Rows primary hosts) (hr : row.OnHost port primary host) :
    port.Rows primary fun other => if other = host then some row else hosts other := by
  refine ⟨h.own, h.formed, fun other found ho => ?_⟩
  split at ho
  · rename_i heq
    cases ho
    exact heq ▸ hr
  · exact h.onHost ho

theorem align (h : port.Rows primary hosts) {aligned : Binding}
    (ha : ∀ host, Aligned aligned (fun _ => True) (hosts host) (hosts' host)) ⦃host : String⦄
    ⦃row : Binding⦄ (hr : hosts' host = some row) : row.OnHost port aligned host := by
  have hhost := ha host
  rw [hr] at hhost
  generalize hold : hosts host = old at hhost
  cases hhost with
  | kept hf => exact { h.onHost hold with follows := hf trivial }
  | followed old =>
    have hrow := h.onHost hold
    exact { hrow with
      formed := Binding.formed_of_reset rfl
      follows := Binding.follows_follow old aligned }

end Port.Rows

namespace Ports

theorem Shaped.shapes (h : store.Shaped) : store.Shapes new store :=
  ⟨h, fun _ port hp => .inr ⟨port, hp, rfl⟩⟩

theorem Shaped.exists_primary (h : store.Shaped) (hp : store.ports.find? id = some port) :
    ∃ primary, store.bindings.find? id = some primary := by
  have hs := h id
  have hport : (store.entry id).port = some port := hp
  change ∃ primary, (store.entry id).primary = some primary
  generalize store.entry id = entry at hs hport
  cases hs with
  | absent => cases hport
  | present => exact ⟨_, rfl⟩

/-- The rows of a port that is stored. -/
theorem Shaped.rows (h : store.Shaped) (hp : store.ports.find? id = some port)
    (hb : store.bindings.find? id = some primary) :
    ∃ hosts, store.entry id = ⟨some port, some primary, hosts⟩ ∧ port.id = id ∧
      port.Rows primary hosts := by
  have hs := h id
  have hport : (store.entry id).port = some port := hp
  have hprimary : (store.entry id).primary = some primary := hb
  generalize store.entry id = entry at hs hport hprimary
  cases hs with
  | absent => cases hport
  | present hid rows =>
    cases hport
    cases hprimary
    exact ⟨_, rfl, hid, rows⟩

theorem Shaped.with (hs : store.Shaped) (h : store.With id entry tables) (he : entry.Shaped id)
    (hkind : ∀ port, entry.port = some port → new id ∨ ∃ former,
      store.ports.find? id = some former ∧ port.isDistributed = former.isDistributed) :
    store.Shapes new tables := by
  refine ⟨fun other => ?_, fun other port hp => ?_⟩
  · rw [h other]
    split
    · rename_i ho
      exact ho ▸ he
    · exact hs other
  · have hport : (tables.entry other).port = some port := hp
    rw [h other] at hport
    split at hport
    · rename_i ho
      exact ho ▸ hkind port hport
    · exact .inr ⟨port, hport, rfl⟩

/-- The entry of a port that was stored is rewritten, with the port as distributed as it was. -/
theorem Shaped.rewrite (hs : store.Shaped) (hf : store.ports.find? id = some former)
    (h : store.With id ⟨some port, some primary, hosts⟩ tables) (hid : port.id = id)
    (hkind : port.isDistributed = former.isDistributed) (hrows : port.Rows primary hosts) :
    store.Shapes new tables := by
  refine hs.with h (.present hid hrows) fun other ho => .inr ⟨former, hf, ?_⟩
  cases ho
  exact hkind

theorem Shaped.savePort (hs : store.Shaped) (hf : store.ports.find? id = some former)
    (hid : port.id = former.id) (hkind : port.isDistributed = former.isDistributed) :
    store.Shapes new (store.savePort port) := by
  obtain ⟨primary, hb⟩ := hs.exists_primary hf
  obtain ⟨hosts, hentry, hown, hrows⟩ := hs.rows hf hb
  have hwith := (Ports.With.refl store id).savePort (hid.trans hown)
  rw [hentry] at hwith
  exact hs.rewrite hf hwith (hid.trans hown) hkind (hrows.of_port hid hkind)

end Ports

end ControlPlane

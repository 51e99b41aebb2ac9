import ControlPlane.Proofs.Errors
import ControlPlane.Proofs.Macs
import ControlPlane.Proofs.Ports.Commits
import ControlPlane.Proofs.Ports.Saving

/-! What the transactions of the port store make of bindings. Only a commit binds a row, one that
waits to be bound and still asks for what was negotiated. -/

namespace ControlPlane

variable {store after : Ports} {id : PortId} {binding primary : Binding} {host : String}

namespace Binding

theorem follows_of_sameInputs (h : (binding.follow primary).sameInputs binding = true) :
    binding.follows primary = true := by
  simp only [sameInputs, Bool.and_eq_true, decide_eq_true_eq] at h
  obtain ⟨⟨_, hv⟩, hp⟩ := h
  rw [Json.agrees_comm] at hp
  simp only [follows, Bool.and_eq_true, decide_eq_true_eq]
  exact ⟨hv.symm, hp⟩

end Binding

namespace Ports

theorem mem_hostBindingsOf : binding ∈ store.hostBindingsOf id ↔
    ∃ host, store.row? (.host id host) = some binding := by
  simp only [hostBindingsOf, Table.mem_values, Table.find?_filter, row?]
  constructor
  · rintro ⟨⟨port, host⟩, h⟩
    rw [Option.filter_eq_some_iff] at h
    have hport := h.2
    simp only [decide_eq_true_eq] at hport
    subst port
    exact ⟨host, h.1⟩
  · rintro ⟨host, h⟩
    exact ⟨(id, host), Option.filter_eq_some_iff.2 ⟨h, decide_eq_true rfl⟩⟩

end Ports

namespace PortUpdate

theorem applyToBinding_port (update : PortUpdate) (binding : Binding) :
    (update.applyToBinding binding).port = binding.port := by
  unfold applyToBinding
  extract_lets changed
  split
  · rfl
  · rfl

theorem applyToBinding_change {bound : Binding → Binding → Prop} (update : PortUpdate)
    (hi : (update.applyToBinding binding).sameInputs binding = false) :
    RowChange bound (some binding) (some (update.applyToBinding binding)) := by
  unfold applyToBinding at hi ⊢
  extract_lets at hi ⊢
  split at hi
  · rename_i h
    rw [hi, Bool.false_or, decide_eq_true_eq] at h
    rw [if_pos (by simp [h])]
    exact .distributed h h
  · rename_i h
    rw [if_neg h]
    exact .reset hi rfl

end PortUpdate

/-- No row is bound. -/
abbrev Ports.Quiet (before after : Ports) : Prop := before.Evolves (fun _ _ _ => False) after

theorem Ports.Evolves.follow {tables last : Ports} (h : store.Quiet tables) (hkeyed : store.Keyed)
    (hb : store.row? (.host id host) = some binding) (hn : binding.follows primary = false)
    (hlast : tables.saveHostBinding (binding.follow primary) = .ok last) : store.Quiet last := by
  obtain ⟨hport, hhost⟩ := hkeyed.host_row hb
  have hi : (binding.follow primary).sameInputs binding = false := by
    rw [Bool.eq_false_iff]
    intro hs
    rw [Binding.follows_of_sameInputs hs] at hn
    cases hn
  have hrow : RowChange (fun _ _ => False)
      (store.row? (.host (binding.follow primary).port host)) (some (binding.follow primary)) := by
    have hport : (binding.follow primary).port = id := hport
    rw [hport, hb]
    exact .reset hi rfl
  exact (h.saveHostBinding hlast hhost hrow).1

theorem Binding.Storing.quiet {former : Binding} {update : PortUpdate}
    {tables : Ports} (h : Storing former (update.applyToBinding former) tables binding after)
    (hq : store.Quiet tables) (hport : former.port = id)
    (hf : store.row? (.primary id) = some former) : store.Quiet after := by
  cases h with
  | same => exact hq
  | stored hi hsave =>
    refine (hq.saveBinding hsave ?_).1
    rw [update.applyToBinding_port, hport, hf]
    exact update.applyToBinding_change hi

namespace Port

theorem alignHosts_ensures (store : Ports) (primary : Binding) :
    (alignHosts primary).Ensures (fun tables _ => tables = store ∧ store.Keyed)
      (fun _ tables _ => store.Quiet tables) fun _ => True := by
  refine Tx.ensures_from Ports.Keyed (fun seen _ tables _ => seen.Quiet tables) (fun _ _ => True)
    (fun seen => ?_) store
  -- Changes are measured from the start, so nothing need be known of rows that were saved before.
  let aligned : List Binding → Ports → Supply → Prop :=
    fun _ tables _ => seen.Keyed ∧ seen.Quiet tables
  refine ((Tx.ensures_forM aligned ?_).of_pre ?_).to_post ?_
  · intro front binding rest hitems
    have hmem : binding ∈ seen.hostBindingsOf primary.port := by simp [hitems]
    split
    · rename_i hn
      rw [Bool.not_eq_true'] at hn
      obtain ⟨host, hb⟩ := Ports.mem_hostBindingsOf.1 hmem
      refine Tx.ensures_change ?_
      rintro tables _ ⟨hkeyed, h⟩
      split
      · exact ⟨hkeyed, h.follow hkeyed hb hn ‹_›⟩
      · trivial
    · exact Tx.ensures_pure fun _ _ h => h
  · rintro _ _ _ ⟨rfl, h⟩
    exact ⟨h, h.evolves⟩
  · rintro _ _ _ _ ⟨_, h⟩
    exact h

theorem Aligning.quiet {needed : Bool} (h : Aligning store.Quiet needed store after)
    (hk : store.Keyed) : store.Quiet after := by
  cases h with
  | kept => exact hk.evolves
  | aligned _ ha => exact ha

theorem Storing.quiet {former port : Port} {update : PortUpdate} {tables : Ports}
    (h : Storing former (update.applyTo former) tables port after) (hq : store.Quiet tables)
    (hid : former.id = id) (hf : store.ports.find? id = some former) :
    store.Quiet after ∧ port.id = id := by
  cases h with
  | same => exact ⟨hq, hid⟩
  | stored time =>
    have hfind : store.ports.find? former.id = some former := hid.symm ▸ hf
    exact ⟨hq.savePort hfind ⟨rfl, rfl⟩, hid⟩

theorem saveTx_closes (drivers : List String) (id : PortId) (network : Network)
    (update : PortUpdate) :
    (saveTx drivers id network update).Closes (fun _ _ _ => False) fun answer =>
      ∀ saved ∈ answer, saved.context.Of id network := by
  intro store
  have hsaving := saveTx_ensures drivers id network update alignHosts_ensures store
  refine hsaving.any_fails.to_post ?_
  rintro closing tables supply _ ⟨hk, h⟩
  cases h with
  | gone => exact ⟨hk.evolves, by simp [Closing.answer]⟩
  | saved hformer hbinding haligned hport hsaved hcontext hnetwork =>
    have hrow : store.row? (.primary id) = some _ := hbinding
    obtain ⟨hq, hid⟩ := hport.quiet (haligned.quiet hk) (hk.port hformer) hformer
    refine ⟨hsaved.quiet hq (hk.row hrow).1 hrow, fun saved hs => ?_⟩
    cases hs
    exact ⟨hcontext ▸ hid, hnetwork⟩

/-- A status is news of a port that is stored, or nothing is saved. -/
inductive Reporting (store : Ports) (drivers : List String) (id : PortId) (status : PortStatus) :
    Closing (Option PortContext) → Ports → Prop
  | kept : Reporting store drivers id status (.rollback none) store
  | saved {former : Port} {context : PortContext} (hformer : store.ports.find? id = some former)
    (time : Timestamp) :
    Reporting store drivers id status (.review drivers context (some context))
      (store.savePort { former with status, updatedAt := time })

theorem statusTx_ensures (drivers : List String) (id : PortId) (network : Network)
    (status : PortStatus) (store : Ports) :
    (statusTx drivers id network status).Ensures (fun tables _ => tables = store)
      (fun closing tables _ => Reporting store drivers id status closing tables)
      fun _ => False := by
  refine Tx.ensures_get_bind fun seen => ?_
  split
  · refine Tx.ensures_pure ?_
    rintro _ _ ⟨rfl, rfl⟩
    exact .kept
  rename_i former hformer
  split
  · refine Tx.ensures_pure ?_
    rintro _ _ ⟨rfl, rfl⟩
    exact .kept
  let kept : Ports → Supply → Prop := fun tables _ => tables = seen ∧ tables = store
  have htime : (Tx.time : Tx Ports Timestamp).Ensures kept (fun _ => kept) fun _ => False :=
    Tx.ensures_time fun _ _ h => h
  extract_lets binding
  refine htime.bind fun time => ?_
  extract_lets port
  refine Tx.ensures_modify_bind (Tx.ensures_pure ?_)
  rintro _ _ ⟨_, ⟨rfl, rfl⟩, rfl⟩
  exact .saved hformer time

theorem statusTx_closes (drivers : List String) (id : PortId) (network : Network)
    (status : PortStatus) :
    (statusTx drivers id network status).Closes (fun _ _ _ => False) fun _ => True := by
  intro store
  have hstatus := (statusTx_ensures drivers id network status store).frame (fun _ => store.Keyed)
    fun _ _ _ h => h
  refine hstatus.weaken (fun _ _ _ h => ⟨h.2, h.1⟩) ?_ fun _ _ => trivial
  rintro closing tables _ _ ⟨hk, h⟩
  cases h with
  | kept => exact ⟨hk.evolves, trivial⟩
  | @saved former _ hformer time =>
    have hfind : store.ports.find? former.id = some former := (hk.port hformer).symm ▸ hformer
    exact ⟨hk.evolves.savePort hfind ⟨rfl, rfl⟩, trivial⟩

theorem removeTx_closes (id : PortId) :
    (removeTx id).Closes (fun _ _ _ => False) fun _ => True := by
  intro store
  have herases := removeTx_erases id store
  refine .of_fact herases.advances (fun _ _ h => h.2) fun hk => ?_
  refine herases.weaken (fun _ _ _ h => h.1) ?_ fun _ _ => trivial
  rintro _ tables _ _ (⟨_, _, rfl⟩ | ⟨_, rfl⟩)
  · exact ⟨hk.evolves, trivial⟩
  · exact ⟨hk.evolves.erasePort id, trivial⟩

theorem hostBinding_closes (id : PortId) (host : String) :
    (hostBinding id host).Closes (fun _ _ _ => False) fun answer =>
      ∀ found ∈ answer, found.1.id = id := by
  refine Tx.ensures_from Ports.Keyed (Ports.Closes _ _) (fun _ _ => True) fun seen => ?_
  split
  · rename_i port primary hport hprimary
    let post := Ports.Closes (fun _ _ _ => False)
      (fun answer : Option (Port × Binding) => ∀ found ∈ answer, found.1.id = id) seen
    have hfound (binding : Binding) :
        (pure (.commit (some (port, binding))) : Tx Ports (Closing (Option (Port × Binding)))).Ensures
          (fun tables _ => seen.Keyed ∧ seen.Quiet tables) post fun _ => True := by
      refine Tx.ensures_pure ?_
      rintro _ _ ⟨hkeyed, h⟩
      refine ⟨h, fun found hf => ?_⟩
      cases hf
      exact hkeyed.port hport
    split
    · rename_i hnone
      extract_lets binding
      refine (Tx.ensures_change ?_).bind fun _ => hfound binding
      rintro tables _ ⟨rfl, h⟩
      split
      · rename_i hsave
        have hrow : tables.row? (.host binding.port host) = none := hnone
        refine ⟨h, (h.evolves.saveHostBinding hsave rfl ?_).1⟩
        rw [hrow]
        refine .created fun ⟨kind, hk⟩ => ?_
        cases hk
      · trivial
    · rename_i binding hsome
      split
      · refine (hfound binding).of_pre ?_
        rintro _ _ _ ⟨rfl, h⟩
        exact ⟨h, h.evolves⟩
      · rename_i hn
        rw [Bool.not_eq_true] at hn
        refine (Tx.ensures_change ?_).bind fun _ => hfound (binding.follow primary)
        rintro _ _ ⟨rfl, h⟩
        split
        · exact ⟨h, h.evolves.follow h hsome hn ‹_›⟩
        · trivial
  · refine Tx.ensures_pure ?_
    rintro _ _ ⟨rfl, h⟩
    exact ⟨h.evolves, by simp [Closing.answer]⟩

theorem fetchTx_closes (id : PortId) :
    (fetchTx id).Closes (fun _ _ _ => False) fun _ => True := by
  refine Tx.ensures_from Ports.Keyed (Ports.Closes _ _) (fun _ _ => True) fun seen => ?_
  split
  · exact Tx.ensures_throw fun _ _ _ => trivial
  · refine Tx.ensures_pure ?_
    rintro _ _ ⟨rfl, h⟩
    exact ⟨h.evolves, trivial⟩

/-- So many addresses that are drawn from a supply are all used in a network. -/
def Exhausted (store : Ports) (supply : Supply) (base : Mac) (network : NetworkId) (tries : Nat) :
    Prop :=
  ∀ n < tries, (store.findMac network
    (base.complete supply.octetAt (supply.octets + n * base.holes)).toString).isSome = true

theorem Exhausted.succ {store : Ports} {supply : Supply} {base : Mac} {network : NetworkId}
    {tries : Nat} (hused : (store.findMac network
      (base.complete supply.octetAt supply.octets).toString).isSome = true)
    (h : Exhausted store (supply.skipOctets base.holes).2 base network tries) :
    Exhausted store supply base network (tries + 1) := by
  intro n hn
  cases n with
  | zero => simpa using hused
  | succ n =>
    have hstart : supply.octets + (n + 1) * base.holes =
        supply.octets + base.holes + n * base.holes := by
      rw [Nat.succ_mul]
      omega
    rw [hstart]
    exact h n (Nat.lt_of_succ_lt_succ hn)

/-- Drawing addresses finds a new one, or all that were drawn are used. -/
theorem drawMac_ensures (base : Mac) (network : NetworkId) (tries : Nat) (store : Ports)
    (first : Supply) :
    (drawMac base network tries).Ensures (fun tables supply => tables = store ∧ supply = first)
      (fun mac tables _ => tables = store ∧ store.Offers network mac)
      fun error => error = .macsExhausted network ∧ Exhausted store first base network tries := by
  induction tries generalizing first with
  | zero => exact Tx.ensures_throw fun _ _ _ => ⟨rfl, nofun⟩
  | succ tries ih =>
    let later := (first.skipOctets base.holes).2
    have hmac : (Tx.mac base : Tx Ports Mac).Ensures
        (fun tables supply => tables = store ∧ supply = first)
        (fun mac tables supply => (tables = store ∧ supply = later) ∧
          mac = base.complete first.octetAt first.octets)
        fun error => error = .macsExhausted network ∧
          Exhausted store first base network (tries + 1) := by
      refine Tx.ensures_mac ?_
      rintro _ _ ⟨rfl, rfl⟩
      exact ⟨⟨rfl, rfl⟩, rfl⟩
    refine hmac.bind fun mac => Tx.ensures_get_bind fun seen => ?_
    split
    · rename_i hnone
      refine Tx.ensures_pure ?_
      rintro _ _ ⟨rfl, ⟨rfl, rfl⟩, _⟩
      exact ⟨rfl, Mac.canonical_toString mac, hnone⟩
    · rename_i found hfound
      refine Tx.Ensures.of_fact (P := seen = store ∧ mac = base.complete first.octetAt first.octets)
        (ih later).advances ?_ ?_
      · rintro _ _ ⟨rfl, ⟨rfl, _⟩, rfl⟩
        exact ⟨rfl, rfl⟩
      · rintro ⟨rfl, rfl⟩
        refine (ih later).weaken (fun _ _ _ h => h.2.1) (fun _ _ _ _ h => h) ?_
        rintro _ ⟨rfl, h⟩
        exact ⟨rfl, .succ (Option.isSome_iff_exists.2 ⟨found, hfound⟩) h⟩

/-- Why no address can be chosen for a new port of a network. -/
inductive Unchosen (config : Config) (network : NetworkId) (store : Ports) (first : Supply) :
    Option String → Error → Prop
  | misconfigured {error : Error} (hbase : config.base = .error error) :
    Unchosen config network store first none error
  | exhausted {base : Mac} (hbase : config.base = .ok base)
    (h : Exhausted store first base network config.macRetries) :
    Unchosen config network store first none (.macsExhausted network)
  | malformed {text : String} {error : Error} (hmac : Mac.normalize text = .error error) :
    Unchosen config network store first (some text) error
  | used (text mac : String) : Unchosen config network store first (some text) (.macInUse network mac)

theorem base_eq_error {config : Config} {error : Error} (h : config.base = .error error) :
    ∃ text, error = .configuration text := by
  unfold Config.base at h
  cases hmac : Mac.ofString? config.baseMac with
  | none =>
    rw [hmac] at h
    exact ⟨_, (Except.error.inj h).symm⟩
  | some base =>
    rw [hmac] at h
    cases h

namespace Unchosen

variable {config : Config} {network other : NetworkId} {store : Ports} {first : Supply}
  {text : Option String} {error : Error}

/-- Addresses run out only if as many were drawn as may be. -/
theorem of_exhausted (h : Unchosen config network store first text (.macsExhausted other)) :
    text = none ∧ other = network ∧
      ∃ base, config.base = .ok base ∧ Exhausted store first base network config.macRetries := by
  generalize herror : Error.macsExhausted other = error at h
  cases h with
  | misconfigured hbase =>
    obtain ⟨_, rfl⟩ := base_eq_error hbase
    cases herror
  | exhausted hbase hexhausted =>
    cases herror
    exact ⟨rfl, rfl, _, hbase, hexhausted⟩
  | malformed hmac =>
    obtain ⟨_, rfl⟩ := Mac.normalize_eq_error hmac
    cases herror
  | used => cases herror

theorem due {named : List Ip.Address} (h : Unchosen config network store first text error) :
    error.Due named := by
  cases h with
  | misconfigured hbase =>
    obtain ⟨_, rfl⟩ := base_eq_error hbase
    trivial
  | exhausted => trivial
  | malformed hmac =>
    have hinput : error.IsInput := Mac.normalize_eq_error hmac
    exact hinput.due
  | used => trivial

end Unchosen

theorem chooseMac_ensures (config : Config) (network : NetworkId) (text : Option String)
    (store : Ports) (first : Supply) :
    (chooseMac config network text).Ensures
      (fun tables supply => tables = store ∧ supply = first)
      (fun mac tables _ => tables = store ∧ store.Offers network mac)
      (Unchosen config network store first text) := by
  unfold chooseMac
  split
  · cases hbase : config.base with
    | error error => exact Tx.ensures_throw_bind fun _ _ _ => .misconfigured hbase
    | ok base =>
      refine (drawMac_ensures base network config.macRetries store first).weaken
        (fun _ _ _ h => h) (fun _ _ _ _ h => h) ?_
      rintro _ ⟨rfl, hexhausted⟩
      exact .exhausted hbase hexhausted
  · rename_i text
    have hmac : (liftM (Mac.normalize text) : Tx Ports String).Ensures
        (fun tables supply => tables = store ∧ supply = first)
        (fun mac tables _ => tables = store ∧ Mac.Canonical mac)
        (Unchosen config network store first (some text)) := by
      refine Tx.ensures_lift ?_
      rintro _ _ ⟨rfl, rfl⟩
      split
      · rename_i hnormalize
        exact ⟨rfl, Mac.normalize_canonical hnormalize⟩
      · rename_i hnormalize
        exact .malformed hnormalize
    refine hmac.bind fun mac => Tx.ensures_get_bind fun seen => ?_
    split
    · rename_i hnone
      refine Tx.ensures_pure ?_
      rintro _ _ ⟨rfl, rfl, hcanonical⟩
      exact ⟨rfl, hcanonical, hnone⟩
    · exact Tx.ensures_throw fun _ _ _ => .used text mac

/-- A new port is not stored for want of an address, unless its binding is for another port. -/
theorem insertTx_ensures (config : Config) (port : Port) (binding : Binding) (mac : Option String)
    (store : Ports) (first : Supply) :
    (insertTx config port binding mac).Ensures
      (fun tables supply => tables = store ∧ supply = first)
      (fun closing tables _ => ∃ new, closing = .commit new ∧
        (∃ mac, new = { port with mac } ∧ store.Offers port.network mac) ∧
        (store.savePort new).saveBinding binding = .ok tables)
      fun error => Unchosen config port.network store first mac error ∨ binding.port ≠ port.id := by
  refine ((chooseMac_ensures config port.network mac store first).weaken (fun _ _ _ h => h)
    (fun _ _ _ _ h => h) fun _ => .inl).bind fun mac => ?_
  extract_lets new
  refine Tx.ensures_modify_bind ?_
  refine Tx.ensures_change_bind ?_ (Tx.ensures_pure ?_)
  · rintro _ _ error ⟨tables, _, rfl⟩ hf
    refine .inr fun hport => ?_
    have hc : (tables.savePort new).ports.contains binding.port = true := by
      rw [hport, Table.contains_iff]
      exact ⟨new, Table.find?_insert.trans (if_pos rfl)⟩
    obtain ⟨last, hlast⟩ := Ports.exists_saveBinding hc
    rw [hlast] at hf
    cases hf
  · rintro _ _ ⟨_, ⟨_, ⟨rfl, hoffers⟩, rfl⟩, hsave⟩
    exact ⟨new, rfl, ⟨mac, rfl, hoffers⟩, hsave⟩

theorem insertTx_stores (config : Config) (port : Port) (binding : Binding) (mac : Option String)
    (store : Ports) :
    (insertTx config port binding mac).Ensures (fun tables _ => tables = store)
      (fun closing tables _ => ∃ new, closing = .commit new ∧
        (∃ mac, new = { port with mac } ∧ store.Offers port.network mac) ∧
        (store.savePort new).saveBinding binding = .ok tables)
      fun _ => True :=
  .of_supply fun first => (insertTx_ensures config port binding mac store first).any_fails

end Port

end ControlPlane

import ControlPlane.Proofs.Environment
import ControlPlane.Proofs.Ports.Commits
import ControlPlane.Proofs.Schedules

/-! What a commit answers and writes, row by row. It writes one row, and the port if its status
changes; which row that is depends on the kind of the port. -/

namespace ControlPlane

/-- Where the binding of a port is stored that is seen from a host, if it may be seen from there. -/
def Port.bindingKey? (port : Port) (host : Option String) : Option BindingKey :=
  if port.isDistributed then host.map (.host port.id) else some (.primary port.id)

/-- The port with the status that is wanted, if any is. -/
def Port.restate (port : Port) (wanted : Option PortStatus) (time : Timestamp) : Port :=
  match wanted with
  | none => port
  | some status => { port with status, updatedAt := time }

/-- What drivers and listeners see of a commit to a row. -/
def PortContext.committing (candidate : PortContext) (port : Port) (live : Binding)
    (time : Timestamp) : PortContext where
  port := port.restate candidate.wanted? time
  network := candidate.network
  binding := live.copyResult candidate.binding
  formerPort := some port
  formerBinding := some live
  newStatus := candidate.newStatus

namespace Ports

/-- Ports and bindings are stored under the identifiers of their ports, and the bindings of hosts
under their hosts, which have names. -/
structure Filed (store : Ports) : Prop where
  port : ∀ ⦃id port⦄, store.ports.find? id = some port → port.id = id
  row : ∀ ⦃key binding⦄, store.row? key = some binding → binding.port = key.port
  host : ∀ ⦃id host binding⦄, store.row? (.host id host) = some binding →
    binding.host = some host ∧ host ≠ ""

/-- The port and one row of it are written as a context has them, and nothing else is. -/
structure Writes (store : Ports) (key : BindingKey) (context : PortContext) (after : Ports) :
    Prop where
  ports : ∀ id, after.ports.find? id =
    if id = context.port.id then some context.port else store.ports.find? id
  rows : ∀ other, after.row? other = if other = key then some context.binding else store.row? other

def putRow (store : Ports) (key : BindingKey) (binding : Binding) : Ports :=
  match key with
  | .primary port => { store with bindings := store.bindings.insert port binding }
  | .host port host => { store with hostBindings := store.hostBindings.insert (port, host) binding }

/-- A port and the binding of it that is seen from a host, if there are both. -/
def seen? (store : Ports) (id : PortId) (host : Option String) : Option (Port × Binding) := do
  let port ← store.ports.find? id
  return (port, ← store.bindingAt port host)

variable {store : Ports} {key other : BindingKey} {binding live : Binding} {port : Port}
  {host : Option String} {id : PortId} {wanted : Option PortStatus} {time : Timestamp}

@[simp] theorem putRow_ports : (store.putRow key binding).ports = store.ports := by cases key <;> rfl

theorem row?_putRow : (store.putRow key binding).row? other =
    if other = key then some binding else store.row? other := by
  cases key <;> cases other <;> simp [putRow, row?, Table.find?_insert, eq_comm]

theorem seen?_eq_none : store.seen? id host = none ↔
    ∀ port, store.ports.find? id = some port → store.bindingAt port host = none := by
  unfold seen?
  cases store.ports.find? id with
  | none => simp
  | some port => cases h : store.bindingAt port host <;> simp [h]

theorem seen?_eq_some : store.seen? id host = some (port, live) ↔
    store.ports.find? id = some port ∧ store.bindingAt port host = some live := by
  simp [seen?, Option.bind_eq_some_iff]

theorem bindingAt_eq_some : store.bindingAt port host = some binding ↔
    ∃ key, port.bindingKey? host = some key ∧ store.row? key = some binding := by
  unfold bindingAt Port.bindingKey?
  split
  · cases host <;> simp [row?]
  · simp [row?]

theorem saveBindingOf_eq (hkey : port.bindingKey? host = some key) (hport : binding.port = port.id)
    (hhost : port.isDistributed = true → binding.host = host ∧ host ≠ some "")
    (hc : store.ports.contains port.id = true) :
    store.saveBindingOf port binding = .ok (store.putRow key binding) := by
  have hrequire : store.requirePort binding.port = .ok () := by
    rw [requirePort, hport, if_pos hc]
  unfold Port.bindingKey? at hkey
  unfold saveBindingOf
  split at hkey
  · rename_i hd
    obtain ⟨name, rfl, rfl⟩ := Option.map_eq_some_iff.1 hkey
    obtain ⟨hname, hne⟩ := hhost hd
    have hfilter : binding.host.filter (· ≠ "") = some name := by
      rw [hname, Option.filter_some, if_pos]
      simpa using hne
    rw [if_pos hd, saveHostBinding, hrequire, hfilter, hport]
    rfl
  · rename_i hd
    cases hkey
    rw [if_neg hd, saveBinding, hrequire, hport]
    rfl

def restate (store : Ports) (port : Port) (wanted : Option PortStatus) (time : Timestamp) : Ports :=
  match wanted with
  | none => store
  | some _ => store.savePort (port.restate wanted time)

theorem restate_find? (hp : store.ports.find? port.id = some port) :
    (store.restate port wanted time).ports.find? id =
      if id = port.id then some (port.restate wanted time) else store.ports.find? id := by
  cases wanted with
  | none =>
    simp only [restate, Port.restate]
    split
    · subst id
      exact hp
    · rfl
  | some status => simp [restate, Port.restate, savePort, Table.find?_insert, eq_comm]

end Ports

variable {store : Ports} {id : PortId} {asked live : Binding} {candidate : PortContext}
  {drivers : List String} {port : Port} {supply : Supply} {key : BindingKey} {time : Timestamp}

@[simp] theorem Port.restate_id {wanted : Option PortStatus} :
    (port.restate wanted time).id = port.id := by
  cases wanted <;> rfl

theorem Port.bindingKey?_port (port : Port) {host : Option String}
    (h : port.bindingKey? host = some key) : key.port = port.id := by
  unfold bindingKey? at h
  split at h
  · obtain ⟨_, _, rfl⟩ := Option.map_eq_some_iff.1 h
    rfl
  · cases h
    rfl

theorem Ports.restate_row? {wanted : Option PortStatus} :
    (store.restate port wanted time).row? key = store.row? key := by
  cases wanted <;> cases key <;> rfl

theorem Ports.writes_committing (hp : store.ports.find? port.id = some port) :
    store.Writes key (candidate.committing port live time)
      ((store.restate port candidate.wanted? time).putRow key
        (live.copyResult candidate.binding)) := by
  refine ⟨fun id => ?_, fun other => ?_⟩
  · rw [putRow_ports, restate_find? hp]
    simp [PortContext.committing]
  · rw [row?_putRow, restate_row?]
    rfl

namespace Ports

variable {binding : Binding} {context : PortContext} {after : Ports}

theorem Filed.of_row (hf : store.Filed)
    (hports : ∀ ⦃id port⦄, after.ports.find? id = some port → port.id = id)
    (hrows : ∀ other, after.row? other = if other = key then some binding else store.row? other)
    (hport : binding.port = key.port)
    (hhost : ∀ id host, key = .host id host → binding.host = some host ∧ host ≠ "") :
    after.Filed := by
  refine ⟨hports, fun other found hrow => ?_, fun id host found hrow => ?_⟩
  · rw [hrows] at hrow
    split at hrow
    · cases hrow
      rename_i heq
      exact heq ▸ hport
    · exact hf.row hrow
  · rw [hrows] at hrow
    split at hrow
    · cases hrow
      rename_i heq
      exact hhost id host heq.symm
    · exact hf.host hrow

theorem Writes.filed (h : store.Writes key context after) (hf : store.Filed)
    (hlive : store.row? key = some live) (hport : context.binding.port = live.port)
    (hhost : context.binding.host = live.host) : after.Filed := by
  refine hf.of_row (fun id port hp => ?_) h.rows (hport.trans (hf.row hlive)) ?_
  · rw [h.ports] at hp
    split at hp
    · cases hp
      exact Eq.symm ‹_›
    · exact hf.port hp
  · rintro id host rfl
    exact hhost ▸ hf.host hlive

theorem Writes.seen? (h : store.Writes key context after)
    (hkey : context.port.bindingKey? context.binding.host = some key) :
    after.seen? context.port.id context.binding.host = some (context.port, context.binding) := by
  refine seen?_eq_some.2 ⟨(h.ports _).trans (if_pos rfl), bindingAt_eq_some.2 ⟨key, hkey, ?_⟩⟩
  exact (h.rows key).trans (if_pos rfl)

end Ports

namespace Binding

theorem Live.exists_key (h : Live store id asked port live) :
    ∃ key, port.bindingKey? asked.host = some key ∧ store.row? key = some live :=
  Ports.bindingAt_eq_some.1 h.row

theorem commitTx_gone
    (h : ∀ port, store.ports.find? id = some port → store.bindingAt port asked.host = none) :
    (commitTx drivers id asked candidate).attempt store supply =
      (.ok (.rollback .gone, store), supply) := by
  unfold commitTx
  rw [Tx.attempt_get_bind]
  cases hp : store.ports.find? id with
  | none => rfl
  | some port =>
    simp only [h port hp]
    rfl

theorem commitTx_retry (hp : store.ports.find? id = some port)
    (hlive : store.bindingAt port asked.host = some live) (hc : live.isCurrent asked = false) :
    (commitTx drivers id asked candidate).attempt store supply =
      (.ok (.rollback (.retry { port, network := candidate.network, binding := live }), store),
        supply) := by
  unfold commitTx
  rw [Tx.attempt_get_bind]
  simp only [hp, hlive, hc]
  rfl

theorem withStatus_attempt (port : Port) (candidate : PortContext) (store : Ports)
    (supply : Supply) : ∃ rest, rest.Extends supply ∧
    (withStatus port candidate).attempt store supply =
      (.ok (port.restate candidate.wanted? supply.time.1,
        store.restate port candidate.wanted? supply.time.1), rest) := by
  unfold withStatus PortContext.wanted?
  split
  · rename_i hsegment hstatus
    rw [hsegment, hstatus]
    exact ⟨supply.time.2, ⟨rfl, Nat.le_refl _⟩, rfl⟩
  · rename_i hnone
    have hwanted : candidate.binding.segment.bind (fun _ => candidate.newStatus) = none := by
      refine Option.bind_eq_none_iff.2 fun segment hsegment => ?_
      exact Option.eq_none_iff_forall_ne_some.2 fun status => hnone segment status hsegment
    rw [hwanted]
    exact ⟨_, .refl _, rfl⟩

theorem commitTx_live_eq (drivers : List String) (h : Live store id asked port live) :
    ∃ rest, rest.Extends supply ∧ (commitTx drivers id asked candidate).attempt store supply =
      (((store.restate port candidate.wanted? supply.time.1).saveBindingOf port
        (live.copyResult candidate.binding)).map fun last =>
          (.review drivers (candidate.committing port live supply.time.1)
            (.committed (candidate.committing port live supply.time.1)), last), rest) := by
  obtain ⟨rest, he, hstatus⟩ := withStatus_attempt port candidate store supply
  refine ⟨rest, he, ?_⟩
  unfold commitTx
  rw [Tx.attempt_get_bind]
  simp only [h.found, h.row, h.current]
  change (withStatus port candidate >>= _).attempt store supply = _
  rw [Tx.attempt_bind, hstatus]
  dsimp only
  rw [Tx.attempt_bind, Tx.attempt_change]
  cases (store.restate port candidate.wanted? supply.time.1).saveBindingOf port
    (live.copyResult candidate.binding) <;> rfl

/-- A commit never fails by itself where ports and bindings are filed. -/
theorem commitTx_live (drivers : List String) (hf : store.Filed) (h : Live store id asked port live)
    (hkey : port.bindingKey? asked.host = some key) :
    ∃ rest, rest.Extends supply ∧ (commitTx drivers id asked candidate).attempt store supply =
      (.ok (.review drivers (candidate.committing port live supply.time.1)
        (.committed (candidate.committing port live supply.time.1)),
        (store.restate port candidate.wanted? supply.time.1).putRow key
          (live.copyResult candidate.binding)), rest) := by
  have hp : store.ports.find? port.id = some port := by rw [hf.port h.found, h.found]
  obtain ⟨key', hkey', hrow⟩ := h.exists_key
  cases Option.some.inj (hkey.symm.trans hkey')
  have hsave : (store.restate port candidate.wanted? supply.time.1).saveBindingOf port
      (live.copyResult candidate.binding) =
        .ok ((store.restate port candidate.wanted? supply.time.1).putRow key
          (live.copyResult candidate.binding)) := by
    refine Ports.saveBindingOf_eq hkey ?_ ?_ ?_
    · exact (hf.row hrow).trans (port.bindingKey?_port hkey)
    · intro hd
      rw [Port.bindingKey?, if_pos hd] at hkey
      obtain ⟨name, hname, rfl⟩ := Option.map_eq_some_iff.1 hkey
      obtain ⟨hhost, hne⟩ := hf.host hrow
      rw [hname]
      exact ⟨hhost, by simpa using hne⟩
    · rw [Table.contains_iff]
      exact ⟨_, (Ports.restate_find? hp).trans (if_pos rfl)⟩
  obtain ⟨rest, he, hattempt⟩ := @commitTx_live_eq _ _ _ _ candidate _ supply drivers h
  rw [hsave] at hattempt
  exact ⟨rest, he, hattempt⟩

end Binding

namespace State

variable {α ρ : Type} {state : State} {tx : Tx Ports (Closing α)} {a : α} {tables : Ports}
  {review : List String → PortContext → StateM ρ (Except Error Unit)} {outside : ρ}
  {context : PortContext} {rest : Supply}

theorem runPorts_rollback
    (h : tx.attempt state.ports state.supply = (.ok (.rollback a, tables), rest)) :
    (state.runPorts review tx).run outside = ((.ok a, { state with supply := rest }), outside) := by
  unfold runPorts
  rw [h]
  rfl

theorem runPorts_review
    (h : tx.attempt state.ports state.supply = (.ok (.review drivers context a, tables), rest)) :
    (state.runPorts review tx).run outside =
      match (review drivers context).run outside with
      | (.ok (), next) => ((.ok a, { state with supply := rest, ports := tables }), next)
      | (.error error, next) => ((.error error, { state with supply := rest }), next) := by
  unfold runPorts
  rw [h]
  simp only [StateT.run_bind]
  rcases (review drivers context).run outside with ⟨_ | _, _⟩ <;> rfl

theorem runReviewed_commit
    (h : tx.attempt state.ports state.supply = (.ok (.commit a, tables), rest))
    (refuser : Option (String × Error)) :
    state.runReviewed refuser tx = (.ok a, { state with supply := rest, ports := tables }) := by
  unfold runReviewed runPorts
  rw [h]
  rfl

theorem runReviewed_welcome
    (h : tx.attempt state.ports state.supply = (.ok (.review drivers context a, tables), rest)) :
    state.runReviewed none tx = (.ok a, { state with supply := rest, ports := tables }) := by
  unfold runReviewed
  rw [runPorts_review h]
  rfl

end State

section Environment

variable {ε : Type} {env : Environment ε} {world : World ε}

/-- A commit is settled by its transaction: what it announces after that changes no store. -/
theorem Environment.Quiet.run_commit (quiet : env.Quiet) (drivers : List String) (id : PortId)
    (asked : Binding) (candidate : PortContext) (world : World ε) :
    let settled := (world.state.runPorts env.review
      (Binding.commitTx drivers id asked candidate)).run world.outside
    let done := (env.run (Binding.commit drivers id asked candidate).run).run world
    done.1 = settled.1.1 ∧ done.2.state = settled.1.2 := by
  unfold Binding.commit
  rw [ExceptT.run_bind, Environment.run_bind, StateT.run_bind, quiet.run_ports]
  dsimp only
  generalize (world.state.runPorts env.review
    (Binding.commitTx drivers id asked candidate)).run world.outside = settled
  obtain ⟨⟨answer, state⟩, outside⟩ := settled
  cases answer with
  | error error => exact ⟨rfl, rfl⟩
  | ok outcome =>
    cases outcome with
    | committed context =>
      let rest : Operation CommitOutcome := do
        ExceptT.lift (context.announce drivers)
        return .committed context
      have hrest : env.run rest.run =
          env.run (context.announce drivers) >>= fun _ => pure (.ok (.committed context)) := by
        rw [ExceptT.run_bind, Environment.run_bind, Environment.run_lift, bind_assoc]
        rfl
      change ((env.run rest.run).run ⟨state, outside⟩).1 = _ ∧
        ((env.run rest.run).run ⟨state, outside⟩).2.state = state
      rw [hrest]
      exact ⟨rfl, quiet.run_announce context drivers ⟨state, outside⟩⟩
    | retry context => exact ⟨rfl, rfl⟩
    | gone => exact ⟨rfl, rfl⟩

/-- What a commit answers, and what it leaves of both stores. -/
structure Binding.Concludes (env : Environment ε) (drivers : List String) (id : PortId)
    (asked : Binding) (candidate : PortContext) (before : World ε)
    (result : Except Error CommitOutcome) (after : State) : Prop where
  committed : ∀ context, result = .ok (.committed context) ↔ ∃ port live,
    before.state.ports.seen? id asked.host = some (port, live) ∧ live.isCurrent asked = true ∧
      context = candidate.committing port live before.state.supply.time.1 ∧
      env.Accepts context drivers before.outside
  gone : result = .ok .gone ↔ before.state.ports.seen? id asked.host = none
  retry : ∀ context, result = .ok (.retry context) ↔ ∃ port live,
    before.state.ports.seen? id asked.host = some (port, live) ∧ live.isCurrent asked = false ∧
      context = { port, network := candidate.network, binding := live }
  refused : (∃ error, result = .error error) ↔ ∃ port live,
    before.state.ports.seen? id asked.host = some (port, live) ∧ live.isCurrent asked = true ∧
      ¬ env.Accepts (candidate.committing port live before.state.supply.time.1) drivers
        before.outside
  written : ∀ context port live key, result = .ok (.committed context) →
    before.state.ports.seen? id asked.host = some (port, live) →
      port.bindingKey? asked.host = some key → before.state.ports.Writes key context after.ports
  unwritten : (∀ context, result ≠ .ok (.committed context)) → after.ports = before.state.ports
  ipam : after.ipam = before.state.ipam

theorem Binding.commitTx_concludes (env : Environment ε) (drivers : List String) (id : PortId)
    (asked : Binding) (candidate : PortContext) (filed : world.state.ports.Filed) :
    let settled := (world.state.runPorts env.review
      (commitTx drivers id asked candidate)).run world.outside
    Concludes env drivers id asked candidate world settled.1.1 settled.1.2 := by
  dsimp only
  cases hseen : world.state.ports.seen? id asked.host with
  | none =>
    rw [State.runPorts_rollback (commitTx_gone (Ports.seen?_eq_none.1 hseen))]
    constructor <;> simp [hseen]
  | some found =>
    obtain ⟨port, live⟩ := found
    obtain ⟨hport, hlive⟩ := Ports.seen?_eq_some.1 hseen
    have hfound (P : Port → Binding → Prop) : (∃ port live,
        world.state.ports.seen? id asked.host = some (port, live) ∧ P port live) ↔ P port live := by
      simp [hseen, and_assoc]
    cases hcurrent : live.isCurrent asked with
    | false =>
      rw [State.runPorts_rollback (commitTx_retry hport hlive hcurrent)]
      refine ⟨fun context => ?_, by simp [hseen], fun context => ?_, ?_, by simp, fun _ => rfl, rfl⟩
      · rw [hfound]
        simp [hcurrent]
      · rw [hfound]
        simp [hcurrent, eq_comm]
      · rw [hfound]
        simp [hcurrent]
    | true =>
      have hl : Live world.state.ports id asked port live := ⟨hport, hlive, hcurrent⟩
      have hp : world.state.ports.ports.find? port.id = some port := by rw [filed.port hport, hport]
      obtain ⟨key, hkey, hrow⟩ := hl.exists_key
      obtain ⟨rest, he, hattempt⟩ := commitTx_live drivers filed hl hkey
      have haccepts := env.review_eq_ok_iff drivers
        (candidate.committing port live world.state.supply.time.1) world.outside
      rw [State.runPorts_review hattempt]
      rcases hreview : (env.review drivers (candidate.committing port live
        world.state.supply.time.1)).run world.outside with ⟨error | ⟨⟩, next⟩
      · have hrejects : ¬ env.Accepts (candidate.committing port live world.state.supply.time.1)
            drivers world.outside := by simp [← haccepts, hreview]
        refine ⟨fun context => ?_, by simp [hseen], fun context => ?_, ?_, by simp, fun _ => rfl, rfl⟩
        · rw [hfound]
          constructor
          · exact nofun
          · rintro ⟨_, rfl, h⟩
            exact absurd h hrejects
        · rw [hfound]
          simp [hcurrent]
        · rw [hfound]
          simp [hcurrent, hrejects]
      · rw [hreview] at haccepts
        refine ⟨fun context => ?_, by simp [hseen], fun context => ?_, ?_, ?_, ?_, rfl⟩
        · rw [hfound]
          constructor
          · intro h
            cases h
            exact ⟨hcurrent, rfl, haccepts.1 rfl⟩
          · rintro ⟨_, rfl, _⟩
            rfl
        · rw [hfound]
          simp [hcurrent]
        · rw [hfound]
          simp [hcurrent, ← haccepts]
        · intro context other seen row hcontext hs hrow
          cases hcontext
          cases hseen.symm.trans hs
          cases hkey.symm.trans hrow
          exact Ports.writes_committing hp
        · exact fun h => absurd rfl (h _)

/-- In an environment that leaves the stores alone, a commit writes the candidate if port and row are
there, the row asks for what was asked and waits to be bound, and all drivers accept. Otherwise it
tells what was in the way, and changes nothing. -/
theorem Binding.commit_concludes (quiet : env.Quiet) (filed : world.state.ports.Filed)
    (drivers : List String) (id : PortId) (asked : Binding) (candidate : PortContext) :
    let done := (env.run (commit drivers id asked candidate).run).run world
    Concludes env drivers id asked candidate world done.1 done.2.state := by
  intro done
  obtain ⟨hresult, hstate⟩ := quiet.run_commit drivers id asked candidate world
  rw [hresult, hstate]
  exact commitTx_concludes env drivers id asked candidate filed

/-- Drivers that accept so many changes, all of them together. -/
def Environment.patient : Environment Nat where
  opening _ := pure (.ok ())
  bind _ _ := pure none
  precommit _ _ := modifyGet fun
    | 0 => (.error (.internal "too many changes"), 0)
    | left + 1 => (.ok (), left)
  postcommit _ _ := pure ()
  notify _ := pure ()

/-- A distributed port that is bound on one of two hosts. -/
def World.paired (patience : Nat) : World Nat where
  state := {
    ports := {
      ports := Table.empty.insert ⟨1⟩ port
      hostBindings := (Table.empty.insert (⟨1⟩, "left") { port := ⟨1⟩, host := some "left" }).insert
        (⟨1⟩, "right") { port := ⟨1⟩, host := some "right", vif := .bound "ovs" } }
    supply := .counting }
  outside := patience
where
  port : Port := {
    id := ⟨1⟩
    network := ⟨7⟩
    mac := "fa:16:3e:00:00:01"
    deviceOwner := distributedOwner
    deviceId := ""
    adminStateUp := true
    status := .down
    createdAt := ⟨0, 0⟩
    updatedAt := ⟨0, 0⟩ }

theorem World.paired_filed (patience : Nat) : (paired patience).state.ports.Filed := by
  have hports : ∀ row ∈ (paired 0).state.ports.ports.rows, row.2.id = row.1 := by decide +kernel
  have hhosts : ∀ row ∈ (paired 0).state.ports.hostBindings.rows, row.2.port = row.1.1 ∧
      row.2.host = some row.1.2 ∧ row.1.2 ≠ "" := by decide +kernel
  refine ⟨fun id port hp => hports (id, port) (Table.find?_eq_some_iff.1 hp), ?_, ?_⟩
  · intro key binding hrow
    cases key with
    | primary port => cases hrow
    | host port host => exact (hhosts ((port, host), binding) (Table.find?_eq_some_iff.1 hrow)).1
  · intro port host binding hrow
    exact (hhosts ((port, host), binding) (Table.find?_eq_some_iff.1 hrow)).2

/-- What a commit to the row of the left host answers, and what it leaves. Two drivers are asked. -/
def World.commitLeft (patience : Nat) : Except Error CommitOutcome × World Nat :=
  (Environment.patient.run (Binding.commit ["a", "b"] ⟨1⟩ asked candidate).run).run (paired patience)
where
  asked : Binding := { port := ⟨1⟩, host := some "left" }
  candidate : PortContext := {
    port := paired.port
    network := .sample
    binding := { asked with vif := .bound "ovs", segment := some ⟨8⟩ }
    newStatus := some .active }

theorem World.commitLeft_concludes :
    ((commitLeft 2).1.toOption.map CommitOutcome.name = some "committed" ∧
      Binding.Concludes .patient ["a", "b"] ⟨1⟩ commitLeft.asked commitLeft.candidate (paired 2)
        (commitLeft 2).1 (commitLeft 2).2.state) ∧
    (commitLeft 1).1.toOption.map CommitOutcome.name = none ∧
      Binding.Concludes .patient ["a", "b"] ⟨1⟩ commitLeft.asked commitLeft.candidate (paired 1)
        (commitLeft 1).1 (commitLeft 1).2.state := by
  have hquiet : Environment.patient.Quiet := ⟨fun _ _ => rfl, fun _ _ _ => rfl⟩
  have hconcludes (patience : Nat) : Binding.Concludes .patient ["a", "b"] ⟨1⟩ commitLeft.asked
      commitLeft.candidate (paired patience) (commitLeft patience).1 (commitLeft patience).2.state :=
    Binding.commit_concludes hquiet (paired_filed patience) ["a", "b"] ⟨1⟩ _ _
  exact ⟨⟨by decide +kernel, hconcludes 2⟩, by decide +kernel, hconcludes 1⟩

end Environment

end ControlPlane

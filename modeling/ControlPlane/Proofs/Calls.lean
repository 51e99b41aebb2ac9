import ControlPlane.Interleaving

/-! The calls that the control plane makes. Every transaction that reaches a store is one of a
fixed list, so what all of the list keep holds in every scene of every run. -/

namespace ControlPlane

/-- Every call that a program can come to, whatever it was answered before, is a `good` one. -/
def Program.All (good : {β : Type} → Call β → Prop) {α : Type} : Program α → Prop
  | .done _ => True
  | .call c next => good c ∧ ∀ b, (next b).All good

def Operation.Makes (good : {β : Type} → Call β → Prop) {α : Type} (operation : Operation α) :
    Prop :=
  operation.run.All good

section Rules

variable {good : {β : Type} → Call β → Prop} {α β : Type}

theorem Program.All.bind {p : Program α} {f : α → Program β} (h : p.All good)
    (hf : ∀ a, (f a).All good) : (p >>= f).All good := by
  change (p.bind f).All good
  induction p with
  | done a => exact hf a
  | call c next ih => exact ⟨h.1, fun b => ih b (h.2 b)⟩

theorem Program.All.mono {good' : {β : Type} → Call β → Prop} {p : Program α} (h : p.All good)
    (hgood : ∀ {β : Type} (c : Call β), good c → good' c) : p.All good' := by
  induction p with
  | done a => trivial
  | call c next ih => exact ⟨hgood c h.1, fun answer => ih answer (h.2 answer)⟩

theorem Program.all_pure (a : α) : (pure a : Program α).All good := trivial

theorem Program.All.map {p : Program α} (f : α → β) (h : p.All good) : (f <$> p).All good :=
  h.bind fun a => all_pure (f a)

namespace Operation

theorem makes_pure (a : α) : Makes good (pure a : Operation α) := trivial

theorem makes_throw (error : Error) : Makes good (throw error : Operation α) := trivial

theorem Makes.bind {operation : Operation α} {f : α → Operation β} (h : operation.Makes good)
    (hf : ∀ a, (f a).Makes good) : (operation >>= f).Makes good := by
  refine Program.All.bind h fun result => ?_
  cases result with
  | ok a => exact hf a
  | error error => trivial

theorem makes_ipam {tx : Tx Ipam (Ending α)} (h : good (.ipam tx)) : (ipam tx).Makes good :=
  ⟨h, fun _ => trivial⟩

theorem makes_ports {tx : Tx Ports (Closing α)} (h : good (.ports tx)) : (ports tx).Makes good :=
  ⟨h, fun _ => trivial⟩

theorem makes_ask {c : Call α} (h : good c) : (ask c).Makes good := ⟨h, fun _ => trivial⟩

theorem makes_lift {p : Program α} (h : p.All good) : Makes good (ExceptT.lift p : Operation α) :=
  h.map _

theorem makes_except (r : Except Error α) : Makes good (liftM r : Operation α) := by
  cases r <;> trivial

theorem makes_bind_except {r : Except Error α} {f : α → Operation β}
    (h : ∀ a, r = .ok a → (f a).Makes good) : Makes good (liftM r >>= f : Operation β) := by
  cases r with
  | ok a => exact h a rfl
  | error error => trivial

theorem makes_guard {c : Prop} [Decidable c] {error : Error} {f : β → Operation α}
    {operation : Operation α} (h : operation.Makes good) :
    Makes good (if c then throw error >>= f else operation) := by
  split
  · trivial
  · exact h

theorem Makes.orElse {operation : Operation α} {recover : Error → Operation α}
    (h : operation.Makes good) (hr : ∀ error, (recover error).Makes good) :
    (operation.orElse recover).Makes good := by
  refine Program.All.bind h fun result => ?_
  cases result with
  | ok a => trivial
  | error error => exact hr error

theorem makes_forM {ι : Type} {items : List ι} {body : ι → Operation Unit}
    (h : ∀ item ∈ items, (body item).Makes good) : (items.forM body).Makes good := by
  induction items with
  | nil => exact makes_pure ()
  | cons item items ih =>
    exact (h item List.mem_cons_self).bind fun _ =>
      ih fun item hitem => h item (List.mem_cons_of_mem _ hitem)

end Operation

end Rules

/-- The rights of a command: to draw the identifier of a port, to store a new port with a binding and
to remove it, to remove a network, to save an update of a port, to save a status of it, to bind it on
hosts, to commit a candidate for it, to allocate addresses of a subnet to it, and to release an
address. -/
structure Licence where
  draw : Prop
  insert : Port → Binding → Prop
  remove : PortId → Prop
  drop : NetworkId → Prop
  save : PortId → PortUpdate → Prop
  report : PortId → PortStatus → Prop
  host : PortId → Prop
  commit : PortId → Binding → PortContext → Prop
  take : PortId → Subnet → Prop
  release : AllocatedIp → Prop

/-- What the control plane of a setup may ask for with a licence. -/
inductive Call.Made (setup : Setup) (licence : Licence) : {α : Type} → Call α → Prop
  | readIpam {α : Type} (f : Ipam → α) : Made setup licence (.ipam do return .commit (f (← get)))
  | createNetwork (network : Network) : Made setup licence (.ipam (Network.createTx network))
  | deleteNetwork (id : NetworkId) (hl : licence.drop id) :
    Made setup licence (.ipam (Network.deleteTx id))
  | createSubnet {request : SubnetRequest} {cidr : Ip.Cidr} {gateway : Option Ip.Address}
    {bounds : List Ip.Span} (hc : Subnet.parseCidr request.cidr request.family = .ok cidr)
    (hg : Subnet.resolveGateway cidr request.gateway = .ok gateway)
    (hb : Subnet.poolBounds cidr gateway request.pools = .ok bounds) :
    Made setup licence (.ipam (Subnet.createTx request cidr gateway bounds))
  | deleteSubnet (id : SubnetId) : Made setup licence (.ipam (Subnet.deleteTx id))
  | generate (port : PortId) (network : NetworkId) (candidates : List Subnet)
    (hl : ∀ subnet ∈ candidates, licence.take port subnet) :
    Made setup licence (.ipam (Allocation.generateTx port network candidates))
  | rebuild (id : SubnetId) : Made setup licence (.ipam (Allocation.rebuildTx id))
  | allocate (port : PortId) (subnet : Subnet) (address : Ip.Address)
    (hh : subnet.isHostAddress address = true) (hl : licence.take port subnet) :
    Made setup licence (.ipam (Allocation.allocateTx port subnet address))
  | release {reclaim : Bool} (ip : AllocatedIp)
    (hr : setup.config.ipam.reclaimOnRelease = true → reclaim = true) (hl : licence.release ip) :
    Made setup licence (.ipam (Allocation.releaseTx reclaim ip))
  | readPorts {α : Type} (f : Ports → α) :
    Made setup licence (.ports do return .commit (f (← get)))
  | fetchPort (id : PortId) : Made setup licence (.ports (Port.fetchTx id))
  | insertPort (port : Port) (binding : Binding) (mac : Option String)
    (hl : licence.insert port binding) :
    Made setup licence (.ports (Port.insertTx setup.config port binding mac))
  | removePort (id : PortId) (hl : licence.remove id) :
    Made setup licence (.ports (Port.removeTx id))
  | savePort (id : PortId) (network : Network) (update : PortUpdate) (hl : licence.save id update) :
    Made setup licence (.ports (Port.saveTx setup.drivers id network update))
  | hostBinding (id : PortId) (host : String) (hl : licence.host id) :
    Made setup licence (.ports (Port.hostBinding id host))
  | status (id : PortId) (network : Network) (status : PortStatus) (hl : licence.report id status) :
    Made setup licence (.ports (Port.statusTx setup.drivers id network status))
  | commit (id : PortId) (asked : Binding) (candidate : PortContext)
    (hl : licence.commit id asked candidate) :
    Made setup licence (.ports (Binding.commitTx setup.drivers id asked candidate))
  | bind {driver : String} (context : PortContext) (hd : driver ∈ setup.drivers) :
    Made setup licence (.bind driver context)
  | postcommit (driver : String) (context : PortContext) :
    Made setup licence (.postcommit driver context)
  | notify (event : PortEvent) : Made setup licence (.notify event)
  | ident (kind : Kind) (hl : kind = .port → licence.draw) : Made setup licence (.ident kind)
  | time : Made setup licence .time

open Operation

variable {setup : Setup} {licence : Licence}

theorem Operation.readIpam_made {α : Type} (f : Ipam → α) :
    (Operation.readIpam f).Makes (Call.Made setup licence) :=
  makes_ipam (.readIpam f)

theorem Operation.readPorts_made {α : Type} (f : Ports → α) :
    (Operation.readPorts f).Makes (Call.Made setup licence) :=
  makes_ports (.readPorts f)

namespace Network

theorem fetch_made (id : NetworkId) : (fetch id).Makes (Call.Made setup licence) := by
  refine (readIpam_made _).bind fun found => ?_
  cases found <;> trivial

theorem create_made (request : NetworkRequest) : (create request).Makes (Call.Made setup licence) := by
  refine (makes_except _).bind fun _ => ?_
  refine (makes_ask (.ident .network nofun)).bind fun id => ?_
  exact makes_ipam (.createNetwork _)

end Network

namespace Subnet

theorem fetch_made (id : SubnetId) : (fetch id).Makes (Call.Made setup licence) := by
  refine (readIpam_made _).bind fun found => ?_
  cases found <;> trivial

theorem delete_made (id : SubnetId) : (delete id).Makes (Call.Made setup licence) :=
  (fetch_made id).bind fun _ => makes_ipam (.deleteSubnet id)

end Subnet

theorem Port.list_made (network : NetworkId) : (Port.list network).Makes (Call.Made setup licence) :=
  readPorts_made _

namespace Allocation

theorem rebuild_made (subnets : List SubnetId) : (rebuild subnets).Makes (Call.Made setup licence) := by
  refine makes_forM fun id _ => (readIpam_made _).bind fun found => ?_
  split
  · exact makes_ipam (.rebuild id)
  · exact makes_pure ()

theorem release_made {reclaim : Bool} (ip : AllocatedIp)
    (hr : setup.config.ipam.reclaimOnRelease = true → reclaim = true) (hl : licence.release ip) :
    (release reclaim ip).Makes (Call.Made setup licence) :=
  makes_ipam (.release ip hr hl)

theorem giveBack_made {ips : List AllocatedIp} (h : ∀ ip ∈ ips, licence.release ip) :
    (giveBack ips).Makes (Call.Made setup licence) :=
  makes_forM fun ip hip => release_made ip (fun _ => rfl) (h ip hip)

theorem ofPort_made (port : PortId) : (ofPort port).Makes (Call.Made setup licence) := readIpam_made _

/-- What is run for a family that has subnets. -/
theorem mem_dualStack {port : PortId} {subnets : List Subnet} {operation : Operation AllocatedIp}
    (h : operation ∈ dualStack port subnets) : ∃ head rest, operation = generate port (head :: rest) ∧
      ∀ subnet ∈ head :: rest, subnet ∈ subnets := by
  obtain ⟨family, _, hfamily⟩ := List.mem_filterMap.1 h
  extract_lets candidates at hfamily
  split at hfamily
  · cases hfamily
  rename_i hne
  obtain ⟨head, rest, hcandidates⟩ := List.exists_cons_of_ne_nil (mt List.isEmpty_iff.2 hne)
  obtain rfl := Option.some.inj hfamily
  rw [hcandidates]
  refine ⟨head, rest, rfl, fun subnet hmem => ?_⟩
  rw [← hcandidates] at hmem
  exact (List.mem_filter.1 hmem).1

/-- Calls to allocate addresses to a port. -/
structure Allots (good : {β : Type} → Call β → Prop) (port : PortId) : Prop where
  read : ∀ {α : Type} (f : Ipam → α), good (.ipam do return .commit (f (← get)))
  generate : ∀ network candidates, good (.ipam (generateTx port network candidates))
  rebuild : ∀ id, good (.ipam (rebuildTx id))
  allocate : ∀ subnet address, subnet.isHostAddress address = true →
    good (.ipam (allocateTx port subnet address))

variable {good : {β : Type} → Call β → Prop} {port : PortId}

theorem Allots.generateOnce_makes (h : Allots good port) (candidates : List Subnet) :
    (generateOnce port candidates).Makes good := by
  cases candidates with
  | nil => exact makes_throw _
  | cons head rest => exact makes_ipam (h.generate _ _)

theorem Allots.rebuild_makes (h : Allots good port) (ids : List SubnetId) :
    (Allocation.rebuild ids).Makes good := by
  refine makes_forM fun id _ => (makes_ipam (h.read _)).bind fun found => ?_
  split
  · exact makes_ipam (h.rebuild id)
  · exact makes_pure ()

theorem Allots.generate_makes (h : Allots good port) (candidates : List Subnet) :
    (Allocation.generate port candidates).Makes good := by
  refine (h.generateOnce_makes candidates).orElse fun error => ?_
  split
  · exact (h.rebuild_makes _).bind fun _ => h.generateOnce_makes candidates
  · exact makes_throw _

theorem Allots.allocateAddress_makes (h : Allots good port) (subnet : Subnet)
    (address : Ip.Address) : (allocateAddress port subnet address).Makes good := by
  unfold allocateAddress
  split
  · exact makes_throw _
  · rename_i hhost
    exact makes_ipam (h.allocate subnet address (by simpa using hhost))

theorem Allots.allocateTarget_makes (h : Allots good port) (target : Target) :
    (allocateTarget port target).Makes good := by
  unfold allocateTarget
  split
  · exact h.allocateAddress_makes _ _
  · exact h.generate_makes _

theorem Allots.dualStack_makes (h : Allots good port) (subnets : List Subnet) :
    ∀ operation ∈ dualStack port subnets, operation.Makes good := by
  intro operation hmem
  obtain ⟨_, _, rfl, _⟩ := mem_dualStack hmem
  exact h.generate_makes _

theorem gather_makes {α : Type} {operations : List (Operation α)}
    (h : ∀ operation ∈ operations, operation.Makes good) : (gather operations).All good := by
  induction operations with
  | nil => trivial
  | cons operation rest ih =>
    obtain ⟨hhead, hrest⟩ := List.forall_mem_cons.1 h
    refine Program.All.bind hhead fun result => ?_
    cases result with
    | error error => trivial
    | ok ip => exact (ih hrest).bind fun _ => Program.all_pure _

/-- The addresses that a port asks for are allocated, before any is given back. -/
theorem Allots.gather_makes (h : Allots good port) (requests : List FixedIpRequest)
    (subnets : List Subnet) (targets : List Target) :
    (gather (if requests.isEmpty then dualStack port subnets
      else targets.map (allocateTarget port))).All good := by
  refine Allocation.gather_makes ?_
  split
  · exact h.dualStack_makes subnets
  · intro operation hmem
    obtain ⟨target, _, rfl⟩ := List.mem_map.1 hmem
    exact h.allocateTarget_makes target

theorem Allots.forPort_makes (h : Allots good port) (hrelease : ∀ ip, good (.ipam (releaseTx true ip)))
    (config : Config) (network : NetworkId) (requests : List FixedIpRequest) :
    (forPort config port network requests).Makes good := by
  refine makes_guard ((makes_ipam (h.read _)).bind fun subnets => ?_)
  refine makes_bind_except fun targets _ => ?_
  refine (makes_lift (h.gather_makes requests subnets targets)).bind fun ⟨ips, error⟩ => ?_
  have hback : (giveBack ips).Makes good := makes_forM fun ip _ => makes_ipam (hrelease ip)
  cases error with
  | none => exact makes_pure _
  | some error => exact hback.bind fun _ => makes_throw error

theorem allots_made (hl : ∀ subnet, licence.take port subnet) :
    Allots (Call.Made setup licence) port where
  read f := .readIpam f
  generate network candidates := .generate port network candidates fun subnet _ => hl subnet
  rebuild id := .rebuild id
  allocate subnet address hh := .allocate port subnet address hh (hl subnet)

end Allocation

namespace PortContext

/-- Calls to bind a port, and to tell listeners if they may be told. -/
structure Binds (good : {β : Type} → Call β → Prop) (drivers : List String) (mayTell : Bool) :
    Prop where
  bind : ∀ driver ∈ drivers, ∀ context, good (.bind driver context)
  commit : ∀ id asked candidate, good (.ports (Binding.commitTx drivers id asked candidate))
  postcommit : ∀ driver context, good (.postcommit driver context)
  notify : mayTell = true → ∀ context, good (.notify (.updated context))

variable {good : {β : Type} → Call β → Prop} {drivers : List String} {mayTell : Bool}

theorem announce_makes (h : ∀ driver context, good (.postcommit driver context))
    (context : PortContext) (drivers : List String) : (context.announce drivers).All good := by
  induction drivers with
  | nil => trivial
  | cons driver rest ih => exact ⟨h driver context, fun _ => ih⟩

theorem tryDrivers_makes (h : ∀ driver ∈ drivers, ∀ context, good (.bind driver context))
    (candidate : PortContext) : (candidate.tryDrivers drivers).All good := by
  induction drivers with
  | nil => trivial
  | cons driver rest ih =>
    obtain ⟨hdriver, hrest⟩ := List.forall_mem_cons.1 h
    refine ⟨hdriver candidate, fun answer => ?_⟩
    cases answer with
    | none => exact ih hrest
    | some result =>
      dsimp only
      split
      · trivial
      · exact ih hrest

theorem Binds.commit_makes (h : Binds good drivers mayTell) (id : PortId) (asked : Binding)
    (candidate : PortContext) : (Binding.commit drivers id asked candidate).Makes good := by
  apply (makes_ports (h.commit id asked candidate)).bind
  intro outcome
  cases outcome with
  | committed context =>
    exact (makes_lift (announce_makes h.postcommit context drivers)).bind fun _ => makes_pure _
  | _ => exact makes_pure _

theorem Binds.finish_makes (h : Binds good drivers mayTell) (context : PortContext) (news : Bool) :
    (context.finish (mayTell && news)).Makes good := by
  unfold finish
  split
  · rename_i htell
    have hnotify := h.notify (Bool.and_eq_true_iff.1 htell).1 context
    exact (makes_ask hnotify).bind fun _ => makes_pure context
  · exact makes_pure context

theorem Binds.bindWithin_makes (h : Binds good drivers mayTell) (tries : Nat)
    (context : PortContext) (news : Bool) :
    (context.bindWithin drivers mayTell tries news).Makes good := by
  induction tries generalizing context news with
  | zero =>
    unfold bindWithin
    split
    · exact makes_pure context
    · exact h.finish_makes context news
  | succ tries ih =>
    unfold bindWithin
    split
    · apply (makes_lift (tryDrivers_makes h.bind context.candidate)).bind
      intro candidate
      apply (h.commit_makes _ _ candidate).bind
      intro outcome
      cases outcome with
      | committed committed => exact ih committed _
      | retry live => exact ih live news
      | gone => exact makes_pure context
    · exact h.finish_makes context news

theorem announce_made (context : PortContext) (drivers : List String) :
    (context.announce drivers).All (Call.Made setup licence) :=
  announce_makes (fun driver context => .postcommit driver context) context drivers

theorem binds_made (hl : ∀ id asked candidate, licence.commit id asked candidate) :
    Binds (Call.Made setup licence) setup.drivers mayTell where
  bind _ hd context := .bind context hd
  commit id asked candidate := .commit id asked candidate (hl id asked candidate)
  postcommit driver context := .postcommit driver context
  notify _ context := .notify (.updated context)

end PortContext

namespace Port

theorem remove_made {id : PortId} (hl : licence.remove id) :
    (remove id).Makes (Call.Made setup licence) :=
  makes_ports (.removePort id hl)

theorem save_makes {good : {β : Type} → Call β → Prop} {drivers : List String} {id : PortId}
    {network : Network} {update : PortUpdate}
    (hsave : good (.ports (saveTx drivers id network update)))
    (hpost : ∀ driver context, good (.postcommit driver context)) :
    (save drivers id network update).Makes good := by
  apply (makes_ports hsave).bind
  intro saved
  cases saved with
  | none => exact makes_pure _
  | some saved =>
    exact (makes_lift (PortContext.announce_makes hpost saved.context drivers)).bind
      fun _ => makes_pure _

theorem save_made {id : PortId} {network : Network} {update : PortUpdate}
    (hl : licence.save id update) :
    (save setup.drivers id network update).Makes (Call.Made setup licence) :=
  save_makes (.savePort id network update hl) fun driver context => .postcommit driver context

theorem find_made (id : PortId) : (find id).Makes (Call.Made setup licence) := readPorts_made _

theorem fetch_made (id : PortId) : (fetch id).Makes (Call.Made setup licence) :=
  (makes_ports (.fetchPort id)).bind fun _ => (Allocation.ofPort_made id).bind fun _ => makes_pure _

theorem report_made {id : PortId} {status : PortStatus} (hl : licence.report id status) :
    (report setup id status).Makes (Call.Made setup licence) := by
  refine (find_made id).bind fun found => ?_
  cases found with
  | none => exact makes_pure _
  | some port =>
    refine (Network.fetch_made _).bind fun network => ?_
    refine (makes_ports (.status id network status hl)).bind fun context => ?_
    cases context with
    | none => exact makes_pure _
    | some context =>
      exact (makes_lift (PortContext.announce_made _ _)).bind fun _ => makes_pure _

end Port

end ControlPlane

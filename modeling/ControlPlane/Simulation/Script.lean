import ControlPlane.Simulation.Action

/-! Scripted surroundings: drivers that follow scripts, faults at the opening of transactions, and
a record of what was called and told. -/

namespace ControlPlane.Simulation

/-- A segment by its place in the network or by its identifier. -/
inductive SegmentChoice
  | index (i : Nat)
  | id (id : SegmentId)

/-- What a driver does when asked to bind. Without a segment it declines. -/
structure BindEntry where
  actions : List Action := []
  segment : Option SegmentChoice := none
  vifType : String := "ovs"
  details : List (String × Json) := []
  /-- Whether the details name the host, as `host`. -/
  echoHost : Bool := false
  status : Option PortStatus := none

/-- A script has an entry for each call; the last one stays. -/
structure Script where
  bind : List BindEntry := []
  /-- Texts of refusals. -/
  precommit : List (Option String) := []
  /-- Hosts on which the driver binds at all. -/
  hosts : Option (List (Option String)) := none
  /-- Kinds of interface that the driver binds at all. -/
  vnics : Option (List String) := none
  /-- A port status that the driver refuses. -/
  rejectStatus : Option PortStatus := none
  /-- Whether the driver takes no part in commits. -/
  bindOnly : Bool := false

/-- The entry for the next call, and the entries after it. -/
def nextEntry {α : Type} : List α → Option α × List α
  | [] => (none, [])
  | [last] => (some last, [last])
  | entry :: rest => (some entry, rest)

/-- A fault at the opening of the `count`-th transaction of a store. -/
structure Hook where
  store : StoreKind
  count : Nat
  actions : List Action := []
  failure : Option String := none

inductive Method
  | bind | precommit | postcommit
  deriving DecidableEq

def Method.name : Method → String
  | bind => "bind"
  | precommit => "precommit"
  | postcommit => "postcommit"

structure Called where
  driver : String
  method : Method
  context : PortContext

structure Outside where
  scripts : List (String × Script) := []
  hooks : List Hook := []
  /-- The stores whose transactions were opened, one entry for each. -/
  opened : List StoreKind := []
  /-- Calls of drivers, the last one first. -/
  trace : List Called := []
  /-- What listeners were told, the last first. -/
  events : List PortEvent := []
  listening : Bool := true

namespace Outside

def script (outside : Outside) (driver : String) : Script :=
  (outside.scripts.lookup driver).getD {}

def setScript (outside : Outside) (driver : String) (script : Script) : Outside :=
  { outside with
    scripts := outside.scripts.map fun (name, old) => (name, if name = driver then script else old) }

def record (outside : Outside) (driver : String) (method : Method) (context : PortContext) :
    Outside :=
  { outside with trace := ⟨driver, method, context⟩ :: outside.trace }

end Outside

namespace BindEntry

def segment? (entry : BindEntry) (network : Network) : Option SegmentId :=
  match entry.segment with
  | some (.index i) => network.segments[i]?.map Segment.id
  | some (.id id) => some id
  | none => none

def result? (entry : BindEntry) (context : PortContext) : Option BindResult :=
  (entry.segment? context.network).map fun segment =>
    { segment
      vifType := entry.vifType
      details := if entry.echoHost then
          Json.insertMember "host" (.string (context.binding.host.getD "")) entry.details
        else entry.details
      status := entry.status }

end BindEntry

def Script.isUnfit (script : Script) (binding : Binding) : Bool :=
  script.hosts.any (fun hosts => !hosts.contains binding.host) ||
    script.vnics.any (fun vnics => !vnics.contains binding.vnic.name)

def bindCall (driver : String) (context : PortContext) :
    StateM (World Outside) (Option BindResult) := fun world =>
  let outside := world.outside.record driver .bind context
  let script := outside.script driver
  if script.isUnfit context.binding then (none, { world with outside })
  else
    let (entry, rest) := nextEntry script.bind
    let outside := outside.setScript driver { script with bind := rest }
    match entry with
    | none => (none, { world with outside })
    | some entry =>
      match Action.performAll (some context.port.id) entry.actions world.state with
      | (.error _, state) => (none, { state, outside })
      | (.ok (), state) => (entry.result? context, { state, outside })

def precommitCall (driver : String) (context : PortContext) :
    StateM Outside (Except Error Unit) := fun outside =>
  let script := outside.script driver
  if script.bindOnly then (.ok (), outside)
  else
    let outside := outside.record driver .precommit context
    if script.rejectStatus = some context.port.status then
      (.error (.invalidInput "status rejected"), outside)
    else
      let (entry, rest) := nextEntry script.precommit
      let outside := outside.setScript driver { script with precommit := rest }
      match entry with
      | some (some text) => (.error (.invalidInput text), outside)
      | _ => (.ok (), outside)

def postcommitCall (driver : String) (context : PortContext) : StateM (World Outside) Unit :=
  modify fun world =>
    if (world.outside.script driver).bindOnly then world
    else { world with outside := world.outside.record driver .postcommit context }

def notifyCall (event : PortEvent) : StateM (World Outside) Unit :=
  modify fun world =>
    if world.outside.listening then
      { world with outside := { world.outside with events := event :: world.outside.events } }
    else world

/-- Lets hooks act in turn, up to the first that fails. -/
def runHooks : List Hook → State → Except Error Unit × State
  | [], state => (.ok (), state)
  | hook :: rest, state =>
    match Action.performAll none hook.actions state, hook.failure with
    | (.error error, state), _ => (.error error, state)
    | (.ok (), state), some text => (.error (.store text), state)
    | (.ok (), state), none => runHooks rest state

def openingCall (store : StoreKind) : StateM (World Outside) (Except Error Unit) := fun world =>
  let opened := store :: world.outside.opened
  let count := opened.count store
  let hooks := world.outside.hooks.filter fun hook => hook.store = store && hook.count = count
  let (result, state) := runHooks hooks world.state
  (result, { state, outside := { world.outside with opened } })

def environment : Environment Outside where
  opening := openingCall
  bind := bindCall
  precommit := precommitCall
  postcommit := postcommitCall
  notify := notifyCall

end ControlPlane.Simulation

import ControlPlane.Program

/-! Running programs: the state that calls read and change, and an environment that answers for
what lies outside of the control plane. -/

namespace ControlPlane

structure State where
  ipam : Ipam := {}
  ports : Ports := {}
  supply : Supply

namespace State

variable {α ρ : Type}

def runIpam (state : State) (tx : Tx Ipam (Ending α)) : Except Error α × State :=
  let (result, supply) := tx.attempt state.ipam state.supply
  match result with
  | .error error => (.error error, { state with supply })
  | .ok (.rollback answer, _) => (.ok answer, { state with supply })
  | .ok (.commit answer, ipam) => (.ok answer, { state with supply, ipam })

/-- Runs a transaction of the port store. Reviewers may remember what they were asked. -/
def runPorts (state : State) (review : List String → PortContext → StateM ρ (Except Error Unit))
    (tx : Tx Ports (Closing α)) : StateM ρ (Except Error α × State) := do
  let (result, supply) := tx.attempt state.ports state.supply
  match result with
  | .error error => return (.error error, { state with supply })
  | .ok (.rollback answer, _) => return (.ok answer, { state with supply })
  | .ok (.commit answer, ports) => return (.ok answer, { state with supply, ports })
  | .ok (.review drivers context answer, ports) =>
    match ← review drivers context with
    | .ok () => return (.ok answer, { state with supply, ports })
    | .error error => return (.error error, { state with supply })

def drawIdent (state : State) (kind : Kind) : Ident kind × State :=
  let (id, supply) := state.supply.ident kind
  (id, { state with supply })

def drawTime (state : State) : Timestamp × State :=
  let (time, supply) := state.supply.time
  (time, { state with supply })

end State

/-- The state together with what lies outside of the control plane. -/
structure World (ε : Type) where
  state : State
  outside : ε

inductive StoreKind
  | ipam | ports
  deriving DecidableEq

/-- What happens outside of the control plane: at the opening of a transaction, in drivers, and
with events. Drivers that are asked to accept a change see neither store. -/
structure Environment (ε : Type) where
  opening : StoreKind → StateM (World ε) (Except Error Unit)
  bind : String → PortContext → StateM (World ε) (Option BindResult)
  precommit : String → PortContext → StateM ε (Except Error Unit)
  postcommit : String → PortContext → StateM (World ε) Unit
  notify : PortEvent → StateM (World ε) Unit

namespace Environment

variable {ε α : Type}

def refusal (driver : String) (error : Error) : Error :=
  .driverFailed driver "update_port_precommit" error.message

/-- Asks drivers in turn, up to the first that refuses. -/
def review (env : Environment ε) :
    List String → PortContext → StateM ε (Except Error Unit)
  | [], _ => return .ok ()
  | driver :: rest, context => do
    match ← env.precommit driver context with
    | .ok () => env.review rest context
    | .error error => return .error (refusal driver error)

def transact (env : Environment ε) (store : StoreKind)
    (run : World ε → Except Error α × World ε) : StateM (World ε) (Except Error α) := do
  match ← env.opening store with
  | .error error => return .error error
  | .ok () => modifyGet run

def perform (env : Environment ε) : Call α → StateM (World ε) α
  | .ipam tx => env.transact .ipam fun world =>
    let (answer, state) := world.state.runIpam tx
    (answer, { world with state })
  | .ports tx => env.transact .ports fun world =>
    let ((answer, state), outside) := (world.state.runPorts env.review tx).run world.outside
    (answer, { state, outside })
  | .bind driver context => env.bind driver context
  | .postcommit driver context => env.postcommit driver context
  | .notify event => env.notify event
  | .ident kind => modifyGet fun world =>
    let (id, state) := world.state.drawIdent kind
    (id, { world with state })
  | .time => modifyGet fun world =>
    let (time, state) := world.state.drawTime
    (time, { world with state })

/-- Runs a program to its end, with nothing between its calls but what the environment does. -/
def run (env : Environment ε) : Program α → StateM (World ε) α
  | .done answer => return answer
  | .call c next => do env.run (next (← env.perform c))

end Environment

end ControlPlane

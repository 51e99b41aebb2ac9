import ControlPlane.Binding.Commit

/-! Binding a port until it is bound: negotiation and commit are repeated while the port changes
underneath, a limited number of times. -/

namespace ControlPlane.PortContext

/-- Whether there is anything to bind, and a host to bind it on. -/
def isPending (context : PortContext) : Bool :=
  context.binding.vif.needsBinding && context.binding.hasHost

def finish (context : PortContext) (tell : Bool) : Operation PortContext := do
  if tell then Operation.ask (.notify (.updated context))
  return context

/-- Binds the port of a context, with so many attempts left. Listeners are told, if they may be,
when a binding was committed on the way or there was something to tell before. -/
def bindWithin (drivers : List String) (mayTell : Bool) :
    (tries : Nat) → PortContext → (news : Bool) → Operation PortContext
  | 0, context, news =>
    if context.isPending then return context else context.finish (mayTell && news)
  | tries + 1, context, news =>
    if context.isPending then do
      let candidate ← ExceptT.lift (context.negotiate drivers)
      match ← Binding.commit drivers context.port.id context.binding candidate with
      | .committed committed =>
        bindWithin drivers mayTell tries committed
          (news || committed.binding.vif ≠ .bindingFailed)
      | .retry live => bindWithin drivers mayTell tries live news
      | .gone => return context
    else context.finish (mayTell && news)

end ControlPlane.PortContext

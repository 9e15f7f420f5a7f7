import Sema.Frame

/-!
# `Sema.Host.Fiber`: the functions that steer fibers

`suspend`, `yield` and `fail` touch nothing and only report how the call ended. `start` and `stop`
hand their operand to the host.
-/

set_option autoImplicit false

namespace Sema.Host.Fiber

open HostM

/-- Ends the call with the given status. -/
def report (s : CallStatus) : HostFunc := fun _ => return s

/-- `start(p)`: takes the function value; leaves the id of the fiber that runs it. -/
def start : HostFunc := fun _ => do
  let func ← pop
  let id ← startFiber func
  push (.num (.ofInt id))
  return .done

/-- `stop(fid)`: takes the fiber id. -/
def stop : HostFunc := fun _ => do
  let id ← need (← pop).asIndex
  stopFiber id
  return .done

end Sema.Host.Fiber

import Sema.Store

/-!
# `Sema.Frame`: what host code runs in

A host function sees a frame: the store, a value stack and whatever fibers the host supports. It
takes its operands from the stack, leaves its results there, and says how the call ended. Nothing
else is passed: the compiler emits calls that rely on the exact stack effect.

How fibers are started and stopped is up to the host. A `FiberControl` is code of the host that has
the store and the stack of the calling frame at hand, and whether it leaves them alone is its own
affair. A `FiberHost` only answers, and never touches them.

A computation in a frame keeps the frame when it fails, so the operands it had already taken stay
taken.
-/

set_option autoImplicit false

namespace Sema

/-- How a call left the calling fiber. -/
inductive CallStatus where
  | done
  | failure
  /-- Park the fiber until it is resumed. -/
  | suspend
  /-- Let other fibers run once, then go on. -/
  | yield
  deriving DecidableEq, Repr

/-- How many arguments were passed, and which defaults the caller relied on. -/
structure CallArgs where
  count : UInt8
  defaultsMask : UInt32 := 0
  deriving DecidableEq, Repr

/-- Whether the caller relied on the default at this position. Only the first 32 positions have a
bit; beyond them no default is ever reported. -/
def CallArgs.usesDefault (a : CallArgs) (position : Nat) : Bool :=
  position < 32 && a.defaultsMask.toNat.testBit position

/-- The fibers a frame has started and stopped, in order. -/
structure FiberLog where
  started : List Value := []
  stopped : List Int := []

/-- What a frame holds. The top of the stack is the head of the list. -/
structure FrameState where
  store : Store := .empty
  stack : List Value := []
  fibers : FiberLog := {}

/-- What the host does when a fiber is to be started or stopped. -/
structure FiberControl where
  /-- Starts a fiber that runs the function value and returns its id, or says why it cannot. -/
  start : Value → EStateM RuntimeError FrameState Int
  stop : Int → EStateM RuntimeError FrameState Unit

/-- A host that answers from what happened so far, and keeps no state but the record of it. -/
structure FiberHost where
  /-- The id of the new fiber, or why it cannot start. -/
  start : FiberLog → Value → Except RuntimeError Int
  stop : FiberLog → Int → Except RuntimeError Unit

namespace FiberHost

/-- A host without fibers refuses both. -/
def unsupported : FiberHost where
  start _ _ := .error (.unsupported "fibers")
  stop _ _ := .error (.unsupported "fibers")

/-- The host as a control: what it grants is recorded, and what it refuses leaves no trace. -/
def control (host : FiberHost) : FiberControl where
  start func f :=
    match host.start f.fibers func with
    | .ok id => .ok id { f with fibers := { f.fibers with started := f.fibers.started ++ [func] } }
    | .error e => .error e f
  stop id f :=
    match host.stop f.fibers id with
    | .ok () => .ok () { f with fibers := { f.fibers with stopped := f.fibers.stopped ++ [id] } }
    | .error e => .error e f

/-- A host of fibers is used as its control. -/
instance : Coe FiberHost FiberControl := ⟨control⟩

end FiberHost

/-- The frame a host function runs in. -/
structure Frame extends FrameState where
  fiberHost : FiberControl := FiberHost.unsupported

/-- A computation of the host in a frame. -/
abbrev HostM := EStateM RuntimeError Frame

namespace HostM

variable {α : Type}

/-- A result that needs no frame. -/
def need (x : Except RuntimeError α) : HostM α := fun f =>
  match x with
  | .ok a => .ok a f
  | .error e => .error e f

/-- Reads the store. -/
def query (read : Store → Except RuntimeError α) : HostM α := fun f =>
  match read f.store with
  | .ok a => .ok a f
  | .error e => .error e f

/-- Changes the store, or fails and leaves it as it is. -/
def update (write : Store → Except RuntimeError Store) : HostM Unit := fun f =>
  match write f.store with
  | .ok s => .ok () { f with store := s }
  | .error e => .error e f

/-- Adds an object to the store. -/
def allocate (add : Store → α × Store) : HostM α := fun f =>
  let (a, s) := add f.store
  .ok a { f with store := s }

/-- Puts a value on top. -/
def push (v : Value) : HostM Unit := fun f =>
  .ok () { f with stack := v :: f.stack }

/-- Takes the top value. -/
def pop : HostM Value := fun f =>
  match f.stack with
  | v :: rest => .ok v { f with stack := rest }
  | [] => .error .stackUnderflow f

/-- Takes the top value, which has to be a number; it is gone even if it is not one. -/
def popNum : HostM Binary64 := do
  need (← pop).asNum

/-- The value `depth` places below the top. -/
def peekAt (depth : Nat) : HostM Value := fun f =>
  match f.stack[depth]? with
  | some v => .ok v f
  | none => .error .stackUnderflow f

/-- The top value. -/
def peek : HostM Value := peekAt 0

/-- Takes all values. -/
def clear : HostM Unit := fun f =>
  .ok () { f with stack := [] }

/-- A computation on what the frame holds; the host stays as it is. -/
def onState (m : EStateM RuntimeError FrameState α) : HostM α := fun f =>
  match m f.toFrameState with
  | .ok a s => .ok a { f with toFrameState := s }
  | .error e s => .error e { f with toFrameState := s }

/-- Starts a fiber that runs the function value and returns its id. -/
def startFiber (func : Value) : HostM Int := do
  onState ((← get).fiberHost.start func)

/-- Stops the fiber with the id. -/
def stopFiber (id : Int) : HostM Unit := do
  onState ((← get).fiberHost.stop id)

end HostM

/-- A function that the host provides. -/
abbrev HostFunc := CallArgs → HostM CallStatus

/-- Makes a new instance of a class. -/
abbrev Creator := HostM Value

/-- Reads and writes one field of an object. -/
structure Accessor where
  get : Store → Value → Except RuntimeError Value
  set : Store → Value → Value → Except RuntimeError Store :=
    fun _ _ _ => .error (.unsupported "field is read-only")

end Sema

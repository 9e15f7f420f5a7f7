import Sema.Context.Structural
import Sema.Host.Fiber

/-!
# `Sema.Context.Initial`: the context every compilation starts from

The global scope, the primitive types that can be named, the class under which the machine finds
generic arrays, the functions that steer fibers, and the typed arrays of the primitive types. Making
it is a run of the ordinary operations, so what holds of every run holds of it.
-/

set_option autoImplicit false

namespace Sema

namespace SemaM

/-- Defines the primitive types. -/
def addBuiltIns : List BuiltIn → SemaM Unit
  | [] => return ()
  | b :: rest => do
    let type ← resolvedRef b.name (.builtIn b)
    let id ← alloc { name := b.name, kind := .builtIn b, type? := some type }
    define Context.globals id
    addBuiltIns rest

/-- Defines a native function in the global scope. -/
def addGlobalFunc (name : String) (ret : TypeRef) (body : HostFunc) (args : List SymbolId) :
    SemaM Unit := do
  define Context.globals (← addNativeFunc name ret 0 body args)

/-- Defines what every global scope starts with. -/
def addGlobals : SemaM Unit := do
  addBuiltIns BuiltIn.declared
  let prototype ← addArrayClass genericArrayName (← namedRef "") none
  define Context.globals prototype
  let void ← typeRef (.name BuiltIn.void.name)
  addGlobalFunc "suspend" void (Host.Fiber.report .suspend) []
  addGlobalFunc "yield" void (Host.Fiber.report .yield) []
  addGlobalFunc "fail" void (Host.Fiber.report .failure) []
  let p ← nativeParam "p" (← funcType (.name BuiltIn.void.name) [])
  addGlobalFunc "start" (← typeRef (.name BuiltIn.int.name)) Host.Fiber.start [p]
  let fid ← nativeParam "fid" (← typeRef (.name BuiltIn.int.name))
  addGlobalFunc "stop" void Host.Fiber.stop [fid]

/-- Registers the typed arrays of the primitive types. -/
def addTypedArrays : SemaM Unit := do
  let _ ← registerArray (.name BuiltIn.int.name) (.typed .int)
  let _ ← registerArray (.name BuiltIn.float.name) (.typed .float)
  let _ ← registerArray (.name BuiltIn.bool.name) (.typed .bool)
  let _ ← registerArray (.name BuiltIn.string.name) (.typed .string)

end SemaM

namespace Context

/-- A context that holds nothing but an empty global scope. -/
def bare : Context where
  arena := ⟨#[{ name := "$global", kind := .globalScope }]⟩

/-- The context every compilation starts from. -/
def initial : Context :=
  match (do SemaM.addGlobals; SemaM.addTypedArrays : SemaM Unit) bare with
  | .ok _ ctx | .error _ ctx => ctx

end Context

end Sema

import Sema.Error
import Sema.Host.Array
import Sema.Symbol.Arena

/-!
# `Sema.Context.Basic`: the state of one compilation

A compilation works against one context: the symbols, the outcomes of type look-ups, the modules
linked into the global scope, and the classes synthesized for array and map types. The global scope
is the first symbol of every context.

Reading is a function from the context to a result or an error. Changing is a computation in
`SemaM`, which keeps the context it has reached when it fails: a step that fails half way leaves its
half behind, and what it allocated stays allocated. Operations that must not do so make all their
checks, as reading functions, before their first change.
-/

set_option autoImplicit false

namespace Sema

/-- The state of one compilation. -/
structure Context where
  arena : Arena := .empty
  /-- The outcome of each type look-up, once there is one. -/
  slots : Array (Option Ty) := #[]
  /-- The scopes whose members are visible from the global scope, in the order they were linked. -/
  links : List SymbolId := []
  /-- The synthesized array and map classes by type name. -/
  structural : Assoc String SymbolId := .empty
  /-- The storage registered for arrays of an item type, by the item's name. -/
  storages : Assoc String ArrayStorage := .empty

/-- A computation that may change the context. -/
abbrev SemaM := EStateM CompileError Context

namespace Context

/-- The global scope. -/
def globals : SymbolId := ⟨1⟩

/-- The symbol with this id. -/
def symbol (ctx : Context) (id : SymbolId) : Except CompileError Symbol :=
  match ctx.arena.get? id with
  | some s => .ok s
  | none => .error (.danglingSymbol id)

/-- The name of a symbol. -/
def nameOf (ctx : Context) (id : SymbolId) : Except CompileError String := do
  return (← ctx.symbol id).name

/-- The dictionary of a scope. -/
def membersOf (ctx : Context) (id : SymbolId) : Except CompileError Members := do
  return (← ctx.symbol id).members

/-- What is kept in a slot. -/
def slotType? (ctx : Context) (slot : SlotId) : Option Ty :=
  (ctx.slots[slot.index]?).join

end Context

namespace SemaM

variable {α : Type}

/-- Reads the context. -/
def query (read : Context → Except CompileError α) : SemaM α := fun ctx =>
  match read ctx with
  | .ok a => .ok a ctx
  | .error e => .error e ctx

/-- The symbol with this id. -/
def symbol (id : SymbolId) : SemaM Symbol := query (·.symbol id)

/-- Adds a symbol and returns its id. -/
def alloc (s : Symbol) : SemaM SymbolId := fun ctx =>
  let (id, arena) := ctx.arena.alloc s
  .ok id { ctx with arena }

/-- Changes a symbol. -/
def modifySymbol (id : SymbolId) (f : Symbol → Symbol) : SemaM Unit := fun ctx =>
  match ctx.arena.get? id with
  | some s => .ok () { ctx with arena := ctx.arena.set id (f s) }
  | none => .error (.danglingSymbol id) ctx

/-- A new slot, empty or filled. -/
def newSlot (content : Option Ty) : SemaM SlotId := fun ctx =>
  .ok ⟨ctx.slots.size⟩ { ctx with slots := ctx.slots.push content }

/-- Fills a slot. -/
def bindSlot (slot : SlotId) (t : Ty) : SemaM Unit := fun ctx =>
  .ok () { ctx with slots := ctx.slots.setIfInBounds slot.index (some t) }

/-- A reference with a slot of its own that is not filled yet. -/
def namedRef (name : String) : SemaM TypeRef := do
  return { name, slot := ← newSlot none }

/-- A reference with a slot of its own that is filled already. -/
def resolvedRef (name : String) (t : Ty) : SemaM TypeRef := do
  return { name, slot := ← newSlot (some t) }

/-- Makes the members of a scope visible from the global scope. A second link changes nothing. -/
def link (scope : SymbolId) : SemaM Unit := fun ctx =>
  .ok () (if scope ∈ ctx.links then ctx else { ctx with links := ctx.links ++ [scope] })

end SemaM

end Sema

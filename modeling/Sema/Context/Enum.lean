import Sema.Context.Define

/-!
# `Sema.Context.Enum`: enums and their items

The items of an enum have distinct names and distinct values. A new item is compared with the ones
before it in order; the first that clashes decides what is reported, its value before its name.
-/

set_option autoImplicit false

namespace Sema

namespace Context

/-- The value of an enum item. -/
def itemValue (ctx : Context) (item : SymbolId) : Except CompileError Int := do
  let s ← ctx.symbol item
  match s.kind with
  | .enumItem _ value => return value
  | _ => throw (.internal (.notAnEnumItem s.name))

/-- Refuses a name or value that one of these items has already. -/
def checkItem (ctx : Context) (place owner name : String) (value : Int) :
    List (String × SymbolId) → Except CompileError Unit
  | [] => return ()
  | (itemName, item) :: rest => do
    if (← ctx.itemValue item) = value then throw (.duplicateEnumValue place owner value)
    if itemName = name then throw (.duplicateEnumKey place owner name)
    ctx.checkItem place owner name value rest

/-- The item of an enum with this name. -/
def findItem (ctx : Context) (owner : SymbolId) (name : String) :
    Except CompileError (Option SymbolId) := do
  match ← ctx.lookupLocal owner name with
  | none => return none
  | some id =>
    return match (← ctx.symbol id).kind with
      | .enumItem _ _ => some id
      | _ => none

end Context

namespace SemaM

/-- A new enum without items. -/
def addEnum (name : String) (location : Option Location) : SemaM SymbolId :=
  alloc { name, kind := .enumDecl, location }

/-- Adds an item to an enum. -/
def addItem (owner : SymbolId) (name : String) (value : Int) (location : Option Location) :
    SemaM SymbolId := do
  let s ← symbol owner
  query (·.checkItem (Location.describe location name) s.name name value s.members.entries)
  let type ← resolvedRef s.name (.enumOf owner)
  let item ← alloc { name, kind := .enumItem owner value, type? := some type, location }
  enter owner item
  return item

end SemaM

end Sema

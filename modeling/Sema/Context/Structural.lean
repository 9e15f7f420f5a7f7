import Sema.Context.Class
import Sema.Host.Map

/-!
# `Sema.Context.Structural`: array and map classes

An array or map type has no declaration; its class is made when the type is first asked for, and
kept under the rendered name of the type: `item[]` for arrays, `[key]value` for maps. From then on
every request for that name gets the same class. An array class is generic unless storage was
registered for its item type, which has to happen before the first request.

The members of these classes stand in a fixed order, which compiled programs rely on.
-/

set_option autoImplicit false

namespace Sema

/-- The name of the type of arrays of an item type. -/
def arrayTypeName (item : TypeRef) : String := item.name ++ "[]"

/-- The name of the type of maps. -/
def mapTypeName (key value : TypeRef) : String := "[" ++ key.name ++ "]" ++ value.name

namespace SemaM

/-- Defines several symbols in a scope, in order. -/
def defineAll (scope : SymbolId) : List SymbolId → SemaM Unit
  | [] => return ()
  | sym :: rest => do
    define scope sym
    defineAll scope rest

/-- A parameter of a native function. -/
def nativeParam (name : String) (type : TypeRef) : SemaM SymbolId :=
  addParam name type false none

/-- Gives an array class its members: `Add`, `At`, `SetAt`, `RemoveAt`, `Clear`, `Count` and
`$AddInplace`. -/
def addArrayMembers (cls : SymbolId) (item : TypeRef) (storage : ArrayStorage) : SemaM Unit := do
  let int ← typeRef (.name BuiltIn.int.name)
  let void ← typeRef (.name BuiltIn.void.name)
  let o ← nativeParam "o" item
  let add ← addNativeFunc "Add" void 0 (Host.Array.add storage) [o]
  let idx ← nativeParam "idx" int
  let at_ ← addNativeFunc "At" item 0 (Host.Array.at_ storage) [idx]
  let idx ← nativeParam "idx" int
  let o ← nativeParam "o" item
  let setAt ← addNativeFunc "SetAt" void 0 (Host.Array.setAt storage) [idx, o]
  let idx ← nativeParam "idx" int
  let removeAt ← addNativeFunc "RemoveAt" void 0 (Host.Array.removeAt storage) [idx]
  let clear ← addNativeFunc "Clear" void 0 (Host.Array.clear storage) []
  -- The order of the definitions is the order of the slots.
  defineAll cls [add, at_, setAt, removeAt, clear]
  let count ← addNativeField "Count" int (Host.Array.countAccessor storage)
  define cls count
  let o ← nativeParam "o" item
  let addInplace ← addNativeFunc "$AddInplace" void 0 (Host.Array.addInplace storage) [o]
  define cls addInplace

/-- A new array class. Without registered storage it is generic. -/
def addArrayClass (name : String) (item : TypeRef) (registered : Option ArrayStorage) :
    SemaM SymbolId := do
  let storage := registered.getD .generic
  let cls ← alloc
    { name
      kind := .classDecl
        { flavor := .native
          creator := some (Host.Array.creator storage)
          structural := some (.array item registered.isNone) } }
  addArrayMembers cls item storage
  return cls

/-- Gives a map class its members: `Count`, `Add`, `Remove`, `Contains`, `TryGet` and `Clear`. -/
def addMapMembers (cls : SymbolId) (key value : TypeRef) : SemaM Unit := do
  let void ← typeRef (.name BuiltIn.void.name)
  let bool ← typeRef (.name BuiltIn.bool.name)
  let int ← typeRef (.name BuiltIn.int.name)
  let count ← addNativeField "Count" int Host.Map.countAccessor
  define cls count
  let pair ← tupleType [.name BuiltIn.bool.name, .ref value]
  let k ← nativeParam "k" key
  let v ← nativeParam "v" value
  let add ← addNativeFunc "Add" void 0 Host.Map.add [k, v]
  let k ← nativeParam "k" key
  let remove ← addNativeFunc "Remove" void 0 Host.Map.remove [k]
  let k ← nativeParam "k" key
  let contains ← addNativeFunc "Contains" bool 0 Host.Map.contains [k]
  let k ← nativeParam "k" key
  let tryGet ← addNativeFunc "TryGet" pair 0 Host.Map.tryGet [k]
  let clear ← addNativeFunc "Clear" void 0 Host.Map.clear []
  defineAll cls [add, remove, contains, tryGet, clear]

/-- A new map class. -/
def addMapClass (name : String) (key value : TypeRef) : SemaM SymbolId := do
  let cls ← alloc
    { name
      kind := .classDecl
        { flavor := .native
          creator := some Host.Map.creator
          structural := some (.map key value) } }
  addMapMembers cls key value
  return cls

/-- Keeps a synthesized class under its type name. -/
def keepStructural (name : String) (cls : SymbolId) : SemaM Unit :=
  modify fun ctx => { ctx with structural := ctx.structural.insert name cls }

/-- The class kept under a type name; it is made if there is none yet. -/
def structuralClass (name : String) (make : SemaM SymbolId) : SemaM SymbolId := do
  match (← get).structural.find? name with
  | some cls => return cls
  | none =>
    let cls ← make
    keepStructural name cls
    return cls

/-- The type of arrays of an item type. -/
def arrayType (item : TypeName) : SemaM TypeRef := do
  let item ← typeRef item
  let name := arrayTypeName item
  let storage := (← get).storages.find? item.name
  let cls ← structuralClass name (addArrayClass name item storage)
  resolvedRef name (.classOf cls)

/-- Registers storage for arrays of an item type and makes their class. Refused if the class exists
already. -/
def registerArray (item : TypeName) (storage : ArrayStorage) : SemaM TypeRef := do
  let item ← typeRef item
  let name := arrayTypeName item
  if (← get).structural.contains name then
    throw (.duplicateSymbol (Location.describe none name) name)
  -- The check came first, so a refused registration leaves no storage behind.
  modify fun ctx => { ctx with storages := ctx.storages.insert item.name storage }
  let cls ← addArrayClass name item (some storage)
  keepStructural name cls
  resolvedRef name (.classOf cls)

/-- The type of maps from a key type to a value type. -/
def mapType (key value : TypeName) : SemaM TypeRef := do
  let key ← typeRef key
  let value ← typeRef value
  let name := mapTypeName key value
  let cls ← structuralClass name (addMapClass name key value)
  resolvedRef name (.classOf cls)

/-- References to the parameters of a parsed function type. -/
def parsedParams : List ParsedParam → SemaM (List TypeRef)
  | [] => return []
  | p :: rest => do
    let type ← typeRef (.name p.name)
    return type.withRef p.byRef :: (← parsedParams rest)

/-- The type of a parsed type expression: a name, made into a function type if it has a function
part, and then into an array type if it has an array suffix. -/
def parsedType (name : String) (isArray : Bool) (func : Option ParsedFunc) : SemaM TypeRef := do
  let plain ← typeRef (.name name)
  let type ← match func with
    | none => pure plain
    | some f => do
      let ret ← if f.returnsArray then arrayType (.ref plain) else pure plain
      let params ← parsedParams f.params
      typeRefOf (.func (.of ret params))
  if isArray then arrayType (.ref type) else return type

end SemaM

end Sema

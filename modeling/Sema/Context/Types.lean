import Sema.Context.Func

/-!
# `Sema.Context.Types`: resolving and building type references

A simple name is looked up from the global scope, and without success among the synthesized classes.
The outcome is kept in the slot of the reference; a look-up that fails keeps nothing, because the
name may be declared later.

Structural types are built from references. The rendered name of the result is what identifies it.
-/

set_option autoImplicit false

namespace Sema

namespace Context

/-- The type that a symbol declares. -/
def typeDeclared (ctx : Context) (id : SymbolId) : Except CompileError Ty := do
  let s ← ctx.symbol id
  match s.kind with
  | .builtIn b => return .builtIn b
  | .classDecl _ => return .classOf id
  | .enumDecl => return .enumOf id
  | _ => throw (.notAType s.name)

/-- The name of a type. -/
def typeName (ctx : Context) : Ty → Except CompileError String
  | .builtIn b => .ok b.name
  | .classOf id | .enumOf id => ctx.nameOf id
  | .func s => .ok s.name
  | .tuple t => .ok t.name

/-- The type that a name stands for. -/
def typeNamed (ctx : Context) (name : String) : Except CompileError Ty := do
  match ← ctx.lookupGlobal name with
  | some id => ctx.typeDeclared id
  | none =>
    match ctx.structural.find? name with
    | some id => return .classOf id
    | none => throw (.unresolvedSymbol (Location.describe none name) name)

end Context

namespace SemaM

/-- The type that a reference stands for. -/
def typeOf (type : TypeRef) : SemaM Ty := do
  match (← get).slotType? type.slot with
  | some t => return t
  | none =>
    let t ← query (·.typeNamed type.name)
    bindSlot type.slot t
    return t

/-- The type of an expression that names a symbol. -/
def typeOfSymbol (id : SymbolId) : SemaM Ty := do
  let s ← symbol id
  match s.kind with
  | .func info => return .func info.signature
  | _ =>
    match s.type? with
    | some type => typeOf type
    | none => query (·.typeDeclared id)

/-- The result type of a function. -/
def returnType (func : SymbolId) : SemaM Ty := do
  typeOf (← query (·.signature func)).ret

/-- A reference to a type. Only a simple name can be looked up; a reference is taken as it is. -/
def typeRef : TypeName → SemaM TypeRef
  | .ref type => return type
  | .name name =>
    if name.isEmpty || isCompound name then throw (.malformedTypeName name)
    else namedRef name

/-- References to several types, in order. -/
def typeRefs : List TypeName → SemaM (List TypeRef)
  | [] => return []
  | t :: rest => do
    let type ← typeRef t
    return type :: (← typeRefs rest)

/-- A reference to a resolved type. -/
def typeRefOf (t : Ty) : SemaM TypeRef := do
  resolvedRef (← query (·.typeName t)) t

/-- The type of functions with this result and these parameters. -/
def funcType (ret : TypeName) (params : List TypeName) : SemaM TypeRef := do
  let ret ← typeRef ret
  let params ← typeRefs params
  typeRefOf (.func (.of ret params))

/-- The type of several values in order. -/
def tupleType (items : List TypeName) : SemaM TypeRef := do
  let items ← typeRefs items
  typeRefOf (.tuple { items })

/-- The result type of a function that returns these: nothing, the one type, or their tuple. -/
def returnsType : List TypeRef → SemaM TypeRef
  | [] => typeRef (.name BuiltIn.void.name)
  | [type] => return type
  | items => typeRefOf (.tuple { items })

end SemaM

end Sema

import Sema.Context.Types

/-!
# `Sema.Context.Class`: classes, fields and instances

A class starts with a copy of the members of its super class, so an inherited member has the same
position, and thus the same slot, in every class below. An instance of a script class is a list with
one place per member; a field is read and written at its slot. A native class makes its instances
itself.
-/

set_option autoImplicit false

namespace Sema

/-- The class name under which the machine looks up every generic array. -/
def genericArrayName : String := "[]"

/-- The value that a place of this type starts with. -/
def Ty.defaultValue (t : Ty) : Value :=
  match t.builtIn? with
  | some .int | some .float => .num .zero
  | some .bool => .bool false
  | some .string => .str ""
  | _ => .null

/-- Reads and writes a field at its slot of the instance. -/
def Accessor.atSlot (slot : Nat) : Accessor where
  get s object := do
    let items := s.listItems (← object.asList)
    match items[slot]? with
    | some v => return v
    | none => throw (.indexOutOfRange slot items.size)
  set s object v := do
    let l ← object.asList
    let items := s.listItems l
    if slot < items.size then return s.setList l (items.setIfInBounds slot v)
    else throw (.indexOutOfRange slot items.size)

/-- The symbol with a creator, if it is a class. -/
def Symbol.withCreator (s : Symbol) (creator : Option Creator) : Symbol :=
  match s.kind with
  | .classDecl info => { s with kind := .classDecl { info with creator } }
  | _ => s

namespace Context

/-- The name under which the machine knows a class. -/
def machineName (ctx : Context) (cls : SymbolId) : Except CompileError String := do
  match (← ctx.classInfo cls).structural with
  -- All generic arrays work the same way, whatever their items.
  | some (.array _ true) => return genericArrayName
  | _ => ctx.nameOf cls

/-- How a field is read and written: as the host says, or else at its slot. -/
def fieldAccessor (ctx : Context) (field : SymbolId) : Except CompileError Accessor := do
  let s ← ctx.symbol field
  match s.kind with
  | .field (some accessor) => return accessor
  | .field none =>
    match s.slot with
    | some slot => return .atSlot slot
    | none => throw (.internal (.fieldOutsideClass s.name))
  | _ => throw (.internal (.notAField s.name))

/-- The members a new class starts with. -/
def inherited (ctx : Context) (superClass : Option SymbolId) (place : String) :
    Except CompileError Members :=
  match superClass with
  | none => .ok .empty
  | some parent => do
    let s ← ctx.symbol parent
    match s.kind with
    | .classDecl _ => return s.members
    | _ => throw (.incompatibleTypes place (.notAClass s.name))

end Context

namespace SemaM

/-- A new class below `superClass`. -/
def addClass (name : String) (superClass : Option SymbolId) (flavor : ClassFlavor)
    (location : Option Location) : SemaM SymbolId := do
  let members ← query (·.inherited superClass (Location.describe location name))
  alloc { name, kind := .classDecl { superClass, flavor }, location, members }

/-- A new class of the host. -/
def addNativeClass (name : String) (superClass : Option SymbolId) (creator : Option Creator) :
    SemaM SymbolId := do
  let cls ← addClass name superClass .native none
  modifySymbol cls (·.withCreator creator)
  return cls

/-- A new field, read and written at its slot. -/
def addField (name : String) (type : TypeRef) (location : Option Location) : SemaM SymbolId :=
  alloc { name, kind := .field none, type? := some type, location }

/-- A new field that the host reads and writes. -/
def addNativeField (name : String) (type : TypeRef) (accessor : Accessor) : SemaM SymbolId :=
  alloc { name, kind := .field (some accessor), type? := some type }

/-- What the places of an instance start with: the default of the type for a variable, null for
every other member. -/
def template : List SymbolId → SemaM (List Value)
  | [] => return []
  | id :: rest => do
    let s ← symbol id
    let v ← match s.kind.isVariable, s.type? with
      | true, some type => do pure (← typeOf type).defaultValue
      | _, _ => pure .null
    return v :: (← template rest)

/-- How instances of a class are made. A script class makes them from the members it has now. -/
def classCreator (cls : SymbolId) : SemaM Creator := do
  let info ← query (·.classInfo cls)
  match info.creator with
  | some creator => return creator
  | none =>
    let s ← symbol cls
    match info.flavor with
    | .native => throw (.runtime (.unsupported ("class '" ++ s.name ++ "' has no creator")))
    | .script =>
      let places ← template s.members.values
      return HostM.allocate (·.newList places.toArray)

/-- Makes a function a binary operator of a native class. -/
def overloadOperator (cls func : SymbolId) : SemaM Unit := do
  let info ← query (·.classInfo cls)
  let place := (← symbol func).place
  if info.flavor ≠ .native then throw (.invalidOverload place .notNative)
  if (← query (·.totalArgs func)) ≠ 1 then throw (.invalidOverload place .wrongArity)
  if (← returnType func).is .void then throw (.invalidOverload place .returnsVoid)
  -- From here on it is a method like any other, found under its name.
  define cls func

end SemaM

/-- A new instance of a class, made in a frame. -/
def instantiate (cls : SymbolId) : EStateM CompileError (Context × Frame) Value :=
  fun (ctx, frame) =>
    match SemaM.classCreator cls ctx with
    | .error e ctx => .error e (ctx, frame)
    | .ok creator ctx =>
      match creator frame with
      | .ok v frame => .ok v (ctx, frame)
      | .error e frame => .error (.runtime e) (ctx, frame)

end Sema

import Sema.Context.Types

/-!
# `Sema.Context.Check`: assignment, cast and operator rules

A value may go where a type is expected if it has that type, widens to it, is anything where
anything is taken, is null where null is allowed, has a type of the same name, or has a class that
inherits from the expected one. The rules for operators between primitives are tables; the checks
here add what holds for all types and report where a rule is broken.
-/

set_option autoImplicit false

namespace Sema

/-- An expression as the checks see it: its type and its place. -/
structure TypedExpr where
  type : Ty
  location : Option Location := none

/-- The place for diagnostics. -/
def TypedExpr.place (e : TypedExpr) : String := Location.describe e.location "expr"

/-- The wider type that a type becomes on its way to another, if there is one. -/
def Ty.widen? (source target : Ty) : Option Ty := CompatTable.widening.resultTy? source target

/-- Whether an optional type is there and the same as another. -/
def Ty.isSame? (found : Option Ty) (t : Ty) : Bool :=
  match found with
  | some f => f.same t
  | none => false

/-- Refuses an operand that does not meet its condition. -/
def TypedExpr.require (e : TypedExpr) (ok : Bool) (why : Misfit) : Except CompileError Unit :=
  if ok then .ok () else .error (.incompatibleTypes e.place why)

namespace Context

/-- Whether both types have a name and it is the same. -/
def sameName (ctx : Context) (a b : Ty) : Bool :=
  match ctx.typeName a, ctx.typeName b with
  | .ok a, .ok b => a == b
  | _, _ => false

/-- Whether both types are classes and the first is or inherits from the second. -/
def isChildClass (ctx : Context) (t parent : Ty) : Bool :=
  match t.class?, parent.class? with
  | some c, some p => ctx.isSubclass c p
  | _, _ => false

/-- Whether one of two class types inherits from the other. -/
def inSameHierarchy (ctx : Context) (a b : Ty) : Bool :=
  ctx.isChildClass a b || ctx.isChildClass b a

/-- Whether a value of type `source`, which may widen to `widened`, may be stored as `target`. -/
def canAssign (ctx : Context) (source target : Ty) (widened : Option Ty) : Bool :=
  source.same target
    || Ty.isSame? widened target
    || target.is .any
    || (target.isNullable && source.is .null)
    || ctx.sameName source target
    || ctx.isChildClass source target

/-- Whether a value of type `source` may be stored as `target`. -/
def assignable (ctx : Context) (source target : Ty) : Bool :=
  ctx.canAssign source target (source.widen? target)

/-- The complaint that two types do not go together; a type without a name is shown as `?`. -/
def misfit (ctx : Context) (place : String) (left right : Ty) : CompileError :=
  let shown (t : Ty) : String := match ctx.typeName t with
    | .ok name => name
    | .error _ => "?"
  .incompatibleTypes place (.types (shown left) (shown right))

/-- Checks an assignment; a fault is reported at the target. -/
def checkAssign (ctx : Context) (target source : TypedExpr) : Except CompileError Unit :=
  if ctx.assignable source.type target.type then .ok ()
  else .error (ctx.misfit target.place target.type source.type)

/-- Checks an expression against a declared type; a fault is reported at the expression. -/
def checkAssignTo (ctx : Context) (target : Ty) (source : TypedExpr) : Except CompileError Unit :=
  if ctx.assignable source.type target then .ok ()
  else .error (ctx.misfit source.place target source.type)

/-- Checks a value of a known type against a target; a fault is reported at the target. -/
def checkAssignFrom (ctx : Context) (target : TypedExpr) (source : Ty) : Except CompileError Unit :=
  if ctx.assignable source target.type then .ok ()
  else .error (ctx.misfit target.place target.type source)

/-- Whether a value may be converted on request. -/
def canCast (ctx : Context) (target source : Ty) : Bool :=
  target.same source || target.is .any || source.is .any
    || (source.isNumeric && target.isEnum) || (target.isNumeric && source.isEnum)
    || (target.is .string && source.isEnum) || (source.is .string && target.isEnum)
    || Ty.isSame? (CompatTable.conversion.resultTy? source target) target
    || ctx.inSameHierarchy source target

/-- Checks a conversion to the type named by `target`. -/
def checkCast (ctx : Context) (target source : TypedExpr) : Except CompileError Unit := do
  if ctx.canCast target.type source.type then return ()
  let targetName ← ctx.typeName target.type
  let sourceName ← ctx.typeName source.type
  throw (.incompatibleTypes target.place (.cast sourceName targetName))

/-- What a table lists for two operands. -/
def checkTable (ctx : Context) (table : CompatTable) (a b : TypedExpr) : Except CompileError Ty :=
  match table.resultTy? a.type b.type with
  | some t => .ok t
  | none => .error (ctx.misfit a.place a.type b.type)

/-- The result of an arithmetic operator. -/
def checkArithmetic (ctx : Context) (a b : TypedExpr) : Except CompileError Ty := do
  let ok (t : Ty) : Bool := t.is .bool || t.is .string || t.isNumeric
  a.require (ok a.type) .notOverloaded
  b.require (ok b.type) .notOverloaded
  ctx.checkTable .arithmetic a b

/-- The result of an ordering operator. -/
def checkOrdering (ctx : Context) (a b : TypedExpr) : Except CompileError Ty := do
  let ok (t : Ty) : Bool := t.isNumeric || t.is .string
  a.require (ok a.type) .notOverloaded
  b.require (ok b.type) .notOverloaded
  let _ ← ctx.checkTable .ordering a b
  return .builtIn .bool

/-- The result of an equality operator. Any two objects can be compared, and a nullable value with
null. -/
def checkEquality (ctx : Context) (a b : TypedExpr) : Except CompileError Ty := do
  if a.type.same b.type || (a.type.isClass && b.type.isClass)
      || (a.type.isNullable && b.type.is .null) || (b.type.isNullable && a.type.is .null) then
    return .builtIn .bool
  -- The table only says that the operands go together; the result is always a flag.
  let _ ← ctx.checkTable .equality a b
  return .builtIn .bool

end Context

/-- The result of a unary minus. -/
def checkNegation (a : TypedExpr) : Except CompileError Ty := do
  a.require a.type.isNumeric .notNumeric
  return a.type

/-- The result of a bitwise operator. -/
def checkBitwise (a b : TypedExpr) : Except CompileError Ty := do
  a.require (a.type.is .int) .notInt
  b.require (b.type.is .int) .notInt
  return .builtIn .int

/-- The result of a logical operator. -/
def checkLogical (a b : TypedExpr) : Except CompileError Ty := do
  a.require (a.type.is .bool) .notBool
  b.require (b.type.is .bool) .notBool
  return .builtIn .bool

/-- The result of a logical not. -/
def checkNot (a : TypedExpr) : Except CompileError Ty := do
  a.require (a.type.is .bool) .notBool
  return .builtIn .bool

/-- The result of a binary operator that is a function of the left operand's class. -/
def SemaM.checkOverload (right : TypedExpr) (func : SymbolId) : SemaM Ty := do
  let param ← query (·.param func 0)
  let type ← typeOfSymbol param
  -- The left operand is the object, so only the right one is checked.
  query (·.checkAssignTo type right)
  returnType func

end Sema

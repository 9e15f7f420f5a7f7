import Sema.Type.Basic
import Sema.Value

/-!
# `Sema.Error`: why a compilation step fails

Each failure is a cause with the data that its message shows. Causes that a script author can meet
carry the place of the offending declaration or expression, already written out
(`Location.describe`). The wording of every message is in this module and nowhere else.
-/

set_option autoImplicit false

namespace Sema

/-- Why two types do not go together, or one type does not fit an operator. -/
inductive Misfit where
  | notAClass (name : String)
  | types (left right : String)
  | cast (source target : String)
  | notOverloaded
  | notNumeric
  | notInt
  | notBool
  deriving DecidableEq, Repr

/-- The text of a misfit. -/
def Misfit.message : Misfit → String
  | notAClass name => "'" ++ name ++ "' is not a class"
  | types left right => "incompatible types: '" ++ left ++ "' and '" ++ right ++ "'"
  | cast source target =>
    "incompatible types for casting: '" ++ source ++ "' to '" ++ target ++ "'"
  | notOverloaded => "operator is not overloaded"
  | notNumeric => "must be numeric type"
  | notInt => "must be int type"
  | notBool => "must be bool type"

/-- Why a function cannot be an operator of a class. -/
inductive OverloadFault where
  | notNative
  | wrongArity
  | returnsVoid
  deriving DecidableEq, Repr

/-- The text of a fault in an overload. -/
def OverloadFault.message : OverloadFault → String
  | notNative => "operators can only be overloaded on native classes"
  | wrongArity => "operator overload must have exactly one argument"
  | returnsVoid => "operator overload return value can't be void"

/-- A step that the compiler itself should not have taken. -/
inductive Fault where
  | tooManyDefaults (name : String) (defaults args : Nat)
  | noEnclosing (place : String)
  | argsAfterLocals (name : String)
  | notAnArgument (name : String)
  | notAFunction (name : String)
  | noArgument (index : Nat) (func : SymbolId)
  | notNative (name : String)
  | notOnOwnStack (lambda : SymbolId)
  | captureWithoutSlot (name : String)
  | upvalueWithoutSlot (name : String)
  | blockOutsideFunction (parent : SymbolId)
  | notAnEnumItem (name : String)
  | notAField (name : String)
  | fieldOutsideClass (name : String)
  /-- Reported by a compilation unit in its own words. -/
  | reported (text : String)
  deriving DecidableEq, Repr

/-- The text of an internal fault. -/
def Fault.message : Fault → String
  | tooManyDefaults name defaults args =>
    "'" ++ name ++ "' declares " ++ toString defaults ++ " defaults for " ++ toString args ++
      " arguments"
  | noEnclosing place => "lambda '" ++ place ++ "' has no enclosing function"
  | argsAfterLocals name => "arguments of '" ++ name ++ "' must be defined before its locals"
  | notAnArgument name => "'" ++ name ++ "' is not an argument"
  | notAFunction name => "'" ++ name ++ "' is not a function"
  | noArgument index func => "no argument " ++ toString index ++ " in " ++ func.text
  | notNative name => "'" ++ name ++ "' is not native"
  | notOnOwnStack lambda => "lambda " ++ lambda.text ++ " is missing from its stack"
  | captureWithoutSlot name => "captured '" ++ name ++ "' has no slot"
  | upvalueWithoutSlot name => "upvalue '" ++ name ++ "' has no slot"
  | blockOutsideFunction parent => "blocks can only open inside functions, got " ++ parent.text
  | notAnEnumItem name => "'" ++ name ++ "' is not an enum item"
  | notAField name => "'" ++ name ++ "' is not a field"
  | fieldOutsideClass name => "field '" ++ name ++ "' is not defined in a class"
  | reported text => text

/-- Why a compilation step fails. -/
inductive CompileError where
  | duplicateSymbol (place name : String)
  | unresolvedSymbol (place name : String)
  | incompatibleTypes (place : String) (why : Misfit)
  | invalidOverload (place : String) (why : OverloadFault)
  | malformedTypeName (name : String)
  | duplicateEnumKey (place owner name : String)
  | duplicateEnumValue (place owner : String) (value : Int)
  | defineNotAllowed (place scope : String)
  | notAType (name : String)
  | danglingSymbol (id : SymbolId)
  | runtime (cause : RuntimeError)
  | internal (fault : Fault)
  /-- A search that comes back to where it was: some scope contains itself. -/
  | endless (scope : SymbolId)
  deriving DecidableEq, Repr

/-- The text of an error, with the place in front where there is one. -/
def CompileError.message : CompileError → String
  | duplicateSymbol place name => place ++ ": already defined symbol '" ++ name ++ "'"
  | unresolvedSymbol place name => place ++ ": symbol '" ++ name ++ "' not resolved"
  | incompatibleTypes place why => place ++ ": " ++ why.message
  | invalidOverload place why => place ++ ": " ++ why.message
  | malformedTypeName name => "bad type name: '" ++ name ++ "'"
  | duplicateEnumKey place owner name =>
    place ++ ": enum '" ++ owner ++ "' already has an item named '" ++ name ++ "'"
  | duplicateEnumValue place owner value =>
    place ++ ": enum '" ++ owner ++ "' already has an item with value " ++ toString value
  | defineNotAllowed place scope =>
    place ++ ": defining symbols in '" ++ scope ++ "' is not allowed"
  | notAType name => "'" ++ name ++ "' does not name a type"
  | danglingSymbol id => "unknown symbol id " ++ toString id.num
  | runtime cause => "runtime error: " ++ cause.message
  | internal fault => "Internal error: " ++ fault.message
  | endless scope => "scope " ++ scope.text ++ " contains itself"

end Sema

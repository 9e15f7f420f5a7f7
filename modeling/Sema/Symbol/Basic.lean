import Sema.Assoc
import Sema.Location
import Sema.Type.Basic
import Sema.Frame

/-!
# `Sema.Symbol.Basic`: declarations

Every declaration is a `Symbol`. What all of them share, a name, a place, an owner and a list of
members, is in the structure; what differs is in the `SymbolKind`. A symbol that is a scope keeps
its members in definition order, and the position of a member is its slot: the frame slot of a
variable, the instance slot of a field.

A symbol can be a member of several scopes, since a class starts with the members of its super
class; it still has one owner, one slot and one identity.
-/

set_option autoImplicit false

namespace Sema

/-- The members of a scope by name, in definition order. -/
abbrev Members := Assoc String SymbolId

/-- A captured variable: slot `target` of the lambda is filled from slot `source` of the function
around it. -/
structure Capture where
  name : String
  target : Nat
  source : Nat
  deriving DecidableEq, Repr

/-- What is particular to a lambda. -/
structure LambdaInfo where
  /-- The enclosing functions, outermost first, and last the lambda itself. -/
  stack : List SymbolId
  captures : List Capture := []

/-- Who provides the body of a function. -/
inductive FuncFlavor where
  | native (body : HostFunc)
  | script
  | lambda (info : LambdaInfo)

/-- What is particular to a function. -/
structure FuncInfo where
  flavor : FuncFlavor
  signature : Signature
  /-- How many of the last parameters have a default. -/
  defaults : Nat := 0

/-- Who provides a class. -/
inductive ClassFlavor where
  /-- Declared in a script; an instance is a list with one place per member. -/
  | script
  /-- Provided by the host. -/
  | native
  deriving DecidableEq, Repr

/-- The parts of a class that is made from other types. -/
inductive Structural where
  | array (item : TypeRef) (generic : Bool)
  | map (key value : TypeRef)
  deriving DecidableEq, Repr

/-- What is particular to a class. -/
structure ClassInfo where
  superClass : Option SymbolId := none
  flavor : ClassFlavor
  creator : Option Creator := none
  structural : Option Structural := none

/-- What is particular to a block. The variables of a block are members of the function it stands
in, because they live in its frame; the block remembers which ones end with it. -/
structure BlockInfo where
  func : SymbolId
  level : Nat
  vars : List SymbolId := []

/-- The kinds of declarations. -/
inductive SymbolKind where
  | builtIn (b : BuiltIn)
  | var
  | param (byRef : Bool)
  /-- A field; fields of script classes have no accessor and are read by slot. -/
  | field (accessor : Option Accessor)
  | classDecl (info : ClassInfo)
  | func (info : FuncInfo)
  | enumDecl
  | enumItem (owner : SymbolId) (value : Int)
  | globalScope
  | moduleScope
  | block (info : BlockInfo)

namespace FuncFlavor

/-- How messages call a function. -/
def label : FuncFlavor → String
  | native _ => "native function"
  | script => "function"
  | lambda _ => "lambda"

/-- Whether the host implements a function. -/
def isNative : FuncFlavor → Bool
  | native _ => true
  | _ => false

/-- The data of a lambda. -/
def lambda? : FuncFlavor → Option LambdaInfo
  | lambda info => some info
  | _ => none

end FuncFlavor

namespace SymbolKind

/-- Variables, parameters and fields: what can go out of scope. -/
def isVariable : SymbolKind → Bool
  | var | param _ | field _ => true
  | _ => false

/-- The kinds that get a slot when they are defined. -/
def isSlotted : SymbolKind → Bool
  | var | param _ | field _ | func _ => true
  | _ => false

/-- The kinds that declare a type. -/
def isType : SymbolKind → Bool
  | builtIn _ | classDecl _ | enumDecl => true
  | _ => false

/-- How messages call a symbol. -/
def label : SymbolKind → String
  | builtIn _ => "builtin"
  | var => "variable"
  | param _ => "argument"
  | field _ => "field"
  | classDecl _ => "class"
  | func info => info.flavor.label
  | enumDecl => "enum"
  | enumItem _ _ => "enum item"
  | globalScope => "global"
  | moduleScope => "module"
  | block _ => "block"

/-- The data of a function. -/
def func? : SymbolKind → Option FuncInfo
  | func info => some info
  | _ => none

/-- The data of a class. -/
def class? : SymbolKind → Option ClassInfo
  | classDecl info => some info
  | _ => none

/-- What is particular to a lambda, if the symbol is one. -/
def lambda? (k : SymbolKind) : Option LambdaInfo :=
  k.func?.bind (·.flavor.lambda?)

end SymbolKind

/-- One declaration. -/
structure Symbol where
  name : String
  kind : SymbolKind
  /-- The declared type; symbols that are types or scopes have none. -/
  type? : Option TypeRef := none
  /-- The owner. A class that takes over members of its super class does not become their owner. -/
  scope : Option SymbolId := none
  /-- The position among the members of the owner. -/
  slot : Option Nat := none
  /-- How many blocks deep a variable was declared. -/
  level : Nat := 0
  location : Option Location := none
  outOfScope : Bool := false
  members : Members := .empty

namespace Symbol

/-- The place for diagnostics. -/
def place (s : Symbol) : String := Location.describe s.location s.name

/-- A variable that is out of scope is found by no look-up. -/
def isHidden (s : Symbol) : Bool := s.kind.isVariable && s.outOfScope

/-- A variable that a lambda may capture. -/
def isLive (s : Symbol) : Bool := s.kind.isVariable && !s.outOfScope

/-- Whether a symbol is a lambda. -/
def isLambda (s : Symbol) : Bool := s.kind.lambda?.isSome

end Symbol

end Sema

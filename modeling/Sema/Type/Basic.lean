import Sema.Type.BuiltIn
import Sema.Text.WordChar

/-!
# `Sema.Type.Basic`: types and references to types

A resolved type is a primitive, a class or an enum known by the symbol that declares it, or one of
the two structural types: a function signature or a tuple. Structural types have no declaration;
what identifies them is their rendered name, and two of them are the same type exactly when their
names are equal.

A `TypeRef` stands for a type that may not be declared yet. It carries the name to look up and a
slot; the slot is filled by the first successful look-up and never changes afterwards. Copies of a
reference share the slot, so what one copy learns all of them know. The mark for passing by
reference belongs to the copy.
-/

set_option autoImplicit false

namespace Sema

/-- Names a symbol. Ids count from 1 in the order of allocation. -/
structure SymbolId where
  num : Nat
  deriving DecidableEq, Repr

/-- The id as diagnostics write it. -/
def SymbolId.text (id : SymbolId) : String := "#" ++ toString id.num

/-- Names the place where the outcome of a type look-up is kept. -/
structure SlotId where
  index : Nat
  deriving DecidableEq, Repr

/-- A reference to a type by name. -/
structure TypeRef where
  name : String
  slot : SlotId
  byRef : Bool := false
  deriving DecidableEq, Repr

namespace TypeRef

/-- The same reference, passed by reference or not. -/
def withRef (t : TypeRef) (byRef : Bool) : TypeRef := { t with byRef }

/-- The reference as one parameter of a signature. -/
def paramText (t : TypeRef) : String :=
  if t.byRef then "ref " ++ t.name else t.name

end TypeRef

/-- The texts with a comma between each two. -/
def commas : List String → String
  | [] => ""
  | [s] => s
  | s :: t :: rest => s ++ "," ++ commas (t :: rest)

/-- The text of a function type, `ret^(a,ref b)`. -/
def Signature.text (ret : TypeRef) (params : List TypeRef) : String :=
  ret.name ++ "^(" ++ commas (params.map TypeRef.paramText) ++ ")"

/-- The parameter and result types of a function, with the name under which they are compared. -/
structure Signature where
  ret : TypeRef
  params : List TypeRef := []
  name : String := Signature.text ret params
  /-- The name is rendered anew whenever a type is added. -/
  name_eq : name = Signature.text ret params := by rfl
  deriving DecidableEq, Repr

namespace Signature

/-- The signature with these types, under the name that they give it. -/
def of (ret : TypeRef) (params : List TypeRef) : Signature where
  ret
  params

/-- The name is the text of the types. -/
@[simp]
theorem name_of (ret : TypeRef) (params : List TypeRef) : (of ret params).name = text ret params :=
  rfl

/-- The signature with one more parameter. -/
def addParam (s : Signature) (type : TypeRef) : Signature := of s.ret (s.params ++ [type])

/-- A new parameter leaves the result type alone. -/
@[simp]
theorem ret_addParam (s : Signature) (type : TypeRef) : (s.addParam type).ret = s.ret := rfl

/-- A new parameter goes to the end. -/
@[simp]
theorem params_addParam (s : Signature) (type : TypeRef) :
    (s.addParam type).params = s.params ++ [type] := rfl

end Signature

/-- The text of several types, `a,b`. Marks for passing by reference are not part of it. -/
def Tuple.text (items : List TypeRef) : String := commas (items.map TypeRef.name)

/-- Several types in order, for functions with several results, with the name under which they are
compared. -/
structure Tuple where
  items : List TypeRef
  name : String := Tuple.text items
  name_eq : name = Tuple.text items := by rfl
  deriving DecidableEq, Repr

/-- A resolved type. -/
inductive Ty where
  | builtIn (b : BuiltIn)
  | classOf (id : SymbolId)
  | enumOf (id : SymbolId)
  | func (s : Signature)
  | tuple (t : Tuple)
  deriving DecidableEq, Repr

namespace Ty

/-- Sameness of types: structural types by rendered name, all others by identity. -/
def same : Ty → Ty → Bool
  | builtIn a, builtIn b => a == b
  | classOf a, classOf b => a == b
  | enumOf a, enumOf b => a == b
  | func a, func b => a.name == b.name
  | tuple a, tuple b => a.name == b.name
  | _, _ => false

/-- The built-in type that a type is. -/
def builtIn? : Ty → Option BuiltIn
  | builtIn b => some b
  | _ => none

/-- The class that a type is. -/
def class? : Ty → Option SymbolId
  | classOf id => some id
  | _ => none

/-- Whether a type is a class. -/
def isClass : Ty → Bool
  | classOf _ => true
  | _ => false

/-- Whether a type is an enum. -/
def isEnum : Ty → Bool
  | enumOf _ => true
  | _ => false

/-- Whether a type is a function type. -/
def isFunc : Ty → Bool
  | func _ => true
  | _ => false

/-- Whether the type is this primitive. -/
def is (t : Ty) (b : BuiltIn) : Bool := t.builtIn? == some b

/-- Whether a type is one of the two number types. -/
def isNumeric (t : Ty) : Bool := t.is .int || t.is .float

/-- Types whose values may be null. -/
def isNullable (t : Ty) : Bool := t.isClass || t.isFunc

end Ty

/-- What a table lists for two types; only primitives are ever listed. -/
def CompatTable.resultTy? (table : CompatTable) (left right : Ty) : Option Ty := do
  let l ← left.builtIn?
  let r ← right.builtIn?
  return .builtIn (← table.result? l r)

/-- A type given by its name or by a reference made before. -/
inductive TypeName where
  | name (s : String)
  | ref (t : TypeRef)
  deriving DecidableEq, Repr

/-- Whether a text has a character that no simple name has. Such a text is the name of a structural
type or of none. -/
def isCompound (name : String) : Bool :=
  name.toList.any fun c => !Text.isWordChar c

/-- A parameter of a parsed function type. -/
structure ParsedParam where
  name : String
  byRef : Bool := false

/-- The function part of a parsed type, `[]^(ref a,b)` in `int[]^(ref a,b)`. -/
structure ParsedFunc where
  returnsArray : Bool := false
  params : List ParsedParam := []

end Sema

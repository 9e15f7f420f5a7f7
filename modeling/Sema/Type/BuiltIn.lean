/-!
# `Sema.Type.BuiltIn`: the primitive types and their compatibility tables

Operators, implicit widening and explicit conversion between primitive types are decided by fixed
tables. A table lists pairs of operand types with the type that results; a pair that is not listed
is not allowed, and the order within a pair matters.
-/

set_option autoImplicit false

namespace Sema

/-- The primitive types. -/
inductive BuiltIn where
  | bool
  | string
  | int
  | float
  | void
  | enum
  | any
  | null
  deriving DecidableEq, Repr

namespace BuiltIn

/-- The name that scripts and diagnostics use. -/
def name : BuiltIn → String
  | bool => "bool"
  | string => "string"
  | int => "int"
  | float => "float"
  | void => "void"
  | enum => "enum"
  | any => "any"
  | null => "null"

/-- The primitive types that can be named in a script, in the order of their declaration. `enum` and
`null` are types of expressions only. -/
def declared : List BuiltIn := [int, float, bool, string, void, any]

/-- The built-in types in the order of their declaration. -/
def all : List BuiltIn := [bool, string, int, float, void, enum, any, null]

/-- The built-in type of a name. -/
def ofName? (s : String) : Option BuiltIn :=
  all.find? (·.name == s)

end BuiltIn

/-- A compatibility table: left operand, right operand, result. -/
abbrev CompatTable := List (BuiltIn × BuiltIn × BuiltIn)

namespace CompatTable

/-- The result listed for a pair. -/
def result? (t : CompatTable) (left right : BuiltIn) : Option BuiltIn :=
  (List.find? (fun row => row.1 == left && row.2.1 == right) t).map fun row => row.2.2

open BuiltIn

/-- Results of the arithmetic operators. -/
def arithmetic : CompatTable :=
  [(string, string, string), (int, int, int), (int, float, float), (float, float, float),
   (float, int, float)]

/-- Results of the ordering operators. -/
def ordering : CompatTable :=
  [(string, string, bool), (int, int, bool), (int, float, bool), (float, float, bool),
   (float, int, bool)]

/-- Results of the equality operators. -/
def equality : CompatTable :=
  [(string, string, bool), (int, int, bool), (int, float, bool), (float, float, bool),
   (float, int, bool), (any, any, bool), (null, any, bool), (any, null, bool)]

/-- Implicit widening, from the left type to the right one. -/
def widening : CompatTable :=
  [(int, float, float)]

/-- Explicit conversion, from the left type to the right one. -/
def conversion : CompatTable :=
  [(bool, string, string), (bool, int, int), (bool, float, float), (bool, any, any),
   (string, string, string), (string, any, any),
   (int, bool, bool), (int, string, string), (int, int, int), (int, float, float), (int, any, any),
   (float, bool, bool), (float, string, string), (float, int, int), (float, float, float),
   (float, any, any),
   (any, bool, bool), (any, string, string), (any, int, int), (any, float, float), (any, any, any)]

end CompatTable

end Sema

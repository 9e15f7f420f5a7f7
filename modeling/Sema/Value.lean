import Sema.Number.Decimal
import Sema.Text.Quoted

/-!
# `Sema.Value`: script values

A value is dynamic: its kind is known when the program runs. Lists, maps and the buffers behind
typed arrays are shared, so a value of those kinds is a handle into a `Store`; two handles are equal
exactly when they name the same object. Every other kind is plain data.

There are two notions of sameness, and they differ on numbers. `Value.equals` is what a script sees:
a NaN equals nothing and `0` equals `-0`. `Key` is what a map sees: numbers by bit pattern.
-/

set_option autoImplicit false

namespace Sema

/-- What went wrong while host code ran. -/
inductive RuntimeError where
  | stackUnderflow
  | typeMismatch (expected found : String)
  | indexOutOfRange (index : Int) (length : Nat)
  | unsupported (what : String)
  deriving DecidableEq, Repr

/-- The wording of each cause. -/
def RuntimeError.message : RuntimeError → String
  | stackUnderflow => "value stack underflow"
  | typeMismatch expected found => "type mismatch: expected " ++ expected ++ ", found " ++ found
  | indexOutOfRange index length =>
    "index " ++ toString index ++ " out of range (len " ++ toString length ++ ")"
  | unsupported what => "unsupported operation: " ++ what

/-- Names a list of a store. -/
structure ListId where
  index : Nat
  deriving DecidableEq, Repr

/-- Names a map of a store. -/
structure MapId where
  index : Nat
  deriving DecidableEq, Repr

/-- Names a typed buffer of a store. -/
structure BufferId where
  index : Nat
  deriving DecidableEq, Repr

/-- A script value. -/
inductive Value where
  | null
  | bool (b : Bool)
  | num (n : Binary64)
  | str (s : String)
  | list (l : ListId)
  | map (m : MapId)
  /-- A compiled function, by its index in the function table of the machine. -/
  | func (index : Nat)
  /-- Storage that belongs to the host. -/
  | host (b : BufferId)
  deriving DecidableEq

namespace Value

/-- Null is the value where nothing else is given. -/
instance : Inhabited Value := ⟨null⟩

/-- The name of a value's kind. -/
def kindName : Value → String
  | null => "null"
  | bool _ => "bool"
  | num _ => "num"
  | str _ => "string"
  | list _ => "list"
  | map _ => "map"
  | func _ => "func"
  | host _ => "native"

/-- Whether a value is null. -/
def isNull : Value → Bool
  | null => true
  | _ => false

/-- The complaint that a value is not of the expected kind. -/
def mismatch (expected : String) (found : Value) : RuntimeError :=
  .typeMismatch expected found.kindName

/-- The number that a value has to be. -/
def asNum : Value → Except RuntimeError Binary64
  | num n => .ok n
  | v => .error (mismatch "num" v)

/-- The flag that a value has to be. -/
def asBool : Value → Except RuntimeError Bool
  | bool b => .ok b
  | v => .error (mismatch "bool" v)

/-- The text that a value has to be. -/
def asStr : Value → Except RuntimeError String
  | str s => .ok s
  | v => .error (mismatch "string" v)

/-- The list that a value has to be. -/
def asList : Value → Except RuntimeError ListId
  | list l => .ok l
  | v => .error (mismatch "list" v)

/-- The map that a value has to be. -/
def asMap : Value → Except RuntimeError MapId
  | map m => .ok m
  | v => .error (mismatch "map" v)

/-- The buffer of the host that a value has to be. -/
def asHost : Value → Except RuntimeError BufferId
  | host b => .ok b
  | v => .error (mismatch "native" v)

/-- A number read as a position: cut toward zero to 64 bits. -/
def asIndex (v : Value) : Except RuntimeError Int :=
  v.asNum.map Binary64.toInt

/-- Equality as a script sees it. -/
def equals : Value → Value → Bool
  | null, null => true
  | bool a, bool b => a == b
  | num a, num b => a.equals b
  | str a, str b => a == b
  | list a, list b => a == b
  | map a, map b => a == b
  | func a, func b => a == b
  | host a, host b => a == b
  | _, _ => false

/-- A short text for diagnostics; shared objects show their kind only. -/
def text : Value → String
  | null => "null"
  | bool b => if b then "true" else "false"
  | num n => n.text
  | str s => Text.quoted s
  | list _ => "list"
  | map _ => "map"
  | func index => "func#" ++ toString index
  | host _ => "native"

end Value

/-- A value that can be a map key. -/
inductive Key where
  | bool (b : Bool)
  | num (n : Binary64)
  | str (s : String)
  deriving DecidableEq

namespace Key

/-- The key of a value; only booleans, numbers and strings have one. -/
def ofValue : Value → Except RuntimeError Key
  | .bool b => .ok (.bool b)
  | .num n => .ok (.num n)
  | .str s => .ok (.str s)
  | v => .error (Value.mismatch "map key" v)

/-- A key as the value that it was made from. -/
def toValue : Key → Value
  | .bool b => .bool b
  | .num n => .num n
  | .str s => .str s

/-- A key made from a value gives that value back. -/
theorem toValue_of_ofValue {v : Value} {k : Key} (h : ofValue v = .ok k) : k.toValue = v := by
  cases v <;> simp [ofValue] at h <;> subst h <;> rfl

end Key

end Sema

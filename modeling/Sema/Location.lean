import Sema.Text.Quoted

/-!
# `Sema.Location`: where a declaration or expression stands

Diagnostics name a place as `file:line:column`. Symbols provided by the host have no place in any
file; they are named as `name(?)`.
-/

set_option autoImplicit false

namespace Sema

/-- A place in a source file. -/
structure Location where
  file : String
  line : Nat
  column : Nat
  deriving DecidableEq, Repr

namespace Location

/-- The place as diagnostics write it. -/
def text (l : Location) : String :=
  l.file ++ ":" ++ toString l.line ++ ":" ++ toString l.column

/-- The place as a JSON object. -/
def json (l : Location) : String :=
  "\x7b\"file\":" ++ Text.jsonQuoted l.file ++ ",\"line\":" ++ toString l.line ++
    ",\"column\":" ++ toString l.column ++ "\x7d"

/-- The place if there is one, otherwise the name with a question mark. -/
def describe (l : Option Location) (name : String) : String :=
  match l with
  | some l => l.text
  | none => name ++ "(?)"

end Location

end Sema

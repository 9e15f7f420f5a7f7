import Sema.Context.Basic

/-!
# `Sema.Context.Describe`: one-line descriptions

What a log line or a debugger shows of a symbol. A record is written as its name with the fields
between braces, a list between brackets, a text between quotes. Functions and accessors of the host
have no text; only whether they are there is shown. A type reference shows a question mark as long
as its slot is empty, so these texts depend on the context.
-/

set_option autoImplicit false

namespace Sema

namespace Describe

/-- Whether something holds, as a word. -/
def flag (b : Bool) : String := if b then "true" else "false"

/-- The texts with a comma and a blank between each two. -/
def separated : List String → String
  | [] => ""
  | [s] => s
  | s :: t :: rest => s ++ ", " ++ separated (t :: rest)

/-- A record: its name and its fields. -/
def record (name : String) (fields : List (String × String)) : String :=
  name ++ " \x7b " ++ separated (fields.map fun (n, v) => n ++ ": " ++ v) ++ " \x7d"

/-- Several items between brackets. -/
def items (texts : List String) : String := "[" ++ separated texts ++ "]"

/-- A value that may be missing. -/
def optional (text : Option String) : String :=
  match text with
  | some t => "Some(" ++ t ++ ")"
  | none => "None"

/-- An id. -/
def symId (i : SymbolId) : String := "SymbolId(" ++ toString i.num ++ ")"

/-- A list of ids. -/
def ids (is : List SymbolId) : String := items (is.map symId)

/-- A capture with its two slots. -/
def capture (c : Capture) : String :=
  record "UpValue" [("name", Text.quoted c.name), ("dst_idx", toString c.target),
    ("src_idx", toString c.source)]

/-- The stack of a lambda and its captures. -/
def lambda (l : LambdaInfo) : String :=
  record "LambdaInfo" [("stack", ids l.stack), ("upvals", items (l.captures.map capture))]

/-- How a function is implemented. -/
def flavor : FuncFlavor → String
  | .native _ => "Native"
  | .script => "Script"
  | .lambda l => lambda l

/-- Who implements a class. -/
def classFlavor : ClassFlavor → String
  | .script => "Script"
  | .native => "Native"

/-- A block with its function, its level and what it notes. -/
def block (b : BlockInfo) : String :=
  record "BlockInfo" [("func", symId b.func), ("level", toString b.level), ("vars", ids b.vars)]

/-- The members of a scope. -/
def members (m : Members) : String :=
  "SymbolsDictionary \x7b entries: \x7b"
    ++ separated (m.entries.map fun (name, i) => Text.quoted name ++ ": " ++ symId i) ++ "\x7d \x7d"

end Describe

namespace Context

open Describe

/-- A type reference: by reference or not, its name, and whether it is still open. -/
def describeRef (ctx : Context) (t : TypeRef) : String :=
  t.paramText ++ if (ctx.slotType? t.slot).isNone then "?" else ""

/-- A signature with its name. -/
def describeSignature (ctx : Context) (s : Signature) : String :=
  record "FuncSignature" [("ret", ctx.describeRef s.ret),
    ("args", items (s.params.map ctx.describeRef)), ("name", Text.quoted s.name)]

/-- The type that a structural class stands for. -/
def describeStructural (ctx : Context) : Structural → String
  | .array item generic =>
    record "Array" [("item", ctx.describeRef item), ("generic", flag generic)]
  | .map key value =>
    record "Map" [("key", ctx.describeRef key), ("value", ctx.describeRef value)]

/-- What is particular to a symbol. -/
def describeKind (ctx : Context) (kind : SymbolKind) : String :=
  match kind with
  | .builtIn b => "BuiltIn(" ++ b.name ++ ")"
  | .param byRef => "FuncArg(ref=" ++ flag byRef ++ ")"
  | .field accessor => "Field(native=" ++ flag accessor.isSome ++ ")"
  | .classDecl info =>
    record "ClassInfo" [("super_class", optional (info.superClass.map symId)),
      ("flavor", classFlavor info.flavor), ("creator", flag info.creator.isSome),
      ("structural", optional (info.structural.map ctx.describeStructural))]
  | .func info =>
    record "FuncInfo" [("flavor", flavor info.flavor),
      ("signature", ctx.describeSignature info.signature),
      ("default_args", toString info.defaults)]
  | .enumItem owner value => "EnumItem(" ++ owner.text ++ "=" ++ toString value ++ ")"
  | .block b => block b
  | other => other.label

/-- How much the context holds. -/
def describe (ctx : Context) : String :=
  record "TypeSystem" [("symbols", toString ctx.arena.size), ("globals", symId globals),
    ("structural", toString ctx.structural.size)]

end Context

end Sema

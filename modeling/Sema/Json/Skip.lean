import Sema.Json.Token

/-!
# `Sema.Json.Skip`: getting past a JSON value

A value that nobody needs is still read, to find where it ends and that it is well formed. The words
are taken one by one, with the open brackets and braces on a stack, so nesting may be of any depth.
-/

set_option autoImplicit false

namespace Sema.Json

/-- What is open around the current word. -/
inductive Container where
  | array
  | object
  deriving DecidableEq, Repr

/-- What may come next. -/
inductive Expect where
  | value
  /-- The first value of an array, or its end. -/
  | valueOrEnd
  | key
  /-- The first key of an object, or its end. -/
  | keyOrEnd
  | colon
  /-- After a value: a comma, or the end of what is around it. -/
  | more
  deriving DecidableEq, Repr

/-- What may come after a word that starts a value. -/
def afterValue (open_ : List Container) : Token → Option (Expect × List Container)
  | .openBrace => some (.keyOrEnd, .object :: open_)
  | .openBracket => some (.valueOrEnd, .array :: open_)
  | .null | .bool _ | .number _ _ | .string _ => some (.more, open_)
  | _ => none

/-- What may come after a word, if the word may come at all. -/
def advance (expect : Expect) (open_ : List Container) (t : Token) :
    Option (Expect × List Container) :=
  match expect, open_, t with
  | .value, _, t => afterValue open_ t
  | .valueOrEnd, .array :: around, .closeBracket => some (.more, around)
  | .valueOrEnd, _, t => afterValue open_ t
  | .key, _, .string _ => some (.colon, open_)
  | .keyOrEnd, .object :: around, .closeBrace => some (.more, around)
  | .keyOrEnd, _, .string _ => some (.colon, open_)
  | .colon, _, .colon => some (.value, open_)
  | .more, .array :: _, .comma => some (.value, open_)
  | .more, .object :: _, .comma => some (.key, open_)
  | .more, .array :: around, .closeBracket => some (.more, around)
  | .more, .object :: around, .closeBrace => some (.more, around)
  | _, _, _ => none

/-- The words after the current value; it has ended when nothing is open any more. -/
def skipFrom (expect : Expect) (open_ : List Container) : List Token → Option (List Token)
  | [] => if expect = .more ∧ open_ = [] then some [] else none
  | t :: rest =>
    -- What stands behind the value is not looked at.
    if expect = .more ∧ open_ = [] then some (t :: rest)
    else match advance expect open_ t with
      | some (expect, open_) => skipFrom expect open_ rest
      | none => none

/-- The words after a value. -/
def skip (ts : List Token) : Option (List Token) := skipFrom .value [] ts

end Sema.Json

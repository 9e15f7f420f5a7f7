/-!
# `Sema.Json.Token`: the words of a JSON text

A JSON text is cut into words before it is read. A number keeps its value only if it is written as a
whole number, and a string keeps its characters only if its escapes spell characters: a lone half of
a surrogate pair is well-formed JSON but no text. So one cut serves both readers, the one that needs
the value of a word and the one that only needs to get past it.
-/

set_option autoImplicit false

namespace Sema.Json

/-- A word of a JSON text. -/
inductive Token where
  | openBrace
  | closeBrace
  | openBracket
  | closeBracket
  | comma
  | colon
  | null
  | bool (b : Bool)
  /-- A number; `whole` is its magnitude if there is neither fraction nor exponent. -/
  | number (negative : Bool) (whole : Option Nat)
  /-- A string; `content` is there if every escape spells a character. -/
  | string (content : Option String)
  deriving DecidableEq, Repr

/-- A piece of a string: a character as it stands, or the number of an escape `\uXXXX`. -/
inductive Piece where
  | char (c : Char)
  | unit (n : Nat)

/-- The characters that pieces spell. A pair of surrogates spells one character; a surrogate on its
own spells none. -/
def spell : List Piece → Option (List Char)
  | [] => some []
  | .char c :: rest => (spell rest).map (c :: ·)
  | .unit n :: rest =>
    -- A first half needs its second half right behind it.
    if 0xd800 ≤ n ∧ n < 0xdc00 then
      match rest with
      | .unit m :: rest =>
        if 0xdc00 ≤ m ∧ m < 0xe000 then
          (spell rest).map (Char.ofNat (0x10000 + (n - 0xd800) * 0x400 + (m - 0xdc00)) :: ·)
        else none
      | _ => none
    else if 0xdc00 ≤ n ∧ n < 0xe000 then none
    else (spell rest).map (Char.ofNat n :: ·)

/-- The value of a hexadecimal digit. -/
def hexDigit? (c : Char) : Option Nat :=
  if '0' ≤ c ∧ c ≤ '9' then some (c.toNat - '0'.toNat)
  else if 'a' ≤ c ∧ c ≤ 'f' then some (c.toNat - 'a'.toNat + 10)
  else if 'A' ≤ c ∧ c ≤ 'F' then some (c.toNat - 'A'.toNat + 10)
  else none

/-- The character of a one-letter escape. -/
def escape? (c : Char) : Option Char :=
  match c with
  | '"' => some '"'
  | '\\' => some '\\'
  | '/' => some '/'
  | 'b' => some '\x08'
  | 'f' => some '\x0c'
  | 'n' => some '\n'
  | 'r' => some '\r'
  | 't' => some '\t'
  | _ => none

/-- The pieces of a string up to its closing quote, and what follows. Control characters have to be
escaped. -/
def pieces : List Char → Option (List Piece × List Char)
  | [] => none
  | '"' :: rest => some ([], rest)
  | '\\' :: 'u' :: a :: b :: c :: d :: rest => do
    let a ← hexDigit? a
    let b ← hexDigit? b
    let c ← hexDigit? c
    let d ← hexDigit? d
    let (ps, rest) ← pieces rest
    return (.unit (((a * 16 + b) * 16 + c) * 16 + d) :: ps, rest)
  | '\\' :: c :: rest => do
    let c ← escape? c
    let (ps, rest) ← pieces rest
    return (.char c :: ps, rest)
  | c :: rest => do
    if c.toNat < 0x20 ∨ c = '\\' then none
    let (ps, rest) ← pieces rest
    return (.char c :: ps, rest)

/-- The digits at the head of a text, and what follows. -/
def digits (cs : List Char) : List Char × List Char :=
  (cs.takeWhile (·.isDigit), cs.dropWhile (·.isDigit))

/-- The number that decimal digits spell. -/
def value (ds : List Char) : Nat := ds.foldl (fun n d => 10 * n + (d.toNat - '0'.toNat)) 0

/-- The whole part of a number: a zero, or digits that do not start with one. -/
def wholePart? (cs : List Char) : Option (Nat × List Char) :=
  match cs with
  | '0' :: rest => some (0, rest)
  | _ =>
    let (ds, rest) := digits cs
    if ds.isEmpty then none else some (value ds, rest)

/-- What follows a fraction, and whether there was one. -/
def fraction? (cs : List Char) : Option (Bool × List Char) :=
  match cs with
  | '.' :: rest =>
    let (ds, rest) := digits rest
    if ds.isEmpty then none else some (true, rest)
  | _ => some (false, cs)

/-- What follows an exponent, and whether there was one. -/
def exponent? (cs : List Char) : Option (Bool × List Char) :=
  let afterMark (rest : List Char) : Option (Bool × List Char) :=
    -- The sign of an exponent may be left out.
    let unsigned := match rest with
      | '+' :: r | '-' :: r => r
      | r => r
    let (ds, rest) := digits unsigned
    if ds.isEmpty then none else some (true, rest)
  match cs with
  | 'e' :: rest | 'E' :: rest => afterMark rest
  | _ => some (false, cs)

/-- A number after its sign. -/
def number? (negative : Bool) (cs : List Char) : Option (Token × List Char) := do
  let (n, rest) ← wholePart? cs
  let (hasFraction, rest) ← fraction? rest
  let (hasExponent, rest) ← exponent? rest
  return (.number negative (if hasFraction || hasExponent then none else some n), rest)

/-- Blanks between words. -/
def isBlank (c : Char) : Bool := c == ' ' || c == '\n' || c == '\t' || c == '\r'

/-- The next word and what follows. -/
def token? : List Char → Option (Token × List Char)
  | '\x7b' :: rest => some (.openBrace, rest)
  | '\x7d' :: rest => some (.closeBrace, rest)
  | '[' :: rest => some (.openBracket, rest)
  | ']' :: rest => some (.closeBracket, rest)
  | ',' :: rest => some (.comma, rest)
  | ':' :: rest => some (.colon, rest)
  | 'n' :: 'u' :: 'l' :: 'l' :: rest => some (.null, rest)
  | 't' :: 'r' :: 'u' :: 'e' :: rest => some (.bool true, rest)
  | 'f' :: 'a' :: 'l' :: 's' :: 'e' :: rest => some (.bool false, rest)
  | '"' :: rest => do
    let (ps, rest) ← pieces rest
    return (.string ((spell ps).map String.ofList), rest)
  | '-' :: rest => number? true rest
  | cs => number? false cs

/-- All words, each taking at least one character, so `fuel` need not exceed the length. -/
def tokensWithin : Nat → List Char → Option (List Token)
  | 0, cs => if cs.isEmpty then some [] else none
  | fuel + 1, cs =>
    -- Blanks may stand before every word and at the end.
    match cs.dropWhile isBlank with
    | [] => some []
    | cs => do
      let (t, rest) ← token? cs
      return t :: (← tokensWithin fuel rest)

/-- The words of a text. -/
def tokens? (s : String) : Option (List Token) :=
  let cs := s.toList
  tokensWithin (cs.length + 1) cs

end Sema.Json

import Sema.Text.Invisible

/-!
# `Sema.Text.Quoted`: text between double quotes

Two ways to write a text between double quotes. `quoted` is for people: everything they could not
see or would misread becomes an escape with the code point in hexadecimal. `jsonQuoted` is the
shortest form a JSON reader takes back: only the quote, the backslash and control characters are
escaped, and every other character stands for itself.
-/

set_option autoImplicit false

namespace Sema.Text

/-- A number in lower-case hexadecimal, without leading zeros. -/
def hex (n : Nat) : String :=
  String.ofList (Nat.toDigits 16 n)

/-- A number in lower-case hexadecimal, with leading zeros up to `width` digits. -/
def hexPadded (width n : Nat) : String :=
  let digits := Nat.toDigits 16 n
  String.ofList (List.replicate (width - digits.length) '0' ++ digits)

/-- One character of a text quoted for people. -/
def quotedChar (c : Char) : String :=
  if c == '\x00' then "\\0"
  else if c == '\t' then "\\t"
  else if c == '\r' then "\\r"
  else if c == '\n' then "\\n"
  else if c == '\\' then "\\\\"
  else if c == '"' then "\\\""
  else if isInvisible c then "\\u\x7b" ++ hex c.toNat ++ "\x7d"
  else c.toString

/-- The text between double quotes, with every unseen character escaped. -/
def quoted (s : String) : String :=
  "\"" ++ String.join (s.toList.map quotedChar) ++ "\""

/-- One character of a JSON string. -/
def jsonChar (c : Char) : String :=
  if c == '"' then "\\\""
  else if c == '\\' then "\\\\"
  else if c == '\x08' then "\\b"
  else if c == '\x0c' then "\\f"
  else if c == '\n' then "\\n"
  else if c == '\r' then "\\r"
  else if c == '\t' then "\\t"
  else if c.toNat < 0x20 then "\\u" ++ hexPadded 4 c.toNat
  else c.toString

/-- The text as a JSON string. -/
def jsonQuoted (s : String) : String :=
  "\"" ++ String.join (s.toList.map jsonChar) ++ "\""

end Sema.Text

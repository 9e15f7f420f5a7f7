import Sema.Config.Basic
import Sema.Json.Skip

/-!
# `Sema.Config.Reader`: configurations written as JSON

A configuration is an object with any of the known fields, or an array with the values of the first
few fields in order; a field that is missing has its default. A field may not come twice. Fields
that are not known are read past, whatever their value.

Nothing is reported about a text that is no configuration except that it is none.
-/

set_option autoImplicit false

namespace Sema.Config

open Json (Token)

/-- Why there is no configuration. -/
inductive LoadError where
  | notFound
  /-- The file is not UTF-8. -/
  | notText
  | malformed
  deriving DecidableEq, Repr

/-- The fields of a configuration, in the order of the array form. -/
inductive Field where
  | maxThreads
  | deterministic
  | debug
  | verbose
  | logLevel
  | logDir
  deriving DecidableEq, Repr

namespace Field

/-- The settings in the order in which they are listed. -/
def all : List Field := [maxThreads, deterministic, debug, verbose, logLevel, logDir]

/-- The name of a field in the object form. -/
def key : Field → String
  | maxThreads => "max_threads"
  | deterministic => "deterministic"
  | debug => "debug"
  | verbose => "verbose"
  | logLevel => "log_level"
  | logDir => "log_dir"

/-- The setting of a key. -/
def ofKey? (k : String) : Option Field := all.find? (·.key == k)

end Field

/-- Sets a field to the value that a word spells: a whole number of at most 64 bits, a boolean, a
text, or null for the directory alone. -/
def set? (c : Config) : Field → Token → Option Config
  | .maxThreads, .number false (some n) =>
    if n < UInt64.size then some { c with maxThreads := n } else none
  | .deterministic, .bool b => some { c with deterministic := b }
  | .debug, .bool b => some { c with debug := b }
  | .verbose, .bool b => some { c with verbose := b }
  | .logLevel, .string (some s) => some { c with logLevel := s }
  | .logDir, .string (some s) => some { c with logDir := some s }
  | .logDir, .null => some { c with logDir := none }
  | _, _ => none

/-- Reads the fields of an object from a key on. `seen` are the fields that came before. Every field
takes several words, so `fuel` need not exceed their number. -/
def readFields (fuel : Nat) (c : Config) (seen : List Field) (ts : List Token) :
    Option (Config × List Token) :=
  match fuel, ts with
  | fuel + 1, .string (some k) :: .colon :: rest => do
    let (c, seen, rest) ← match Field.ofKey? k, rest with
      | some f, t :: rest =>
        -- A setting that is given twice is refused; a key that is none is passed over.
        if f ∈ seen then none
        else (c.set? f t).map fun c => (c, f :: seen, rest)
      | some _, [] => none
      | none, rest => (Json.skip rest).map fun rest => (c, seen, rest)
    match rest with
    | .comma :: rest => readFields fuel c seen rest
    | .closeBrace :: rest => return (c, rest)
    | _ => none
  | _, _ => none

/-- Reads the values of an array from a value on, for these fields. -/
def readValues (c : Config) : List Field → List Token → Option (Config × List Token)
  | f :: fs, t :: rest => do
    let c ← c.set? f t
    match rest with
    | .comma :: rest => readValues c fs rest
    | .closeBracket :: rest => return (c, rest)
    | _ => none
  | _, _ => none

/-- Reads a configuration from all words of a text. -/
def ofTokens? (ts : List Token) : Option Config := do
  let (c, rest) ← match ts with
    | .openBrace :: .closeBrace :: rest => some ({}, rest)
    | .openBrace :: rest => readFields rest.length {} [] rest
    | .openBracket :: .closeBracket :: rest => some ({}, rest)
    | .openBracket :: rest => readValues {} Field.all rest
    | _ => none
  if rest.isEmpty then some c.normalized else none

/-- Reads a configuration from a text. -/
def parse (s : String) : Except LoadError Config :=
  match (Json.tokens? s).bind ofTokens? with
  | some c => .ok c
  | none => .error .malformed

/-- Reads a configuration from the bytes of a file, if the file exists. -/
def load (file : Option ByteArray) : Except LoadError Config :=
  match file with
  | none => .error .notFound
  | some bytes =>
    match String.fromUTF8? bytes with
    | some s => parse s
    | none => .error .notText

end Sema.Config

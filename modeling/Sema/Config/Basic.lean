import Sema.Text.Quoted

/-!
# `Sema.Config.Basic`: the settings of a compilation

A configuration is a record with a default for each field. At least one worker checks units: a
count of zero means one.
-/

set_option autoImplicit false

namespace Sema

/-- The settings of one compilation. -/
structure Config where
  /-- How many workers check units; zero counts as one. -/
  maxThreads : Nat := 1
  /-- Process units in the order of their names. -/
  deterministic : Bool := false
  debug : Bool := false
  verbose : Bool := false
  logLevel : String := "info"
  /-- Where logs go; without it a directory under the user's home. -/
  logDir : Option String := none
  deriving DecidableEq, Repr

namespace Config

/-- How many workers check units. -/
def threads (c : Config) : Nat := max c.maxThreads 1

/-- The configuration with a worker count of at least one. -/
def normalized (c : Config) : Config := { c with maxThreads := c.threads }

/-- What is logged unless the environment says otherwise. -/
def logFilter (c : Config) : String := if c.verbose then "debug" else c.logLevel

/-- A directory below another. -/
def below (dir path : String) : String :=
  if dir.toList.getLast? = some '/' then dir ++ path else dir ++ "/" ++ path

/-- Where logs go, given the user's home, if there is one. -/
def logDirIn (c : Config) (home : Option String) : String :=
  match c.logDir with
  | some dir => dir
  | none => below (home.getD ".") ".bhl/logs"

/-- The configuration as a JSON object, its fields in order. -/
def json (c : Config) : String :=
  let flag (b : Bool) : String := if b then "true" else "false"
  "\x7b\"max_threads\":" ++ toString c.maxThreads
    ++ ",\"deterministic\":" ++ flag c.deterministic
    ++ ",\"debug\":" ++ flag c.debug
    ++ ",\"verbose\":" ++ flag c.verbose
    ++ ",\"log_level\":" ++ Text.jsonQuoted c.logLevel
    ++ ",\"log_dir\":" ++ (c.logDir.map Text.jsonQuoted).getD "null" ++ "\x7d"

end Config

end Sema

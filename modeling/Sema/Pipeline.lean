import Sema.Error
import Sema.Config.Basic

/-!
# `Sema.Pipeline`: declaring and checking the units of a compilation

A compilation has two phases. First every unit declares its top-level symbols, one unit after the
other; the first that fails ends the compilation, so a clash between units is always reported at the
same place. Then every unit is checked. Checks are independent: each runs, in whatever order the
workers take them, even if another fails, and the first fault in unit order is reported.

In deterministic mode the units are put in the order of their names first.

What a unit does is its own affair: both phases are arbitrary computations on a shared state.
-/

set_option autoImplicit false

namespace Sema

/-- A part of the program that is declared and checked as a whole. -/
structure CompilationUnit (σ : Type) where
  name : String
  declare : EStateM CompileError σ Unit
  check : EStateM CompileError σ Unit

/-- What a compilation without fault reports. -/
structure CompileStats where
  units : Nat
  threads : Nat
  deriving DecidableEq, Repr

namespace Pipeline

variable {σ : Type}

/-- The order in which units are processed. Units of one name keep their order. -/
def arrange (config : Config) (units : List (CompilationUnit σ)) : List (CompilationUnit σ) :=
  if config.deterministic then units.mergeSort fun a b => decide (a.name ≤ b.name) else units

/-- Declares units in order, up to the first that fails. -/
def declareAll : List (CompilationUnit σ) → EStateM CompileError σ Unit
  | [] => return ()
  | u :: rest => do
    u.declare
    declareAll rest

/-- A unit to check, with its position in unit order. -/
abbrev Task (σ : Type) := Nat × CompilationUnit σ

/-- Units with their positions. -/
def tasksFrom : Nat → List (CompilationUnit σ) → List (Task σ)
  | _, [] => []
  | n, u :: rest => (n, u) :: tasksFrom (n + 1) rest

/-- Runs checks in the given order; each leaves its fault, if any, under its position. -/
def runTasks : List (Task σ) → σ → List (Nat × Option CompileError) × σ
  | [], s => ([], s)
  | (position, u) :: rest, s =>
    -- A failing check ends neither the others nor what it has written itself.
    let (fault, s) := match u.check s with
      | .ok _ s => (none, s)
      | .error e s => (some e, s)
    let (faults, s) := runTasks rest s
    ((position, fault) :: faults, s)

/-- The fault at the first position that has one. -/
def firstFault (faults : List (Nat × Option CompileError)) : List Nat → Option CompileError
  | [] => none
  | position :: rest =>
    match (faults.lookup position).join with
    | some e => some e
    | none => firstFault faults rest

/-- Checks all units in the order that `schedule` puts them in. -/
def checkAll (schedule : List (Task σ) → List (Task σ)) (units : List (CompilationUnit σ)) :
    EStateM CompileError σ Unit := fun s =>
  let (faults, s) := runTasks (schedule (tasksFrom 0 units)) s
  -- In unit order, whatever order the checks were run in.
  match firstFault faults (List.range units.length) with
  | some e => .error e s
  | none => .ok () s

/-- Both phases over units in their final order. -/
def run (config : Config) (schedule : List (Task σ) → List (Task σ))
    (units : List (CompilationUnit σ)) : EStateM CompileError σ CompileStats := do
  declareAll units
  checkAll schedule units
  return { units := units.length, threads := config.threads }

/-- Compiles units: the units in the order they were processed, and the outcome. -/
def exec (config : Config) (schedule : List (Task σ) → List (Task σ))
    (units : List (CompilationUnit σ)) :
    List (CompilationUnit σ) × EStateM CompileError σ CompileStats :=
  let config := config.normalized
  let units := arrange config units
  (units, run config schedule units)

end Pipeline

end Sema

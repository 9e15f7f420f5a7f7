import Mathlib.Data.List.Nodup
import Sema.Context.Initial
import Sema.Pipeline

/-!
# `Sema.Proofs.UnitOrder`: compilation does not depend on the order of the units

In deterministic mode the units of a compilation are put in the order of their names before
anything else happens. `arrange_perm` says that units with distinct names have one such order, so
it does not matter in which order they were given. Everything after that reads the arranged list
only.

Which calls a compilation makes, and in which order, is not part of its result. To talk about it,
`CompilationUnit.noted` turns a unit into one that does the same and notes every call of its
phases in the state. `calls` says what is noted: the declarations up to the first that fails, and
if none fails every check. `run_notes` shows that this is so and that the noting changes nothing
else.

`deterministic_ignores_unit_order` puts the two together.
-/

set_option autoImplicit false

namespace Sema

/-- A call that a compilation makes on one of its units, which is told by its name. -/
inductive UnitCall where
  | declare (unit : String)
  | check (unit : String)
  deriving DecidableEq, Repr

variable {σ : Type}

/-- An outcome together with the calls that led to it. -/
def withCalls {α : Type} (calls : List UnitCall) :
    EStateM.Result CompileError σ α → EStateM.Result CompileError (σ × List UnitCall) α
  | .ok a s => .ok a (s, calls)
  | .error e s => .error e (s, calls)

namespace CompilationUnit

/-- A phase that also notes its call, whether it succeeds or fails. -/
def noting (call : UnitCall) (phase : EStateM CompileError σ Unit) :
    EStateM CompileError (σ × List UnitCall) Unit := fun s =>
  withCalls (s.2 ++ [call]) (phase s.1)

/-- The unit that does the same and notes the calls of its phases. -/
def noted (u : CompilationUnit σ) : CompilationUnit (σ × List UnitCall) where
  name := u.name
  declare := noting (.declare u.name) u.declare
  check := noting (.check u.name) u.check

end CompilationUnit

namespace Pipeline

open CompilationUnit (noted)

/-! ### The order of the units -/

/-- In deterministic mode units are processed in the order of their names. -/
theorem arrange_sorted {config : Config} (hdet : config.deterministic = true)
    (units : List (CompilationUnit σ)) :
    (arrange config units).Pairwise fun a b => decide (a.name ≤ b.name) = true := by
  rw [arrange, if_pos hdet]
  refine List.pairwise_mergeSort ?_ ?_ units
  · intro a b c hab hbc
    exact decide_eq_true (String.le_trans (of_decide_eq_true hab) (of_decide_eq_true hbc))
  · intro a b
    simpa using String.le_total a.name b.name

/-- The arrangement has the same units. -/
theorem arrange_perm_self (config : Config) (units : List (CompilationUnit σ)) :
    (arrange config units).Perm units := by
  unfold arrange
  split
  · exact List.mergeSort_perm units _
  · exact .refl _

/-- Units with distinct names have one order by name. -/
theorem arrange_perm {config : Config} (hdet : config.deterministic = true)
    {units units' : List (CompilationUnit σ)} (hperm : units.Perm units')
    (hnames : (units.map CompilationUnit.name).Nodup) :
    arrange config units = arrange config units' := by
  have hsame : (arrange config units).Perm (arrange config units') :=
    (arrange_perm_self config units).trans (hperm.trans (arrange_perm_self config units').symm)
  refine List.Perm.eq_of_pairwise ?_ (arrange_sorted hdet units) (arrange_sorted hdet units') hsame
  -- Two units of which each comes before the other have one name, so they are one unit.
  intro a b ha hb hab hba
  have hname : a.name = b.name :=
    String.le_antisymm (of_decide_eq_true hab) (of_decide_eq_true hba)
  have ha : a ∈ units := (arrange_perm_self config units).mem_iff.mp ha
  have hb : b ∈ units := hperm.mem_iff.mpr ((arrange_perm_self config units').mem_iff.mp hb)
  exact List.inj_on_of_nodup_map hnames ha hb hname

/-! ### The calls -/

/-- The calls of what follows a computation, which is reached only if the computation succeeds. -/
def callsAfter {α : Type} (m : EStateM CompileError σ α) (rest : σ → List UnitCall) (s : σ) :
    List UnitCall :=
  match m s with
  | .ok _ s => rest s
  | .error _ _ => []

/-- The calls of the first phase: up to the first unit that fails. -/
def declareCalls : List (CompilationUnit σ) → σ → List UnitCall
  | [] => fun _ => []
  | u :: rest => fun s => .declare u.name :: callsAfter u.declare (declareCalls rest) s

/-- The calls of the second phase: every unit in its turn. -/
def checkCalls (units : List (CompilationUnit σ)) : List UnitCall :=
  units.map fun u => .check u.name

/-- The calls on units that are checked in their order. -/
def calls (units : List (CompilationUnit σ)) (s : σ) : List UnitCall :=
  declareCalls units s ++ callsAfter (declareAll units) (fun _ => checkCalls units) s

/-- `m'` does what `m` does and notes `calls`. -/
def Notes {α : Type} (m : EStateM CompileError σ α)
    (m' : EStateM CompileError (σ × List UnitCall) α) (calls : σ → List UnitCall) : Prop :=
  ∀ s log, m' (s, log) = withCalls (log ++ calls s) (m s)

namespace Notes

variable {α β : Type} {m : EStateM CompileError σ α}
  {m' : EStateM CompileError (σ × List UnitCall) α} {calls rest : σ → List UnitCall}

/-- Returning a value makes no calls. -/
theorem pure (a : α) :
    Notes (EStateM.pure a : EStateM CompileError σ α) (EStateM.pure a) fun _ => [] := by
  intro s log
  simp [EStateM.pure, withCalls]

/-- The calls of two computations, one after the other as long as the first succeeds. -/
theorem bind {f : α → EStateM CompileError σ β}
    {f' : α → EStateM CompileError (σ × List UnitCall) β} (hm : Notes m m' calls)
    (hf : ∀ a, Notes (f a) (f' a) rest) :
    Notes (EStateM.bind m f) (EStateM.bind m' f') fun s => calls s ++ callsAfter m rest s := by
  intro s log
  simp only [EStateM.bind, hm s log, callsAfter]
  cases m s with
  | ok a s' => simp only [withCalls, hf a s', List.append_assoc]
  | error e s' => simp only [withCalls, List.append_nil]

end Notes

/-- A phase that notes its call notes it whether it succeeds or not. -/
theorem notes_noting (call : UnitCall) (phase : EStateM CompileError σ Unit) :
    Notes phase (CompilationUnit.noting call phase) fun _ => [call] := by
  intro s log
  rfl

/-- The first phase notes the units up to the first that fails. -/
theorem declareAll_notes (units : List (CompilationUnit σ)) :
    Notes (declareAll units) (declareAll (units.map noted)) (declareCalls units) := by
  induction units with
  | nil => exact Notes.pure ()
  | cons u rest ih => exact (notes_noting (.declare u.name) u.declare).bind fun _ => ih

/-- Numbering units and changing them commute. -/
theorem tasksFrom_map {τ : Type} (f : CompilationUnit σ → CompilationUnit τ) (n : Nat)
    (units : List (CompilationUnit σ)) :
    tasksFrom n (units.map f) = (tasksFrom n units).map (Prod.map id f) := by
  induction units generalizing n with
  | nil => rfl
  | cons u rest ih => simp only [List.map_cons, tasksFrom, ih, Prod.map_apply, id_eq]

/-- The tasks are for the units, in their order. -/
theorem map_snd_tasksFrom (n : Nat) (units : List (CompilationUnit σ)) :
    (tasksFrom n units).map Prod.snd = units := by
  induction units generalizing n with
  | nil => rfl
  | cons u rest ih => rw [tasksFrom, List.map_cons, ih]

/-- Every check is called, whether the ones before it succeeded or not. -/
theorem runTasks_noted (tasks : List (Task σ)) (s : σ) (log : List UnitCall) :
    runTasks (tasks.map (Prod.map id noted)) (s, log)
      = ((runTasks tasks s).1, (runTasks tasks s).2, log ++ checkCalls (tasks.map Prod.snd)) := by
  induction tasks generalizing s log with
  | nil => simp [runTasks, checkCalls]
  | cons task rest ih =>
    obtain ⟨position, u⟩ := task
    simp only [List.map_cons, Prod.map_apply, id_eq, runTasks, CompilationUnit.noted,
      CompilationUnit.noting]
    -- Both ways to end leave a state and go on with the next check.
    cases u.check s with
    | ok _ s' => simp [withCalls, ih, checkCalls]
    | error e s' => simp [withCalls, ih, checkCalls]

/-- The second phase notes all units, whatever fails. -/
theorem checkAll_notes (units : List (CompilationUnit σ)) :
    Notes (checkAll id units) (checkAll id (units.map noted)) fun _ => checkCalls units := by
  intro s log
  simp only [checkAll, id_eq, tasksFrom_map, runTasks_noted, map_snd_tasksFrom, List.length_map]
  cases firstFault (runTasks (tasksFrom 0 units) s).1 (List.range units.length) with
  | none => rfl
  | some e => rfl

/-- Noting the calls changes neither the result nor the state of a compilation. -/
theorem run_notes (config : Config) (units : List (CompilationUnit σ)) :
    Notes (run config id units) (run config id (units.map noted)) (calls units) := by
  let stats : CompileStats := { units := units.length, threads := config.threads }
  have hnoted : run config id (units.map noted)
      = EStateM.bind (declareAll (units.map noted)) fun _ =>
          EStateM.bind (checkAll id (units.map noted)) fun _ => EStateM.pure stats := by
    unfold run
    rw [List.length_map]
    rfl
  intro s log
  have hrun := (declareAll_notes units).bind
    (fun _ => (checkAll_notes units).bind fun _ => Notes.pure stats) s log
  -- After the checks there are no more calls.
  have hend : ∀ s', callsAfter (checkAll id units) (fun _ => []) s' = [] := by
    intro s'
    unfold callsAfter
    split <;> rfl
  simp only [hend, List.append_nil] at hrun
  rw [hnoted]
  exact hrun

/-- Noting calls does not change the arrangement. -/
theorem arrange_noted (config : Config) (units : List (CompilationUnit σ)) :
    arrange config (units.map noted) = (arrange config units).map noted := by
  unfold arrange
  split
  · symm
    refine List.map_mergeSort ?_
    intro a _ b _
    rfl
  · rfl

/-- A compilation that starts in `s` and takes the checks in unit order: the units as they were
processed, how it ends, and the calls that it makes. -/
structure Compiles (config : Config) (units : List (CompilationUnit σ)) (s : σ)
    (order : List (CompilationUnit σ)) (outcome : EStateM.Result CompileError σ CompileStats)
    (log : List UnitCall) : Prop where
  arranged : (exec config id units).1 = order
  ends : (exec config id units).2 s = outcome
  calls : (exec config id (units.map noted)).2 (s, []) = withCalls log outcome

/-- A compilation arranges the units, runs both phases and makes the calls that are listed. -/
theorem compiles (config : Config) (units : List (CompilationUnit σ)) (s : σ) :
    Compiles config units s (arrange config.normalized units)
      (run config.normalized id (arrange config.normalized units) s)
      (calls (arrange config.normalized units) s) where
  arranged := rfl
  ends := rfl
  calls := by
    show run config.normalized id (arrange config.normalized (units.map noted)) (s, []) = _
    rw [arrange_noted]
    exact run_notes _ _ s []

end Pipeline

open Pipeline

/-- In deterministic mode the order in which units are given does not matter if their names are
distinct. From every state the compilation of the units and that of a permutation process them in
one order, make the same calls in the same order, end with the same statistics or the same error,
and leave the same state. -/
theorem deterministic_ignores_unit_order {config : Config} (hdet : config.deterministic = true)
    {units units' : List (CompilationUnit σ)} (hperm : units.Perm units')
    (hnames : (units.map CompilationUnit.name).Nodup) (s : σ) :
    ∃ order outcome, order.Perm units ∧
      Compiles config units s order outcome (calls order s) ∧
      Compiles config units' s order outcome (calls order s) := by
  have hnormal : config.normalized.deterministic = true := hdet
  have hsame := arrange_perm hnormal hperm hnames
  refine ⟨arrange config.normalized units, _, arrange_perm_self _ units,
    compiles config units s, ?_⟩
  rw [hsame]
  exact compiles config units' s

/-- A unit that declares one function and then looks a name up. -/
def funcUnit (name func wanted : String) : CompilationUnit Context where
  name
  declare := do
    let id ← SemaM.addScriptFunc func { name := "void", slot := ⟨0⟩ } (some ⟨name, 1, 1⟩)
    SemaM.define Context.globals id
  check := do
    let _ ← SemaM.require Context.globals wanted (some ⟨name, 2, 1⟩)

/-- Three units, the second of which asks for a name that no unit declares. -/
def funcUnits : List (CompilationUnit Context) :=
  [funcUnit "z" "f" "g", funcUnit "y" "g" "missing", funcUnit "x" "h" "f"]

/-- The fault that an outcome reports. -/
def Pipeline.fault? {α : Type} : EStateM.Result CompileError σ α → Option CompileError
  | .ok _ _ => none
  | .error e _ => some e

/-- How the units compile in the order of their names, and what is called on the way. -/
theorem funcUnits_facts :
    let config : Config := { deterministic := true }
    fault? (run config.normalized id funcUnits.reverse .initial)
      = some (.unresolvedSymbol "y:2:1" "missing") ∧
    calls funcUnits.reverse .initial = [.declare "x", .declare "y", .declare "z", .check "x",
      .check "y", .check "z"] := by
  decide +kernel

/-- The three units compile alike given in either direction. Both times they are processed in the
order of their names, all are checked, and the fault of the second is reported. -/
theorem deterministic_ignores_unit_order_funcUnits :
    let config : Config := { deterministic := true }
    let log : List UnitCall := [.declare "x", .declare "y", .declare "z", .check "x", .check "y",
      .check "z"]
    (funcUnits.map CompilationUnit.name).Nodup ∧ funcUnits.Perm funcUnits.reverse ∧
    ∃ order outcome, order.Perm funcUnits ∧ order.map CompilationUnit.name = ["x", "y", "z"] ∧
      fault? outcome = some (.unresolvedSymbol "y:2:1" "missing") ∧
      Compiles config funcUnits .initial order outcome log ∧
      Compiles config funcUnits.reverse .initial order outcome log := by
  intro config log
  have hnames : (funcUnits.map CompilationUnit.name).Nodup := by decide
  have hperm : funcUnits.Perm funcUnits.reverse := (List.reverse_perm _).symm
  obtain ⟨order, outcome, horder, hgiven, hreversed⟩ :=
    deterministic_ignores_unit_order (show config.deterministic = true from rfl) hperm hnames
      .initial
  -- The reversed list is in the order of the names already.
  have hsorted : arrange config.normalized funcUnits.reverse = funcUnits.reverse :=
    List.mergeSort_of_pairwise (by simp [funcUnits, funcUnit])
  have horder' : funcUnits.reverse = order := hsorted.symm.trans hreversed.arranged
  have hends : run config.normalized id (arrange config.normalized funcUnits.reverse) .initial
      = outcome := hreversed.ends
  subst horder'
  rw [hsorted] at hends
  obtain ⟨hfault, hcalls⟩ := funcUnits_facts
  rw [hcalls] at hgiven hreversed
  exact ⟨hnames, hperm, funcUnits.reverse, outcome, horder, rfl, hends ▸ hfault, hgiven, hreversed⟩

end Sema

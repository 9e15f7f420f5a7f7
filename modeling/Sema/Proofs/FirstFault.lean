import Sema.Proofs.Assoc
import Sema.Proofs.UnitOrder

/-!
# `Sema.Proofs.FirstFault`: the two phases and the fault that is reported

A compilation treats faults in two ways. The first phase ends at the first unit that fails. The
second one goes on whatever happens, and the fault that it reports is the first in the order of the
units, which need not be the first that came up.

`Pipeline.Attempts` runs one phase of several units, each once and without regard to faults.
`Pipeline.Stops` and `Pipeline.Completes` are the two ways in which a compilation can go, told with
it. `first_fault_reported` says that each compilation goes one of these ways, in whatever order the
checks are taken.

What units do to the shared state is arbitrary and so is the type of the state. A statement about
the last state therefore says which phases have run and in which order.
-/

set_option autoImplicit false

namespace Sema

variable {σ : Type}

namespace Pipeline

/-! ### The order of the units -/

/-- The order in which units are processed: as they were given, or by name, where units of one name
keep their order. -/
structure Arranged (config : Config) (units order : List (CompilationUnit σ)) : Prop where
  perm : order.Perm units
  given : config.deterministic = false → order = units
  sorted : config.deterministic = true → order.Pairwise fun a b => a.name ≤ b.name
  stable : ∀ name, order.filter (·.name = name) = units.filter (·.name = name)

/-- Units of the same name keep their order. -/
theorem arrange_stable (config : Config) (units : List (CompilationUnit σ)) (name : String) :
    (arrange config units).filter (·.name = name) = units.filter (·.name = name) := by
  unfold arrange
  split
  · -- The units of one name are in order already, so sorting leaves them as a sublist.
    have hsub : (units.filter (·.name = name)).Sublist
        (units.mergeSort fun a b => decide (a.name ≤ b.name)) := by
      refine List.sublist_mergeSort ?_ ?_ ?_ List.filter_sublist
      · intro a b c hab hbc
        exact decide_eq_true (String.le_trans (of_decide_eq_true hab) (of_decide_eq_true hbc))
      · intro a b
        simpa using String.le_total a.name b.name
      · refine List.pairwise_of_forall_mem_list fun a ha b hb => decide_eq_true ?_
        have hname : a.name = b.name :=
          (of_decide_eq_true (List.mem_filter.mp ha).2).trans
            (of_decide_eq_true (List.mem_filter.mp hb).2).symm
        simp only [hname, String.le_refl]
    have hsame := hsub.filter (·.name = name)
    rw [List.filter_filter] at hsame
    simp only [Bool.and_self] at hsame
    exact (hsame.eq_of_length ((List.mergeSort_perm units _).filter _).length_eq.symm).symm
  · rfl

/-- `arrange` arranges as it should. -/
theorem arranged (config : Config) (units : List (CompilationUnit σ)) :
    Arranged config units (arrange config units) where
  perm := arrange_perm_self config units
  given hgiven := by rw [arrange, if_neg (by simp [hgiven])]
  sorted hdet := (arrange_sorted hdet units).imp of_decide_eq_true
  stable := arrange_stable config units

/-! ### Running a phase -/

/-- The phase runs for each of the tasks, one after the other and whether or not it fails: from
which state to which, and what came of it at each position. -/
inductive Attempts (phase : CompilationUnit σ → EStateM CompileError σ Unit) :
    List (Task σ) → σ → List (Nat × Option CompileError) → σ → Prop
  | nil (s : σ) : Attempts phase [] s [] s
  | done {position : Nat} {u : CompilationUnit σ} {rest : List (Task σ)} {s s' last : σ}
      {faults : List (Nat × Option CompileError)} (h : phase u s = .ok () s')
      (hrest : Attempts phase rest s' faults last) :
      Attempts phase ((position, u) :: rest) s ((position, none) :: faults) last
  | fault {position : Nat} {u : CompilationUnit σ} {rest : List (Task σ)} {s s' last : σ}
      {faults : List (Nat × Option CompileError)} {e : CompileError} (h : phase u s = .error e s')
      (hrest : Attempts phase rest s' faults last) :
      Attempts phase ((position, u) :: rest) s ((position, some e) :: faults) last

/-- What comes of tasks none of which fails. -/
def faultless (tasks : List (Task σ)) : List (Nat × Option CompileError) :=
  tasks.map fun task => (task.1, none)

/-- The fault is there, and no unit before it has one. -/
def IsFirst (faults : List (Nat × Option CompileError)) (position : Nat) (e : CompileError) :
    Prop :=
  (position, some e) ∈ faults ∧ ∀ earlier < position, ∀ e', (earlier, some e') ∉ faults

/-- A unit fails to declare its symbols: the ones before it have declared theirs, and the
compilation ends with its fault in the state that it left. -/
def Stops (tasks : List (Task σ)) (s : σ)
    (outcome : EStateM.Result CompileError σ CompileStats) : Prop :=
  ∃ before failing after s₁ e s₂, tasks = before ++ failing :: after ∧
    Attempts CompilationUnit.declare before s (faultless before) s₁ ∧
    failing.2.declare s₁ = .error e s₂ ∧ outcome = .error e s₂

/-- All units have declared their symbols, and then all checks have run, in the order in which they
were taken. The first fault in unit order is the outcome, or the statistics if there is none. -/
def Completes (tasks taken : List (Task σ)) (stats : CompileStats) (s : σ)
    (outcome : EStateM.Result CompileError σ CompileStats) : Prop :=
  ∃ s₁ faults s₂, Attempts CompilationUnit.declare tasks s (faultless tasks) s₁ ∧
    Attempts CompilationUnit.check taken s₁ faults s₂ ∧
    ((∃ position e, IsFirst faults position e ∧ outcome = .error e s₂) ∨
      ((∀ fault ∈ faults, fault.2 = none) ∧ outcome = .ok stats s₂))

/-- Tasks are numbered in order. -/
theorem tasksFrom_fst (n : Nat) (units : List (CompilationUnit σ)) :
    (tasksFrom n units).map Prod.fst = List.range' n units.length := by
  induction units generalizing n with
  | nil => rfl
  | cons u rest ih => simp only [tasksFrom, List.map_cons, ih, List.length_cons, List.range'_succ]

/-- The first phase, from any position on. -/
theorem declareAll_cases (n : Nat) (units : List (CompilationUnit σ)) (s : σ) :
    (∃ before failing after s₁ e s₂, tasksFrom n units = before ++ failing :: after ∧
      Attempts CompilationUnit.declare before s (faultless before) s₁ ∧
      failing.2.declare s₁ = .error e s₂ ∧ declareAll units s = .error e s₂) ∨
    ∃ s₁,
      Attempts CompilationUnit.declare (tasksFrom n units) s (faultless (tasksFrom n units)) s₁ ∧
      declareAll units s = .ok () s₁ := by
  -- The state changes from unit to unit and the positions go up, so both are generalized.
  induction units generalizing n s with
  | nil => exact Or.inr ⟨s, .nil s, rfl⟩
  | cons u rest ih =>
    have hrun : declareAll (u :: rest) s
        = EStateM.bind u.declare (fun _ => declareAll rest) s := rfl
    cases hu : u.declare s with
    | error e s₂ =>
      refine Or.inl ⟨[], (n, u), tasksFrom (n + 1) rest, s, e, s₂, rfl, .nil s, hu, ?_⟩
      simp only [hrun, EStateM.bind, hu]
    | ok _ s' =>
      have hgoes : declareAll (u :: rest) s = declareAll rest s' := by
        simp only [hrun, EStateM.bind, hu]
      rw [hgoes]
      rcases ih (n + 1) s' with ⟨before, failing, after, s₁, e, s₂, htasks, hbefore, hfails, hend⟩ |
        ⟨s₁, hall, hend⟩
      · refine Or.inl ⟨(n, u) :: before, failing, after, s₁, e, s₂, ?_, .done hu hbefore, hfails,
          hend⟩
        rw [tasksFrom, htasks, List.cons_append]
      · exact Or.inr ⟨s₁, .done hu hall, hend⟩

/-- A check that fails does not keep the next one from running. -/
theorem runTasks_attempts (tasks : List (Task σ)) (s : σ) :
    Attempts CompilationUnit.check tasks s (runTasks tasks s).1 (runTasks tasks s).2 := by
  induction tasks generalizing s with
  | nil => exact .nil s
  | cons task rest ih =>
    obtain ⟨position, u⟩ := task
    cases hu : u.check s with
    | ok _ s' =>
      simp only [runTasks, hu]
      exact .done hu (ih s')
    | error e s' =>
      simp only [runTasks, hu]
      exact .fault hu (ih s')

/-- Every task is reported under its own number. -/
theorem Attempts.positions {phase : CompilationUnit σ → EStateM CompileError σ Unit}
    {tasks : List (Task σ)} {s last : σ} {faults : List (Nat × Option CompileError)}
    (h : Attempts phase tasks s faults last) : faults.map Prod.fst = tasks.map Prod.fst := by
  induction h with
  | nil => rfl
  | done _ _ ih | fault _ _ ih => rw [List.map_cons, List.map_cons, ih]

/-! ### The first fault -/

/-- What stands at a position, where each position stands once. -/
theorem join_lookup_eq_some_iff {faults : List (Nat × Option CompileError)}
    (hnodup : (faults.map Prod.fst).Nodup) (position : Nat) (e : CompileError) :
    (faults.lookup position).join = some e ↔ (position, some e) ∈ faults := by
  rw [Option.join_eq_some_iff]
  exact Assoc.find?_eq_some_iff ⟨faults, hnodup⟩ position (some e)

/-- The fault that is found is the first, in the order of the positions. -/
theorem firstFault_eq_some {faults : List (Nat × Option CompileError)} {e : CompileError}
    {positions : List Nat} (h : firstFault faults positions = some e) :
    ∃ before position after, positions = before ++ position :: after ∧
      (faults.lookup position).join = some e ∧
      ∀ earlier ∈ before, (faults.lookup earlier).join = none := by
  induction positions with
  | nil => cases h
  | cons position rest ih =>
    -- The first position has a fault, or the search goes on behind it.
    rw [firstFault] at h
    split at h
    · rename_i e' hfound
      cases h
      exact ⟨[], position, rest, rfl, hfound, List.forall_mem_nil _⟩
    · rename_i hnone
      obtain ⟨before, found, after, rfl, hfound, hbefore⟩ := ih h
      exact ⟨position :: before, found, after, rfl, hfound,
        List.forall_mem_cons.mpr ⟨hnone, hbefore⟩⟩

/-- When no fault is found there is none. -/
theorem firstFault_eq_none {faults : List (Nat × Option CompileError)} {positions : List Nat}
    (h : firstFault faults positions = none) :
    ∀ position ∈ positions, (faults.lookup position).join = none := by
  induction positions with
  | nil => exact List.forall_mem_nil _
  | cons position rest ih =>
    rw [firstFault] at h
    split at h
    · cases h
    · rename_i hnone
      exact List.forall_mem_cons.mpr ⟨hnone, ih h⟩

/-- Going through the positions from zero on finds the first fault. -/
theorem firstFault_range {faults : List (Nat × Option CompileError)} {n : Nat}
    (hpositions : (faults.map Prod.fst).Perm (List.range n)) :
    (∃ position e, IsFirst faults position e ∧ firstFault faults (List.range n) = some e) ∨
      ((∀ fault ∈ faults, fault.2 = none) ∧ firstFault faults (List.range n) = none) := by
  have hnodup : (faults.map Prod.fst).Nodup := hpositions.nodup_iff.mpr List.nodup_range
  have hmem : ∀ {position fault}, (position, fault) ∈ faults → position ∈ List.range n :=
    fun hin => hpositions.mem_iff.mp (List.mem_map_of_mem hin)
  cases hfirst : firstFault faults (List.range n) with
  | none =>
    refine Or.inr ⟨?_, rfl⟩
    rintro ⟨position, _ | e⟩ hin
    · rfl
    · have hnone := firstFault_eq_none hfirst position (hmem hin)
      rw [(join_lookup_eq_some_iff hnodup position e).mpr hin] at hnone
      cases hnone
  | some e =>
    obtain ⟨before, position, after, hrange, hfound, hbefore⟩ := firstFault_eq_some hfirst
    refine Or.inl ⟨position, e, ⟨(join_lookup_eq_some_iff hnodup position e).mp hfound, ?_⟩, rfl⟩
    intro earlier hlt e' hin
    -- A smaller position stands before this one in the range, and there no fault was found.
    have hsorted : (before ++ position :: after).Pairwise (· < ·) := hrange ▸ List.pairwise_lt_range
    have hearlier : earlier ∈ before := by
      have hin := hmem hin
      rw [hrange, List.mem_append, List.mem_cons] at hin
      rcases hin with hin | rfl | hin
      · exact hin
      · exact absurd hlt (Nat.lt_irrefl _)
      · have hgt := (List.pairwise_cons.mp (List.pairwise_append.mp hsorted).2.1).1 earlier hin
        omega
    have hnone := hbefore earlier hearlier
    rw [(join_lookup_eq_some_iff hnodup earlier e').mpr hin] at hnone
    cases hnone

/-- All units are checked, and the outcome is the fault of the first unit with one. -/
theorem checkAll_cases {schedule : List (Task σ) → List (Task σ)} {units : List (CompilationUnit σ)}
    (hschedule : (schedule (tasksFrom 0 units)).Perm (tasksFrom 0 units)) (s : σ) :
    ∃ faults last, Attempts CompilationUnit.check (schedule (tasksFrom 0 units)) s faults last ∧
      ((∃ position e, IsFirst faults position e ∧ checkAll schedule units s = .error e last) ∨
        ((∀ fault ∈ faults, fault.2 = none) ∧ checkAll schedule units s = .ok () last)) := by
  have hattempts := runTasks_attempts (schedule (tasksFrom 0 units)) s
  -- Each position is reported once, whatever the order: this is all that is asked of the schedule.
  have hpositions : ((runTasks (schedule (tasksFrom 0 units)) s).1.map Prod.fst).Perm
      (List.range units.length) := by
    rw [hattempts.positions, List.range_eq_range', ← tasksFrom_fst]
    exact hschedule.map Prod.fst
  refine ⟨_, _, hattempts, ?_⟩
  rcases firstFault_range hpositions with ⟨position, e, hfirst, hfound⟩ | ⟨hnone, hfound⟩
  · exact Or.inl ⟨position, e, hfirst, by simp only [checkAll, hfound]⟩
  · exact Or.inr ⟨hnone, by simp only [checkAll, hfound]⟩

end Pipeline

open Pipeline

/-- A compilation has two phases that treat faults in opposite ways, whatever its units do and in
whatever order the checks are taken. It processes the units as they were given or in the order of
their names. If a unit fails to declare its symbols, the compilation ends there with the fault of
the first such unit: no later unit has declared anything and no check has run. Otherwise every unit
has declared its symbols, once and in order, before the first check, every check has run once
whether others failed or not, and the fault of the first unit that has one is reported, or the
statistics if none has. -/
theorem first_fault_reported (config : Config)
    {schedule : List (Pipeline.Task σ) → List (Pipeline.Task σ)}
    (hschedule : ∀ tasks, (schedule tasks).Perm tasks) (units : List (CompilationUnit σ)) (s : σ) :
    let order := (exec config schedule units).1
    let outcome := (exec config schedule units).2 s
    let stats : CompileStats := { units := units.length, threads := max 1 config.maxThreads }
    Arranged config units order ∧
      (Stops (tasksFrom 0 order) s outcome ∨
        Completes (tasksFrom 0 order) (schedule (tasksFrom 0 order)) stats s outcome) := by
  intro order outcome stats
  have harranged := arranged config.normalized units
  -- The number of threads is raised to one when the configuration is normalized, and again when it
  -- is read.
  have hstats : stats = { units := order.length, threads := config.normalized.threads } := by
    have hthreads : config.normalized.threads = max 1 config.maxThreads := by
      simp only [Config.normalized, Config.threads]
      omega
    have hlength : order.length = units.length := harranged.perm.length_eq
    rw [hlength, hthreads]
  have hrun : outcome = EStateM.bind (declareAll order)
      (fun _ => EStateM.bind (checkAll schedule order) fun _ => EStateM.pure stats) s := by
    rw [hstats]
    rfl
  refine ⟨⟨harranged.perm, harranged.given, harranged.sorted, harranged.stable⟩, ?_⟩
  rcases declareAll_cases 0 order s with
    ⟨before, failing, after, s₁, e, s₂, htasks, hbefore, hfails, hend⟩ | ⟨s₁, hall, hend⟩
  · refine Or.inl ⟨before, failing, after, s₁, e, s₂, htasks, hbefore, hfails, ?_⟩
    simp only [hrun, EStateM.bind, hend]
  · obtain ⟨faults, s₂, hchecks, hfault⟩ := checkAll_cases (hschedule (tasksFrom 0 order)) s₁
    refine Or.inr ⟨s₁, faults, s₂, hall, hchecks, ?_⟩
    rcases hfault with ⟨position, e, hfirst, hcheck⟩ | ⟨hnone, hcheck⟩
    · exact Or.inl ⟨position, e, hfirst, by simp only [hrun, EStateM.bind, hend, hcheck]⟩
    · refine Or.inr ⟨hnone, ?_⟩
      simp only [hrun, EStateM.bind, hend, hcheck]
      rfl

/-- A unit that writes its calls down and fails its check with the given fault. -/
def loggingUnit (name : String) (fault : Option CompileError) :
    CompilationUnit (List UnitCall) where
  name
  declare log := .ok () (log ++ [.declare name])
  check log :=
    match fault with
    | none => .ok () (log ++ [.check name])
    | some e => .error e (log ++ [.check name])

/-- Three units, of which the last two fail their checks. -/
def faultyUnits : List (CompilationUnit (List UnitCall)) :=
  [loggingUnit "x" none, loggingUnit "y" (some (.unresolvedSymbol "y:2:1" "p")),
    loggingUnit "z" (some (.unresolvedSymbol "z:2:1" "q"))]

/-- The last unit is checked first and fails first. The fault of the second unit is reported. -/
theorem first_fault_reported_faultyUnits :
    let outcome := (exec { maxThreads := 0 } List.reverse faultyUnits).2 []
    let tasks := tasksFrom 0 faultyUnits
    (∀ tasks : List (Pipeline.Task (List UnitCall)), tasks.reverse.Perm tasks) ∧
    outcome = .error (.unresolvedSymbol "y:2:1" "p") [.declare "x", .declare "y", .declare "z",
      .check "z", .check "y", .check "x"] ∧
    Completes tasks tasks.reverse { units := 3, threads := 1 } [] outcome := by
  intro outcome tasks
  have hreverse : ∀ tasks : List (Pipeline.Task (List UnitCall)), tasks.reverse.Perm tasks :=
    fun tasks => tasks.reverse_perm
  obtain ⟨-, hways⟩ := first_fault_reported { maxThreads := 0 } hreverse faultyUnits []
  refine ⟨hreverse, rfl, hways.resolve_left ?_⟩
  -- All units can be declared, so the other outcome is ruled out.
  rintro ⟨before, failing, after, s₁, e, s₂, htasks, -, hfails, -⟩
  have htasks : tasksFrom 0 faultyUnits = before ++ failing :: after := htasks
  have hmem : failing ∈ tasksFrom 0 faultyUnits := by
    rw [htasks]
    exact List.mem_append_right _ List.mem_cons_self
  simp only [faultyUnits, tasksFrom, List.mem_cons, List.not_mem_nil, or_false] at hmem
  rcases hmem with rfl | rfl | rfl <;> cases hfails

end Sema

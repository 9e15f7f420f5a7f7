import Sema.Proofs.Capture

/-!
# `Sema.Proofs.Run`: runs of operations

An `Op` is a call of one of the operations that may change the context. `Op.next` is the context
after the call, whether it succeeded or failed. Operations that only read are left out: their
results carry no context.

`Reached allowed ctx` says that a run from the initial context leads to `ctx`, where `allowed` is
what the run keeps to in each state. `Op.next_edits` says that an operation is a sequence of edits,
so `Reached.edits` turns a run into one sequence from the bare context. An invariant of all edits
holds in every reached state by `Edits.preserves`.
-/

set_option autoImplicit false

namespace Sema

namespace SemaM

variable {α : Type} {P : Context → Edit → Prop} {ctx : Context}

/-- A computation without its result. -/
def forget (m : SemaM α) : SemaM Unit := do
  let _ ← m

/-- Forgetting the result leaves the context that the computation leaves. -/
theorem after_forget (m : SemaM α) : after (forget m) ctx = after m ctx := by
  cases h : m ctx with
  | ok a ctx' =>
    have hrun : forget m ctx = .ok () ctx' := bind_of_ok h
    rw [after_ok hrun, after_ok h]
  | error e ctx' =>
    have hrun : forget m ctx = .error e ctx' := bind_of_error h
    simp only [after, hrun, h]

/-- What a computation returns, where only that was evaluated. -/
theorem eq_ok_of_run' {m : SemaM α} {a : α} (h : m.run' ctx = some a) :
    m ctx = .ok a (after m ctx) := by
  unfold EStateM.run' at h
  cases hm : m ctx with
  | ok b ctx' =>
    simp only [EStateM.run, hm, Option.some.injEq] at h
    rw [after_ok hm, h]
  | error e ctx' => simp [EStateM.run, hm] at h

/-- The error that a computation ends with, if it fails. -/
def failure? (m : SemaM α) (ctx : Context) : Option CompileError :=
  match m ctx with
  | .ok _ _ => none
  | .error e _ => some e

/-- A computation fails with an error exactly if it ends so in some context. -/
theorem failure?_eq_some_iff {m : SemaM α} {e : CompileError} :
    failure? m ctx = some e ↔ ∃ ctx', m ctx = .error e ctx' := by
  unfold failure?
  cases m ctx <;> simp

/-- A computation without a result that does not fail ends in some context. -/
theorem failure?_eq_none_iff {m : SemaM Unit} :
    failure? m ctx = none ↔ ∃ ctx', m ctx = .ok () ctx' := by
  unfold failure?
  cases m ctx <;> simp

/-- Forgetting the result makes no edits of its own. -/
theorem makes_forget {m : SemaM α} (h : Makes P m ctx) : Makes P (forget m) ctx := by
  rw [Makes, after_forget]
  exact h

/-- An instance made in a given frame, of which only the context is kept. -/
def instantiateIn (cls : SymbolId) (frame : Frame) : SemaM Unit := fun ctx =>
  match instantiate cls (ctx, frame) with
  | .ok _ (ctx, _) => .ok () ctx
  | .error e (ctx, _) => .error e ctx

/-- The frame does not matter to the context. -/
theorem after_instantiateIn (cls : SymbolId) (frame : Frame) :
    after (instantiateIn cls frame) ctx = after (classCreator cls) ctx := by
  unfold after instantiateIn instantiate
  cases hrun : classCreator cls ctx with
  | error e ctx' => simp only [hrun]
  | ok creator ctx' => cases hv : creator frame <;> simp only [hrun, hv]

end SemaM

/-- A call of an operation that may change the context. -/
inductive Op where
  | link (scope : SymbolId)
  | typeOf (type : TypeRef)
  | typeOfSymbol (id : SymbolId)
  | returnType (func : SymbolId)
  | typeRef (t : TypeName)
  | resolvedRef (name : String) (t : Ty)
  | typeRefOf (t : Ty)
  | arrayType (item : TypeName)
  | registerArray (item : TypeName) (storage : ArrayStorage)
  | mapType (key value : TypeName)
  | funcType (ret : TypeName) (params : List TypeName)
  | tupleType (items : List TypeName)
  | returnsType (items : List TypeRef)
  | parsedType (name : String) (isArray : Bool) (func : Option ParsedFunc)
  | checkOverload (right : TypedExpr) (func : SymbolId)
  | addModule (name : String)
  | addVariable (name : String) (type : TypeRef) (location : Option Location)
  | addParam (name : String) (type : TypeRef) (byRef : Bool) (location : Option Location)
  | define (scope sym : SymbolId)
  | markOutOfScope (sym : SymbolId)
  | openBlock (parent : SymbolId) (location : Option Location)
  | closeBlock (block : SymbolId)
  | lookup (scope : SymbolId) (name : String)
  | require (scope : SymbolId) (name : String) (location : Option Location)
  | addNativeFunc (name : String) (ret : TypeRef) (defaults : Nat) (body : HostFunc)
      (args : List SymbolId)
  | addScriptFunc (name : String) (ret : TypeRef) (location : Option Location)
  | addLambda (name : String) (ret : TypeRef) (enclosing : List SymbolId)
      (location : Option Location)
  | defineArg (func arg : SymbolId) (hasDefault : Bool)
  | addClass (name : String) (superClass : Option SymbolId) (flavor : ClassFlavor)
      (location : Option Location)
  | addNativeClass (name : String) (superClass : Option SymbolId) (make : Option Creator)
  | addField (name : String) (type : TypeRef) (location : Option Location)
  | addNativeField (name : String) (type : TypeRef) (accessor : Accessor)
  | classCreator (cls : SymbolId)
  | instantiate (cls : SymbolId) (frame : Frame)
  | overloadOperator (cls func : SymbolId)
  | addEnum (name : String) (location : Option Location)
  | addItem (owner : SymbolId) (name : String) (value : Int) (location : Option Location)

namespace Op

open SemaM in
/-- What a call does to the context. -/
def exec : Op → SemaM Unit
  | link scope => SemaM.link scope
  | typeOf type => forget (SemaM.typeOf type)
  | typeOfSymbol id => forget (SemaM.typeOfSymbol id)
  | returnType func => forget (SemaM.returnType func)
  | typeRef t => forget (SemaM.typeRef t)
  | resolvedRef name t => forget (SemaM.resolvedRef name t)
  | typeRefOf t => forget (SemaM.typeRefOf t)
  | arrayType item => forget (SemaM.arrayType item)
  | registerArray item storage => forget (SemaM.registerArray item storage)
  | mapType key value => forget (SemaM.mapType key value)
  | funcType ret params => forget (SemaM.funcType ret params)
  | tupleType items => forget (SemaM.tupleType items)
  | returnsType items => forget (SemaM.returnsType items)
  | parsedType name isArray func => forget (SemaM.parsedType name isArray func)
  | checkOverload right func => forget (SemaM.checkOverload right func)
  | addModule name => forget (SemaM.addModule name)
  | addVariable name type location => forget (SemaM.addVariable name type location)
  | addParam name type byRef location => forget (SemaM.addParam name type byRef location)
  | define scope sym => SemaM.define scope sym
  | markOutOfScope sym => SemaM.markOutOfScope sym
  | openBlock parent location => forget (SemaM.openBlock parent location)
  | closeBlock block => SemaM.closeBlock block
  | lookup scope name => forget (SemaM.lookup scope name)
  | require scope name location => forget (SemaM.require scope name location)
  | addNativeFunc name ret defaults body args =>
    forget (SemaM.addNativeFunc name ret defaults body args)
  | addScriptFunc name ret location => forget (SemaM.addScriptFunc name ret location)
  | addLambda name ret enclosing location => forget (SemaM.addLambda name ret enclosing location)
  | defineArg func arg hasDefault => SemaM.defineArg func arg hasDefault
  | addClass name superClass flavor location =>
    forget (SemaM.addClass name superClass flavor location)
  | addNativeClass name superClass make => forget (SemaM.addNativeClass name superClass make)
  | addField name type location => forget (SemaM.addField name type location)
  | addNativeField name type accessor => forget (SemaM.addNativeField name type accessor)
  | classCreator cls => forget (SemaM.classCreator cls)
  | instantiate cls frame => instantiateIn cls frame
  | overloadOperator cls func => SemaM.overloadOperator cls func
  | addEnum name location => forget (SemaM.addEnum name location)
  | addItem owner name value location => forget (SemaM.addItem owner name value location)

/-- The context after a call. -/
def next (op : Op) (ctx : Context) : Context := SemaM.after op.exec ctx

/-- The functions into which a call puts a new lambda. -/
def enclosing? : Op → Option (List SymbolId)
  | addLambda _ _ enclosing _ => some enclosing
  | _ => none

/-- What a run keeps to when it puts a new lambda into functions. -/
def Nests (nests : Context → List SymbolId → Prop) (ctx : Context) (op : Op) : Prop :=
  ∀ enclosing ∈ op.enclosing?, nests ctx enclosing

/-- Whether the call asks for a new class. -/
def declaresClass : Op → Bool
  | addClass .. | addNativeClass .. => true
  | _ => false

/-- Whether the call asks for array or map types. -/
def asksStructural : Op → Bool
  | arrayType .. | registerArray .. | mapType .. | parsedType .. => true
  | _ => false

/-- The references from which the call makes an array or map type have proper names. -/
def ProperNames : Op → Prop
  | arrayType item | registerArray item _ => item.Proper
  | mapType key value => key.Proper ∧ value.Proper
  | _ => True

/-- The references that a call is given as such. -/
def refs : Op → List TypeRef
  | typeOf type | addVariable _ type _ | addParam _ type _ _ | addField _ type _
  | addNativeField _ type _ => [type]
  | addNativeFunc _ ret _ _ _ | addScriptFunc _ ret _ | addLambda _ ret _ _ => [ret]
  | typeRef t | arrayType t | registerArray t _ => t.refs
  | mapType key value => key.refs ++ value.refs
  | funcType ret params => ret.refs ++ params.flatMap (·.refs)
  | tupleType items => items.flatMap (·.refs)
  | returnsType items => items
  | _ => []

/-- A call keeps to the rules of a run. -/
structure Keeps (rules : Rules) (ctx : Context) (op : Op) : Prop where
  nests : op.Nests rules.nests ctx
  types : ∀ st, (op.ProperNames → st.Proper) → rules.types st
  links : ∀ scope, op = .link scope → rules.links ctx scope
  items : ∀ owner name value location, op = .addItem owner name value location →
    ∀ o, ctx.arena.get? owner = some o → rules.items o.kind
  refs : ∀ type ∈ op.refs, rules.Allows ctx.slots.size type
  base : rules.base ≤ ctx.slots.size

variable {rules : Rules} {ctx : Context}

/-- A run that is only told where to put lambdas. -/
theorem keeps_of_nests {nests : Context → List SymbolId → Prop} {op : Op}
    (h : op.Nests nests ctx) : op.Keeps { nests } ctx where
  nests := h
  types _ _ := trivial
  links _ _ := trivial
  items _ _ _ _ _ _ _ := trivial
  refs _ _ := trivial
  base := Nat.zero_le _

/-- Every call keeps to no rules. -/
theorem keeps_free (op : Op) (ctx : Context) : op.Keeps {} ctx :=
  keeps_of_nests fun _ _ => trivial

open SemaM Edit in
/-- A call that asks for no class and no array or map type makes edits that register nothing and
inherit nothing. -/
theorem next_nested (op : Op) (h : op.Keeps rules ctx) (hcls : op.declaresClass = false)
    (hasks : op.asksStructural = false) : Edits (Edit.Nested rules) ctx (op.next ctx) := by
  -- Nearly all calls are quiet; captures are made by look-ups and lambdas by one call.
  have quiet : ∀ {α : Type} {m : SemaM α}, Makes (Quiet rules) m ctx → Makes (Nested rules) m ctx :=
    fun h => h.mono fun _ _ he => .quiet he
  have given : ∀ {type : TypeRef}, op.refs = [type] → rules.Allows ctx.slots.size type :=
    fun hrefs => h.refs _ (by rw [hrefs]; exact List.mem_singleton.mpr rfl)
  show Makes (Nested rules) op.exec ctx
  cases op with
  | link => exact quiet (makes_link (h.links _ rfl))
  | typeOf => exact makes_forget (quiet (makes_typeOf (Or.inl (given rfl))))
  | typeOfSymbol => exact makes_forget (quiet (makes_typeOfSymbol _))
  | returnType => exact makes_forget (quiet (makes_returnType _))
  | typeRef => exact makes_forget (quiet (makes_typeRef _))
  | resolvedRef => exact makes_forget (quiet (makes_resolvedRef _ _))
  | typeRefOf => exact makes_forget (quiet (makes_typeRefOf _))
  | arrayType => cases hasks
  | registerArray => cases hasks
  | mapType => cases hasks
  | funcType => exact makes_forget (quiet (makes_funcType _ _))
  | tupleType => exact makes_forget (quiet (makes_tupleType _))
  | returnsType => exact makes_forget (quiet (makes_returnsType _))
  | parsedType => cases hasks
  | checkOverload => exact makes_forget (quiet (makes_checkOverload _ _))
  | addModule => exact makes_forget (quiet (makes_addModule _))
  | addVariable => exact makes_forget (quiet (makes_addVariable _ _ (given rfl)))
  | addParam => exact makes_forget (quiet (makes_addParam _ _ _ (given rfl)))
  | define => exact quiet (makes_define _ _)
  | markOutOfScope => exact quiet (makes_markOutOfScope _)
  | openBlock => exact makes_forget (quiet (makes_openBlock _ _))
  | closeBlock => exact quiet (makes_closeBlock _)
  | lookup => exact makes_forget (makes_lookup _ _)
  | require => exact makes_forget (makes_require _ _ _)
  | addNativeFunc => exact makes_forget (quiet (makes_addNativeFunc _ _ _ _ (given rfl)))
  | addScriptFunc => exact makes_forget (quiet (makes_addScriptFunc _ _ (given rfl)))
  | addLambda => exact makes_forget (makes_addLambda _ _ (h.nests _ rfl) (given rfl))
  | defineArg => exact quiet (makes_defineArg _ _ _)
  | addClass => cases hcls
  | addNativeClass => cases hcls
  | addField => exact makes_forget (quiet (makes_addField _ _ (given rfl)))
  | addNativeField => exact makes_forget (quiet (makes_addNativeField _ _ (given rfl)))
  | classCreator => exact makes_forget (quiet (makes_classCreator _))
  | instantiate cls frame =>
    rw [Makes, exec, after_instantiateIn]
    exact quiet (makes_classCreator cls)
  | overloadOperator => exact quiet (makes_overloadOperator _ _)
  | addEnum => exact makes_forget (quiet (makes_addEnum _ _))
  | addItem => exact makes_forget (quiet (makes_addItem _ _ _ h.base (h.items _ _ _ _ rfl)))

open SemaM Edit in
/-- A call that asks for array or map types registers the types that it asks for. -/
theorem next_plain (op : Op) (h : op.Keeps rules ctx) (hasks : op.asksStructural = true) :
    Edits (Edit.Plain rules) ctx (op.next ctx) := by
  show Makes (Plain rules) op.exec ctx
  cases op with
  | arrayType => exact makes_forget (makes_arrayType h.base h.refs h.types)
  | registerArray => exact makes_forget (makes_registerArray _ h.base h.refs h.types)
  | mapType =>
    obtain ⟨hkey, hvalue⟩ := List.forall_mem_append.mp h.refs
    exact makes_forget (makes_mapType h.base hkey hvalue h.types)
  | parsedType =>
    exact makes_forget (makes_parsedType _ _ _ h.base fun st hst => h.types st fun _ => hst)
  | _ => cases hasks

/-- Every call is a sequence of edits. -/
theorem next_edits (op : Op) (h : op.Keeps rules ctx) :
    Edits (Edit.Fits rules) ctx (op.next ctx) := by
  cases hasks : op.asksStructural with
  | true => exact (op.next_plain h hasks).mono fun _ _ he => .plain he
  | false =>
    cases hcls : op.declaresClass with
    | false => exact (op.next_nested h hcls hasks).mono fun _ _ he => .nested he
    | true =>
      cases op with
      | addClass => exact SemaM.makes_forget (SemaM.makes_addClass _ _ _ _)
      | addNativeClass => exact SemaM.makes_forget (SemaM.makes_addNativeClass _ _ _)
      | _ => cases hcls

/-- A call that does not ask for array or map types leaves the tables of these types alone. -/
theorem next_silent (op : Op) (hasks : op.asksStructural = false) :
    Edits (fun _ e => e.isSilent = true) ctx (op.next ctx) := by
  -- The two calls that declare classes are the only ones not covered already.
  cases hcls : op.declaresClass with
  | false =>
    exact (op.next_nested (op.keeps_free ctx) hcls hasks).mono fun _ _ he => he.isSilent
  | true =>
    cases op with
    | addClass => exact SemaM.makes_forget (SemaM.makes_query_bind fun _ _ => SemaM.makes_alloc rfl)
    | addNativeClass name superClass make =>
      refine SemaM.makes_forget
        (SemaM.makes_bind (SemaM.makes_query_bind fun _ _ => SemaM.makes_alloc rfl) ?_)
      intro cls _ _
      refine SemaM.makes_bind (SemaM.makes_modifySymbol (.creator cls make) ?_ rfl) ?_
      · intro _ _
        rfl
      · intro _ _ _
        exact SemaM.makes_pure _
    | _ => cases hcls

/-- The tables of structural types only change in calls that ask for such types. -/
theorem tables_next (op : Op) (hasks : op.asksStructural = false) :
    (op.next ctx).structural = ctx.structural ∧ (op.next ctx).storages = ctx.storages := by
  refine (op.next_silent hasks).relates
    (R := fun a b => b.structural = a.structural ∧ b.storages = a.storages)
    (fun _ => ⟨rfl, rfl⟩) ?_ fun ctx _ he => Edit.tables_write ctx he
  intro a b c hab hbc
  exact ⟨hbc.1.trans hab.1, hbc.2.trans hab.2⟩

/-- Every call lets the context grow. -/
theorem grows (op : Op) (ctx : Context) : ctx.Grows (op.next ctx) :=
  (op.next_edits (op.keeps_free ctx)).grows fun _ _ => Edit.Fits.grows

end Op

/-- The contexts that runs lead to whose calls are all allowed in the state they are made in. -/
inductive Reached (allowed : Context → Op → Prop) : Context → Prop
  | initial : Reached allowed .initial
  | step {ctx : Context} (op : Op) (h : Reached allowed ctx) (hop : allowed ctx op) :
      Reached allowed (op.next ctx)

namespace Reached

variable {allowed : Context → Op → Prop} {rules : Rules} {ctx : Context}

/-- A run is a sequence of edits of the bare context. -/
theorem edits (hkeeps : ∀ ctx op, allowed ctx op → op.Keeps rules ctx) (hbase : rules.base = 0)
    (hproper : ∀ st, st.Proper → rules.types st) (h : Reached allowed ctx) :
    Edits (Edit.Fits rules) .bare ctx := by
  induction h with
  | initial => exact (Edits.bare_initial hbase hproper).mono fun _ _ he => .plain he
  | step op _ hop ih => exact ih.trans (op.next_edits (hkeeps _ _ hop))

/-- A run as a sequence of edits, if all that matters is where it puts lambdas. -/
theorem edits_nested {nests : Context → List SymbolId → Prop}
    (hnests : ∀ ctx op, allowed ctx op → op.Nests nests ctx) (h : Reached allowed ctx) :
    Edits (Edit.Fits { nests }) .bare ctx :=
  h.edits (fun ctx op hop => Op.keeps_of_nests (hnests ctx op hop)) rfl fun _ _ => trivial

/-- A run as a sequence of edits that keep to no rules. -/
theorem edits_free (h : Reached allowed ctx) : Edits (Edit.Fits {}) .bare ctx :=
  h.edits (fun ctx op _ => op.keeps_free ctx) rfl fun _ _ => trivial

end Reached

/-- Where a well-nested run puts a new lambda: into one plain function, or into a lambda with
everything around it. -/
def Context.WellNested (ctx : Context) (enclosing : List SymbolId) : Prop :=
  (∃ func s info, enclosing = [func] ∧ ctx.arena.get? func = some s ∧ s.kind = .func info ∧
    ctx.stack? func = none) ∨
  ∃ lambda, ctx.stack? lambda = some enclosing

/-- Whether a symbol is a function and no lambda. -/
def Context.isPlainFunc (ctx : Context) (func : SymbolId) : Bool :=
  match ctx.arena.get? func with
  | some s => s.kind.func?.isSome && s.kind.lambda?.isNone
  | none => false

/-- The test for a function that is no lambda. -/
theorem Context.isPlainFunc_iff {ctx : Context} {func : SymbolId} :
    ctx.isPlainFunc func = true ↔
      ∃ s info, ctx.arena.get? func = some s ∧ s.kind = .func info ∧ ctx.stack? func = none := by
  cases hs : ctx.arena.get? func with
  | none => simp [isPlainFunc, hs]
  | some s =>
    have hstack : ctx.stack? func = none ↔ s.kind.lambda? = none := by
      rw [stack?, lambda?_of_get? hs, Option.map_eq_none_iff]
    cases hk : s.kind <;> simp [isPlainFunc, hs, hk, SymbolKind.func?, hstack]

/-- The test for a list of functions that a lambda can be put into. -/
def Context.isWellNested (ctx : Context) (enclosing : List SymbolId) : Bool :=
  enclosing.any (fun func => enclosing = [func] && ctx.isPlainFunc func) ||
    (List.range (ctx.arena.size + 1)).any fun n => ctx.stack? ⟨n⟩ = some enclosing

/-- The test decides well-nestedness. -/
theorem Context.isWellNested_iff {ctx : Context} {enclosing : List SymbolId} :
    ctx.isWellNested enclosing = true ↔ ctx.WellNested enclosing := by
  unfold isWellNested WellNested
  rw [Bool.or_eq_true, List.any_eq_true, List.any_eq_true]
  refine or_congr ⟨?_, ?_⟩ ⟨?_, ?_⟩
  · rintro ⟨func, -, hfunc⟩
    obtain ⟨hone, hplain⟩ := Bool.and_eq_true_iff.mp hfunc
    obtain ⟨s, info, hs, hk, hl⟩ := isPlainFunc_iff.mp hplain
    exact ⟨func, s, info, of_decide_eq_true hone, hs, hk, hl⟩
  · rintro ⟨func, s, info, rfl, hs, hk, hl⟩
    have hplain := isPlainFunc_iff.mpr ⟨s, info, hs, hk, hl⟩
    exact ⟨func, List.mem_singleton.mpr rfl, by simp [hplain]⟩
  · rintro ⟨n, -, hn⟩
    exact ⟨⟨n⟩, of_decide_eq_true hn⟩
  · rintro ⟨lambda, hl⟩
    obtain ⟨l, hl', -⟩ := stack?_eq_some_iff.mp hl
    obtain ⟨s, hs, -⟩ := Option.bind_eq_some_iff.mp hl'
    -- A lambda exists, so its number is within the bound of the test.
    have hle := num_le_size hs
    exact ⟨lambda.num, List.mem_range.mpr (by omega), decide_eq_true hl⟩

/-- Well-nestedness is decidable. -/
instance (ctx : Context) (enclosing : List SymbolId) : Decidable (ctx.WellNested enclosing) :=
  decidable_of_iff _ Context.isWellNested_iff

namespace Op

/-- Whether a call nests lambdas as it should is decidable. -/
instance (nests : Context → List SymbolId → Prop)
    [∀ ctx enclosing, Decidable (nests ctx enclosing)] (ctx : Context) (op : Op) :
    Decidable (op.Nests nests ctx) :=
  inferInstanceAs (Decidable (∀ enclosing ∈ op.enclosing?, nests ctx enclosing))

/-- The context after several calls. -/
def runs (ctx : Context) : List Op → Context
  | [] => ctx
  | op :: rest => runs (op.next ctx) rest

/-- Each of several calls is allowed where it is made. -/
def AllAllowed (allowed : Context → Op → Prop) (ctx : Context) : List Op → Prop
  | [] => True
  | op :: rest => allowed ctx op ∧ AllAllowed allowed (op.next ctx) rest

/-- A list of calls is checked from the front, with the context carried along. -/
instance decidableAllAllowed (allowed : Context → Op → Prop)
    [∀ ctx op, Decidable (allowed ctx op)] (ctx : Context) :
    (ops : List Op) → Decidable (AllAllowed allowed ctx ops)
  | [] => inferInstanceAs (Decidable True)
  | op :: rest =>
    have := decidableAllAllowed allowed (op.next ctx) rest
    inferInstanceAs (Decidable (allowed ctx op ∧ AllAllowed allowed (op.next ctx) rest))

end Op

/-- One run after another is a run. -/
theorem Op.runs_append (ctx : Context) (ops rest : List Op) :
    runs ctx (ops ++ rest) = runs (runs ctx ops) rest := by
  induction ops generalizing ctx with
  | nil => rfl
  | cons op ops ih => exact ih (op.next ctx)

/-- What is allowed stays allowed under a weaker condition. -/
theorem Op.AllAllowed.mono {p q : Context → Op → Prop} (hpq : ∀ ctx op, p ctx op → q ctx op)
    {ctx : Context} {ops : List Op} (h : AllAllowed p ctx ops) : AllAllowed q ctx ops := by
  induction ops generalizing ctx with
  | nil => trivial
  | cons op rest ih => exact ⟨hpq _ _ h.1, ih h.2⟩

/-- A run is allowed when its two parts are. -/
theorem Op.AllAllowed.of_append {allowed : Context → Op → Prop} {ctx : Context}
    {ops rest : List Op} (h : AllAllowed allowed ctx (ops ++ rest)) :
    AllAllowed allowed ctx ops ∧ AllAllowed allowed (runs ctx ops) rest := by
  induction ops generalizing ctx with
  | nil => exact ⟨trivial, h⟩
  | cons op ops ih =>
    obtain ⟨hops, hrest⟩ := ih h.2
    exact ⟨⟨h.1, hops⟩, hrest⟩

/-- A run of allowed calls leads from reached states to reached ones. -/
theorem Reached.runs {allowed : Context → Op → Prop} {ctx : Context} {ops : List Op}
    (h : Reached allowed ctx) (hops : Op.AllAllowed allowed ctx ops) :
    Reached allowed (Op.runs ctx ops) := by
  induction ops generalizing ctx with
  | nil => exact h
  | cons op rest ih => exact ih (.step op h hops.1) hops.2

/-- Whatever is called, the contexts are reached. -/
theorem Reached.runs_free {ctx : Context} (h : Reached (fun _ _ => True) ctx) (ops : List Op) :
    Reached (fun _ _ => True) (Op.runs ctx ops) := by
  induction ops generalizing ctx with
  | nil => exact h
  | cons op rest ih => exact ih (h.step op trivial)

/-! ### What a run keeps -/

/-- Several calls are one sequence of edits. -/
theorem Op.runs_edits {allowed : Context → Op → Prop} {rules : Rules} {ctx : Context}
    {ops : List Op} (hkeeps : ∀ ctx op, allowed ctx op → op.Keeps rules ctx)
    (hops : Op.AllAllowed allowed ctx ops) : Edits (Edit.Fits rules) ctx (Op.runs ctx ops) := by
  induction ops generalizing ctx with
  | nil => exact .refl ctx
  | cons op rest ih => exact (op.next_edits (hkeeps _ _ hops.1)).trans (ih hops.2)

/-- Runs only add to the context. -/
theorem Op.runs_grows (ctx : Context) (ops : List Op) : ctx.Grows (Op.runs ctx ops) := by
  induction ops generalizing ctx with
  | nil => exact .refl ctx
  | cons op rest ih => exact (op.grows ctx).trans (ih (op.next ctx))

/-- A reference whose slot is bound gives what it is bound to and changes nothing. -/
theorem SemaM.typeOf_of_bound {ctx : Context} {type : TypeRef} {t : Ty}
    (h : ctx.slotType? type.slot = some t) : SemaM.typeOf type ctx = .ok t ctx := by
  have hget : (get : SemaM Context) ctx = .ok ctx ctx := rfl
  unfold SemaM.typeOf
  rw [SemaM.bind_of_ok hget, h]
  rfl

/-- Nothing that a context has is lost or changed by any calls, whether they succeed or fail:
`Context.Grows` lists what stays. A slot that is bound gives its type to every reference that shares
it, from then on. -/
theorem runs_only_grow (ctx : Context) (ops : List Op) :
    ctx.Grows (Op.runs ctx ops) ∧
    ∀ (type : TypeRef) (t : Ty), ctx.slotType? type.slot = some t →
      SemaM.typeOf type (Op.runs ctx ops) = .ok t (Op.runs ctx ops) := by
  have hgrows := Op.runs_grows ctx ops
  refine ⟨hgrows, fun type t ht => ?_⟩
  exact SemaM.typeOf_of_bound (hgrows.slots type.slot t ht)

end Sema

import Sema.Proofs.CaptureChain
import Sema.Proofs.DefinitionEffect

/-!
# `Sema.Proofs.ParameterDefinition`: a parameter that is refused

A function takes a parameter in two steps. It takes the symbol in as a member, and then it adds the
type of the symbol to its signature. `Context.Admits` is the condition of the first step. The second
step asks whether the symbol is a parameter at all, and by then the symbol is a member.

`SemaM.defineArg_cases` gives the three ends of such a call: it is refused and changes nothing, or
the function has one parameter more, or it has taken in a symbol that is none. The last one is an
error that leaves its mark (`Context.Clogged`): a member that is no parameter stands where the next
parameter would come, and no call ever removes it. So the function takes no parameter from then on,
as `parameter_definition_exact` states.
-/

set_option autoImplicit false

namespace Sema

/-- Every parameter with a type has a type as a parameter, and nothing else has one. -/
theorem Symbol.paramType_cases (s : Symbol) :
    (∃ byRef type, s.kind = .param byRef ∧ s.type? = some type ∧
      s.paramType = .ok (type.withRef byRef)) ∨
    ((∀ byRef type, s.kind = .param byRef → s.type? ≠ some type) ∧
      s.paramType = .error (.internal (.notAnArgument s.name))) := by
  unfold paramType
  split
  · rename_i byRef type hk ht
    exact Or.inl ⟨byRef, type, hk, ht, rfl⟩
  · rename_i hother
    exact Or.inr ⟨hother, rfl⟩

namespace Context

variable {a b ctx : Context} {func arg : SymbolId}

/-- The symbol is a parameter, of a function or of none yet. -/
def IsParam (ctx : Context) (arg : SymbolId) : Prop :=
  ∃ s byRef, ctx.arena.get? arg = some s ∧ s.kind = .param byRef

/-- The function would take the symbol in where its next parameter comes: the host does not provide
it, it has no member but its parameters, and the name is free. -/
def Admits (ctx : Context) (func arg : SymbolId) : Prop :=
  ∃ o info s, ctx.arena.get? func = some o ∧ o.kind = .func info ∧
    info.flavor.isNative = false ∧ o.members.size = info.signature.params.length ∧
    ctx.arena.get? arg = some s ∧ s.name ∉ o.members.keys

/-- A member that is no parameter stands where the next parameter of the function would come. -/
def Clogged (ctx : Context) (func : SymbolId) : Prop :=
  ∃ c name x, ctx.contract? func = some c ∧ ctx.At func c.signature.params.length name x ∧
    ctx.Exists x ∧ ¬ctx.IsParam x

/-- A symbol does not become a parameter. -/
theorem Grows.isParam (h : a.Grows b) (hold : a.Exists arg) (hparam : b.IsParam arg) :
    a.IsParam arg := by
  obtain ⟨s, hs⟩ := hold
  obtain ⟨t, byRef, ht, hk⟩ := hparam
  obtain ⟨t', ht', hst⟩ := h.symbols arg s hs
  rw [ht] at ht'
  cases ht'
  have hkind := hst.kind
  rw [hk] at hkind
  generalize hkey : s.kind = k at hkind
  cases hkind
  exact ⟨s, byRef, hs, hkey⟩

/-- One symbol stands at a position. -/
theorem At.eq_of_position {i : Nat} {name name' : String} {x y : SymbolId}
    (hx : ctx.At func i name x) (hy : ctx.At func i name' y) : x = y := by
  obtain ⟨o, ho, hx⟩ := hx
  obtain ⟨o', ho', hy⟩ := hy
  rw [ho] at ho'
  cases ho'
  rw [hx] at hy
  cases hy
  rfl

/-- A symbol that is taken in and no parameter clogs the function. -/
theorem clogged_enter {o s : Symbol} {info : FuncInfo} (ho : ctx.arena.get? func = some o)
    (hk : o.kind = .func info) (hsize : o.members.size = info.signature.params.length)
    (hs : ctx.arena.get? arg = some s) (hnew : s.name ∉ o.members.keys)
    (hstray : ¬ctx.IsParam arg) : ((Edit.enter func arg).write ctx).Clogged func := by
  have hgrows := grows_enter hs ho hnew
  have hcontract : ((Edit.enter func arg).write ctx).contract? func = some info.contract := by
    rw [Edit.contract?_write, contract?_of_get? ho, Symbol.contract?_of_func hk]
  obtain ⟨o', ho', -, hentries⟩ := get?_enter_scope hs ho hnew
  refine ⟨info.contract, s.name, arg, hcontract, ⟨o', ho', ?_⟩, hgrows.exists ⟨s, hs⟩,
    fun hparam => hstray (hgrows.isParam ⟨s, hs⟩ hparam)⟩
  rw [hentries, FuncInfo.contract_signature, ← hsize]
  exact List.getElem?_concat_length

end Context

/-- A function that is clogged stays so. The next parameter would have to be the symbol that stands
in its place, and that one is no parameter. -/
theorem Edit.Fits.clogged {rules : Rules} {ctx : Context} {e : Edit} (he : Fits rules ctx e)
    {func : SymbolId} (h : ctx.Clogged func) : (e.write ctx).Clogged func := by
  have hgrows := he.grows
  obtain ⟨c, name, x, hc, hat, hold, hstray⟩ := h
  obtain ⟨o, ho, -⟩ := Option.bind_eq_some_iff.mp hc
  have hstays : (e.write ctx).contract? func = ctx.contract? func → (e.write ctx).Clogged func :=
    fun hsame => ⟨c, name, x, hsame.trans hc, hgrows.at hat, hgrows.exists hold,
      fun hparam => hstray (hgrows.isParam hold hparam)⟩
  have hwrite := Edit.contract?_write ctx e func
  cases e with
  | alloc s =>
    simp only [if_neg (Context.ne_nextId ho)] at hwrite
    exact hstays hwrite
  | param f type hasDefault =>
    by_cases hf : func = f
    · subst hf
      cases he.quiet rfl with
      | @param _ arg o' p info _ _ ho' hk hp ht hplace =>
        rw [Context.contract?_of_get? ho', Symbol.contract?_of_func hk] at hc
        cases hc
        -- A parameter would have to stand where the stray member stands.
        obtain rfl : x = arg := hat.eq_of_position ⟨o', ho', hplace⟩
        obtain ⟨declared, hkind, -⟩ := Symbol.paramType_eq_ok ht
        exact absurd ⟨p, type.byRef, hp, hkind⟩ hstray
    · simp only [if_neg hf] at hwrite
      exact hstays hwrite
  | _ => exact hstays hwrite

/-- A clogged function stays clogged through any further calls. -/
theorem Op.runs_clogged {ctx : Context} {func : SymbolId} (h : ctx.Clogged func) (ops : List Op) :
    (Op.runs ctx ops).Clogged func := by
  induction ops generalizing ctx with
  | nil => exact h
  | cons op rest ih =>
    have hedits := op.next_edits (op.keeps_free ctx)
    exact ih (hedits.preserves (I := (·.Clogged func)) (fun _ _ he => he.clogged) h)

namespace SemaM

variable {ctx : Context} {func arg : SymbolId}

/-- A parameter is pushed to the signature. -/
theorem pushParam_of_ok {a o : Symbol} {type : TypeRef} (ha : ctx.arena.get? arg = some a)
    (htype : a.paramType = .ok type) (ho : ctx.arena.get? func = some o) (hasDefault : Bool) :
    pushParam func arg hasDefault ctx = .ok () ((Edit.param func type hasDefault).write ctx) := by
  have hread : (do (← ctx.symbol arg).paramType : Except CompileError TypeRef) = .ok type := by
    simp only [Context.symbol_of_get? ha, bind, Except.bind, htype]
  rw [pushParam, bind_of_ok (query_of_ok hread)]
  exact modifySymbol_run _ ho

/-- What is no parameter is refused, and nothing is changed. -/
theorem pushParam_of_error {a : Symbol} {e : CompileError} (ha : ctx.arena.get? arg = some a)
    (htype : a.paramType = .error e) (hasDefault : Bool) :
    pushParam func arg hasDefault ctx = .error e ctx := by
  have hread : (do (← ctx.symbol arg).paramType : Except CompileError TypeRef) = .error e := by
    simp only [Context.symbol_of_get? ha, bind, Except.bind, htype]
  rw [pushParam, bind_of_error (query_of_error hread)]

/-- A function with a member that is no parameter takes none. -/
theorem defineArg_of_clogged (h : ctx.Clogged func) (arg : SymbolId) (hasDefault : Bool) :
    ∃ o, ctx.arena.get? func = some o ∧
      defineArg func arg hasDefault ctx = .error (.internal (.argsAfterLocals o.name)) ctx := by
  obtain ⟨c, name, x, hc, ⟨o, ho, hplace⟩, -⟩ := h
  refine ⟨o, ho, ?_⟩
  cases hk : o.kind with
  | func info =>
    rw [Context.contract?_of_get? ho, Symbol.contract?_of_func hk] at hc
    cases hc
    -- There is a member behind the last parameter, so the sizes differ.
    have hsize : o.members.size ≠ info.signature.params.length := by
      have hlt := (List.getElem?_eq_some_iff.mp hplace).1
      exact Nat.ne_of_gt hlt
    unfold defineArg
    rw [bind_of_ok (query_of_ok (Context.func_of_get? ho hk))]
    simp only [ne_eq, hsize, not_false_eq_true, if_true]
    exact bind_of_error rfl
  | _ =>
    rw [Context.contract?_of_get? ho, Symbol.contract?, hk] at hc
    cases hc

/-- A function that does not admit the symbol leaves everything as it was. -/
theorem defineArg_of_not_admits (hasDefault : Bool) (h : ¬ctx.Admits func arg) :
    ∃ e, defineArg func arg hasDefault ctx = .error e ctx := by
  unfold defineArg
  cases hfunc : ctx.func func with
  | error e => exact ⟨e, bind_of_error (query_of_error hfunc)⟩
  | ok found =>
    obtain ⟨o, info⟩ := found
    obtain ⟨ho, hk⟩ := Context.func_eq_ok hfunc
    rw [bind_of_ok (query_of_ok hfunc)]
    by_cases hsize : o.members.size = info.signature.params.length
    · simp only [ne_eq, hsize, not_true_eq_false, if_false]
      have houtcome : (∃ e, define func arg ctx = .error e ctx) ∨ _ := define_outcome func arg
      rcases houtcome with ⟨e, hfails⟩ | ⟨-, -, -, -, -, hrun⟩
      · exact ⟨e, bind_of_error hfails⟩
      · -- A definition that succeeds is one in a function that admits the symbol.
        obtain ⟨s, hs, hnew, -⟩ := define_func_eq_ok ho hk hrun
        cases hnative : info.flavor.isNative with
        | false => exact absurd ⟨o, info, s, ho, hk, hnative, hsize, hs, hnew⟩ h
        | true =>
          have hn := Context.isNative_iff.mpr ⟨o, info, ho, hk, hnative⟩
          have hrefused : define func arg ctx = .error (.defineNotAllowed s.place o.name) ctx :=
            bind_of_error (query_of_error (Context.ownerFor_of_native hn ho hs))
          rw [hrun] at hrefused
          cases hrefused
    · simp only [ne_eq, hsize, not_false_eq_true, if_true]
      exact ⟨_, bind_of_error rfl⟩

/-- A function that admits the symbol takes it in, and then looks at it. -/
theorem defineArg_of_admits {o s : Symbol} {info : FuncInfo} (hasDefault : Bool)
    (ho : ctx.arena.get? func = some o) (hk : o.kind = .func info)
    (hscript : info.flavor.isNative = false)
    (hsize : o.members.size = info.signature.params.length) (hs : ctx.arena.get? arg = some s)
    (hnew : s.name ∉ o.members.keys) :
    defineArg func arg hasDefault ctx
      = pushParam func arg hasDefault ((Edit.enter func arg).write ctx) := by
  unfold defineArg
  rw [bind_of_ok (query_of_ok (Context.func_of_get? ho hk))]
  simp only [ne_eq, hsize, not_true_eq_false, if_false]
  exact bind_of_ok (define_of_free ho hk hscript hs hnew)

/-- The three ends of a call for a parameter. -/
theorem defineArg_cases (htyped : ctx.Typed) (func arg : SymbolId) (hasDefault : Bool) :
    (¬ctx.Admits func arg ∧ ∃ e, defineArg func arg hasDefault ctx = .error e ctx) ∨
    (ctx.Admits func arg ∧ ctx.IsParam arg ∧
      ∃ type, defineArg func arg hasDefault ctx = .ok ()
        ((Edit.param func type hasDefault).write ((Edit.enter func arg).write ctx))) ∨
    (ctx.Admits func arg ∧ ¬ctx.IsParam arg ∧
      ∃ s, ctx.arena.get? arg = some s ∧ defineArg func arg hasDefault ctx
        = .error (.internal (.notAnArgument s.name)) ((Edit.enter func arg).write ctx)) := by
  by_cases hadmits : ctx.Admits func arg
  · right
    obtain ⟨o, info, s, ho, hk, hscript, hsize, hs, hnew⟩ := hadmits
    have hrun := defineArg_of_admits hasDefault ho hk hscript hsize hs hnew
    -- The entry changes neither the kind nor the type of the symbol.
    obtain ⟨t, ht, heq, -⟩ := Context.enter_only hs ho hnew hs
    obtain ⟨f, hf, -⟩ := Context.get?_enter_scope hs ho hnew
    have hkind : t.kind = s.kind := by rw [heq]
    have htype : t.type? = s.type? := by rw [heq]
    have hname : t.name = s.name := by rw [heq]
    rcases t.paramType_cases with ⟨byRef, type, hparam, -, hok⟩ | ⟨hnone, herror⟩
    · refine Or.inl ⟨⟨o, info, s, ho, hk, hscript, hsize, hs, hnew⟩,
        ⟨s, byRef, hs, hkind.symm.trans hparam⟩, type.withRef byRef, ?_⟩
      exact hrun.trans (pushParam_of_ok ht hok hf hasDefault)
    · refine Or.inr ⟨⟨o, info, s, ho, hk, hscript, hsize, hs, hnew⟩, ?_, s, hs, ?_⟩
      · rintro ⟨s', byRef, hs', hparam⟩
        rw [hs] at hs'
        cases hs'
        obtain ⟨type, hsome⟩ := Option.isSome_iff_exists.mp (htyped hs (by rw [hparam]; rfl))
        exact hnone byRef type (hkind.trans hparam) (htype.trans hsome)
      · rw [hrun, pushParam_of_error ht herror hasDefault, hname]
  · exact Or.inl ⟨hadmits, defineArg_of_not_admits hasDefault hadmits⟩

end SemaM

/-- In every reached context, and for every function and symbol: the call for a parameter succeeds
exactly if the function admits the symbol and the symbol is a parameter. A call that fails leaves
the context as it was exactly if the function does not admit the symbol, so a parameter that is
refused leaves no trace. A symbol that is admitted and no parameter is refused after it has become a
member: the function owns it, has the contract that it had, and takes no parameter in whatever comes
later. -/
theorem parameter_definition_exact {ctx : Context} (h : Reached (fun _ _ => True) ctx)
    (func arg : SymbolId) (hasDefault : Bool) :
    ((∃ ctx', SemaM.defineArg func arg hasDefault ctx = .ok () ctx') ↔
      ctx.Admits func arg ∧ ctx.IsParam arg) ∧
    (∀ e ctx', SemaM.defineArg func arg hasDefault ctx = .error e ctx' →
      (ctx' = ctx ↔ ¬ctx.Admits func arg)) ∧
    (ctx.Admits func arg → ¬ctx.IsParam arg → ∃ o s ctx', ctx.arena.get? func = some o ∧
      ctx.arena.get? arg = some s ∧
      SemaM.defineArg func arg hasDefault ctx
        = .error (.internal (.notAnArgument s.name)) ctx' ∧
      ctx.Defines ctx' func func arg s.name ∧ ctx'.contract? func = ctx.contract? func ∧
      ∀ ops other hasDefault, SemaM.defineArg func other hasDefault (Op.runs ctx' ops)
        = .error (.internal (.argsAfterLocals o.name)) (Op.runs ctx' ops)) := by
  -- Refused, accepted, or attached and then refused: each settles all three statements.
  rcases SemaM.defineArg_cases h.typed func arg hasDefault with
    ⟨hrefuses, e, hrun⟩ | ⟨hadmits, hparam, type, hrun⟩ | ⟨hadmits, hstray, s, hs, hrun⟩
  · rw [hrun]
    refine ⟨⟨?_, fun hboth => absurd hboth.1 hrefuses⟩, ?_, fun hadmits => absurd hadmits hrefuses⟩
    · rintro ⟨ctx', heq⟩
      cases heq
    · rintro e' ctx' heq
      cases heq
      exact ⟨fun _ => hrefuses, fun _ => rfl⟩
  · rw [hrun]
    refine ⟨⟨fun _ => ⟨hadmits, hparam⟩, fun _ => ⟨_, rfl⟩⟩, ?_, fun _ hno => absurd hparam hno⟩
    rintro e' ctx' heq
    cases heq
  · have hadmits' := hadmits
    obtain ⟨o, info, s', ho, hk, -, hsize, hs', hnew⟩ := hadmits'
    rw [hs] at hs'
    cases hs'
    rw [hrun]
    refine ⟨⟨?_, fun hboth => absurd hboth.2 hstray⟩, ?_, fun _ _ => ?_⟩
    · rintro ⟨ctx', heq⟩
      cases heq
    · rintro e' ctx' heq
      cases heq
      refine ⟨fun hsame => ?_, fun hrefuses => absurd hadmits hrefuses⟩
      exact absurd (congrArg (·.members? func) hsame) (Context.gains_enter hs ho hnew).ne
    · have hclogged := Context.clogged_enter ho hk hsize hs hnew hstray
      have hcontract : ((Edit.enter func arg).write ctx).contract? func = ctx.contract? func :=
        Edit.contract?_write ctx (.enter func arg) func
      have hframe : ctx.frame? func = none := by
        rw [Context.frame?_of_get? ho, hk]
        rfl
      refine ⟨o, s, _, ho, hs, rfl, Context.defines_enter hs ho hnew hframe, hcontract, ?_⟩
      intro ops other hasDefault
      obtain ⟨o', ho', hrefuses⟩ :=
        SemaM.defineArg_of_clogged (Op.runs_clogged hclogged ops) other hasDefault
      have hgrows := (Context.grows_enter hs ho hnew).trans (Op.runs_grows _ ops)
      obtain ⟨p, hp, hop⟩ := hgrows.symbols func o ho
      rw [hp] at ho'
      cases ho'
      rw [hrefuses, hop.name]

/-- A script function, a variable and a parameter. -/
def strayRun : List Op :=
  let int : TypeRef := { name := "int", slot := ⟨0⟩ }
  [.addScriptFunc "f" { name := "void", slot := ⟨2⟩ } none, .addVariable "v" int none,
    .addParam "x" int false none]

/-- The variable is offered to the function as a parameter. -/
def strayCall : Op := .defineArg ⟨85⟩ ⟨86⟩ false

/-- What `strayRun` and the call after it leave, by running them. -/
theorem strayRun_facts :
    let ctx := Op.runs .initial strayRun
    Op.AllAllowed (fun _ _ => True) .initial strayRun ∧
    SemaM.failure? strayCall.exec ctx = some (.internal (.notAnArgument "v")) ∧
    ctx.members? ⟨85⟩ = some [] ∧ ctx.owner? ⟨86⟩ = none ∧
    (strayCall.next ctx).members? ⟨85⟩ = some [("v", ⟨86⟩)] ∧
    (strayCall.next ctx).owner? ⟨86⟩ = some ⟨85⟩ ∧
    SemaM.failure? (SemaM.defineArg ⟨85⟩ ⟨87⟩ false) ctx = none ∧
    SemaM.failure? (SemaM.defineArg ⟨85⟩ ⟨87⟩ false) (strayCall.next ctx)
      = some (.internal (.argsAfterLocals "f")) := by
  decide +kernel

/-- The function takes the parameter. It also admits the variable, and after that takes no parameter
any more, whatever other calls come before. -/
theorem parameter_definition_exact_strayRun :
    let ctx := Op.runs .initial strayRun
    Reached (fun _ _ => True) ctx ∧ (ctx.Admits ⟨85⟩ ⟨87⟩ ∧ ctx.IsParam ⟨87⟩) ∧
    (ctx.Admits ⟨85⟩ ⟨86⟩ ∧ ¬ctx.IsParam ⟨86⟩) ∧
    ∃ ctx', SemaM.defineArg ⟨85⟩ ⟨86⟩ false ctx
        = .error (.internal (.notAnArgument "v")) ctx' ∧ ctx' ≠ ctx ∧
      ∀ ops hasDefault, SemaM.failure? (SemaM.defineArg ⟨85⟩ ⟨87⟩ hasDefault) (Op.runs ctx' ops)
        ≠ none := by
  intro ctx
  obtain ⟨hallowed, hfails, hbefore, -, hafter, -, htakes, -⟩ := strayRun_facts
  have hreached : Reached (fun _ _ => True) ctx := Reached.initial.runs hallowed
  obtain ⟨htaken, -, -⟩ := parameter_definition_exact hreached ⟨85⟩ ⟨87⟩ false
  obtain ⟨hok, hunchanged, hstrays⟩ := parameter_definition_exact hreached ⟨85⟩ ⟨86⟩ false
  obtain ⟨ctx', hrun⟩ := SemaM.failure?_eq_some_iff.mp hfails
  have hnext : strayCall.next ctx = ctx' := by rw [Op.next, SemaM.after, hrun]
  -- The members of the function tell the two contexts apart.
  have hne : ctx' ≠ ctx := by
    rintro rfl
    rw [hnext, hbefore] at hafter
    cases hafter
  have hrun : SemaM.defineArg ⟨85⟩ ⟨86⟩ false ctx
      = .error (.internal (.notAnArgument "v")) ctx' := hrun
  have hadmits : ctx.Admits ⟨85⟩ ⟨86⟩ := by
    by_contra hno
    exact hne ((hunchanged _ _ hrun).mpr hno)
  have hstray : ¬ctx.IsParam ⟨86⟩ := by
    intro hparam
    obtain ⟨ctx₁, hrun₁⟩ := hok.mpr ⟨hadmits, hparam⟩
    rw [hrun] at hrun₁
    cases hrun₁
  refine ⟨hreached, htaken.mp (SemaM.failure?_eq_none_iff.mp htakes), ⟨hadmits, hstray⟩, ctx', hrun,
    hne, ?_⟩
  intro ops hasDefault
  obtain ⟨o, s, ctx₁, -, -, hrun₁, -, -, hrefuses⟩ := hstrays hadmits hstray
  obtain ⟨-, rfl⟩ := EStateM.Result.error.inj (hrun₁.symm.trans hrun)
  rw [SemaM.failure?, hrefuses ops ⟨87⟩ hasDefault]
  exact Option.some_ne_none _

/-- A variable that is refused as a parameter is a member of the function afterwards, and the
function then refuses a parameter that it would have taken. -/
theorem refused_parameter_stays :
    let ctx := Op.runs .initial strayRun
    SemaM.failure? strayCall.exec ctx = some (.internal (.notAnArgument "v")) ∧
    ctx.members? ⟨85⟩ = some [] ∧ ctx.owner? ⟨86⟩ = none ∧
    (strayCall.next ctx).members? ⟨85⟩ = some [("v", ⟨86⟩)] ∧
    (strayCall.next ctx).owner? ⟨86⟩ = some ⟨85⟩ ∧
    SemaM.failure? (SemaM.defineArg ⟨85⟩ ⟨87⟩ false) ctx = none ∧
    SemaM.failure? (SemaM.defineArg ⟨85⟩ ⟨87⟩ false) (strayCall.next ctx)
      = some (.internal (.argsAfterLocals "f")) :=
  strayRun_facts.2

end Sema

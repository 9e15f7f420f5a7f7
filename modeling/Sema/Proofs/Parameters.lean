import Sema.Proofs.Run

/-!
# `Sema.Proofs.Parameters`: the two lists of parameters

A function has its parameters twice, as the types of its signature and as its first members. Locals,
the variables of blocks, captured variables and stray items become members as well, and an argument
that is refused may have become one. `Context.Mirrored` says that nothing of this comes between the
parameters: at every position that the signature has, the members have the symbol of that parameter.

A `Contract` is what callers see of a function: its signature, the number of its defaults and
whether the host provides it.
`Edit.contract?_write` says what an elementary change does to it. Only `Edit.param` adds to a
contract, one parameter and at most one default, so a function that starts with no more defaults
than parameters keeps to that. `parameters_mirrored` states both.
-/

set_option autoImplicit false

namespace Sema

/-- What the callers of a function are checked against. -/
structure Contract where
  signature : Signature
  defaults : Nat
  /-- The host provides the body. -/
  native : Bool
  deriving DecidableEq

/-- The contract with one more parameter. -/
def Contract.withParam (c : Contract) (type : TypeRef) (hasDefault : Bool) : Contract :=
  { c with
    signature := c.signature.addParam type
    defaults := if hasDefault then c.defaults + 1 else c.defaults }

/-- The contract of a function. -/
def FuncInfo.contract (info : FuncInfo) : Contract where
  signature := info.signature
  defaults := info.defaults
  native := info.flavor.isNative

/-- The contract keeps the signature. -/
@[simp] theorem FuncInfo.contract_signature (info : FuncInfo) :
    info.contract.signature = info.signature := rfl

/-- The contract keeps the number of defaults. -/
@[simp] theorem FuncInfo.contract_defaults (info : FuncInfo) :
    info.contract.defaults = info.defaults := rfl

namespace Symbol

/-- The contract of a symbol, if it is a function. -/
def contract? (s : Symbol) : Option Contract := s.kind.func?.map FuncInfo.contract

variable (s : Symbol)

/-- A parameter that is pushed is pushed to the contract. -/
theorem contract?_withParam (type : TypeRef) (hasDefault : Bool) :
    (s.withParam type hasDefault).contract? = s.contract?.map (·.withParam type hasDefault) := by
  cases hk : s.kind <;>
    simp [withParam, contract?, hk, SymbolKind.func?, FuncInfo.contract, Contract.withParam]

/-- A capture is no part of the contract. -/
theorem contract?_withCapture (c : Capture) : (s.withCapture c).contract? = s.contract? := by
  unfold withCapture
  split
  · rename_i info hk
    split
    · rename_i l hl
      simp [contract?, hk, SymbolKind.func?, FuncInfo.contract, hl, FuncFlavor.isNative]
    · rfl
  · rfl

/-- The contract of a function is not touched when a class gets its creator. -/
theorem contract?_withCreator (make : Option Creator) :
    (s.withCreator make).contract? = s.contract? := by
  cases hk : s.kind <;> simp [withCreator, contract?, hk, SymbolKind.func?]

/-- The contract of a function is not touched when a block notes a variable. -/
theorem contract?_withBlockVar (var : SymbolId) : (s.withBlockVar var).contract? = s.contract? := by
  cases hk : s.kind <;> simp [withBlockVar, contract?, hk, SymbolKind.func?]

variable {s}

/-- Every function has a contract. -/
theorem contract?_of_func {info : FuncInfo} (hk : s.kind = .func info) :
    s.contract? = some info.contract := by
  rw [contract?, hk]
  rfl

/-- A new function has no parameters yet. -/
theorem Born.params_eq_nil {rules : Rules} {ctx : Context} (h : s.Born rules ctx) {c : Contract}
    (hc : s.contract? = some c) : c.signature.params = [] := by
  cases h with
  | blank hb =>
    cases hk : s.kind with
    | func info =>
      -- A blank function has an empty signature by definition.
      have hblank := hb.kind
      rw [hk] at hblank
      rw [contract?_of_func hk] at hc
      cases hc
      exact hblank.2.1
    | _ => simp [contract?, hk, SymbolKind.func?] at hc
  | lambda =>
    cases hc
    rfl
  | copy => cases hc
  | heir => cases hc

end Symbol

namespace Context

variable {ctx : Context}

/-- The contract of the function under an id. -/
def contract? (ctx : Context) (func : SymbolId) : Option Contract :=
  (ctx.arena.get? func).bind Symbol.contract?

/-- The contract under an id is that of the symbol there. -/
theorem contract?_of_get? {func : SymbolId} {s : Symbol} (hs : ctx.arena.get? func = some s) :
    ctx.contract? func = s.contract? := by
  rw [contract?, hs]
  rfl

/-- An update that keeps the contract of every symbol keeps all contracts. -/
theorem contract?_update {id : SymbolId} {f : Symbol → Symbol}
    (h : ∀ s : Symbol, (f s).contract? = s.contract?) :
    (ctx.update id f).contract? = ctx.contract? := by
  funext func
  rw [contract?, contract?, get?_update]
  split
  · cases ctx.arena.get? func with
    | none => rfl
    | some s => exact h s
  · rfl

/-- A new member is no part of the contract of its scope. -/
theorem contract?_withMember (scope sym : SymbolId) :
    (ctx.withMember scope sym).contract? = ctx.contract? := by
  unfold withMember
  split
  · split
    · refine (contract?_update ?_).trans (contract?_update ?_)
      · intro s
        rfl
      · intro s
        rfl
    · rfl
  · rfl

end Context

namespace Edit

variable {rules : Rules} {ctx : Context} {e : Edit}

/-- What an elementary change does to a contract: a new symbol brings its own, and only a new
parameter changes one that is there. -/
theorem contract?_write (ctx : Context) (e : Edit) (func : SymbolId) :
    (e.write ctx).contract? func = match e with
      | alloc s => if func = ctx.nextId then s.contract? else ctx.contract? func
      | param f type hasDefault =>
        if func = f then (ctx.contract? func).map (·.withParam type hasDefault)
        else ctx.contract? func
      | _ => ctx.contract? func := by
  -- Ten of the twelve edits leave all contracts alone, each by the lemma of what it writes.
  have hsame : ∀ {ctx' : Context}, ctx'.contract? = ctx.contract? →
      ctx'.contract? func = ctx.contract? func := fun h => by rw [h]
  cases e with
  | alloc s =>
    simp only [Context.contract?, Context.get?_alloc]
    split <;> rfl
  | param f type hasDefault =>
    simp only [write, Context.contract?, Context.get?_update]
    split
    · cases ctx.arena.get? func with
      | none => rfl
      | some s => exact s.contract?_withParam type hasDefault
    · rfl
  | enter scope sym => exact hsame (Context.contract?_withMember scope sym)
  | nest =>
    exact hsame ((Context.contract?_update fun s => s.contract?_withBlockVar _).trans
      (Context.contract?_update fun _ => rfl))
  | capture =>
    exact hsame ((Context.contract?_update fun s => s.contract?_withCapture _).trans
      (Context.contract?_withMember _ _))
  | creator => exact hsame (Context.contract?_update fun s => s.contract?_withCreator _)
  | hide => exact hsame (Context.contract?_update fun _ => rfl)
  | link scope =>
    refine hsame ?_
    simp only [write]
    split <;> rfl
  | newSlot => exact hsame rfl
  | fill => exact hsame rfl
  | keep => exact hsame rfl
  | storage => exact hsame rfl

/-- After an edit a function has the contract that it had, or is new and has no parameters, or it
got one more parameter. -/
theorem Fits.contract_cases (he : Fits rules ctx e) {func : SymbolId} {c : Contract}
    (hc : (e.write ctx).contract? func = some c) :
    ctx.contract? func = some c ∨ (ctx.arena.get? func = none ∧ c.signature.params = []) ∨
      ∃ c₀ type hasDefault, e = .param func type hasDefault ∧ ctx.contract? func = some c₀ ∧
        c = c₀.withParam type hasDefault := by
  have hwrite := contract?_write ctx e func
  cases e with
  | alloc s =>
    simp only at hwrite
    split at hwrite
    · rename_i hnew
      have hget : ((Edit.alloc s).write ctx).arena.get? func = some s := by
        rw [hnew]
        exact ctx.get?_alloc_nextId s
      have hnone : ctx.arena.get? func = none := by
        rw [hnew]
        exact ctx.get?_nextId
      -- The id is new, so the symbol under it was born with this edit and not grown.
      rcases he.grown_or_born hget with ⟨t, ht, -⟩ | hborn
      · rw [hnone] at ht
        cases ht
      · exact Or.inr (Or.inl ⟨hnone, hborn.params_eq_nil (hwrite.symm.trans hc)⟩)
    · exact Or.inl (hwrite.symm.trans hc)
  | param f type hasDefault =>
    simp only at hwrite
    split at hwrite
    · rename_i hf
      subst hf
      obtain ⟨c₀, hc₀, rfl⟩ := Option.map_eq_some_iff.mp (hwrite.symm.trans hc)
      exact Or.inr (Or.inr ⟨c₀, type, hasDefault, rfl, hc₀, rfl⟩)
    · exact Or.inl (hwrite.symm.trans hc)
  | _ => exact Or.inl (hwrite.symm.trans hc)

end Edit

/-! ### Parameters come first -/

namespace Context

variable {a b ctx : Context}

/-- The symbol `x` is the parameter at position `i` of the function, with this type. -/
def ParamAt (ctx : Context) (func : SymbolId) (i : Nat) (type : TypeRef) (x : SymbolId) : Prop :=
  ∃ s, ctx.At func i s.name x ∧ ctx.arena.get? x = some s ∧ s.paramType = .ok type

/-- A parameter keeps its position and its type for good. -/
theorem Grows.paramAt (h : a.Grows b) {func x : SymbolId} {i : Nat} {type : TypeRef}
    (hx : a.ParamAt func i type x) : b.ParamAt func i type x := by
  obtain ⟨s, hat, hs, htype⟩ := hx
  obtain ⟨t, ht, hst⟩ := h.symbols x s hs
  refine ⟨t, ?_, ht, ?_⟩
  · rw [hst.name]
    exact h.at hat
  · -- The kind of a parameter has nothing in it that grows.
    cases hk : s.kind with
    | param byRef =>
      have hk' := hst.kind.of_param hk
      cases htype? : s.type? with
      | none => simp [Symbol.paramType, hk, htype?] at htype
      | some t => simpa [Symbol.paramType, hk, hk', htype?, hst.type?] using htype
    | _ => simp [Symbol.paramType, hk] at htype

/-- What the signature of a function says about a position its members say as well. -/
def Mirrored (ctx : Context) : Prop :=
  ∀ ⦃func c⦄, ctx.contract? func = some c → ∀ ⦃i type⦄, c.signature.params[i]? = some type →
    ∃ x, ctx.ParamAt func i type x

/-- The bare context has no function in it. -/
theorem bare_mirrored : bare.Mirrored := by
  intro func c hc
  obtain ⟨s, hs, hc⟩ := Option.bind_eq_some_iff.mp hc
  rw [eq_of_get?_bare hs] at hc
  cases hc

end Context

/-- One edit keeps signatures and members in step. -/
theorem Edit.Fits.mirrored {rules : Rules} {ctx : Context} {e : Edit} (he : Fits rules ctx e)
    (h : ctx.Mirrored) : (e.write ctx).Mirrored := by
  have hgrows := he.grows
  intro func c hc i type htype
  rcases he.contract_cases hc with hold | ⟨-, hnil⟩ | ⟨c₀, new, hasDefault, rfl, hc₀, rfl⟩
  · obtain ⟨x, hx⟩ := h hold htype
    exact ⟨x, hgrows.paramAt hx⟩
  · rw [hnil] at htype
    cases htype
  · -- The position is an old one, or it is that of the new parameter.
    simp only [Contract.withParam, Signature.params_addParam, List.getElem?_append] at htype
    split at htype
    · obtain ⟨x, hx⟩ := h hc₀ htype
      exact ⟨x, hgrows.paramAt hx⟩
    · rename_i hi
      cases he.quiet rfl with
      | @param _ arg o a info _ _ ho hk ha ht hat =>
        rw [Context.contract?_of_get? ho, Symbol.contract?_of_func hk] at hc₀
        cases hc₀
        obtain ⟨hzero, rfl⟩ : i - info.signature.params.length = 0 ∧ new = type := by
          simpa [List.getElem?_singleton] using htype
        have hi : i = info.signature.params.length := by
          simp only [FuncInfo.contract_signature] at hi
          omega
        subst hi
        exact ⟨arg, hgrows.paramAt ⟨a, ⟨o, ho, hat⟩, ha, ht⟩⟩

/-- Signatures and members are in step in every state that is reached. -/
theorem Reached.mirrored {allowed : Context → Op → Prop} {ctx : Context} (h : Reached allowed ctx) :
    ctx.Mirrored :=
  h.edits_free.preserves (fun _ _ he => he.mirrored) Context.bare_mirrored

/-! ### Defaults -/

/-- The function has no more defaults than parameters. -/
def Context.Callable (ctx : Context) (func : SymbolId) : Prop :=
  ∃ c, ctx.contract? func = some c ∧ c.defaults ≤ c.signature.params.length

/-- A parameter adds at most one default. -/
theorem Edit.Fits.callable {rules : Rules} {ctx : Context} {e : Edit} (he : Fits rules ctx e)
    {func : SymbolId} (h : ctx.Callable func) : (e.write ctx).Callable func := by
  obtain ⟨c, hc, hle⟩ := h
  obtain ⟨s, hs, -⟩ := Option.bind_eq_some_iff.mp hc
  have hwrite := Edit.contract?_write ctx e func
  cases e with
  | alloc t =>
    simp only [if_neg (Context.ne_nextId hs)] at hwrite
    exact ⟨c, hwrite.trans hc, hle⟩
  | param f type hasDefault =>
    simp only at hwrite
    split at hwrite
    · -- A parameter adds one to the left at most and one to the right always.
      refine ⟨c.withParam type hasDefault, by rw [hwrite, hc]; rfl, ?_⟩
      simp only [Contract.withParam, Signature.params_addParam, List.length_append,
        List.length_singleton]
      split <;> omega
    · exact ⟨c, hwrite.trans hc, hle⟩
  | _ => exact ⟨c, hwrite.trans hc, hle⟩

/-- A function stays callable through any further calls. -/
theorem Op.runs_callable {ctx : Context} {func : SymbolId} (h : ctx.Callable func)
    (ops : List Op) : (Op.runs ctx ops).Callable func := by
  induction ops generalizing ctx with
  | nil => exact h
  | cons op rest ih =>
    have hedits := op.next_edits (op.keeps_free ctx)
    exact ih (hedits.preserves (I := (·.Callable func)) (fun _ _ he => he.callable) h)

namespace SemaM

variable {ctx ctx' : Context}

/-- Every argument of a native function adds one member and one parameter, and no default. -/
theorem enterParams_eq_ok {func : SymbolId} {args : List SymbolId} {u : Unit} {o : Symbol}
    {info : FuncInfo} (ho : ctx.arena.get? func = some o) (hk : o.kind = .func info)
    (h : enterParams func args ctx = .ok u ctx') :
    ∃ o' info', ctx'.arena.get? func = some o' ∧ o'.kind = .func info' ∧ o'.name = o.name ∧
      info'.flavor = info.flavor ∧ info'.defaults = info.defaults ∧
      o'.members.size = o.members.size + args.length ∧
      info'.signature.params.length = info.signature.params.length + args.length := by
  induction args generalizing ctx o info with
  | nil =>
    cases h
    exact ⟨o, info, ho, hk, rfl, rfl, rfl, rfl, rfl⟩
  | cons arg rest ih =>
    -- Each argument becomes a member first and a parameter of the signature next.
    obtain ⟨_, ctx₁, henter, hrest⟩ := bind_eq_ok h
    obtain ⟨_, ctx₂, hpush, hrest⟩ := bind_eq_ok hrest
    obtain ⟨s, p, hs, hp, hnew, rfl⟩ := enter_eq_ok henter
    rw [ho] at hp
    cases hp
    obtain ⟨o₁, ho₁, hk₁, hm₁⟩ := Context.get?_enter_scope hs ho hnew
    obtain ⟨o₁', ho₁', hgrows⟩ := (Context.grows_enter hs ho hnew).symbols func o ho
    rw [ho₁] at ho₁'
    cases ho₁'
    obtain ⟨type, rfl⟩ := pushParam_eq_ok hpush
    have ho₂ : ((Edit.param func type false).write ((Edit.enter func arg).write ctx)).arena.get?
        func = some (o₁.withParam type false) := by
      refine (Context.get?_update _ func func _).trans ?_
      rw [if_pos rfl, ho₁]
      rfl
    have hk₁ : o₁.kind = .func info := hk₁.trans hk
    have hk₂ : (o₁.withParam type false).kind
        = .func { info with signature := info.signature.addParam type } := by
      simp only [Symbol.withParam, hk₁]
      rfl
    obtain ⟨o', info', ho', hk', hname, hflavor, hdefaults, hsize, hlength⟩ := ih ho₂ hk₂ hrest
    refine ⟨o', info', ho', hk', ?_, hflavor, hdefaults, ?_, ?_⟩
    · rw [hname, ← hgrows.name]
      simp only [Symbol.withParam, hk₁]
    · have hm : (o₁.withParam type false).members.size = o.members.size + 1 := by
        simp [Symbol.withParam, hk₁, Assoc.size, hm₁]
      rw [hsize, hm, List.length_cons]
      omega
    · rw [hlength, Signature.params_addParam, List.length_append, List.length_cons,
        List.length_cons, List.length_nil]
      omega

/-- A native function has the parameters that it was given and no other members. -/
theorem addNativeFunc_eq_ok {name : String} {ret : TypeRef} {defaults : Nat} {body : HostFunc}
    {args : List SymbolId} {func : SymbolId}
    (h : addNativeFunc name ret defaults body args ctx = .ok func ctx') :
    ∃ o info, ctx'.arena.get? func = some o ∧ o.kind = .func info ∧ o.name = name ∧
      info.flavor = .native body ∧ info.defaults = defaults ∧ defaults ≤ args.length ∧
      o.members.size = args.length ∧ info.signature.params.length = args.length := by
  unfold addNativeFunc at h
  dsimp only at h
  split at h
  · cases h
  · rename_i hle
    obtain ⟨f, ctx₁, halloc, hrest⟩ := bind_eq_ok h
    rw [alloc_run] at halloc
    cases halloc
    obtain ⟨_, ctx₂, henter, hrest⟩ := bind_eq_ok hrest
    cases hrest
    obtain ⟨o, info, ho, hk, hname, hflavor, hdefaults, hsize, hlength⟩ :=
      -- The function starts with neither members nor parameters, so both counts are those of the
      -- arguments.
      enterParams_eq_ok (ctx.get?_alloc_nextId _) rfl henter
    refine ⟨o, info, ho, hk, hname, hflavor, hdefaults, by omega, ?_, ?_⟩
    · rw [hsize]
      exact Nat.zero_add _
    · rw [hlength]
      exact Nat.zero_add _

/-- A native function is callable as soon as it is made. -/
theorem addNativeFunc_callable {name : String} {ret : TypeRef} {defaults : Nat} {body : HostFunc}
    {args : List SymbolId} {func : SymbolId}
    (h : addNativeFunc name ret defaults body args ctx = .ok func ctx') : ctx'.Callable func := by
  obtain ⟨o, info, ho, hk, -, -, hdefaults, hle, -, hlength⟩ := addNativeFunc_eq_ok h
  refine ⟨info.contract, (Context.contract?_of_get? ho).trans (Symbol.contract?_of_func hk), ?_⟩
  simp only [FuncInfo.contract_signature, FuncInfo.contract_defaults]
  omega

end SemaM

/-- The call gave this function and led to this context. -/
def Context.GivesFunc (ctx : Context) (func : SymbolId) (ctx' : Context) : Prop :=
  (∃ name ret defaults body args,
    SemaM.addNativeFunc name ret defaults body args ctx = .ok func ctx') ∨
  (∃ name ret location, SemaM.addScriptFunc name ret location ctx = .ok func ctx') ∨
  ∃ name ret enclosing location, SemaM.addLambda name ret enclosing location ctx = .ok func ctx'

/-- A function is callable as soon as it is made, whichever call makes it. -/
theorem Context.GivesFunc.callable {ctx ctx' : Context} {func : SymbolId}
    (h : ctx.GivesFunc func ctx') : ctx'.Callable func := by
  rcases h with ⟨name, ret, defaults, body, args, h⟩ | ⟨name, ret, location, h⟩ |
    ⟨name, ret, enclosing, location, h⟩
  · exact SemaM.addNativeFunc_callable h
  · obtain ⟨rfl, rfl⟩ : ctx.nextId = func ∧ _ = ctx' := by
      simpa [SemaM.addScriptFunc, SemaM.alloc_run] using h
    exact ⟨_, Context.contract?_of_get? (ctx.get?_alloc_nextId _), Nat.le_refl _⟩
  · -- A lambda needs a function around it.
    cases hlast : enclosing.getLast? with
    | none => simp [SemaM.addLambda, hlast] at h; cases h
    | some innermost =>
      simp only [SemaM.addLambda, hlast] at h
      obtain ⟨_, _, hget, hrest⟩ := SemaM.bind_eq_ok h
      cases hget
      rw [SemaM.alloc_run] at hrest
      cases hrest
      exact ⟨_, Context.contract?_of_get? (ctx.get?_alloc_nextId _), Nat.le_refl _⟩

/-! ### What readers of a function find -/

/-- The type of a parameter is its declared type with its way of passing. -/
theorem Symbol.paramType_eq_ok {s : Symbol} {type : TypeRef} (h : s.paramType = .ok type) :
    ∃ declared, s.kind = .param type.byRef ∧ s.type? = some declared ∧
      declared.slot = type.slot ∧ declared.name = type.name := by
  cases hk : s.kind with
  | param byRef =>
    cases ht : s.type? with
    | none => simp [paramType, hk, ht] at h
    | some declared =>
      simp only [paramType, hk, ht, Except.ok.injEq] at h
      subst h
      exact ⟨declared, rfl, rfl, rfl, rfl⟩
  | _ => simp [paramType, hk] at h

namespace Context

variable {ctx : Context} {func : SymbolId} {o : Symbol} {info : FuncInfo}

/-- A member as a rendered signature shows it. -/
def paramText (ctx : Context) (x : SymbolId) : String :=
  match (ctx.arena.get? x).map Symbol.paramType with
  | some (.ok type) => type.paramText
  | _ => "?"

/-- `func` reads the function that is there. -/
theorem func_of_get? (ho : ctx.arena.get? func = some o) (hk : o.kind = .func info) :
    ctx.func func = .ok (o, info) := by
  simp only [Context.func, symbol_of_get? ho, bind, Except.bind, hk]
  rfl

/-- `signature` reads the signature that is there. -/
theorem signature_of_get? (ho : ctx.arena.get? func = some o) (hk : o.kind = .func info) :
    ctx.signature func = .ok info.signature := by
  simp only [signature, func_of_get? ho hk, bind, Except.bind]
  rfl

/-- The number of arguments is that of the signature. -/
theorem totalArgs_of_get? (ho : ctx.arena.get? func = some o) (hk : o.kind = .func info) :
    ctx.totalArgs func = .ok info.signature.params.length := by
  simp only [totalArgs, signature_of_get? ho hk, bind, Except.bind]
  rfl

/-- The number of defaults is read off the function. -/
theorem defaultArgs_of_get? (ho : ctx.arena.get? func = some o) (hk : o.kind = .func info) :
    ctx.defaultArgs func = .ok info.defaults := by
  simp only [defaultArgs, func_of_get? ho hk, bind, Except.bind]
  rfl

/-- The difference does not wrap if there are no more defaults than parameters. -/
theorem requiredArgs_of_le (ho : ctx.arena.get? func = some o) (hk : o.kind = .func info)
    (hle : info.defaults ≤ info.signature.params.length) :
    ctx.requiredArgs func
      = .ok (UInt64.ofNat (info.signature.params.length - info.defaults)) := by
  simp only [requiredArgs, func_of_get? ho hk, bind, Except.bind]
  rw [UInt64.ofNat_sub hle]
  rfl

/-- The parameters are the first members, as many as the signature has. -/
theorem params_of_get? (ho : ctx.arena.get? func = some o) (hk : o.kind = .func info) :
    ctx.params func = .ok (o.members.take info.signature.params.length) := by
  simp only [params, membersOf, symbol_of_get? ho, totalArgs_of_get? ho hk, bind, Except.bind]
  rfl

/-- A parameter is read off the members, within the length of the signature. -/
theorem param_of_get? (ho : ctx.arena.get? func = some o) (hk : o.kind = .func info) (i : Nat) :
    ctx.param func i =
      match if i < info.signature.params.length then o.members.get? i else none with
      | some x => .ok x
      | none => .error (.internal (.noArgument i func)) := by
  simp only [param, func_of_get? ho hk, bind, Except.bind]
  rfl

/-- The member behind a parameter of the signature. -/
theorem Mirrored.member (h : ctx.Mirrored) (ho : ctx.arena.get? func = some o)
    (hk : o.kind = .func info) {i : Nat} {type : TypeRef}
    (htype : info.signature.params[i]? = some type) :
    ∃ x s, o.members.entries[i]? = some (s.name, x) ∧ ctx.arena.get? x = some s ∧
      s.paramType = .ok type := by
  have hc : ctx.contract? func = some info.contract :=
    (contract?_of_get? ho).trans (Symbol.contract?_of_func hk)
  obtain ⟨x, s, ⟨o', ho', hi⟩, hs, ht⟩ := h hc htype
  rw [ho] at ho'
  cases ho'
  exact ⟨x, s, hi, hs, ht⟩

/-- A function has a member for every parameter. -/
theorem Mirrored.length_le (h : ctx.Mirrored) (ho : ctx.arena.get? func = some o)
    (hk : o.kind = .func info) : info.signature.params.length ≤ o.members.size := by
  cases hlength : info.signature.params.length with
  | zero => exact Nat.zero_le _
  | succ n =>
    -- The last parameter is a member, so there are at least as many members.
    have hlast : n < info.signature.params.length := by omega
    obtain ⟨x, s, hi, -⟩ := h.member ho hk (List.getElem?_eq_getElem hlast)
    exact (List.getElem?_eq_some_iff.mp hi).1

/-- The member at the position of a parameter is the answer of `param`. -/
theorem Mirrored.param_eq (h : ctx.Mirrored) (ho : ctx.arena.get? func = some o)
    (hk : o.kind = .func info) {i : Nat} {type : TypeRef}
    (htype : info.signature.params[i]? = some type) :
    ∃ x s, o.members.entries[i]? = some (s.name, x) ∧ ctx.arena.get? x = some s ∧
      s.paramType = .ok type ∧ ctx.param func i = .ok x := by
  obtain ⟨x, s, hi, hs, ht⟩ := h.member ho hk htype
  have hlt := (List.getElem?_eq_some_iff.mp htype).1
  exact ⟨x, s, hi, hs, ht, by simp [param_of_get? ho hk, hlt, Assoc.get?, hi]⟩

/-- Rendering the signature and rendering the members gives the same texts. -/
theorem Mirrored.texts_eq (h : ctx.Mirrored) (ho : ctx.arena.get? func = some o)
    (hk : o.kind = .func info) :
    info.signature.params.map TypeRef.paramText
      = (o.members.values.take info.signature.params.length).map ctx.paramText := by
  -- Both lists have one text for each parameter, and at each position the same.
  refine List.ext_getElem? fun i => ?_
  cases hi : info.signature.params[i]? with
  | none =>
    have hge := List.getElem?_eq_none_iff.mp hi
    rw [List.getElem?_map, List.getElem?_map, hi, List.getElem?_take_eq_none hge]
    rfl
  | some type =>
    obtain ⟨x, s, hat, hs, ht⟩ := h.member ho hk hi
    have hlt := (List.getElem?_eq_some_iff.mp hi).1
    rw [List.getElem?_map, List.getElem?_map, hi, List.getElem?_take_of_lt hlt]
    simp [Assoc.values, hat, paramText, hs, ht]

end Context

/-- In every reached state the members of a function begin with its parameters: there are as many as
the signature has types, in the same order, each declared with that type and that mark for passing
by reference. `param` and `params` find exactly these, and the rendered name of the signature shows
them.

If the function was given by a call that succeeded, at some earlier moment of the run, it has no
more defaults than parameters, so the number of arguments that each call must pass is their
difference. -/
theorem parameters_mirrored {allowed : Context → Op → Prop} {ctx : Context} {func : SymbolId}
    {o : Symbol} {info : FuncInfo} (h : Reached allowed ctx) (ho : ctx.arena.get? func = some o)
    (hk : o.kind = .func info) :
    ctx.totalArgs func = .ok info.signature.params.length ∧
    info.signature.params.length ≤ o.members.size ∧
    (∀ i type, info.signature.params[i]? = some type →
      ∃ x s declared, o.members.entries[i]? = some (s.name, x) ∧ ctx.arena.get? x = some s ∧
        s.kind = .param type.byRef ∧ s.type? = some declared ∧ declared.slot = type.slot ∧
        declared.name = type.name ∧ ctx.param func i = .ok x) ∧
    (∀ i, info.signature.params.length ≤ i →
      ctx.param func i = .error (.internal (.noArgument i func))) ∧
    (∃ args, ctx.params func = .ok args ∧
      args.entries = o.members.entries.take info.signature.params.length) ∧
    ctx.signature func = .ok info.signature ∧
    info.signature.name = info.signature.ret.name ++ "^(" ++
      commas ((o.members.values.take info.signature.params.length).map ctx.paramText) ++ ")" ∧
    (∀ (ctx₀ ctx₁ : Context) (ops : List Op), ctx₀.GivesFunc func ctx₁ → ctx = Op.runs ctx₁ ops →
      ctx.defaultArgs func = .ok info.defaults ∧ info.defaults ≤ info.signature.params.length ∧
      ctx.requiredArgs func
        = .ok (UInt64.ofNat (info.signature.params.length - info.defaults)) ∧
      ∀ required, ctx.requiredArgs func = .ok required →
        info.signature.params.length < UInt64.size →
        info.signature.params.length = required.toNat + info.defaults) := by
  have hmirrored := h.mirrored
  refine ⟨Context.totalArgs_of_get? ho hk, hmirrored.length_le ho hk, ?_, ?_,
    ⟨_, Context.params_of_get? ho hk, rfl⟩, Context.signature_of_get? ho hk, ?_, ?_⟩
  · intro i type htype
    obtain ⟨x, s, hat, hs, ht, hparam⟩ := hmirrored.param_eq ho hk htype
    obtain ⟨declared, hkind, htype?, hslot, hname⟩ := Symbol.paramType_eq_ok ht
    exact ⟨x, s, declared, hat, hs, hkind, htype?, hslot, hname, hparam⟩
  · intro i hi
    simp [Context.param_of_get? ho hk, Nat.not_lt.mpr hi]
  · rw [Signature.name_eq, Signature.text, hmirrored.texts_eq ho hk]
  · rintro ctx₀ ctx₁ ops hgives rfl
    -- The bound on the defaults is set up when the function is made and kept by the calls after it.
    obtain ⟨c, hc, hle⟩ := Op.runs_callable hgives.callable ops
    rw [Context.contract?_of_get? ho, Symbol.contract?_of_func hk] at hc
    cases hc
    have hle : info.defaults ≤ info.signature.params.length := hle
    have hrequired := Context.requiredArgs_of_le ho hk hle
    refine ⟨Context.defaultArgs_of_get? ho hk, hle, hrequired, ?_⟩
    intro required hreq hsize
    rw [hrequired] at hreq
    cases hreq
    -- No wrap-around: the difference is below the length, which fits.
    have hlt : info.signature.params.length - info.defaults < UInt64.size := by omega
    rw [UInt64.toNat_ofNat', Nat.mod_eq_of_lt hlt]
    omega

/-- A script function with two parameters, the second one passed by reference and with a default. A
local comes after them, then a third parameter that is refused, and a variable of a block. -/
def parametersRun : List Op :=
  let int : TypeRef := { name := "int", slot := ⟨0⟩ }
  let text : TypeRef := { name := "string", slot := ⟨1⟩ }
  [.addParam "a" int false none, .defineArg ⟨85⟩ ⟨86⟩ false, .addParam "b" text true none,
    .defineArg ⟨85⟩ ⟨87⟩ true, .addVariable "v" int none, .define ⟨85⟩ ⟨88⟩,
    .addParam "c" int false none, .defineArg ⟨85⟩ ⟨89⟩ false, .openBlock ⟨85⟩ none,
    .addVariable "w" int none, .define ⟨90⟩ ⟨91⟩]

/-- The function of the run, as it is made. -/
def parametersStart : Op := .addScriptFunc "f" { name := "void", slot := ⟨2⟩ } none

/-- What `parametersRun` leaves of the function, by running it. -/
theorem parametersRun_facts :
    Context.initial.nextId = ⟨85⟩ ∧
    (Op.runs .initial (parametersStart :: parametersRun)).contract? ⟨85⟩ = some
      { signature :=
          { ret := { name := "void", slot := ⟨2⟩ }
            params := [{ name := "int", slot := ⟨0⟩ },
              { name := "string", slot := ⟨1⟩, byRef := true }] }
        defaults := 1
        native := false } ∧
    ((Op.runs .initial (parametersStart :: parametersRun)).arena.get? ⟨85⟩).map
      (·.members.entries) = some [("a", ⟨86⟩), ("b", ⟨87⟩), ("v", ⟨88⟩), ("w", ⟨91⟩)] := by
  decide +kernel

/-- The first two of the four members are the parameters, and one argument must be passed. -/
theorem parameters_mirrored_parametersRun :
    ∃ o info, Reached (fun _ _ => True) (Op.runs .initial (parametersStart :: parametersRun)) ∧
      (Op.runs .initial (parametersStart :: parametersRun)).arena.get? ⟨85⟩ = some o ∧
      o.kind = .func info ∧ o.members.size = 4 ∧
      (∃ args, (Op.runs .initial (parametersStart :: parametersRun)).params ⟨85⟩ = .ok args ∧
        args.entries = [("a", ⟨86⟩), ("b", ⟨87⟩)]) ∧
      Context.initial.GivesFunc ⟨85⟩ (parametersStart.next .initial) ∧
      (Op.runs .initial (parametersStart :: parametersRun)).requiredArgs ⟨85⟩ = .ok 1 := by
  obtain ⟨hnext, hcontract, hmembers⟩ := parametersRun_facts
  have hreached : Reached (fun _ _ => True) (Op.runs .initial (parametersStart :: parametersRun)) :=
    Reached.initial.runs (by simp [Op.AllAllowed, parametersRun])
  obtain ⟨o, ho, hmembers⟩ := Option.map_eq_some_iff.mp hmembers
  have hgives : Context.initial.GivesFunc ⟨85⟩ (parametersStart.next .initial) := by
    refine Or.inr (Or.inl ⟨"f", { name := "void", slot := ⟨2⟩ }, none, ?_⟩)
    rw [SemaM.addScriptFunc, SemaM.alloc_run, hnext]
    rfl
  cases hk : o.kind with
  | func info =>
    rw [Context.contract?_of_get? ho, Symbol.contract?_of_func hk] at hcontract
    obtain ⟨-, -, -, -, ⟨args, hargs, hentries⟩, -, -, hdefaults⟩ :=
      parameters_mirrored hreached ho hk
    -- The run after the call that made the function.
    have hruns : Op.runs .initial (parametersStart :: parametersRun)
        = Op.runs (parametersStart.next .initial) parametersRun := by rw [Op.runs]
    obtain ⟨-, -, hrequired, -⟩ :=
      hdefaults .initial (parametersStart.next .initial) parametersRun hgives hruns
    have hcontract := Option.some.inj hcontract
    have hsignature := congrArg Contract.signature hcontract
    have hdefaults := congrArg Contract.defaults hcontract
    simp only [FuncInfo.contract_signature, FuncInfo.contract_defaults] at hsignature hdefaults
    refine ⟨o, info, hreached, ho, hk, by rw [Assoc.size, hmembers]; rfl, ⟨args, hargs, ?_⟩, hgives,
      ?_⟩
    · rw [hentries, hmembers, hsignature]
      rfl
    · rw [hrequired, hsignature, hdefaults]
      rfl
  | _ =>
    rw [Context.contract?_of_get? ho, Symbol.contract?, hk] at hcontract
    cases hcontract

end Sema

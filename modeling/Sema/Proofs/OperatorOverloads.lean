import Sema.Proofs.InheritedNames
import Sema.Proofs.Instance
import Sema.Proofs.References

/-!
# `Sema.Proofs.OperatorOverloads`: a binary operator of a class lasts

`overloadOperator` checks a function once, and `checkOverload` uses it at any later time without
checking it again. Between the two anything may be called. What the first one found is in four
places: the members of the class, the contract of the function, the members of the function, and the
slot of its result type. `Context.Overload` collects it. The first and the third only grow, the
second lasts because the function is native, and the slot lasts because `overloadOperator` has
looked up the result type and so has bound the slot.

A reference has a slot only if it was made, so the run before is only given references that were
made (`Op.RefsMade`). `overloads_stay_valid` is the main result.
-/

set_option autoImplicit false

namespace Sema

/-! ### References that were made -/

/-- The references that the call is given were made before. -/
def Op.RefsMade (ctx : Context) (op : Op) : Prop :=
  ∀ type ∈ op.refs, type.slot.index < ctx.slots.size

/-- Whether a call only uses references that were made is decidable. -/
instance (ctx : Context) (op : Op) : Decidable (op.RefsMade ctx) :=
  inferInstanceAs (Decidable (∀ type ∈ op.refs, type.slot.index < ctx.slots.size))

/-- The slots of the references in use are there. -/
def Rules.made : Rules where
  refs size slot _ := slot.index < size
  refs_mono hle hlt := Nat.lt_of_lt_of_le hlt hle
  refs_made _ := Nat.lt_succ_self _

/-- A call that only uses references that were made keeps to the rules for that. -/
theorem Op.RefsMade.keeps {ctx : Context} {op : Op} (h : op.RefsMade ctx) :
    op.Keeps .made ctx where
  nests _ _ := trivial
  types _ _ := trivial
  links _ _ := trivial
  items _ _ _ _ _ _ _ := trivial
  refs := h
  base := Nat.zero_le _

/-- In a run that is given such references only, every result type has a slot. -/
theorem Reached.ret_made {ctx : Context} {func : SymbolId} {o : Symbol} {info : FuncInfo}
    (h : Reached (fun ctx op => op.RefsMade ctx) ctx) (ho : ctx.arena.get? func = some o)
    (hk : o.kind = .func info) : info.signature.ret.slot.index < ctx.slots.size := by
  have hedits : Edits (Edit.Fits .made) .bare ctx :=
    h.edits (fun _ _ hop => hop.keeps) rfl fun _ _ => trivial
  have hrespects : ctx.Respects .made :=
    hedits.preserves (fun _ _ he => he.respects) Context.bare_respects
  exact hrespects ⟨func, o, _, ho, rfl, rfl, Or.inr ⟨info, hk, rfl⟩⟩

/-- A reference that was made is bound by looking it up. -/
theorem SemaM.slotType?_of_typeOf {a b : Context} {type : TypeRef} {t : Ty}
    (h : typeOf type a = .ok t b) (hmade : type.slot.index < a.slots.size) :
    b.slotType? type.slot = some t := by
  cases hslot : a.slotType? type.slot with
  | some t₀ =>
    rw [typeOf_of_bound hslot] at h
    cases h
    exact hslot
  | none =>
    -- The first reader of the reference binds its slot.
    rw [typeOf_of_free hslot] at h
    obtain ⟨t', a', ht, hrest⟩ := bind_eq_ok h
    obtain ⟨-, rfl⟩ := query_eq_ok ht
    cases hrest
    simp [Context.slotType?, hmade]

/-! ### What an overload consists of -/

namespace Context

variable {a b ctx : Context} {cls func arg : SymbolId} {t : Ty}

/-- The native function is a binary operator of the class: a member of it, with the parameter `arg`
and the result type `t`. -/
structure Overload (ctx : Context) (cls func arg : SymbolId) (t : Ty) : Prop where
  member : ∃ s i, ctx.arena.get? func = some s ∧ ctx.At cls i s.name func
  native : ctx.IsNative func
  contract : ∃ c type, ctx.contract? func = some c ∧ c.signature.params = [type] ∧
    ctx.ParamAt func 0 type arg ∧ ctx.slotType? c.signature.ret.slot = some t

/-- An overload stays one as long as the contract of its function stays. -/
theorem Overload.grows (h : a.Overload cls func arg t) (hab : a.Grows b)
    (hcontract : b.contract? func = a.contract? func) (hnative : b.IsNative func) :
    b.Overload cls func arg t where
  member := by
    obtain ⟨s, i, hs, hat⟩ := h.member
    obtain ⟨s', hs', hss⟩ := hab.symbols func s hs
    refine ⟨s', i, hs', ?_⟩
    rw [hss.name]
    exact hab.at hat
  native := hnative
  contract := by
    obtain ⟨c, type, hc, hparams, hparam, hslot⟩ := h.contract
    exact ⟨c, type, hcontract.trans hc, hparams, hab.paramAt hparam, hab.slots _ _ hslot⟩

/-- An overload stays one, whatever is called. -/
theorem Overload.runs (h : ctx.Overload cls func arg t) (ops : List Op) :
    (Op.runs ctx ops).Overload cls func arg t :=
  h.grows (Op.runs_grows ctx ops) (Op.runs_contract?_eq h.native ops)
    (Op.runs_isNative h.native ops)

/-- An overload is found under its name. -/
theorem Overload.lookupMember (h : ctx.Overload cls func arg t) {name : String}
    (hname : ctx.nameOf func = .ok name) : ctx.lookupMember cls name = .ok (some func) := by
  obtain ⟨s, i, hs, o, ho, hi⟩ := h.member
  obtain rfl : s.name = name := by
    rw [nameOf, symbol_of_get? hs] at hname
    exact Except.ok.inj hname
  exact lookupMember_of_find? ho ((Assoc.find?_eq_some_iff _ _ _).mpr (List.mem_of_getElem? hi))

/-- The function as its readers see it. -/
theorem Overload.readers (h : ctx.Overload cls func arg t) :
    ctx.totalArgs func = .ok 1 ∧ ctx.param func 0 = .ok arg ∧
      SemaM.returnType func ctx = .ok t ctx := by
  obtain ⟨c, type, hc, hparams, ⟨s, ⟨o, ho, hi⟩, -⟩, hslot⟩ := h.contract
  obtain ⟨o', info, ho', hk, -⟩ := isNative_iff.mp h.native
  rw [ho] at ho'
  cases ho'
  rw [contract?_of_get? ho, Symbol.contract?_of_func hk] at hc
  cases hc
  -- All three readers go by the one parameter of the signature.
  have hparams : info.signature.params = [type] := hparams
  refine ⟨?_, ?_, ?_⟩
  · rw [totalArgs_of_get? ho hk, hparams]
    rfl
  · simp [param_of_get? ho hk, hparams, Assoc.get?, hi]
  · unfold SemaM.returnType
    rw [SemaM.bind_of_ok (SemaM.query_of_ok (signature_of_get? ho hk))]
    exact SemaM.typeOf_of_bound hslot

/-- Resolving types leaves inheritance alone. -/
theorem Resolves.reachesWithin (h : a.Resolves b) (ancestor : SymbolId) (fuel : Nat)
    (cls : SymbolId) : b.reachesWithin ancestor fuel cls = a.reachesWithin ancestor fuel cls := by
  have hsuper : b.superClass? = a.superClass? := by
    funext cls
    rw [superClass?_eq, superClass?_eq, h.arena]
  induction fuel generalizing cls with
  | zero => rfl
  | succ fuel ih => simp only [Context.reachesWithin, hsuper, ih]

/-- Which values may be stored does not depend on what references are bound to. -/
theorem Resolves.assignable (h : a.Resolves b) (source target : Ty) :
    b.assignable source target = a.assignable source target := by
  have hname : b.typeName = a.typeName := by
    funext t
    cases t <;> simp only [Context.typeName, nameOf, h.symbol]
  simp only [Context.assignable, canAssign, sameName, isChildClass, isSubclass, searchBound, hname,
    h.arena, h.reachesWithin]

end Context

namespace SemaM

variable {ctx ctx' : Context} {cls func arg : SymbolId} {t argType : Ty}

/-- Looking up the type of the parameter binds a reference at most. -/
theorem resolves_of_typeOfSymbol (h : ctx.Overload cls func arg t)
    (harg : typeOfSymbol arg ctx = .ok argType ctx') : ctx.Resolves ctx' := by
  obtain ⟨c, type, -, -, ⟨s, -, hs, htype⟩, -⟩ := h.contract
  obtain ⟨declared, hk, hdeclared, -⟩ := Symbol.paramType_eq_ok htype
  unfold typeOfSymbol at harg
  rw [bind_of_ok (symbol_run hs), hk, hdeclared] at harg
  exact (typeOf_eq_ok harg).1

/-- The check of a right operand is a check against the type of the parameter. -/
theorem checkOverload_eq (h : ctx.Overload cls func arg t)
    (harg : typeOfSymbol arg ctx = .ok argType ctx') (right : TypedExpr) :
    checkOverload right func ctx =
      if ctx.assignable right.type argType then .ok t ctx'
      else .error (ctx'.misfit right.place argType right.type) ctx' := by
  -- The type of the parameter may be bound by this very check, so the rest runs in a later context,
  -- where the overload still is one and the same values may be stored.
  have hresolves := resolves_of_typeOfSymbol h harg
  have hnext : (Op.typeOfSymbol arg).next ctx = ctx' := (after_forget _).trans (after_ok harg)
  have hafter : ctx'.Overload cls func arg t := hnext ▸ h.runs [.typeOfSymbol arg]
  obtain ⟨-, hparam, -⟩ := h.readers
  obtain ⟨-, -, hret⟩ := hafter.readers
  unfold checkOverload
  rw [bind_of_ok (query_of_ok hparam), bind_of_ok harg, ← hresolves.assignable]
  split
  · rename_i hfits
    have hcheck : ctx'.checkAssignTo argType right = .ok () := if_pos hfits
    rw [bind_of_ok (query_of_ok hcheck)]
    exact hret
  · rename_i hmisfit
    have hcheck : ctx'.checkAssignTo argType right
        = .error (ctx'.misfit right.place argType right.type) := if_neg hmisfit
    exact bind_of_error (query_of_error hcheck)

/-- What `overloadOperator` has checked when it succeeds. -/
theorem overloadOperator_eq_ok (h : overloadOperator cls func ctx = .ok () ctx') :
    ctx.IsClass cls ∧ ctx.totalArgs func = .ok 1 ∧ ∃ t between,
      returnType func ctx = .ok t between ∧ t.is .void = false ∧
      define cls func between = .ok () ctx' := by
  unfold overloadOperator at h
  obtain ⟨info, _, hquery, hsymbol⟩ := bind_eq_ok h
  obtain ⟨hinfo, rfl⟩ := query_eq_ok hquery
  obtain ⟨s, _, hquery, hnative⟩ := bind_eq_ok hsymbol
  obtain ⟨-, rfl⟩ := query_eq_ok hquery
  -- Three checks in turn: the flavour, the number of arguments, the result.
  dsimp only at hnative
  split at hnative
  · cases hnative
  · obtain ⟨total, _, hquery, harity⟩ := bind_eq_ok hnative
    obtain ⟨htotal, rfl⟩ := query_eq_ok hquery
    split at harity
    · cases harity
    · rename_i hone
      obtain ⟨t, between, ht, hresult⟩ := bind_eq_ok harity
      split at hresult
      · cases hresult
      · rename_i hvoid
        rw [not_not.mp hone] at htotal
        exact ⟨Context.isClass_of_classInfo hinfo, htotal, t, between, ht,
          Bool.eq_false_iff.mpr hvoid, hresult⟩

/-- A class has what was defined in it, and the definition binds no reference. -/
theorem at_of_define_class {sym : SymbolId} (hcls : ctx.IsClass cls)
    (h : define cls sym ctx = .ok () ctx') :
    ctx'.slots = ctx.slots ∧ ∃ s i, ctx'.arena.get? sym = some s ∧ ctx'.At cls i s.name sym := by
  have hhome : ctx.home cls = cls := Context.home_of_none (Context.frame?_of_class hcls)
  rcases define_outcome cls sym with ⟨e, herror⟩ | ⟨s, p, hs, hp, hnew, hok⟩
  · rw [h] at herror
    cases herror
  · rw [h] at hok
    cases hok
    have hdefines := Context.defines_withDefinition hs hp hnew
    rw [hhome] at hp hdefines
    -- The symbol keeps its name, and the class has it under this name.
    obtain ⟨s', hs', hsame, -⟩ := hdefines.only hs
    obtain ⟨p', hp', -⟩ := hdefines.only hp
    obtain ⟨i, hi⟩ := p'.members.exists_position_of_find? (hdefines.find? ⟨p, hp⟩ hp')
    have hname : s'.name = s.name := by rw [hsame]
    rw [← hname] at hi
    rw [hhome]
    exact ⟨hdefines.slots, s', i, hs', p', hp', hi⟩

/-- Where `overloadOperator` succeeds there is an overload afterwards. -/
theorem overload_of_ok (h : Reached (fun ctx op => op.RefsMade ctx) ctx)
    (hnative : ctx.IsNative func) (hok : overloadOperator cls func ctx = .ok () ctx') :
    ∃ arg t, t.is .void = false ∧ ctx'.Overload cls func arg t := by
  have hnext : (Op.overloadOperator cls func).next ctx = ctx' := after_ok hok
  have hgrows : ctx.Grows ctx' := hnext ▸ Op.grows _ ctx
  have hcontract : ctx'.contract? func = ctx.contract? func :=
    hnext ▸ Op.runs_contract?_eq hnative [.overloadOperator cls func]
  have hnative' : ctx'.IsNative func :=
    hnext ▸ Op.runs_isNative hnative [.overloadOperator cls func]
  obtain ⟨o, info, ho, hk, -⟩ := Context.isNative_iff.mp hnative
  have hc : ctx.contract? func = some info.contract :=
    (Context.contract?_of_get? ho).trans (Symbol.contract?_of_func hk)
  obtain ⟨hcls, htotal, t, between, hret, hvoid, hdefine⟩ := overloadOperator_eq_ok hok
  -- The one parameter is a member of the function already before the call.
  rw [Context.totalArgs_of_get? ho hk, Except.ok.injEq] at htotal
  obtain ⟨type, hparams⟩ := List.length_eq_one_iff.mp htotal
  have hfirst : info.contract.signature.params[0]? = some type := by simp [hparams]
  obtain ⟨arg, hparam⟩ := h.mirrored hc hfirst
  -- The result type is looked up, which binds its slot, and the definition leaves it bound.
  rw [returnType, bind_of_ok (query_of_ok (Context.signature_of_get? ho hk))] at hret
  have hslot := slotType?_of_typeOf hret (h.ret_made ho hk)
  have hclass : between.IsClass cls := by
    rw [Context.IsClass, (typeOf_eq_ok hret).1.arena]
    exact hcls
  obtain ⟨hslots, hmember⟩ := at_of_define_class hclass hdefine
  refine ⟨arg, t, hvoid, hmember, hnative', _, type, hcontract.trans hc, hparams,
    hgrows.paramAt hparam, ?_⟩
  rw [Context.slotType?, hslots]
  exact hslot

end SemaM

/-- Operator overloads stay valid. Take any run that was only given references that were made, and a
native function that `overloadOperator` has accepted for a class. There is a type other than void
such that at any later time, whatever was called since:

* the class has the function under its name, and the function has one parameter, which is the same
  all the time;
* if the type of the parameter can be looked up, a right operand is accepted exactly if its type may
  be stored as that type, and the result has the type that was found in the beginning. -/
theorem overloads_stay_valid {ctx₀ ctx₁ : Context} {cls func : SymbolId}
    (h : Reached (fun ctx op => op.RefsMade ctx) ctx₀) (hnative : ctx₀.IsNative func)
    (hok : SemaM.overloadOperator cls func ctx₀ = .ok () ctx₁) :
    ∃ name arg t, t.is .void = false ∧ ∀ ops : List Op,
      let ctx := Op.runs ctx₁ ops
      ctx.nameOf func = .ok name ∧ ctx.lookupMember cls name = .ok (some func) ∧
      ctx.totalArgs func = .ok 1 ∧ ctx.param func 0 = .ok arg ∧
      ∀ argType ctx', SemaM.typeOfSymbol arg ctx = .ok argType ctx' → ∀ right : TypedExpr,
        (ctx.assignable right.type argType = true →
          SemaM.checkOverload right func ctx = .ok t ctx') ∧
        (ctx.assignable right.type argType = false →
          ∃ expected found, SemaM.checkOverload right func ctx
            = .error (.incompatibleTypes right.place (.types expected found)) ctx') := by
  obtain ⟨arg, t, hvoid, hoverload⟩ := SemaM.overload_of_ok h hnative hok
  obtain ⟨s, i, hs, -⟩ := hoverload.member
  refine ⟨s.name, arg, t, hvoid, fun ops => ?_⟩
  intro ctx
  -- Validity is kept along the run; what follows is read off the last state.
  have hlater : ctx.Overload cls func arg t := hoverload.runs ops
  obtain ⟨s', hs', hss⟩ := (Op.runs_grows ctx₁ ops).symbols func s hs
  have hname : ctx.nameOf func = .ok s.name := by
    rw [Context.nameOf, Context.symbol_of_get? hs', ← hss.name]
    rfl
  obtain ⟨htotal, hparam, -⟩ := hlater.readers
  refine ⟨hname, hlater.lookupMember hname, htotal, hparam, ?_⟩
  intro argType ctx' harg right
  have hcheck := SemaM.checkOverload_eq hlater harg right
  constructor
  · intro hfits
    rw [hcheck, if_pos hfits]
  · intro hmisfit
    refine ⟨_, _, hcheck.trans (if_neg ?_)⟩
    rw [hmisfit]
    exact Bool.false_ne_true

/-- A native class, and a function with a parameter and a result of the class. Their references are
made before the class has a name, and nobody looks them up. -/
def operatorRun : List Op :=
  [.addNativeClass "Vec" none none, .typeRef (.name "Vec"), .typeRef (.name "Vec"),
    .addParam "other" { name := "Vec", slot := ⟨30⟩ } false none,
    .addNativeFunc "+" { name := "Vec", slot := ⟨31⟩ } 0 (fun _ => pure .done) [⟨86⟩],
    .define Context.globals ⟨85⟩]

/-- The function gets another member through a block, the class is asked to take a second function
of the name, and all of them are marked as out of scope. -/
def disturbingRun : List Op :=
  [.openBlock ⟨87⟩ none, .addVariable "v" { name := "int", slot := ⟨0⟩ } none, .define ⟨88⟩ ⟨89⟩,
    .addScriptFunc "+" { name := "void", slot := ⟨2⟩ } none, .define ⟨85⟩ ⟨90⟩,
    .markOutOfScope ⟨85⟩, .markOutOfScope ⟨86⟩, .markOutOfScope ⟨87⟩]

/-- What the two runs leave, by running them. -/
theorem operatorRun_facts :
    let ctx₀ := Op.runs .initial operatorRun
    let last := Op.runs (SemaM.after (SemaM.overloadOperator ⟨85⟩ ⟨87⟩) ctx₀) disturbingRun
    Op.AllAllowed (fun ctx op => op.RefsMade ctx) .initial operatorRun ∧
    (ctx₀.contract? ⟨87⟩).map (·.native) = some true ∧
    (SemaM.overloadOperator ⟨85⟩ ⟨87⟩).run' ctx₀ = some () ∧
    last.members? ⟨87⟩ = some [("other", ⟨86⟩), ("v", ⟨89⟩)] ∧
    last.param ⟨87⟩ 0 = .ok ⟨86⟩ ∧ last.nameOf ⟨87⟩ = .ok "+" ∧
    (SemaM.typeOfSymbol ⟨86⟩).run' last = some (.classOf ⟨85⟩) ∧
    last.assignable (.classOf ⟨85⟩) (.classOf ⟨85⟩) = true ∧
    last.assignable (.builtIn .int) (.classOf ⟨85⟩) = false := by
  decide +kernel

/-- The operator is found and takes an operand of the class, but no number. -/
theorem overloads_stay_valid_disturbingRun :
    let ctx₀ := Op.runs .initial operatorRun
    let ctx₁ := SemaM.after (SemaM.overloadOperator ⟨85⟩ ⟨87⟩) ctx₀
    let last := Op.runs ctx₁ disturbingRun
    Reached (fun ctx op => op.RefsMade ctx) ctx₀ ∧ ctx₀.IsNative ⟨87⟩ ∧
    SemaM.overloadOperator ⟨85⟩ ⟨87⟩ ctx₀ = .ok () ctx₁ ∧
    last.members? ⟨87⟩ = some [("other", ⟨86⟩), ("v", ⟨89⟩)] ∧
    last.lookupMember ⟨85⟩ "+" = .ok (some ⟨87⟩) ∧
    ∃ t ctx', t.is .void = false ∧
      SemaM.checkOverload { type := .classOf ⟨85⟩ } ⟨87⟩ last = .ok t ctx' ∧
      ∃ expected found, SemaM.checkOverload { type := .builtIn .int } ⟨87⟩ last
        = .error (.incompatibleTypes "expr(?)" (.types expected found)) ctx' := by
  intro ctx₀ ctx₁ last
  obtain ⟨hops, hcontract, hok, hmembers, hparam, hname, htype, hfits, hmisfit⟩ := operatorRun_facts
  obtain ⟨c, hc, hflag⟩ := Option.map_eq_some_iff.mp hcontract
  have hreached := Reached.initial.runs hops
  have hok : SemaM.overloadOperator ⟨85⟩ ⟨87⟩ ctx₀ = .ok () ctx₁ := SemaM.eq_ok_of_run' hok
  obtain ⟨name, arg, t, hvoid, hlater⟩ := overloads_stay_valid hreached ⟨c, hc, hflag⟩ hok
  obtain ⟨hname', hfound, -, hparam', hcheck⟩ := hlater disturbingRun
  -- The promised name and argument are those of the function at hand.
  obtain rfl : "+" = name := Except.ok.inj (hname.symm.trans hname')
  obtain rfl : (⟨86⟩ : SymbolId) = arg := Except.ok.inj (hparam.symm.trans hparam')
  have hchecks := hcheck _ _ (SemaM.eq_ok_of_run' htype)
  exact ⟨hreached, ⟨c, hc, hflag⟩, hok, hmembers, hfound, t, _, hvoid, (hchecks _).1 hfits,
    (hchecks _).2 hmisfit⟩

end Sema

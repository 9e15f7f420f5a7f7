import Mathlib.Data.List.Forall2
import Sema.Proofs.Operations

/-!
# `Sema.Proofs.Synthesis`: an array or map class can always be made

Making the class of an array or map type is a long sequence of small operations, most of which could
fail somewhere else. Here none does, in any context: `returns_addArrayClass` and
`returns_addMapClass` say so, with the names of the members in their order.

Two facts carry the proof through the sequence. A symbol keeps its name (`Context.Grows`), and
making more symbols leaves a class with the members it has (`Context.Spares`).
-/

set_option autoImplicit false

namespace Sema

namespace Symbol

/-- A parameter of the signature is not a member yet. -/
theorem members_withParam (s : Symbol) (type : TypeRef) (hasDefault : Bool) :
    (s.withParam type hasDefault).members = s.members := by
  unfold withParam
  split <;> rfl

/-- A function with one more parameter is a function. -/
theorem kind_withParam {s : Symbol} {info : FuncInfo} (hk : s.kind = .func info) (type : TypeRef)
    (hasDefault : Bool) : ∃ info', (s.withParam type hasDefault).kind = .func info' := by
  simp only [withParam, hk]
  exact ⟨_, rfl⟩

end Symbol

namespace Context

variable {a b c ctx : Context}

/-- The symbol under an id has a name. -/
def Named (ctx : Context) (id : SymbolId) (name : String) : Prop :=
  ∃ s, ctx.arena.get? id = some s ∧ s.name = name

/-- Names stay. -/
theorem Grows.named (h : a.Grows b) {id : SymbolId} {name : String} (hn : a.Named id name) :
    b.Named id name := by
  obtain ⟨s, hs, hname⟩ := hn
  obtain ⟨t, ht, hst⟩ := h.symbols id s hs
  exact ⟨t, ht, hst.name.trans hname⟩

/-- A parameter of this name. -/
def ParamNamed (ctx : Context) (id : SymbolId) (name : String) : Prop :=
  ∃ s byRef type, ctx.arena.get? id = some s ∧ s.name = name ∧ s.kind = .param byRef ∧
    s.type? = some type

/-- A parameter stays a parameter, with its name and its type. -/
theorem Grows.paramNamed (h : a.Grows b) {id : SymbolId} {name : String}
    (hp : a.ParamNamed id name) :
    b.ParamNamed id name := by
  obtain ⟨s, byRef, type, hs, hname, hk, htype⟩ := hp
  obtain ⟨t, ht, hst⟩ := h.symbols id s hs
  exact ⟨t, byRef, type, ht, hst.name.trans hname, hst.kind.of_param hk, hst.type?.trans htype⟩

/-- A class without super class that has members of these names in this order. -/
def ClassWith (ctx : Context) (cls : SymbolId) (names : List String) : Prop :=
  ∃ s info, ctx.arena.get? cls = some s ∧ s.kind = .classDecl info ∧ info.superClass = none ∧
    s.members.keys = names

/-- What is no class is not the class that is being built. -/
theorem ClassWith.ne {cls x : SymbolId} {names : List String} {s : Symbol}
    (h : ctx.ClassWith cls names)
    (hs : ctx.arena.get? x = some s) (hk : s.kind.class? = none) : cls ≠ x := by
  obtain ⟨t, info, ht, hclass, -⟩ := h
  rintro rfl
  rw [hs] at ht
  cases ht
  rw [hclass] at hk
  cases hk

/-- The context grows and every class keeps exactly its members. -/
structure Spares (a b : Context) : Prop where
  grows : a.Grows b
  classes : ∀ {cls names}, a.ClassWith cls names → b.ClassWith cls names

/-- Doing nothing spares all classes. -/
theorem Spares.refl (ctx : Context) : ctx.Spares ctx := ⟨.refl ctx, id⟩

/-- Sparing all classes twice is sparing them. -/
theorem Spares.trans (h : a.Spares b) (h' : b.Spares c) : a.Spares c :=
  ⟨h.grows.trans h'.grows, fun hc => h'.classes (h.classes hc)⟩

/-- A class that is being built, with the symbols made for it that are not yet its members. -/
structure Building (ctx : Context) (cls : SymbolId) (members : List String) (made : List SymbolId)
    (names : List String) : Prop where
  cls : ctx.ClassWith cls members
  made : List.Forall₂ ctx.Named made names

namespace Building

variable {cls id : SymbolId} {members names : List String} {made : List SymbolId} {name : String}

/-- What spares all classes does not disturb one that is being built. -/
theorem spares (h : a.Building cls members made names) (hspares : a.Spares b) :
    b.Building cls members made names :=
  ⟨hspares.classes h.cls, h.made.imp fun _ _ hn => hspares.grows.named hn⟩

/-- One more member is made. -/
theorem concat (h : ctx.Building cls members made names) (hid : ctx.Named id name) :
    ctx.Building cls members (made ++ [id]) (names ++ [name]) :=
  ⟨h.cls, List.rel_append h.made (.cons hid .nil)⟩

end Building

/-- A new symbol spares all classes. -/
theorem spares_alloc (ctx : Context) (s : Symbol) : ctx.Spares ((Edit.alloc s).write ctx) := by
  refine ⟨ctx.grows_alloc s, ?_⟩
  rintro cls names ⟨o, info, ho, hrest⟩
  exact ⟨o, info, get?_alloc_of_get? s ho, hrest⟩

/-- A new slot spares all classes. -/
theorem spares_newSlot (ctx : Context) (content : Option Ty) :
    ctx.Spares ((Edit.newSlot content).write ctx) :=
  ⟨ctx.grows_newSlot content, id⟩

/-- A parameter that is entered into a function touches no class. -/
theorem spares_enter_param {func arg : SymbolId} {name : String} {o : Symbol} {info : FuncInfo}
    (ho : ctx.arena.get? func = some o) (hk : o.kind = .func info) (harg : ctx.ParamNamed arg name)
    (hnew : name ∉ o.members.keys) : ctx.Spares ((Edit.enter func arg).write ctx) := by
  obtain ⟨s, byRef, type, hs, rfl, hkind, -⟩ := harg
  refine ⟨grows_enter hs ho hnew, fun {cls names} hc => ?_⟩
  have hfunc : cls ≠ func := hc.ne ho (by rw [hk]; rfl)
  have hsym : cls ≠ arg := hc.ne hs (by rw [hkind]; rfl)
  obtain ⟨t, cinfo, ht, hrest⟩ := hc
  exact ⟨t, cinfo, (get?_enter_of_ne hfunc hsym).trans ht, hrest⟩

/-- A parameter that is pushed to a function spares all classes. -/
theorem spares_param {func : SymbolId} {o : Symbol} {info : FuncInfo}
    (ho : ctx.arena.get? func = some o) (hk : o.kind = .func info) (type : TypeRef)
    (hasDefault : Bool) : ctx.Spares ((Edit.param func type hasDefault).write ctx) := by
  refine ⟨ctx.grows_update _ fun s => s.grows_withParam _ _, fun {cls names} hc => ?_⟩
  have hfunc : cls ≠ func := hc.ne ho (by rw [hk]; rfl)
  obtain ⟨t, cinfo, ht, hrest⟩ := hc
  refine ⟨t, cinfo, ?_, hrest⟩
  rw [Edit.write, get?_update, if_neg hfunc]
  exact ht

end Context

namespace SemaM

variable {α β : Type} {ctx : Context}

/-- The computation succeeds with a result and a context as described. -/
def Returns (m : SemaM α) (ctx : Context) (post : α → Context → Prop) : Prop :=
  ∃ a ctx', m ctx = .ok a ctx' ∧ post a ctx'

/-- A computation that returns can be continued by one that returns. -/
theorem Returns.bind {m : SemaM α} {f : α → SemaM β} {P : α → Context → Prop}
    {Q : β → Context → Prop} (hm : Returns m ctx P)
    (hf : ∀ a ctx', P a ctx' → Returns (f a) ctx' Q) : Returns (m >>= f) ctx Q := by
  obtain ⟨a, ctx₁, hrun, ha⟩ := hm
  obtain ⟨b, ctx₂, hrun', hb⟩ := hf a ctx₁ ha
  exact ⟨b, ctx₂, (bind_of_ok hrun).trans hrun', hb⟩

/-- Returning a value returns. -/
theorem returns_pure {P : α → Context → Prop} {a : α} (h : P a ctx) :
    Returns (pure a : SemaM α) ctx P :=
  ⟨a, ctx, rfl, h⟩

/-! ### The parts of a class -/

/-- A new symbol is made in every state. -/
theorem returns_alloc (s : Symbol) :
    Returns (alloc s) ctx fun id ctx' => ctx.Spares ctx' ∧ ctx'.arena.get? id = some s :=
  ⟨_, _, alloc_run s, ctx.spares_alloc s, ctx.get?_alloc_nextId s⟩

/-- The name of a primitive type can always be referred to. -/
theorem returns_builtInRef (b : BuiltIn) :
    Returns (typeRef (.name b.name)) ctx fun _ ctx' => ctx.Spares ctx' := by
  have hsimple : (b.name.isEmpty || isCompound b.name) = false := by cases b <;> decide
  refine ⟨{ name := b.name, slot := ⟨ctx.slots.size⟩ }, (Edit.newSlot none).write ctx, ?_,
    ctx.spares_newSlot _⟩
  simp only [typeRef, hsimple]
  rfl

/-- A parameter of a native function is made in every state. -/
theorem returns_nativeParam (name : String) (type : TypeRef) :
    Returns (nativeParam name type) ctx fun id ctx' => ctx.Spares ctx' ∧ ctx'.ParamNamed id name :=
  ⟨_, _, rfl, ctx.spares_alloc _, _, _, _, ctx.get?_alloc_nextId _, rfl, rfl, rfl⟩

/-- A native field is made in every state. -/
theorem returns_addNativeField (name : String) (type : TypeRef) (accessor : Accessor) :
    Returns (addNativeField name type accessor) ctx fun id ctx' =>
      ctx.Spares ctx' ∧ ctx'.Named id name :=
  ⟨_, _, rfl, ctx.spares_alloc _, _, ctx.get?_alloc_nextId _, rfl⟩

/-- A parameter can be pushed to any function. -/
theorem pushParam_of_param {func arg : SymbolId} {name : String} {o : Symbol}
    (harg : ctx.ParamNamed arg name) (ho : ctx.arena.get? func = some o) (hasDefault : Bool) :
    ∃ type, pushParam func arg hasDefault ctx
      = .ok () ((Edit.param func type hasDefault).write ctx) := by
  obtain ⟨s, byRef, type, hs, -, hk, htype⟩ := harg
  have hparam : (do (← ctx.symbol arg).paramType : Except CompileError TypeRef)
      = .ok (type.withRef byRef) := by
    simp only [Context.symbol_of_get? hs, bind, Except.bind, Symbol.paramType, hk, htype]
  refine ⟨type.withRef byRef, ?_⟩
  unfold pushParam
  rw [bind_of_ok (query_of_ok hparam)]
  exact modifySymbol_run _ ho

/-- Parameters of distinct names can be entered into a function. -/
theorem returns_enterParams {func : SymbolId} {args : List SymbolId} {names : List String}
    {o : Symbol} {info : FuncInfo} (ho : ctx.arena.get? func = some o) (hk : o.kind = .func info)
    (hargs : List.Forall₂ ctx.ParamNamed args names) (hnodup : (o.members.keys ++ names).Nodup) :
    Returns (enterParams func args) ctx fun _ ctx' => ctx.Spares ctx' := by
  induction args generalizing ctx names o info with
  | nil => exact returns_pure (.refl ctx)
  | cons arg args ih =>
    obtain ⟨name, names, harg, hrest, rfl⟩ := List.forall₂_cons_left_iff.mp hargs
    have hnew : name ∉ o.members.keys := by
      intro hmem
      exact List.disjoint_of_nodup_append hnodup hmem List.mem_cons_self
    -- The parameter becomes the last member of the function.
    have hspares := Context.spares_enter_param ho hk harg hnew
    obtain ⟨s, _, _, hs, rfl, -⟩ := id harg
    obtain ⟨o', ho', hk', hm'⟩ := Context.get?_enter_scope hs ho hnew
    have hkeys : o'.members.keys = o.members.keys ++ [s.name] := by simp [Assoc.keys, hm']
    rw [hk] at hk'
    -- Then its type joins the signature.
    obtain ⟨type, hpush⟩ := pushParam_of_param (hspares.grows.paramNamed harg) ho' false
    have hspares := hspares.trans (Context.spares_param ho' hk' type false)
    have ho'' :
        ((Edit.param func type false).write ((Edit.enter func arg).write ctx)).arena.get? func
        = some (o'.withParam type false) := by
      refine (Context.get?_update _ func func _).trans ?_
      rw [if_pos rfl, ho', Option.map_some]
    obtain ⟨info', hk''⟩ := Symbol.kind_withParam hk' type false
    have hnodup : ((o'.withParam type false).members.keys ++ names).Nodup := by
      rw [Symbol.members_withParam, hkeys]
      simpa using hnodup
    obtain ⟨_, ctx', hrun, hrest⟩ :=
      ih ho'' hk'' (hrest.imp fun _ _ h => hspares.grows.paramNamed h)
      hnodup
    refine ⟨(), ctx', ?_, hspares.trans hrest⟩
    rw [enterParams, bind_of_ok (enter_of_free hs ho hnew), bind_of_ok hpush]
    exact hrun

/-- A new native function with parameters of distinct names. -/
theorem returns_addNativeFunc {args : List SymbolId} {names : List String}
    (hargs : List.Forall₂ ctx.ParamNamed args names) (hnodup : names.Nodup) (name : String)
    (ret : TypeRef) (body : HostFunc) :
    Returns (addNativeFunc name ret 0 body args) ctx fun id ctx' =>
      ctx.Spares ctx' ∧ ctx'.Named id name := by
  unfold addNativeFunc
  rw [if_neg (by omega)]
  refine (returns_alloc _).bind fun func ctx₁ ⟨hspares, hfunc⟩ => ?_
  -- The parameters are what they were before the function was made.
  have hargs₁ : List.Forall₂ ctx₁.ParamNamed args names :=
    hargs.imp fun _ _ h => hspares.grows.paramNamed h
  refine (returns_enterParams hfunc rfl hargs₁ ?_).bind fun _ ctx₂ hspares₂ => ?_
  · exact hnodup
  · exact returns_pure ⟨hspares.trans hspares₂, hspares₂.grows.named ⟨_, hfunc, rfl⟩⟩

/-- A free name can be defined in a class without a super class. -/
theorem define_class_of_free {cls sym : SymbolId} {o s : Symbol} {info : ClassInfo}
    (ho : ctx.arena.get? cls = some o) (hk : o.kind = .classDecl info)
    (hsuper : info.superClass = none) (hs : ctx.arena.get? sym = some s)
    (hnew : s.name ∉ o.members.keys) :
    define cls sym ctx = .ok () ((Edit.enter cls sym).write ctx) := by
  -- Without a super class nothing but the class itself is asked.
  have howner : ctx.ownerFor cls sym = .ok cls := by
    simp only [Context.ownerFor, Context.symbol_of_get? ho, bind, Except.bind, hk, hsuper]
    rfl
  unfold define
  rw [bind_of_ok (query_of_ok howner), bind_of_ok (enter_of_free hs ho hnew)]
  obtain ⟨o', ho', hk', -⟩ := Context.get?_enter_scope hs ho hnew
  rw [bind_of_ok (symbol_run ho'), hk', hk]
  rfl

/-- A class takes a member of a new name. -/
theorem returns_define {cls sym : SymbolId} {names : List String} {name : String}
    (hcls : ctx.ClassWith cls names) (hsym : ctx.Named sym name) (hnew : name ∉ names) :
    Returns (define cls sym) ctx fun _ ctx' =>
      ctx.Grows ctx' ∧ ctx'.ClassWith cls (names ++ [name]) := by
  obtain ⟨o, info, ho, hk, hsuper, rfl⟩ := hcls
  obtain ⟨s, hs, rfl⟩ := hsym
  obtain ⟨o', ho', hk', hm'⟩ := Context.get?_enter_scope hs ho hnew
  refine ⟨_, _, define_class_of_free ho hk hsuper hs hnew, Context.grows_enter hs ho hnew, o', info,
    ho', hk'.trans hk, hsuper, ?_⟩
  simp [Assoc.keys, hm']

/-- A class takes several members of new and distinct names. -/
theorem returns_defineAll {cls : SymbolId} {syms : List SymbolId} {names new : List String}
    (hcls : ctx.ClassWith cls names) (hsyms : List.Forall₂ ctx.Named syms new)
    (hnodup : (names ++ new).Nodup) :
    Returns (defineAll cls syms) ctx fun _ ctx' =>
      ctx.Grows ctx' ∧ ctx'.ClassWith cls (names ++ new) := by
  induction syms generalizing ctx names new with
  | nil =>
    cases hsyms
    refine returns_pure ⟨.refl ctx, ?_⟩
    rwa [List.append_nil]
  | cons sym syms ih =>
    obtain ⟨name, new, hsym, hrest, rfl⟩ := List.forall₂_cons_left_iff.mp hsyms
    -- The next name differs from those that the class has by now.
    have hnew : name ∉ names := by
      intro hmem
      exact List.disjoint_of_nodup_append hnodup hmem List.mem_cons_self
    have hsplit : names ++ name :: new = (names ++ [name]) ++ new := by simp
    rw [hsplit] at hnodup ⊢
    refine (returns_define hcls hsym hnew).bind fun _ ctx₁ ⟨hgrows, hcls₁⟩ => ?_
    have hsyms₁ : List.Forall₂ ctx₁.Named syms new := hrest.imp fun _ _ h => hgrows.named h
    obtain ⟨_, ctx₂, hrun, hgrows₂, hcls₂⟩ := ih hcls₁ hsyms₁ hnodup
    exact ⟨_, ctx₂, hrun, hgrows.trans hgrows₂, hcls₂⟩

/-! ### Array and map classes -/

/-- The members of an array class. -/
theorem returns_addArrayMembers {cls : SymbolId} (hcls : ctx.ClassWith cls []) (item : TypeRef)
    (storage : ArrayStorage) :
    Returns (addArrayMembers cls item storage) ctx fun _ ctx' => ctx'.ClassWith cls
      ["Add", "At", "SetAt", "RemoveAt", "Clear", "Count", "$AddInplace"] := by
  have hb : ctx.Building cls [] [] [] := ⟨hcls, .nil⟩
  unfold addArrayMembers
  refine (returns_builtInRef .int).bind fun int _ h => ?_
  replace hb := hb.spares h
  refine (returns_builtInRef .void).bind fun void _ h => ?_
  replace hb := hb.spares h
  -- `Add`
  refine (returns_nativeParam "o" item).bind fun _ _ ⟨h, ho⟩ => ?_
  replace hb := hb.spares h
  refine (returns_addNativeFunc (.cons ho .nil) (by decide) "Add" void _).bind
    fun _ _ ⟨h, hadd⟩ => ?_
  replace hb := (hb.spares h).concat hadd
  -- `At`
  refine (returns_nativeParam "idx" int).bind fun _ _ ⟨h, hidx⟩ => ?_
  replace hb := hb.spares h
  refine (returns_addNativeFunc (.cons hidx .nil) (by decide) "At" item _).bind
    fun _ _ ⟨h, hat⟩ => ?_
  replace hb := (hb.spares h).concat hat
  -- `SetAt`
  refine (returns_nativeParam "idx" int).bind fun _ _ ⟨h, hidx⟩ => ?_
  replace hb := hb.spares h
  refine (returns_nativeParam "o" item).bind fun _ _ ⟨h, ho⟩ => ?_
  replace hb := hb.spares h
  have hidx := h.grows.paramNamed hidx
  refine (returns_addNativeFunc (.cons hidx (.cons ho .nil)) (by decide) "SetAt" void _).bind
    fun _ _ ⟨h, hsetAt⟩ => ?_
  replace hb := (hb.spares h).concat hsetAt
  -- `RemoveAt` and `Clear`
  refine (returns_nativeParam "idx" int).bind fun _ _ ⟨h, hidx⟩ => ?_
  replace hb := hb.spares h
  refine (returns_addNativeFunc (.cons hidx .nil) (by decide) "RemoveAt" void _).bind
    fun _ _ ⟨h, hremoveAt⟩ => ?_
  replace hb := (hb.spares h).concat hremoveAt
  refine (returns_addNativeFunc .nil (by decide) "Clear" void _).bind fun _ _ ⟨h, hclear⟩ => ?_
  replace hb := (hb.spares h).concat hclear
  refine (returns_defineAll hb.cls hb.made (by decide)).bind fun _ _ ⟨_, hcls⟩ => ?_
  -- `Count` and `$AddInplace`
  refine (returns_addNativeField "Count" int _).bind fun _ _ ⟨h, hcount⟩ => ?_
  refine (returns_define (h.classes hcls) hcount (by decide)).bind fun _ _ ⟨_, hcls⟩ => ?_
  refine (returns_nativeParam "o" item).bind fun _ _ ⟨h, ho⟩ => ?_
  replace hcls := h.classes hcls
  refine (returns_addNativeFunc (.cons ho .nil) (by decide) "$AddInplace" void _).bind
    fun _ _ ⟨h, haddInplace⟩ => ?_
  obtain ⟨_, ctx', hrun, -, hdone⟩ := returns_define (h.classes hcls) haddInplace (by decide)
  exact ⟨_, ctx', hrun, hdone⟩

/-- The type of what `find` returns is made in every state. -/
theorem returns_pairType (value : TypeRef) :
    Returns (tupleType [.name BuiltIn.bool.name, .ref value]) ctx
      fun _ ctx' => ctx.Spares ctx' := by
  unfold tupleType typeRefs
  refine Returns.bind (P := fun _ ctx' => ctx.Spares ctx') ?_ fun items ctx₁ h₁ => ?_
  · refine (returns_builtInRef .bool).bind fun _ _ h => ?_
    exact returns_pure h
  · exact ⟨_, _, rfl, h₁.trans (ctx₁.spares_newSlot _)⟩

/-- The members of a map class. -/
theorem returns_addMapMembers {cls : SymbolId} (hcls : ctx.ClassWith cls []) (key value : TypeRef) :
    Returns (addMapMembers cls key value) ctx fun _ ctx' => ctx'.ClassWith cls
      ["Count", "Add", "Remove", "Contains", "TryGet", "Clear"] := by
  unfold addMapMembers
  refine (returns_builtInRef .void).bind fun void _ h => ?_
  replace hcls := h.classes hcls
  refine (returns_builtInRef .bool).bind fun bool _ h => ?_
  replace hcls := h.classes hcls
  refine (returns_builtInRef .int).bind fun int _ h => ?_
  replace hcls := h.classes hcls
  refine (returns_addNativeField "Count" int _).bind fun _ _ ⟨h, hcount⟩ => ?_
  refine (returns_define (h.classes hcls) hcount (by decide)).bind fun _ _ ⟨_, hcls⟩ => ?_
  refine (returns_pairType value).bind fun pair ctx₁ h => ?_
  have hb : ctx₁.Building cls ["Count"] [] [] := ⟨h.classes hcls, .nil⟩
  -- `Add`
  refine (returns_nativeParam "k" key).bind fun _ _ ⟨h, hk⟩ => ?_
  replace hb := hb.spares h
  refine (returns_nativeParam "v" value).bind fun _ _ ⟨h, hv⟩ => ?_
  replace hb := hb.spares h
  have hk := h.grows.paramNamed hk
  refine (returns_addNativeFunc (.cons hk (.cons hv .nil)) (by decide) "Add" void _).bind
    fun _ _ ⟨h, hadd⟩ => ?_
  replace hb := (hb.spares h).concat hadd
  -- `Remove`, `Contains`, `TryGet` and `Clear`
  refine (returns_nativeParam "k" key).bind fun _ _ ⟨h, hk⟩ => ?_
  replace hb := hb.spares h
  refine (returns_addNativeFunc (.cons hk .nil) (by decide) "Remove" void _).bind
    fun _ _ ⟨h, hremove⟩ => ?_
  replace hb := (hb.spares h).concat hremove
  refine (returns_nativeParam "k" key).bind fun _ _ ⟨h, hk⟩ => ?_
  replace hb := hb.spares h
  refine (returns_addNativeFunc (.cons hk .nil) (by decide) "Contains" bool _).bind
    fun _ _ ⟨h, hcontains⟩ => ?_
  replace hb := (hb.spares h).concat hcontains
  refine (returns_nativeParam "k" key).bind fun _ _ ⟨h, hk⟩ => ?_
  replace hb := hb.spares h
  refine (returns_addNativeFunc (.cons hk .nil) (by decide) "TryGet" pair _).bind
    fun _ _ ⟨h, htryGet⟩ => ?_
  replace hb := (hb.spares h).concat htryGet
  refine (returns_addNativeFunc .nil (by decide) "Clear" void _).bind fun _ _ ⟨h, hclear⟩ => ?_
  replace hb := (hb.spares h).concat hclear
  obtain ⟨_, ctx', hrun, -, hdone⟩ := returns_defineAll hb.cls hb.made (by decide)
  exact ⟨_, ctx', hrun, hdone⟩

/-- An array class can be made in every context. -/
theorem returns_addArrayClass (name : String) (item : TypeRef) (registered : Option ArrayStorage) :
    Returns (addArrayClass name item registered) ctx fun cls ctx' => ctx'.ClassWith cls
      ["Add", "At", "SetAt", "RemoveAt", "Clear", "Count", "$AddInplace"] := by
  unfold addArrayClass
  refine (returns_alloc _).bind fun cls ctx₁ ⟨_, hcls⟩ => ?_
  refine (returns_addArrayMembers ⟨_, _, hcls, rfl, rfl, rfl⟩ item _).bind fun _ _ hdone => ?_
  exact returns_pure hdone

/-- A map class can be made in every context. -/
theorem returns_addMapClass (name : String) (key value : TypeRef) :
    Returns (addMapClass name key value) ctx fun cls ctx' => ctx'.ClassWith cls
      ["Count", "Add", "Remove", "Contains", "TryGet", "Clear"] := by
  unfold addMapClass
  refine (returns_alloc _).bind fun cls ctx₁ ⟨_, hcls⟩ => ?_
  refine (returns_addMapMembers ⟨_, _, hcls, rfl, rfl, rfl⟩ key value).bind fun _ _ hdone => ?_
  exact returns_pure hdone

end SemaM

end Sema

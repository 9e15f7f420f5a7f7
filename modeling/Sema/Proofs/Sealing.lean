import Sema.Proofs.GlobalNames
import Sema.Proofs.Parameters

/-!
# `Sema.Proofs.Sealing`: what can still be done to a native function

A native function gets its parameters when it is made and refuses definitions afterwards. The
refusal is on the scope that a definition names. Two routes do not name the function: a block of it
hands what is defined in it to the function, and an item goes to whatever it is added to.
`Op.Unseals` names these two, and `native_func_sealed` says that there is no third one. No route
leads to the signature or to the number of defaults.

`Edit.Leaves` says of an elementary change that it does not touch a native function, and
`Op.next_leaves` that a call makes such changes only. The lemmas before it follow the operations
once more, since `Edit.Fits` does not tell a native function that takes its parameters from one that
has them already. On the way they also see to it that only four calls have to do with blocks.
-/

set_option autoImplicit false

namespace Sema

namespace Context

variable {a b ctx : Context} {func : SymbolId}

/-- The symbol is a native function. -/
def IsNative (ctx : Context) (func : SymbolId) : Prop :=
  ∃ c, ctx.contract? func = some c ∧ c.native = true

/-- The members of a scope, in order. -/
def members? (ctx : Context) (id : SymbolId) : Option (List (String × SymbolId)) :=
  (ctx.arena.get? id).map (·.members.entries)

/-- A native function exists. -/
theorem IsNative.exists (h : ctx.IsNative func) : ctx.Exists func := by
  obtain ⟨c, hc, -⟩ := h
  obtain ⟨s, hs, -⟩ := Option.bind_eq_some_iff.mp hc
  exact ⟨s, hs⟩

/-- That a function is native can be read off its symbol. -/
theorem isNative_iff :
    ctx.IsNative func ↔ ∃ o info, ctx.arena.get? func = some o ∧ o.kind = .func info ∧
      info.flavor.isNative = true := by
  constructor
  · rintro ⟨c, hc, hnative⟩
    obtain ⟨o, ho, hc⟩ := Option.bind_eq_some_iff.mp hc
    cases hk : o.kind with
    | func info =>
      rw [Symbol.contract?_of_func hk] at hc
      cases hc
      exact ⟨o, info, ho, hk, hnative⟩
    | _ => simp [Symbol.contract?, hk, SymbolKind.func?] at hc
  · rintro ⟨o, info, ho, hk, hnative⟩
    exact ⟨info.contract, (contract?_of_get? ho).trans (Symbol.contract?_of_func hk), hnative⟩

/-- A function does not become a native one. -/
theorem Grows.isNative (h : a.Grows b) (hold : a.Exists func) (hn : b.IsNative func) :
    a.IsNative func := by
  obtain ⟨o, ho⟩ := hold
  obtain ⟨o', info', ho', hk', hnative⟩ := isNative_iff.mp hn
  obtain ⟨o₁, ho₁, hoo⟩ := h.symbols func o ho
  rw [ho'] at ho₁
  cases ho₁
  obtain ⟨info, hk, hflavor⟩ := (hk' ▸ hoo.kind).to_func_flavor
  exact isNative_iff.mpr ⟨o, info, ho, hk, hflavor ▸ hnative⟩

/-- An update loses no symbol. -/
theorem exists_update {id x : SymbolId} {f : Symbol → Symbol} (h : ctx.Exists x) :
    (ctx.update id f).Exists x := by
  obtain ⟨s, hs⟩ := h
  unfold Exists
  rw [get?_update, hs]
  split
  · exact ⟨f s, rfl⟩
  · exact ⟨s, rfl⟩

/-- Nor does a new member. -/
theorem exists_withMember {scope sym x : SymbolId} (h : ctx.Exists x) :
    (ctx.withMember scope sym).Exists x := by
  unfold withMember
  split
  · split
    · exact exists_update (exists_update h)
    · exact h
  · exact h

/-- An update that leaves the members of every symbol alone. -/
theorem members?_update {id : SymbolId} {f : Symbol → Symbol}
    (h : ∀ s : Symbol, (f s).members = s.members) :
    (ctx.update id f).members? = ctx.members? := by
  funext x
  exact ctx.map_get?_update id (fun s => by rw [h s]) x

/-- A new member changes the members of its scope only. -/
theorem members?_withMember {scope : SymbolId} (sym : SymbolId) (hne : func ≠ scope) :
    (ctx.withMember scope sym).members? func = ctx.members? func := by
  unfold withMember
  split
  · split
    · refine (congrFun (members?_update ?_) func).trans ?_
      · intro s
        rfl
      · rw [members?, get?_update, if_neg hne, members?]
    · rfl
  · rfl

/-- The members of an existing symbol. -/
theorem members?_of_get? {id : SymbolId} {o : Symbol} (ho : ctx.arena.get? id = some o) :
    ctx.members? id = some o.members.entries := by
  rw [members?, ho, Option.map_some]

/-- A new symbol leaves the members of the older ones alone. -/
theorem members?_alloc (ctx : Context) (s : Symbol) {id : SymbolId} (h : ctx.Exists id) :
    ((Edit.alloc s).write ctx).members? id = ctx.members? id := by
  obtain ⟨o, ho⟩ := h
  rw [members?, get?_alloc_of_get? s ho, members?, ho]

/-- A note in a block changes no members. -/
theorem members?_nest (ctx : Context) (block sym : SymbolId) (level : Nat) :
    ((Edit.nest block sym level).write ctx).members? = ctx.members? := by
  refine (members?_update ?_).trans (members?_update ?_)
  · intro s
    unfold Symbol.withBlockVar
    split <;> rfl
  · intro s
    rfl

end Context

namespace Edit

/-- The symbol that an edit gives one more member. -/
def host? : Edit → Option SymbolId
  | enter scope _ => some scope
  | capture lambda _ _ => some lambda
  | _ => none

/-- An edit leaves the members of every symbol but its host. -/
theorem members?_write {ctx : Context} {id : SymbolId} (e : Edit) (hold : ctx.Exists id)
    (hhost : e.host? ≠ some id) : (e.write ctx).members? id = ctx.members? id := by
  have hsame : ∀ {ctx' : Context}, ctx'.members? = ctx.members? →
      ctx'.members? id = ctx.members? id := fun h => by rw [h]
  -- An entry and a capture add to the members of one symbol. No other edit touches members.
  cases e with
  | alloc s => exact ctx.members?_alloc s hold
  | enter scope sym =>
    exact Context.members?_withMember sym fun h => hhost (congrArg some h.symm)
  | nest block sym level => exact hsame (ctx.members?_nest block sym level)
  | param =>
    refine hsame (Context.members?_update fun s => ?_)
    unfold Symbol.withParam
    split <;> rfl
  | capture lambda copy c =>
    have hne : id ≠ lambda := fun h => hhost (congrArg some h.symm)
    refine Eq.trans ?_ (Context.members?_withMember copy hne)
    refine congrFun (Context.members?_update fun s => ?_) id
    unfold Symbol.withCapture
    split
    · split <;> rfl
    · rfl
  | creator =>
    refine hsame (Context.members?_update fun s => ?_)
    unfold Symbol.withCreator
    split <;> rfl
  | hide =>
    refine hsame (Context.members?_update fun s => ?_)
    rfl
  | link =>
    refine hsame ?_
    simp only [write]
    split <;> rfl
  | newSlot => exact hsame rfl
  | fill => exact hsame rfl
  | keep => exact hsame rfl
  | storage => exact hsame rfl

end Edit

/-- The symbol is no block, and no block has had to do with it yet. -/
structure Symbol.Unmarked (s : Symbol) : Prop where
  level : s.level = 0
  shown : s.outOfScope = false
  frame : s.kind.frame? = none

/-- What most calls leave alone. The change does not touch the function if it is a native one: it
gives it no parameter, and no member unless it is `opened`. Unless `blocks`, it makes no block, and
it neither notes a variable in one nor hides one. -/
def Edit.Leaves (func : SymbolId) (opened blocks : Prop) (ctx : Context) : Edit → Prop
  | alloc s => s.Unmarked ∨ blocks
  | enter scope _ => ctx.IsNative func → scope = func → opened
  | nest .. => blocks
  | param f _ _ => ctx.IsNative func → f ≠ func
  | capture lambda _ _ => ctx.IsNative func → lambda ≠ func
  | hide _ => blocks
  | _ => True

namespace Edit.Leaves

variable {func : SymbolId} {opened blocks : Prop} {ctx : Context} {e : Edit}

/-- A native function keeps its contract. -/
theorem contract?_eq (he : Leaves func opened blocks ctx e) (hn : ctx.IsNative func) :
    (e.write ctx).contract? func = ctx.contract? func := by
  obtain ⟨s, hs⟩ := hn.exists
  have hwrite := Edit.contract?_write ctx e func
  cases e with
  | alloc t =>
    simp only [if_neg (Context.ne_nextId hs)] at hwrite
    exact hwrite
  | param f type hasDefault =>
    -- A parameter is never pushed onto a function that is native.
    have hne : func ≠ f := fun h => he hn h.symm
    simp only [if_neg hne] at hwrite
    exact hwrite
  | _ => exact hwrite

/-- A native function stays one. -/
theorem isNative (he : Leaves func opened blocks ctx e) (hn : ctx.IsNative func) :
    (e.write ctx).IsNative func := by
  obtain ⟨c, hc, hnative⟩ := hn
  exact ⟨c, (he.contract?_eq ⟨c, hc, hnative⟩).trans hc, hnative⟩

/-- A native function keeps its members while nothing unseals it. -/
theorem members?_eq (he : Leaves func False blocks ctx e) (hn : ctx.IsNative func) :
    (e.write ctx).members? func = ctx.members? func := by
  refine e.members?_write hn.exists fun hhost => ?_
  cases e with
  | enter scope sym => exact he hn (Option.some.inj hhost)
  | capture lambda copy c => exact he hn (Option.some.inj hhost)
  | _ => cases hhost

end Edit.Leaves

/-- No edit takes a symbol away. -/
theorem Edit.exists_write {ctx : Context} {id : SymbolId} (h : ctx.Exists id) (e : Edit) :
    (e.write ctx).Exists id := by
  cases e with
  | alloc s => exact (ctx.grows_alloc s).exists h
  | enter => exact Context.exists_withMember h
  | nest => exact Context.exists_update (Context.exists_update h)
  | capture => exact Context.exists_update (Context.exists_withMember h)
  | param | creator | hide => exact Context.exists_update h
  | link =>
    simp only [write]
    split
    · exact h
    · exact h
  | _ => exact h

/-- Edits lose no symbol. -/
theorem Edits.exists {P : Context → Edit → Prop} {a b : Context} {id : SymbolId} (h : Edits P a b)
    (hold : a.Exists id) : b.Exists id :=
  h.preserves (I := fun ctx => ctx.Exists id) (fun _ e _ hctx => Edit.exists_write hctx e) hold

namespace Edits

variable {func : SymbolId} {opened blocks : Prop} {a b : Context}


/-- The contract stays through any number of edits. -/
theorem contract?_eq (h : Edits (Edit.Leaves func opened blocks) a b) (hn : a.IsNative func) :
    b.contract? func = a.contract? func := by
  obtain ⟨c, hc, hnative⟩ := hn
  rw [hc]
  exact h.preserves (I := fun ctx => ctx.contract? func = some c)
    (fun ctx e he hctx => (he.contract?_eq ⟨c, hctx, hnative⟩).trans hctx) hc

/-- So does the fact that the function is native. -/
theorem isNative (h : Edits (Edit.Leaves func opened blocks) a b) (hn : a.IsNative func) :
    b.IsNative func := by
  obtain ⟨c, hc, hnative⟩ := hn
  exact ⟨c, (h.contract?_eq ⟨c, hc, hnative⟩).trans hc, hnative⟩

/-- So do the members. -/
theorem members?_eq (h : Edits (Edit.Leaves func False blocks) a b) (hn : a.IsNative func) :
    b.members? func = a.members? func := by
  -- The step for the members asks for a native function, so both are carried along.
  have hboth : b.IsNative func ∧ b.members? func = a.members? func :=
    h.preserves (I := fun ctx => ctx.IsNative func ∧ ctx.members? func = a.members? func)
      (fun ctx e he hctx => ⟨he.isNative hctx.1, (he.members?_eq hctx.1).trans hctx.2⟩) ⟨hn, rfl⟩
  exact hboth.2

end Edits

/-! ### Looking up types touches no symbol -/

/-- The change is to a slot. -/
def Edit.OnSlots (_ : Context) : Edit → Prop
  | newSlot _ | fill _ _ => True
  | _ => False

namespace SemaM

open Edit

variable {ctx : Context}

/-- A new slot. -/
theorem slots_newSlot (content : Option Ty) : Makes OnSlots (newSlot content) ctx :=
  makes_edit (.newSlot content) trivial rfl

/-- A reference by name. -/
theorem slots_namedRef (name : String) : Makes OnSlots (namedRef name) ctx :=
  makes_bind (slots_newSlot none) fun _ _ _ => makes_pure _

/-- A reference to a known type. -/
theorem slots_resolvedRef (name : String) (t : Ty) : Makes OnSlots (resolvedRef name t) ctx :=
  makes_bind (slots_newSlot (some t)) fun _ _ _ => makes_pure _

/-- A look-up of a type. -/
theorem slots_typeOf (type : TypeRef) : Makes OnSlots (typeOf type) ctx := by
  unfold typeOf
  refine makes_get_bind ?_
  split
  · exact makes_pure _
  · refine makes_query_bind fun t _ => ?_
    have hbind : Makes OnSlots (bindSlot type.slot t) ctx :=
      makes_edit (.fill type.slot t) trivial rfl
    exact makes_bind hbind fun _ _ _ => makes_pure t

/-- The type of a symbol. -/
theorem slots_typeOfSymbol (id : SymbolId) : Makes OnSlots (typeOfSymbol id) ctx := by
  unfold typeOfSymbol
  refine makes_symbol_bind fun s _ => ?_
  split
  · exact makes_pure _
  · split
    · exact slots_typeOf _
    · exact makes_query _

/-- The result type of a function. -/
theorem slots_returnType (func : SymbolId) : Makes OnSlots (returnType func) ctx :=
  makes_query_bind fun _ _ => slots_typeOf _

/-- A type that is given by name or by reference. -/
theorem slots_typeRef (t : TypeName) : Makes OnSlots (typeRef t) ctx := by
  unfold typeRef
  split
  · exact makes_pure _
  · split
    · exact makes_throw _
    · exact slots_namedRef _

/-- Several types. -/
theorem slots_typeRefs (ts : List TypeName) : Makes OnSlots (typeRefs ts) ctx := by
  induction ts generalizing ctx with
  | nil => exact makes_pure _
  | cons t rest ih =>
    exact makes_bind (slots_typeRef t) fun _ _ _ => makes_bind ih fun _ _ _ => makes_pure _

/-- A reference to a resolved type. -/
theorem slots_typeRefOf (t : Ty) : Makes OnSlots (typeRefOf t) ctx :=
  makes_query_bind fun _ _ => slots_resolvedRef _ _

/-- A function type. -/
theorem slots_funcType (ret : TypeName) (params : List TypeName) :
    Makes OnSlots (funcType ret params) ctx :=
  makes_bind (slots_typeRef ret) fun _ _ _ =>
    makes_bind (slots_typeRefs params) fun _ _ _ => slots_typeRefOf _

/-- A tuple. -/
theorem slots_tupleType (items : List TypeName) : Makes OnSlots (tupleType items) ctx :=
  makes_bind (slots_typeRefs items) fun _ _ _ => slots_typeRefOf _

/-- The result of a function with any number of results. -/
theorem slots_returnsType (items : List TypeRef) : Makes OnSlots (returnsType items) ctx := by
  unfold returnsType
  split
  · exact slots_typeRef _
  · exact makes_pure _
  · exact slots_typeRefOf _

/-- The parameters of a parsed function type. -/
theorem slots_parsedParams (ps : List ParsedParam) : Makes OnSlots (parsedParams ps) ctx := by
  induction ps generalizing ctx with
  | nil => exact makes_pure _
  | cons p rest ih =>
    exact makes_bind (slots_typeRef _) fun _ _ _ => makes_bind ih fun _ _ _ => makes_pure _

/-- The check of an overload. -/
theorem slots_checkOverload (right : TypedExpr) (func : SymbolId) :
    Makes OnSlots (checkOverload right func) ctx := by
  unfold checkOverload
  refine makes_query_bind fun param _ => ?_
  refine makes_bind (slots_typeOfSymbol param) fun type _ _ => ?_
  exact makes_query_bind fun _ _ => slots_returnType func

/-- The values that an instance starts with. -/
theorem slots_template (members : List SymbolId) : Makes OnSlots (template members) ctx := by
  induction members generalizing ctx with
  | nil => exact makes_pure _
  | cons id rest ih =>
    unfold template
    refine makes_symbol_bind fun s _ => ?_
    dsimp only
    split
    · exact makes_bind (slots_typeOf _) fun _ _ _ =>
        makes_bind (makes_pure _) fun _ _ _ => makes_bind ih fun _ _ _ => makes_pure _
    · exact makes_bind (makes_pure _) fun _ _ _ => makes_bind ih fun _ _ _ => makes_pure _

/-- The creator of a class. -/
theorem slots_classCreator (cls : SymbolId) : Makes OnSlots (classCreator cls) ctx := by
  unfold classCreator
  refine makes_query_bind fun info _ => ?_
  split
  · exact makes_pure _
  · refine makes_symbol_bind fun s _ => ?_
    split
    · exact makes_throw _
    · exact makes_bind (slots_template _) fun _ _ _ => makes_pure _

end SemaM

/-! ### What each operation leaves -/

namespace Context

variable {ctx : Context} {func : SymbolId}

/-- An id that names nothing is reported as such. -/
theorem symbol_of_none {id : SymbolId} (h : ctx.arena.get? id = none) :
    ctx.symbol id = .error (.danglingSymbol id) := by
  simp [symbol, h]

/-- A native function refuses every definition that names it. -/
theorem ownerFor_of_native {sym : SymbolId} {o s : Symbol} (hn : ctx.IsNative func)
    (ho : ctx.arena.get? func = some o) (hs : ctx.arena.get? sym = some s) :
    ctx.ownerFor func sym = .error (.defineNotAllowed s.place o.name) := by
  obtain ⟨o', info, ho', hk, hnative⟩ := isNative_iff.mp hn
  rw [ho] at ho'
  cases ho'
  simp only [ownerFor, symbol_of_get? ho, symbol_of_get? hs, bind, Except.bind, hk, hnative]
  rfl

/-- A definition comes to a native function only through one of its blocks. -/
theorem frame?_of_ownerFor {via sym owner : SymbolId} (h : ctx.ownerFor via sym = .ok owner)
    (hn : ctx.IsNative func) (heq : owner = func) : ctx.frame? via = some func := by
  obtain ⟨o, ho, ⟨b, hk, rfl⟩ | ⟨rfl, -⟩⟩ := ownerFor_eq_ok h
  · rw [frame?_of_get? ho, hk, ← heq]
    rfl
  · subst heq
    obtain ⟨o', info, ho', hk, hnative⟩ := isNative_iff.mp hn
    rw [ho] at ho'
    cases ho'
    -- Defining in a native function itself is refused.
    obtain ⟨t, ht, hrest⟩ := except_bind_eq_ok h
    rw [symbol_of_get? ho] at ht
    cases ht
    simp only [hk, hnative, if_true] at hrest
    obtain ⟨_, -, hthrow⟩ := except_bind_eq_ok hrest
    cases hthrow

/-- A class is no block. -/
theorem frame?_of_class {cls : SymbolId} (h : ctx.IsClass cls) : ctx.frame? cls = none := by
  obtain ⟨s, info, hs, hk⟩ := h
  rw [frame?_of_get? hs, hk]
  rfl

/-- Only a class has the data of one. -/
theorem isClass_of_classInfo {cls : SymbolId} {info : ClassInfo}
    (h : ctx.classInfo cls = .ok info) : ctx.IsClass cls := by
  obtain ⟨s, hs, hrest⟩ := except_bind_eq_ok h
  cases hk : s.kind with
  | classDecl i => exact ⟨s, i, symbol_eq_ok_iff.mp hs, hk⟩
  | _ =>
    rw [hk] at hrest
    cases hrest

end Context

namespace SemaM

open Edit

variable {func : SymbolId} {opened blocks : Prop} {ctx base : Context}

/-- What only works on slots leaves functions and blocks alone. -/
theorem leaves_of_slots {α : Type} {m : SemaM α} (h : Makes OnSlots m ctx) :
    Makes (Leaves func opened blocks) m ctx := by
  refine h.mono fun _ e he => ?_
  cases e with
  | newSlot | fill => exact trivial
  | _ => exact he.elim

/-- So does a new symbol that is no block. -/
theorem leaves_alloc {s : Symbol} (h : s.Unmarked) :
    Makes (Leaves func opened blocks) (alloc s) ctx :=
  makes_alloc (Or.inl h)

/-- As `makes_bind`, where all that matters of the context is that it has grown from `base`. -/
theorem makes_bind_grown {α β : Type} {P : Context → Edit → Prop} {m : SemaM α} {f : α → SemaM β}
    (hbase : base.Grows ctx) (hquiet : Makes (Quiet {}) m ctx) (hm : Makes P m ctx)
    (hf : ∀ a ctx', base.Grows ctx' → Makes P (f a) ctx') : Makes P (m >>= f) ctx :=
  makes_bind hm fun a ctx' h =>
    hf a ctx' (hbase.trans ((hquiet.of_ok h).grows fun _ _ => Quiet.grows))

/-- An entry is refused and changes nothing, or the name was free. -/
theorem enter_cases (scope sym : SymbolId) :
    (∃ e, enter scope sym ctx = .error e ctx) ∨
      ∃ s o, ctx.arena.get? sym = some s ∧ ctx.arena.get? scope = some o ∧
        s.name ∉ o.members.keys ∧
          enter scope sym ctx = .ok () ((Edit.enter scope sym).write ctx) := by
  cases hs : ctx.arena.get? sym with
  | none => exact Or.inl ⟨_, bind_of_error (query_of_error (Context.symbol_of_none hs))⟩
  | some s =>
    cases ho : ctx.arena.get? scope with
    | none =>
      refine Or.inl ⟨.danglingSymbol scope, ?_⟩
      unfold enter
      rw [bind_of_ok (symbol_run hs)]
      exact bind_of_error (query_of_error (Context.symbol_of_none ho))
    | some o =>
      -- Both exist, so the name decides.
      by_cases htaken : s.name ∈ o.members.keys
      · exact Or.inl ⟨_, enter_of_taken hs ho htaken⟩
      · exact Or.inr ⟨s, o, rfl, rfl, htaken, enter_of_free hs ho htaken⟩

/-- An entry leaves a native function alone unless it is made in that function. -/
theorem leaves_enter {scope : SymbolId} (sym : SymbolId)
    (h : ctx.IsNative func → scope = func → opened) :
    Makes (Leaves func opened blocks) (enter scope sym) ctx := by
  rw [Makes]
  rcases enter_cases scope sym with ⟨e, hfails⟩ | ⟨s, o, -, -, -, henters⟩
  · rw [after, hfails]
    exact .refl ctx
  · rw [after_ok henters]
    exact .single h

/-- The note that a block takes of a variable. -/
theorem nest_run {block sym : SymbolId} {s o : Symbol} (level : Nat)
    (hs : ctx.arena.get? sym = some s) (ho : ctx.arena.get? block = some o) :
    (do modifySymbol sym fun s => { s with level }
        modifySymbol block (·.withBlockVar sym) : SemaM Unit) ctx
      = .ok () ((Edit.nest block sym level).write ctx) := by
  -- The block is still there once the level is set.
  have hblock : ∃ p, (ctx.update sym fun s => { s with level }).arena.get? block = some p := by
    rw [Context.get?_update, ho]
    split
    · exact ⟨_, rfl⟩
    · exact ⟨_, rfl⟩
  obtain ⟨p, hp⟩ := hblock
  rw [bind_of_ok (modifySymbol_run _ hs), modifySymbol_run _ hp]
  rfl

/-- A definition reaches a native function only through a block of that function. -/
theorem leaves_define {scope : SymbolId} (sym : SymbolId)
    (hscope : ctx.frame? scope = some func → opened) (hblocks : ctx.frame? scope ≠ none → blocks) :
    Makes (Leaves func opened blocks) (define scope sym) ctx := by
  unfold define
  refine makes_query_bind fun owner howner => ?_
  have henter : ctx.IsNative func → owner = func → opened :=
    fun hn heq => hscope (Context.frame?_of_ownerFor howner hn heq)
  refine makes_bind (leaves_enter sym henter) fun _ ctx' hent => ?_
  refine makes_symbol_bind fun o ho => ?_
  split
  · rename_i b hb
    obtain ⟨s, p, hs, hp, hnew, rfl⟩ := enter_eq_ok hent
    obtain ⟨t, ht, -⟩ := Context.get?_enter_sym hs hp hnew
    refine makes_edit (.nest scope sym b.level) (hblocks ?_) (after_ok (nest_run b.level ht ho))
    -- That the scope is a block was so before the entry.
    obtain ⟨q, hq, -⟩ := Context.ownerFor_eq_ok howner
    obtain ⟨o', ho', hgrows⟩ := (Context.grows_enter hs hp hnew).symbols scope q hq
    rw [ho] at ho'
    cases ho'
    rw [Context.frame?_of_get? hq, ← hgrows.kind.frame?_eq, hb]
    exact Option.some_ne_none _
  · exact makes_pure _

/-- A definition in a class reaches no function. -/
theorem leaves_define_class {cls : SymbolId} (sym : SymbolId) (hcls : ctx.IsClass cls) :
    Makes (Leaves func opened blocks) (define cls sym) ctx := by
  have hframe := Context.frame?_of_class hcls
  exact leaves_define sym (by simp [hframe]) (by simp [hframe])

/-- Nor do several. -/
theorem leaves_defineAll {cls : SymbolId} (syms : List SymbolId) (hcls : base.IsClass cls)
    (hbase : base.Grows ctx) : Makes (Leaves func opened blocks) (defineAll cls syms) ctx := by
  induction syms generalizing ctx with
  | nil => exact makes_pure _
  | cons sym rest ih =>
    exact makes_bind_grown hbase (makes_define cls sym)
      (leaves_define_class sym (hbase.isClass hcls)) fun _ _ hbase => ih hbase

/-- Hiding a symbol has to do with blocks only. -/
theorem leaves_markOutOfScope (sym : SymbolId) (hblocks : blocks) :
    Makes (Leaves func opened blocks) (markOutOfScope sym) ctx :=
  makes_modifySymbol (.hide sym) (fun _ _ => hblocks) rfl

/-- So does closing a block. -/
theorem leaves_closeBlock (block : SymbolId) (hblocks : blocks) :
    Makes (Leaves func opened blocks) (closeBlock block) ctx := by
  -- By induction on the variables that the block marks.
  have hall : ∀ (vars : List SymbolId) (c : Context),
      Makes (Leaves func opened blocks) (vars.forM markOutOfScope) c := by
    intro vars
    induction vars with
    | nil => exact fun _ => makes_pure _
    | cons v rest ih =>
      exact fun _ => makes_bind (leaves_markOutOfScope v hblocks) fun _ _ _ => ih _
  unfold closeBlock
  refine makes_symbol_bind fun s _ => ?_
  split
  · exact hall _ _
  · exact makes_pure _

/-- So does opening one. -/
theorem leaves_openBlock (parent : SymbolId) (location : Option Location) (hblocks : blocks) :
    Makes (Leaves func opened blocks) (openBlock parent location) ctx := by
  unfold openBlock
  refine makes_symbol_bind fun s _ => ?_
  split
  · exact makes_alloc (Or.inr hblocks)
  · exact makes_alloc (Or.inr hblocks)
  · exact makes_throw _

/-- A parameter is added to another function. -/
theorem leaves_pushParam {host : SymbolId} (arg : SymbolId) (hasDefault : Bool)
    (hne : ctx.IsNative func → host ≠ func) :
    Makes (Leaves func opened blocks) (pushParam host arg hasDefault) ctx :=
  makes_query_bind fun type _ =>
    makes_modifySymbol (.param host type hasDefault) (fun _ _ => hne) rfl

/-- Several are. -/
theorem leaves_enterParams {host : SymbolId} (args : List SymbolId) (hne : host ≠ func) :
    Makes (Leaves func opened blocks) (enterParams host args) ctx := by
  induction args generalizing ctx with
  | nil => exact makes_pure _
  | cons arg rest ih =>
    refine makes_bind (leaves_enter arg fun _ heq => absurd heq hne) fun _ _ _ => ?_
    exact makes_bind (leaves_pushParam arg false fun _ => hne) fun _ _ _ => ih

/-- A new native function is another one than those that are there. -/
theorem leaves_addNativeFunc (name : String) (ret : TypeRef) (defaults : Nat) (body : HostFunc)
    (args : List SymbolId) (hold : ctx.Exists func) :
    Makes (Leaves func opened blocks) (addNativeFunc name ret defaults body args) ctx := by
  unfold addNativeFunc
  dsimp only
  split
  · exact makes_throw_bind _ _
  · refine makes_bind (leaves_alloc ⟨rfl, rfl, rfl⟩) fun host ctx' halloc => ?_
    rw [alloc_run] at halloc
    cases halloc
    obtain ⟨s, hs⟩ := hold
    -- The parameters go to the new function.
    have hne : ctx.nextId ≠ func := fun heq => Context.ne_nextId hs heq.symm
    exact makes_bind (leaves_enterParams args hne) fun _ _ _ => makes_pure _

/-- A native function takes no arguments afterwards: the definition is refused before. -/
theorem leaves_defineArg (host arg : SymbolId) (hasDefault : Bool) :
    Makes (Leaves func opened blocks) (defineArg host arg hasDefault) ctx := by
  unfold defineArg
  refine makes_query_bind fun ⟨o, info⟩ hfunc => ?_
  obtain ⟨ho, hk⟩ := Context.func_eq_ok hfunc
  have hdefine : Makes (Leaves func opened blocks) (define host arg) ctx := by
    have hframe : ctx.frame? host = none := by
      rw [Context.frame?_of_get? ho, hk]
      rfl
    exact leaves_define arg (by simp [hframe]) (by simp [hframe])
  dsimp only
  split
  · exact makes_throw_bind _ _
  · refine makes_bind hdefine fun _ ctx' hrun => leaves_pushParam arg hasDefault ?_
    -- The native function has refused the definition.
    rintro hn rfl
    obtain ⟨owner, ctx₁, howner, -⟩ := bind_eq_ok hrun
    obtain ⟨howner, -⟩ := query_eq_ok howner
    obtain ⟨s, hs, hnew, rfl⟩ := define_func_eq_ok ho hk hrun
    have hn := (Context.grows_enter hs ho hnew).isNative ⟨o, ho⟩ hn
    rw [Context.ownerFor_of_native hn ho hs] at howner
    cases howner

/-- A lambda is a new symbol. -/
theorem leaves_addLambda (name : String) (ret : TypeRef) (enclosing : List SymbolId)
    (location : Option Location) :
    Makes (Leaves func opened blocks) (addLambda name ret enclosing location) ctx := by
  unfold addLambda
  split
  · exact makes_throw _
  · exact makes_get_bind (leaves_alloc ⟨rfl, rfl, rfl⟩)

/-- So is a class. -/
theorem leaves_addClass (name : String) (superClass : Option SymbolId) (flavor : ClassFlavor)
    (location : Option Location) :
    Makes (Leaves func opened blocks) (addClass name superClass flavor location) ctx :=
  makes_query_bind fun _ _ => leaves_alloc ⟨rfl, rfl, rfl⟩

/-- So is a native class, which then gets its creator. -/
theorem leaves_addNativeClass (name : String) (superClass : Option SymbolId)
    (make : Option Creator) :
    Makes (Leaves func opened blocks) (addNativeClass name superClass make) ctx :=
  makes_bind (leaves_addClass _ _ _ _) fun cls _ _ =>
    makes_bind (makes_modifySymbol (.creator cls make) (fun _ _ => trivial) rfl) fun _ _ _ =>
      makes_pure _

/-- An operator is defined in a class. -/
theorem leaves_overloadOperator (cls f : SymbolId) :
    Makes (Leaves func opened blocks) (overloadOperator cls f) ctx := by
  unfold overloadOperator
  refine makes_query_bind fun info hinfo => makes_symbol_bind fun s _ => ?_
  -- The last step defines in a class, which is no function.
  have hcls := Context.isClass_of_classInfo hinfo
  dsimp only
  split
  · exact makes_throw_bind _ _
  · refine makes_query_bind fun total _ => ?_
    split
    · exact makes_throw_bind _ _
    · refine makes_bind_grown (.refl ctx) (makes_returnType f)
        (leaves_of_slots (slots_returnType f)) fun type _ hgrows => ?_
      split
      · exact makes_throw_bind _ _
      · exact leaves_define_class f (hgrows.isClass hcls)

/-- An enum item is entered at its owner without a check of what that is. -/
theorem leaves_addItem {owner : SymbolId} (name : String) (value : Int)
    (location : Option Location) (howner : owner = func → opened) :
    Makes (Leaves func opened blocks) (addItem owner name value location) ctx := by
  unfold addItem
  refine makes_symbol_bind fun s _ => makes_query_bind fun _ _ => ?_
  refine makes_bind (leaves_of_slots (slots_resolvedRef _ _)) fun type _ _ => ?_
  refine makes_bind (leaves_alloc ⟨rfl, rfl, rfl⟩) fun item _ _ => ?_
  exact makes_bind (leaves_enter item fun _ => howner) fun _ _ _ => makes_pure _

/-! ### Look-ups -/

/-- A capture enters a copy in a lambda, and a lambda is no native function. -/
theorem leaves_capture {lambda : SymbolId} {o : Symbol} (source : SymbolId)
    (ho : ctx.arena.get? lambda = some o) (hl : o.isLambda = true) :
    Makes (Leaves func opened blocks) (capture lambda source) ctx := by
  cases hs : ctx.arena.get? source with
  | none =>
    refine makes_symbol_bind fun s h => ?_
    rw [hs] at h
    cases h
  | some s =>
    cases hslot : s.slot with
    | none =>
      refine makes_symbol_bind fun t ht => ?_
      rw [hs] at ht
      cases ht
      simp only [hslot]
      exact makes_throw _
    | some slot =>
      by_cases htaken : s.name ∈ o.members.keys
      · rw [Makes, after, capture_of_taken hs hslot ho hl htaken]
        exact .single (Or.inl ⟨rfl, rfl, rfl⟩)
      · rw [Makes, after_ok (capture_of_free hs hslot ho hl htaken)]
        have hcopy : s.captured.Unmarked := ⟨rfl, rfl, rfl⟩
        refine Edits.step (e := .alloc s.captured) (Or.inl hcopy) (.single fun hn => ?_)
        -- A lambda is not a native function.
        rintro rfl
        obtain ⟨o', info, ho', hk, hnative⟩ := Context.isNative_iff.mp hn
        rw [Context.get?_alloc_of_get? _ ho] at ho'
        cases ho'
        obtain ⟨info', l, hk', hf⟩ := o.exists_of_isLambda hl
        rw [hk] at hk'
        cases hk'
        rw [hf] at hnative
        cases hnative

/-- Neither is any of several. -/
theorem leaves_captureThrough (source : SymbolId) (chain : List SymbolId) :
    Makes (Leaves func opened blocks) (captureThrough source chain) ctx := by
  induction chain generalizing ctx source with
  | nil => exact makes_pure _
  | cons f rest ih =>
    refine makes_symbol_bind fun s hs => ?_
    split
    · rename_i hl
      exact makes_bind (leaves_capture source hs hl) fun copy _ _ => ih copy
    · exact ih source

/-- A search in the functions around a lambda writes nothing but captures. -/
theorem leaves_lookupAround (lambda : SymbolId) (stack : List SymbolId) (name : String) :
    Makes (Leaves func opened blocks) (lookupAround lambda stack name) ctx := by
  unfold lookupAround
  refine makes_query_bind fun around _ => makes_query_bind fun found _ => ?_
  split
  · exact makes_bind (leaves_captureThrough _ _) fun _ _ _ => makes_pure _
  · exact makes_pure _

/-- Going outward writes nothing. -/
theorem leaves_passOutward (scope : SymbolId) :
    Makes (Leaves func opened blocks) (passOutward scope) ctx := by
  unfold passOutward
  refine makes_query_bind fun next _ => ?_
  split
  · exact makes_pure _
  · exact makes_pure _

/-- The answer of one scope to a search. -/
theorem leaves_answer (scope : SymbolId) (name : String) :
    Makes (Leaves func opened blocks) (answer scope name) ctx := by
  unfold answer
  refine makes_symbol_bind fun s _ => ?_
  split
  · exact makes_pure _
  · split
    · exact makes_query_bind fun _ _ => makes_pure _
    · split
      · exact makes_query_bind fun _ _ => makes_pure _
      · refine makes_bind (leaves_lookupAround _ _ _) fun found _ _ => ?_
        split
        · exact makes_pure _
        · exact leaves_passOutward scope
      · exact leaves_passOutward scope

/-- A search of any length. -/
theorem leaves_lookupWithin (fuel : Nat) (scope : SymbolId) (name : String) :
    Makes (Leaves func opened blocks) (lookupWithin fuel scope name) ctx := by
  induction fuel generalizing ctx scope with
  | zero => exact makes_throw _
  | succ fuel ih =>
    unfold lookupWithin
    refine makes_bind (leaves_answer scope name) fun reply _ _ => ?_
    cases reply with
    | settled result => exact makes_pure _
    | passed next => exact ih next

/-- A search for a name. -/
theorem leaves_lookup (scope : SymbolId) (name : String) :
    Makes (Leaves func opened blocks) (lookup scope name) ctx :=
  makes_get_bind (leaves_lookupWithin _ scope name)

/-- A search that has to find something. -/
theorem leaves_require (scope : SymbolId) (name : String) (location : Option Location) :
    Makes (Leaves func opened blocks) (require scope name location) ctx := by
  unfold require
  refine makes_bind (leaves_lookup scope name) fun found _ _ => ?_
  split
  · exact makes_pure _
  · exact makes_throw _

/-! ### Array and map types -/

/-- What follows a new native function in a context that has grown. -/
theorem leaves_addNativeFunc_bind {β : Type} {f : SymbolId → SemaM β} {name : String}
    {ret : TypeRef} {body : HostFunc} {args : List SymbolId} (hold : base.Exists func)
    (hbase : base.Grows ctx)
    (hf : ∀ id ctx', base.Grows ctx' → Makes (Leaves func opened blocks) (f id) ctx') :
    Makes (Leaves func opened blocks) (addNativeFunc name ret 0 body args >>= f) ctx :=
  makes_bind_grown hbase (makes_addNativeFunc _ _ _ _ trivial)
    (leaves_addNativeFunc _ _ _ _ _ (hbase.exists hold)) hf

/-- What follows a new parameter or field in a context that has grown. -/
theorem leaves_nativeParam_bind {β : Type} {f : SymbolId → SemaM β} {name : String}
    {type : TypeRef} (hbase : base.Grows ctx)
    (hf : ∀ id ctx', base.Grows ctx' → Makes (Leaves func opened blocks) (f id) ctx') :
    Makes (Leaves func opened blocks) (nativeParam name type >>= f) ctx :=
  makes_bind_grown hbase (makes_nativeParam _ trivial) (leaves_alloc ⟨rfl, rfl, rfl⟩) hf

/-- A field of the host, and what follows. -/
theorem leaves_addNativeField_bind {β : Type} {f : SymbolId → SemaM β} {name : String}
    {type : TypeRef} {accessor : Accessor} (hbase : base.Grows ctx)
    (hf : ∀ id ctx', base.Grows ctx' → Makes (Leaves func opened blocks) (f id) ctx') :
    Makes (Leaves func opened blocks) (addNativeField name type accessor >>= f) ctx :=
  makes_bind_grown hbase (makes_addNativeField _ _ trivial) (leaves_alloc ⟨rfl, rfl, rfl⟩) hf

/-- A reference, and what follows. -/
theorem leaves_typeRef_bind {β : Type} {f : TypeRef → SemaM β} {t : TypeName}
    (hbase : base.Grows ctx)
    (hf : ∀ type ctx', base.Grows ctx' → Makes (Leaves func opened blocks) (f type) ctx') :
    Makes (Leaves func opened blocks) (typeRef t >>= f) ctx :=
  makes_bind_grown hbase (makes_typeRef _) (leaves_of_slots (slots_typeRef _)) hf

/-- The members of an array class: new functions, and definitions in the class. -/
theorem leaves_addArrayMembers {cls : SymbolId} (item : TypeRef) (storage : ArrayStorage)
    (hcls : ctx.IsClass cls) (hold : ctx.Exists func) :
    Makes (Leaves func opened blocks) (addArrayMembers cls item storage) ctx := by
  unfold addArrayMembers
  refine leaves_typeRef_bind (.refl ctx) fun int _ hgrows => ?_
  refine leaves_typeRef_bind hgrows fun void _ hgrows => ?_
  refine leaves_nativeParam_bind hgrows fun _ _ hgrows => ?_
  refine leaves_addNativeFunc_bind hold hgrows fun add _ hgrows => ?_
  refine leaves_nativeParam_bind hgrows fun _ _ hgrows => ?_
  refine leaves_addNativeFunc_bind hold hgrows fun at_ _ hgrows => ?_
  refine leaves_nativeParam_bind hgrows fun _ _ hgrows => ?_
  refine leaves_nativeParam_bind hgrows fun _ _ hgrows => ?_
  refine leaves_addNativeFunc_bind hold hgrows fun setAt _ hgrows => ?_
  refine leaves_nativeParam_bind hgrows fun _ _ hgrows => ?_
  refine leaves_addNativeFunc_bind hold hgrows fun removeAt _ hgrows => ?_
  refine leaves_addNativeFunc_bind hold hgrows fun clear _ hgrows => ?_
  refine makes_bind_grown hgrows (makes_defineAll _ _) (leaves_defineAll _ hcls hgrows)
    fun _ _ hgrows => ?_
  refine leaves_addNativeField_bind hgrows fun count _ hgrows => ?_
  refine makes_bind_grown hgrows (makes_define _ _) (leaves_define_class _ (hgrows.isClass hcls))
    fun _ _ hgrows => ?_
  refine leaves_nativeParam_bind hgrows fun _ _ hgrows => ?_
  refine leaves_addNativeFunc_bind hold hgrows fun _ _ hgrows => ?_
  exact leaves_define_class _ (hgrows.isClass hcls)

/-- The members of a map class, likewise. -/
theorem leaves_addMapMembers {cls : SymbolId} (key value : TypeRef) (hcls : ctx.IsClass cls)
    (hold : ctx.Exists func) :
    Makes (Leaves func opened blocks) (addMapMembers cls key value) ctx := by
  unfold addMapMembers
  refine leaves_typeRef_bind (.refl ctx) fun void _ hgrows => ?_
  refine leaves_typeRef_bind hgrows fun bool _ hgrows => ?_
  refine leaves_typeRef_bind hgrows fun int _ hgrows => ?_
  refine leaves_addNativeField_bind hgrows fun count _ hgrows => ?_
  refine makes_bind_grown hgrows (makes_define _ _) (leaves_define_class _ (hgrows.isClass hcls))
    fun _ _ hgrows => ?_
  refine makes_bind_grown hgrows (makes_tupleType _) (leaves_of_slots (slots_tupleType _))
    fun pair _ hgrows => ?_
  refine leaves_nativeParam_bind hgrows fun _ _ hgrows => ?_
  refine leaves_nativeParam_bind hgrows fun _ _ hgrows => ?_
  refine leaves_addNativeFunc_bind hold hgrows fun add _ hgrows => ?_
  refine leaves_nativeParam_bind hgrows fun _ _ hgrows => ?_
  refine leaves_addNativeFunc_bind hold hgrows fun remove _ hgrows => ?_
  refine leaves_nativeParam_bind hgrows fun _ _ hgrows => ?_
  refine leaves_addNativeFunc_bind hold hgrows fun contains _ hgrows => ?_
  refine leaves_nativeParam_bind hgrows fun _ _ hgrows => ?_
  refine leaves_addNativeFunc_bind hold hgrows fun tryGet _ hgrows => ?_
  refine leaves_addNativeFunc_bind hold hgrows fun clear _ hgrows => ?_
  exact leaves_defineAll _ hcls hgrows

/-- A new class, before it gets its members. -/
theorem isClass_alloc {s : Symbol} {info : ClassInfo} (hk : s.kind = .classDecl info) :
    ((Edit.alloc s).write ctx).IsClass ctx.nextId :=
  ⟨s, info, ctx.get?_alloc_nextId s, hk⟩

/-- An array class. -/
theorem leaves_addArrayClass (name : String) (item : TypeRef) (registered : Option ArrayStorage)
    (hold : ctx.Exists func) :
    Makes (Leaves func opened blocks) (addArrayClass name item registered) ctx := by
  refine makes_bind (leaves_alloc ⟨rfl, rfl, rfl⟩) fun _ ctx' halloc => ?_
  rw [alloc_run] at halloc
  cases halloc
  exact makes_bind (leaves_addArrayMembers _ _ (isClass_alloc rfl)
    ((ctx.grows_alloc _).exists hold)) fun _ _ _ => makes_pure _

/-- A map class. -/
theorem leaves_addMapClass (name : String) (key value : TypeRef) (hold : ctx.Exists func) :
    Makes (Leaves func opened blocks) (addMapClass name key value) ctx := by
  refine makes_bind (leaves_alloc ⟨rfl, rfl, rfl⟩) fun _ ctx' halloc => ?_
  rw [alloc_run] at halloc
  cases halloc
  exact makes_bind (leaves_addMapMembers _ _ (isClass_alloc rfl)
    ((ctx.grows_alloc _).exists hold)) fun _ _ _ => makes_pure _

/-- A class is registered under its name. -/
theorem leaves_keepStructural (name : String) (cls : SymbolId) :
    Makes (Leaves func opened blocks) (keepStructural name cls) ctx :=
  makes_edit (.keep name cls) trivial rfl

/-- A structural class, made or found. -/
theorem leaves_structuralClass {name : String} {make : SemaM SymbolId}
    (hmake : Makes (Leaves func opened blocks) make ctx) :
    Makes (Leaves func opened blocks) (structuralClass name make) ctx := by
  unfold structuralClass
  refine makes_get_bind ?_
  split
  · exact makes_pure _
  · exact makes_bind hmake fun cls _ _ =>
      makes_bind (leaves_keepStructural name cls) fun _ _ _ => makes_pure _

/-- An array type. -/
theorem leaves_arrayType (item : TypeName) (hold : ctx.Exists func) :
    Makes (Leaves func opened blocks) (arrayType item) ctx := by
  unfold arrayType
  refine leaves_typeRef_bind (.refl ctx) fun type ctx' hgrows => makes_get_bind ?_
  refine makes_bind (leaves_structuralClass ?_) fun _ _ _ => leaves_of_slots (slots_resolvedRef _ _)
  exact leaves_addArrayClass _ _ _ (hgrows.exists hold)

/-- An array type with a storage of its own. -/
theorem leaves_registerArray (item : TypeName) (storage : ArrayStorage) (hold : ctx.Exists func) :
    Makes (Leaves func opened blocks) (registerArray item storage) ctx := by
  unfold registerArray
  refine leaves_typeRef_bind (.refl ctx) fun type ctx₁ hgrows => makes_get_bind ?_
  dsimp only
  split
  · exact makes_throw_bind _ _
  · refine makes_bind (makes_edit (.storage type.name storage) trivial rfl) fun _ ctx₂ hrun => ?_
    -- The storage is written down before the class is made.
    have hold₂ : ctx₂.Exists func := by
      cases hrun
      exact hgrows.exists hold
    refine makes_bind (leaves_addArrayClass _ _ _ hold₂) fun cls _ _ => ?_
    exact makes_bind (leaves_keepStructural _ cls) fun _ _ _ =>
      leaves_of_slots (slots_resolvedRef _ _)

/-- A map type. -/
theorem leaves_mapType (key value : TypeName) (hold : ctx.Exists func) :
    Makes (Leaves func opened blocks) (mapType key value) ctx := by
  unfold mapType
  refine leaves_typeRef_bind (.refl ctx) fun keyRef _ hgrows => ?_
  refine leaves_typeRef_bind hgrows fun valueRef _ hgrows => ?_
  refine makes_bind (leaves_structuralClass ?_) fun _ _ _ => leaves_of_slots (slots_resolvedRef _ _)
  exact leaves_addMapClass _ _ _ (hgrows.exists hold)

/-- What follows a part of an operation. The function is still there. -/
theorem leaves_bind {α β : Type} {m : SemaM α} {f : α → SemaM β} (hold : ctx.Exists func)
    (hm : Makes (Leaves func opened blocks) m ctx)
    (hf : ∀ a ctx', ctx'.Exists func → Makes (Leaves func opened blocks) (f a) ctx') :
    Makes (Leaves func opened blocks) (m >>= f) ctx :=
  makes_bind hm fun a ctx' h => hf a ctx' ((hm.of_ok h).exists hold)

/-- A parsed type. -/
theorem leaves_parsedType (name : String) (isArray : Bool) (parsed : Option ParsedFunc)
    (hold : ctx.Exists func) :
    Makes (Leaves func opened blocks) (parsedType name isArray parsed) ctx := by
  -- All three forms of a parsed type end in the same way.
  have hsuffix : ∀ (type : TypeRef) (ctx' : Context), ctx'.Exists func →
      Makes (Leaves func opened blocks) (if isArray then arrayType (.ref type) else pure type)
        ctx' := by
    intro type ctx' hold
    split
    · exact leaves_arrayType _ hold
    · exact makes_pure _
  unfold parsedType
  refine leaves_bind hold (leaves_of_slots (slots_typeRef _)) fun plain ctx₁ hold => ?_
  dsimp only
  split
  · exact leaves_bind hold (makes_pure _) hsuffix
  · rename_i f
    have hfunc : ∀ (ret : TypeRef) (ctx' : Context), ctx'.Exists func →
        Makes (Leaves func opened blocks) (do
          let params ← parsedParams f.params
          let type ← typeRefOf (.func (.of ret params))
          if isArray then arrayType (.ref type) else pure type) ctx' := by
      intro ret ctx' hold
      refine leaves_bind hold (leaves_of_slots (slots_parsedParams _)) fun params _ hold => ?_
      exact leaves_bind hold (leaves_of_slots (slots_typeRefOf _)) hsuffix
    split
    · exact leaves_bind hold (leaves_arrayType _ hold) hfunc
    · exact leaves_bind hold (makes_pure _) hfunc

end SemaM

/-- The symbol that a call gives a member without asking it: the function around the block that a
definition names, or whatever an item is added to. -/
def Op.unasked? (ctx : Context) : Op → Option SymbolId
  | define scope _ => ctx.frame? scope
  | addItem owner .. => some owner
  | _ => none

/-- The call defines a symbol through a block of the function, or adds an item to the function. -/
def Op.Unseals (ctx : Context) (func : SymbolId) (op : Op) : Prop := op.unasked? ctx = some func

/-- Whether a call can unseal a function is a question about the state. -/
instance (ctx : Context) (func : SymbolId) (op : Op) : Decidable (op.Unseals ctx func) :=
  inferInstanceAs (Decidable (op.unasked? ctx = some func))

/-- The calls that open and close blocks, and those that note variables in blocks or hide them. -/
def Op.handlesBlocks : Op → Bool
  | define .. | markOutOfScope _ | openBlock .. | closeBlock _ => true
  | _ => false

open SemaM Edit in
/-- A call leaves a native function as it is, but for the members that come by way of a block or as
items. Four calls have to do with blocks, and the others leave them alone. -/
theorem Op.next_leaves {func : SymbolId} {opened blocks : Prop} {ctx : Context} (op : Op)
    (hold : ctx.Exists func) (hop : op.Unseals ctx func → opened)
    (hblocks : op.handlesBlocks = true → blocks) :
    Edits (Leaves func opened blocks) ctx (op.next ctx) := by
  show Makes (Leaves func opened blocks) op.exec ctx
  -- One case for each call. The guards are asked for by four of them, and by the items of an enum.
  cases op with
  | link scope => exact makes_edit (.link scope) trivial rfl
  | typeOf => exact makes_forget (leaves_of_slots (slots_typeOf _))
  | typeOfSymbol => exact makes_forget (leaves_of_slots (slots_typeOfSymbol _))
  | returnType => exact makes_forget (leaves_of_slots (slots_returnType _))
  | typeRef => exact makes_forget (leaves_of_slots (slots_typeRef _))
  | resolvedRef => exact makes_forget (leaves_of_slots (slots_resolvedRef _ _))
  | typeRefOf => exact makes_forget (leaves_of_slots (slots_typeRefOf _))
  | arrayType => exact makes_forget (leaves_arrayType _ hold)
  | registerArray => exact makes_forget (leaves_registerArray _ _ hold)
  | mapType => exact makes_forget (leaves_mapType _ _ hold)
  | funcType => exact makes_forget (leaves_of_slots (slots_funcType _ _))
  | tupleType => exact makes_forget (leaves_of_slots (slots_tupleType _))
  | returnsType => exact makes_forget (leaves_of_slots (slots_returnsType _))
  | parsedType => exact makes_forget (leaves_parsedType _ _ _ hold)
  | checkOverload => exact makes_forget (leaves_of_slots (slots_checkOverload _ _))
  | addModule => exact makes_forget (leaves_alloc ⟨rfl, rfl, rfl⟩)
  | addVariable => exact makes_forget (leaves_alloc ⟨rfl, rfl, rfl⟩)
  | addParam => exact makes_forget (leaves_alloc ⟨rfl, rfl, rfl⟩)
  | define scope sym => exact leaves_define sym hop fun _ => hblocks rfl
  | markOutOfScope => exact leaves_markOutOfScope _ (hblocks rfl)
  | openBlock => exact makes_forget (leaves_openBlock _ _ (hblocks rfl))
  | closeBlock => exact leaves_closeBlock _ (hblocks rfl)
  | lookup => exact makes_forget (leaves_lookup _ _)
  | require => exact makes_forget (leaves_require _ _ _)
  | addNativeFunc => exact makes_forget (leaves_addNativeFunc _ _ _ _ _ hold)
  | addScriptFunc => exact makes_forget (leaves_alloc ⟨rfl, rfl, rfl⟩)
  | addLambda => exact makes_forget (leaves_addLambda _ _ _ _)
  | defineArg => exact leaves_defineArg _ _ _
  | addClass => exact makes_forget (leaves_addClass _ _ _ _)
  | addNativeClass => exact makes_forget (leaves_addNativeClass _ _ _)
  | addField => exact makes_forget (leaves_alloc ⟨rfl, rfl, rfl⟩)
  | addNativeField => exact makes_forget (leaves_alloc ⟨rfl, rfl, rfl⟩)
  | classCreator => exact makes_forget (leaves_of_slots (slots_classCreator _))
  | instantiate cls frame =>
    rw [Makes, exec, after_instantiateIn]
    exact leaves_of_slots (slots_classCreator cls)
  | overloadOperator => exact leaves_overloadOperator _ _
  | addEnum => exact makes_forget (leaves_alloc ⟨rfl, rfl, rfl⟩)
  | addItem =>
    exact makes_forget (leaves_addItem _ _ _ fun h => hop (congrArg some h))

/-- The contract of a native function lasts. -/
theorem Op.runs_contract?_eq {ctx : Context} {func : SymbolId} (hn : ctx.IsNative func)
    (ops : List Op) : (Op.runs ctx ops).contract? func = ctx.contract? func := by
  induction ops generalizing ctx with
  | nil => rfl
  | cons op rest ih =>
    have hedits : Edits (Edit.Leaves func True True) ctx (op.next ctx) :=
      op.next_leaves hn.exists (fun _ => trivial) fun _ => trivial
    exact (ih (hedits.isNative hn)).trans (hedits.contract?_eq hn)

/-- A native function stays one for good. -/
theorem Op.runs_isNative {ctx : Context} {func : SymbolId} (hn : ctx.IsNative func)
    (ops : List Op) : (Op.runs ctx ops).IsNative func := by
  obtain ⟨c, hc, hnative⟩ := hn
  exact ⟨c, (Op.runs_contract?_eq ⟨c, hc, hnative⟩ ops).trans hc, hnative⟩

/-- So do its members if no call opens it. -/
theorem Op.runs_members?_eq {ctx : Context} {func : SymbolId} (hn : ctx.IsNative func)
    {ops : List Op} (hops : Op.AllAllowed (fun ctx op => ¬op.Unseals ctx func) ctx ops) :
    (Op.runs ctx ops).members? func = ctx.members? func := by
  induction ops generalizing ctx with
  | nil => rfl
  | cons op rest ih =>
    have hedits : Edits (Edit.Leaves func False True) ctx (op.next ctx) :=
      op.next_leaves hn.exists hops.1 fun _ => trivial
    exact (ih (hedits.isNative hn) hops.2).trans (hedits.members?_eq hn)

/-! ### What the two ways in do -/

/-- The symbol has got one member more. -/
def Context.Gains (ctx : Context) (id : SymbolId) (ctx' : Context) : Prop :=
  ∃ entries entry, ctx.members? id = some entries ∧ ctx'.members? id = some (entries ++ [entry])

namespace Context

variable {ctx ctx' : Context} {id scope sym func : SymbolId} {s o : Symbol}

/-- Who gains a member has other members than before. -/
theorem Gains.ne (h : ctx.Gains id ctx') : ctx'.members? id ≠ ctx.members? id := by
  obtain ⟨entries, entry, hbefore, hafter⟩ := h
  rw [hbefore, hafter]
  simp

/-- An entry under a new name is a gain. -/
theorem gains_enter (hs : ctx.arena.get? sym = some s) (ho : ctx.arena.get? scope = some o)
    (hnew : s.name ∉ o.members.keys) : ctx.Gains scope ((Edit.enter scope sym).write ctx) := by
  obtain ⟨o', ho', -, hmembers⟩ := get?_enter_scope hs ho hnew
  exact ⟨_, _, members?_of_get? ho, (members?_of_get? ho').trans (congrArg some hmembers)⟩

end Context

namespace SemaM

variable {ctx : Context} {func : SymbolId}

/-- A definition through a block of a function is refused, or the function gets the symbol. No one
asks whether the function is a native one. -/
theorem define_block_cases {block : SymbolId} (sym : SymbolId)
    (hframe : ctx.frame? block = some func) :
    (∃ e, define block sym ctx = .error e ctx) ∨
      ∃ ctx', define block sym ctx = .ok () ctx' ∧ ctx.Gains func ctx' := by
  obtain ⟨p, hp, hframe⟩ := Option.bind_eq_some_iff.mp hframe
  obtain ⟨b, hk, rfl⟩ : ∃ b, p.kind = .block b ∧ b.func = func := by
    cases hk : p.kind with
    | block b =>
      rw [hk] at hframe
      exact ⟨b, rfl, Option.some.inj hframe⟩
    | _ =>
      rw [hk] at hframe
      cases hframe
  have howner : ctx.ownerFor block sym = .ok b.func := by
    simp only [Context.ownerFor, Context.symbol_of_get? hp, bind, Except.bind, hk]
    rfl
  -- The only check left is that of the name.
  unfold define
  rw [bind_of_ok (query_of_ok howner)]
  rcases enter_cases b.func sym with ⟨e, hfails⟩ | ⟨s, o, hs, ho, hnew, henters⟩
  · exact Or.inl ⟨e, bind_of_error hfails⟩
  · right
    obtain ⟨t, ht, -⟩ := Context.get?_enter_sym hs ho hnew
    obtain ⟨q, hq, hgrows⟩ := (Context.grows_enter hs ho hnew).symbols block p hp
    obtain ⟨b', hk', -⟩ := hgrows.kind.of_block hk
    refine ⟨(Edit.nest block sym b'.level).write ((Edit.enter b.func sym).write ctx), ?_, ?_⟩
    · rw [bind_of_ok henters, bind_of_ok (symbol_run hq)]
      simp only [hk']
      exact nest_run b'.level ht hq
    · obtain ⟨entries, entry, hbefore, hafter⟩ := Context.gains_enter hs ho hnew
      exact ⟨entries, entry, hbefore, by rw [Context.members?_nest, hafter]⟩

/-- An item is refused, or whatever it is added to gets it. -/
theorem addItem_cases {owner : SymbolId} {o : Symbol} (name : String) (value : Int)
    (location : Option Location) (ho : ctx.arena.get? owner = some o) :
    (∃ e ctx', addItem owner name value location ctx = .error e ctx' ∧
        ctx'.members? owner = ctx.members? owner) ∨
      ∃ item ctx', addItem owner name value location ctx = .ok item ctx' ∧
        ctx.Gains owner ctx' := by
  unfold addItem
  rw [bind_of_ok (symbol_run ho)]
  cases hcheck : ctx.checkItem (Location.describe location name) o.name name value
      o.members.entries with
  | error e => exact Or.inl ⟨e, ctx, bind_of_error (query_of_error hcheck), rfl⟩
  | ok u =>
    have htype : resolvedRef o.name (.enumOf owner) ctx
        = .ok { name := o.name, slot := ⟨ctx.slots.size⟩ }
          ((Edit.newSlot (some (.enumOf owner))).write ctx) := rfl
    rw [bind_of_ok (query_of_ok hcheck), bind_of_ok htype, bind_of_ok (alloc_run _)]
    -- The owner is not touched before the item is entered.
    have hsame : ∀ item : Symbol, ((Edit.alloc item).write
        ((Edit.newSlot (some (.enumOf owner))).write ctx)).members? owner = ctx.members? owner := by
      intro item
      exact Context.members?_alloc _ item ⟨o, ho⟩
    rcases enter_cases owner _ with ⟨e, hfails⟩ | ⟨s, p, hs, hp, hnew, henters⟩
    · exact Or.inl ⟨e, _, bind_of_error hfails, hsame _⟩
    · obtain ⟨entries, entry, hbefore, hafter⟩ := Context.gains_enter hs hp hnew
      exact Or.inr ⟨_, _, bind_of_ok henters, entries, entry, (hsame _).symm.trans hbefore, hafter⟩

/-- A native function without members of its own takes no parameter. -/
theorem defineArg_of_native {arg : SymbolId} {o s : Symbol} {info : FuncInfo} (hasDefault : Bool)
    (hn : ctx.IsNative func) (ho : ctx.arena.get? func = some o) (hk : o.kind = .func info)
    (hsize : o.members.size = info.signature.params.length) (hs : ctx.arena.get? arg = some s) :
    defineArg func arg hasDefault ctx = .error (.defineNotAllowed s.place o.name) ctx := by
  unfold defineArg
  rw [bind_of_ok (query_of_ok (Context.func_of_get? ho hk))]
  simp only [ne_eq, hsize, not_true_eq_false, if_false]
  exact bind_of_error (bind_of_error (query_of_error (Context.ownerFor_of_native hn ho hs)))

end SemaM

namespace Op

variable {ctx : Context} {func : SymbolId}

/-- Each of the two ways in gives the function one member more, or fails and gives it none. -/
theorem unseals_cases {op : Op} (hold : ctx.Exists func) (hop : op.Unseals ctx func) :
    (∃ e ctx', op.exec ctx = .error e ctx' ∧ ctx'.members? func = ctx.members? func) ∨
      ∃ ctx', op.exec ctx = .ok () ctx' ∧ ctx.Gains func ctx' := by
  cases op with
  | define scope sym =>
    rcases SemaM.define_block_cases sym hop with ⟨e, hfails⟩ | hgains
    · exact Or.inl ⟨e, ctx, hfails, rfl⟩
    · exact Or.inr hgains
  | addItem owner name value location =>
    cases hop
    obtain ⟨o, ho⟩ := hold
    rcases SemaM.addItem_cases name value location ho with
      ⟨e, ctx', hfails, hsame⟩ | ⟨item, ctx', hadds, hgains⟩
    · exact Or.inl ⟨e, ctx', SemaM.bind_of_error hfails, hsame⟩
    · exact Or.inr ⟨ctx', SemaM.bind_of_ok hadds, hgains⟩
  | _ => cases hop

/-- There is no third way to a member of a native function. -/
theorem members?_ne_iff (op : Op) (hn : ctx.IsNative func) :
    (op.next ctx).members? func ≠ ctx.members? func ↔
      op.Unseals ctx func ∧ ∃ ctx', op.exec ctx = .ok () ctx' := by
  constructor
  · intro hne
    by_cases hop : op.Unseals ctx func
    · -- A call that fails half way has not reached the members.
      rcases unseals_cases hn.exists hop with ⟨e, ctx', hfails, hsame⟩ | ⟨ctx', hruns, -⟩
      · rw [next, SemaM.after, hfails] at hne
        exact absurd hsame hne
      · exact ⟨hop, ctx', hruns⟩
    · have hedits : Edits (Edit.Leaves func False True) ctx (op.next ctx) :=
        op.next_leaves hn.exists hop fun _ => trivial
      exact absurd (hedits.members?_eq hn) hne
  · rintro ⟨hop, ctx', hruns⟩
    rcases unseals_cases hn.exists hop with ⟨e, ctx₁, hfails, -⟩ | ⟨ctx₁, hruns', hgains⟩
    · rw [hruns] at hfails
      cases hfails
    · rw [next, SemaM.after_ok hruns']
      exact hgains.ne

end Op

/-- After a native function is made, nothing changes its signature or its number of defaults, and no
definition that names it succeeds. Its members change exactly when a symbol is defined through one
of its blocks or an item is added to it. As long as neither happens it has the members that it was
made with, and refuses parameters with the same error. -/
theorem native_func_sealed {ctx₀ ctx₁ : Context} {name : String} {ret : TypeRef} {defaults : Nat}
    {body : HostFunc} {args : List SymbolId} {func : SymbolId}
    (hmade : SemaM.addNativeFunc name ret defaults body args ctx₀ = .ok func ctx₁)
    (ops : List Op) :
    let ctx := Op.runs ctx₁ ops
    ctx.signature func = ctx₁.signature func ∧
    ctx.totalArgs func = .ok args.length ∧
    ctx.defaultArgs func = .ok defaults ∧
    (∀ sym s, ctx.arena.get? sym = some s →
      SemaM.define func sym ctx = .error (.defineNotAllowed s.place name) ctx) ∧
    (∀ op : Op, (op.next ctx).members? func ≠ ctx.members? func ↔
      op.Unseals ctx func ∧ ∃ ctx', op.exec ctx = .ok () ctx') ∧
    (Op.AllAllowed (fun ctx op => ¬op.Unseals ctx func) ctx₁ ops →
      ctx.members? func = ctx₁.members? func ∧
      ∀ arg s hasDefault, ctx.arena.get? arg = some s →
        SemaM.defineArg func arg hasDefault ctx = .error (.defineNotAllowed s.place name) ctx) := by
  intro ctx
  obtain ⟨o₁, info₁, ho₁, hk₁, hname₁, hflavor, hdefaults, -, hsize, hlength⟩ :=
    SemaM.addNativeFunc_eq_ok hmade
  have hn₁ : ctx₁.IsNative func :=
    Context.isNative_iff.mpr ⟨o₁, info₁, ho₁, hk₁, by rw [hflavor]; rfl⟩
  have hn : ctx.IsNative func := Op.runs_isNative hn₁ ops
  obtain ⟨o, info, ho, hk, -⟩ := Context.isNative_iff.mp hn
  have hname : o.name = name := by
    obtain ⟨o', ho', hgrows⟩ := (Op.runs_grows ctx₁ ops).symbols func o₁ ho₁
    rw [ho] at ho'
    cases ho'
    exact hgrows.name.trans hname₁
  -- What the function was made with is all in its contract, and that stays.
  have hcontract : info.contract = info₁.contract := by
    have heq := Op.runs_contract?_eq hn₁ ops
    rw [Context.contract?_of_get? ho, Symbol.contract?_of_func hk, Context.contract?_of_get? ho₁,
      Symbol.contract?_of_func hk₁] at heq
    exact Option.some.inj heq
  have hsig : info.signature = info₁.signature := congrArg Contract.signature hcontract
  have hdef : info.defaults = info₁.defaults := congrArg Contract.defaults hcontract
  refine ⟨?_, ?_, ?_, ?_, ?_, ?_⟩
  · rw [Context.signature_of_get? ho hk, Context.signature_of_get? ho₁ hk₁, hsig]
  · rw [Context.totalArgs_of_get? ho hk, hsig, hlength]
  · rw [Context.defaultArgs_of_get? ho hk, hdef, hdefaults]
  · intro sym s hs
    rw [← hname]
    exact SemaM.bind_of_error (SemaM.query_of_error (Context.ownerFor_of_native hn ho hs))
  · intro op
    exact op.members?_ne_iff hn
  · intro hops
    have hmembers := Op.runs_members?_eq hn₁ hops
    refine ⟨hmembers, ?_⟩
    intro arg s hasDefault hs
    -- No member was added, so the function still looks as if it could take an argument. It refuses
    -- because it is native.
    have hentries : o.members.entries = o₁.members.entries := by
      rw [Context.members?_of_get? ho, Context.members?_of_get? ho₁] at hmembers
      exact Option.some.inj hmembers
    rw [← hname]
    refine SemaM.defineArg_of_native hasDefault hn ho hk ?_ hs
    rw [hsig, hlength, ← hsize, Assoc.size, hentries, Assoc.size]

/-- A native function with these parameters. -/
def sealedFunc (args : List SymbolId) : SemaM SymbolId :=
  SemaM.addNativeFunc "f" { name := "void", slot := ⟨2⟩ } 0 (fun _ => pure .done) args

/-- A parameter, before there is a function that has it. -/
def unsealedStart : Context :=
  (Op.addParam "a" { name := "int", slot := ⟨0⟩ } false none).next .initial

/-- The state in which the function was just made. -/
def sealedStart : Context := SemaM.after (sealedFunc [⟨85⟩]) unsealedStart

/-- A definition in the function and one more parameter, both refused, and a block that stays
empty. -/
def sealedRun : List Op :=
  let int : TypeRef := { name := "int", slot := ⟨0⟩ }
  [.addVariable "v" int none, .define ⟨86⟩ ⟨87⟩, .addParam "b" int false none,
    .defineArg ⟨86⟩ ⟨88⟩ true, .openBlock ⟨86⟩ none]

/-- A variable is defined in a block of a native function. -/
def openedRun : List Op :=
  [.openBlock ⟨85⟩ none, .addVariable "v" { name := "int", slot := ⟨0⟩ } none, .define ⟨86⟩ ⟨87⟩]

/-- What the runs below leave behind. -/
theorem sealedRun_facts :
    (sealedFunc [⟨85⟩]).run' unsealedStart = some ⟨86⟩ ∧
    Op.AllAllowed (fun ctx op => ¬op.Unseals ctx ⟨86⟩) sealedStart sealedRun ∧
    sealedStart.members? ⟨86⟩ = some [("a", ⟨85⟩)] ∧
    ((Op.runs sealedStart sealedRun).arena.get? ⟨88⟩).map (·.place) = some "b(?)" ∧
    (sealedFunc []).run' .initial = some ⟨85⟩ ∧
    (SemaM.after (sealedFunc []) .initial).members? ⟨85⟩ = some [] ∧
    (Op.runs (SemaM.after (sealedFunc []) .initial) openedRun).members? ⟨85⟩
      = some [("v", ⟨87⟩)] := by
  decide +kernel

/-- The function has the parameter that it was made with, and refuses another one. -/
theorem native_func_sealed_sealedRun :
    sealedFunc [⟨85⟩] unsealedStart = .ok ⟨86⟩ sealedStart ∧
    Op.AllAllowed (fun ctx op => ¬op.Unseals ctx ⟨86⟩) sealedStart sealedRun ∧
    (Op.runs sealedStart sealedRun).totalArgs ⟨86⟩ = .ok 1 ∧
    (Op.runs sealedStart sealedRun).members? ⟨86⟩ = some [("a", ⟨85⟩)] ∧
    SemaM.defineArg ⟨86⟩ ⟨88⟩ true (Op.runs sealedStart sealedRun)
      = .error (.defineNotAllowed "b(?)" "f") (Op.runs sealedStart sealedRun) := by
  obtain ⟨hid, hops, hmembers, hplace, -⟩ := sealedRun_facts
  have hmade : sealedFunc [⟨85⟩] unsealedStart = .ok ⟨86⟩ sealedStart := SemaM.eq_ok_of_run' hid
  obtain ⟨-, htotal, -, -, -, hsealed⟩ := native_func_sealed hmade sealedRun
  -- None of the calls of this run can open the function.
  obtain ⟨hsame, hrefuses⟩ := hsealed hops
  obtain ⟨s, hs, hplace⟩ := Option.map_eq_some_iff.mp hplace
  refine ⟨hmade, hops, htotal, hsame.trans hmembers, ?_⟩
  rw [hrefuses ⟨88⟩ s true hs, hplace]

/-- The function takes the variable in. -/
theorem native_func_gains_block_variable :
    (sealedFunc []).run' .initial = some ⟨85⟩ ∧
    (SemaM.after (sealedFunc []) .initial).members? ⟨85⟩ = some [] ∧
    (Op.runs (SemaM.after (sealedFunc []) .initial) openedRun).members? ⟨85⟩
      = some [("v", ⟨87⟩)] := by
  obtain ⟨-, -, -, -, hid, hbefore, hafter⟩ := sealedRun_facts
  exact ⟨hid, hbefore, hafter⟩

end Sema

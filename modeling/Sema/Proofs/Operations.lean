import Sema.Context.Check
import Sema.Context.Enum
import Sema.Proofs.Growth
import Sema.Proofs.TypeNames

/-!
# `Sema.Proofs.Operations`: every operation is a sequence of edits

One lemma per operation, along its own definition. What an operation does before it fails counts as
well: `SemaM.Makes` speaks about the context that is left behind in either case.

Almost all operations make `Quiet` edits. Array and map types also register a class, so they make
`Plain` edits. Lambdas and inheriting classes make one edit more. A look-up changes nothing until it
captures, so `makes_lookup` asks only for what a lambda's captures do.
-/

set_option autoImplicit false

namespace Sema

/-- The reference that a type is given by, if it is given by one. -/
def TypeName.refs : TypeName → List TypeRef
  | .name _ => []
  | .ref type => [type]

namespace Context

variable {ctx : Context}

/-- Reading a symbol succeeds exactly if its id names one. -/
theorem symbol_eq_ok_iff {id : SymbolId} {s : Symbol} :
    ctx.symbol id = .ok s ↔ ctx.arena.get? id = some s := by
  unfold symbol
  cases ctx.arena.get? id <;> simp

/-- An existing symbol is what reading its id gives. -/
theorem symbol_of_get? {id : SymbolId} {s : Symbol} (h : ctx.arena.get? id = some s) :
    ctx.symbol id = .ok s :=
  symbol_eq_ok_iff.mpr h

/-- A reading step that succeeds succeeds in both of its parts. -/
theorem except_bind_eq_ok {α β : Type} {x : Except CompileError α} {f : α → Except CompileError β}
    {b : β} (h : (x >>= f) = .ok b) : ∃ a, x = .ok a ∧ f a = .ok b := by
  cases x with
  | ok a => exact ⟨a, rfl, h⟩
  | error e => cases h

/-- A function with what is particular to it. -/
theorem func_eq_ok {id : SymbolId} {s : Symbol} {info : FuncInfo}
    (h : ctx.func id = .ok (s, info)) : ctx.arena.get? id = some s ∧ s.kind = .func info := by
  obtain ⟨t, ht, hrest⟩ := except_bind_eq_ok h
  cases hk : t.kind with
  | func i =>
    rw [hk] at hrest
    cases hrest
    exact ⟨symbol_eq_ok_iff.mp ht, hk⟩
  | _ =>
    rw [hk] at hrest
    cases hrest

/-- The members that a new class takes over are those of its super class. -/
theorem inherited_eq_ok {parent : SymbolId} {place : String} {members : Members}
    (h : ctx.inherited (some parent) place = .ok members) :
    ∃ o info, ctx.arena.get? parent = some o ∧ o.kind = .classDecl info ∧ o.members = members := by
  obtain ⟨o, ho, hrest⟩ := except_bind_eq_ok h
  cases hk : o.kind with
  | classDecl info =>
    rw [hk] at hrest
    cases hrest
    exact ⟨o, info, symbol_eq_ok_iff.mp ho, hk, rfl⟩
  | _ =>
    rw [hk] at hrest
    cases hrest

end Context

namespace SemaM

open Edit

variable {rules : Rules} {ctx : Context}

/-! ### Running a computation -/

/-- A step that succeeds hands its result and its context on. -/
theorem bind_of_ok {α β : Type} {m : SemaM α} {f : α → SemaM β} {a : α} {ctx' : Context}
    (h : m ctx = .ok a ctx') : (m >>= f) ctx = f a ctx' := by
  have hbind : (m >>= f) ctx = EStateM.bind m f ctx := rfl
  rw [hbind, EStateM.bind, h]

/-- A step that fails ends the computation in the context that it left. -/
theorem bind_of_error {α β : Type} {m : SemaM α} {f : α → SemaM β} {e : CompileError}
    {ctx' : Context} (h : m ctx = .error e ctx') : (m >>= f) ctx = .error e ctx' := by
  have hbind : (m >>= f) ctx = EStateM.bind m f ctx := rfl
  rw [hbind, EStateM.bind, h]

/-- A computation that succeeds came through its first step. -/
theorem bind_eq_ok {α β : Type} {m : SemaM α} {f : α → SemaM β} {b : β} {last : Context}
    (h : (m >>= f) ctx = .ok b last) : ∃ a ctx', m ctx = .ok a ctx' ∧ f a ctx' = .ok b last := by
  cases hm : m ctx with
  | ok a ctx' =>
    rw [bind_of_ok hm] at h
    exact ⟨a, ctx', rfl, h⟩
  | error e ctx' =>
    rw [bind_of_error hm] at h
    cases h

/-- A question that has an answer leaves the context alone. -/
theorem query_of_ok {α : Type} {read : Context → Except CompileError α} {a : α}
    (h : read ctx = .ok a) : query read ctx = .ok a ctx := by
  simp [query, h]

/-- A question without an answer fails and leaves the context alone. -/
theorem query_of_error {α : Type} {read : Context → Except CompileError α} {e : CompileError}
    (h : read ctx = .error e) : query read ctx = .error e ctx := by
  simp [query, h]

/-- An answer was read from the context, which is still the same. -/
theorem query_eq_ok {α : Type} {read : Context → Except CompileError α} {a : α} {ctx' : Context}
    (h : query read ctx = .ok a ctx') : read ctx = .ok a ∧ ctx' = ctx := by
  cases hr : read ctx with
  | ok b =>
    rw [query_of_ok hr] at h
    cases h
    exact ⟨rfl, rfl⟩
  | error e =>
    rw [query_of_error hr] at h
    cases h

/-- An existing symbol is read and nothing changes. -/
theorem symbol_run {id : SymbolId} {s : Symbol} (h : ctx.arena.get? id = some s) :
    symbol id ctx = .ok s ctx :=
  query_of_ok (Context.symbol_of_get? h)

/-- A new symbol gets the next id, by one edit. -/
theorem alloc_run (s : Symbol) : alloc s ctx = .ok ctx.nextId ((Edit.alloc s).write ctx) := rfl

/-- An existing symbol is updated in place. -/
theorem modifySymbol_run {id : SymbolId} {s : Symbol} (f : Symbol → Symbol)
    (h : ctx.arena.get? id = some s) : modifySymbol id f ctx = .ok () (ctx.update id f) := by
  simp [modifySymbol, Context.update, h]

/-! ### Type references -/


/-- A new slot is one edit. -/
theorem makes_newSlot (content : Option Ty) : Makes (Quiet rules) (newSlot content) ctx :=
  makes_edit (.newSlot content) (.newSlot content) rfl

/-- A reference by name makes its slot and leaves it empty. -/
theorem makes_namedRef (name : String) : Makes (Quiet rules) (namedRef name) ctx :=
  makes_bind (makes_newSlot none) fun _ _ _ => makes_pure _

/-- A reference to a known type makes its slot and fills it at once. -/
theorem makes_resolvedRef (name : String) (t : Ty) : Makes (Quiet rules) (resolvedRef name t) ctx :=
  makes_bind (makes_newSlot (some t)) fun _ _ _ => makes_pure _

/-- A look-up of a type writes the slot of its reference, and only if that was empty. -/
theorem makes_typeOf {type : TypeRef}
    (htype : rules.Allows ctx.slots.size type ∨ ctx.Mentions type.slot type.name) :
    Makes (Quiet rules) (typeOf type) ctx := by
  unfold typeOf
  refine makes_get_bind ?_
  -- A slot that is filled answers without a look-up, and so without an edit.
  cases hslot : ctx.slotType? type.slot with
  | some t => exact makes_pure t
  | none =>
    refine makes_query_bind fun t ht => ?_
    have hbind : Makes (Quiet rules) (bindSlot type.slot t) ctx :=
      makes_edit (.fill type.slot t) (.fill hslot ht htype) rfl
    exact makes_bind hbind fun _ _ _ => makes_pure t

/-- The type of a symbol is known, or is that of the reference that the symbol mentions. -/
theorem makes_typeOfSymbol (id : SymbolId) : Makes (Quiet rules) (typeOfSymbol id) ctx := by
  unfold typeOfSymbol
  refine makes_symbol_bind fun s hs => ?_
  split
  · exact makes_pure _
  · split
    · rename_i type htype
      exact makes_typeOf (Or.inr ⟨id, s, type, hs, rfl, rfl, Or.inl htype⟩)
    · exact makes_query _

/-- The result type of a function is that of the reference in its signature. -/
theorem makes_returnType (func : SymbolId) : Makes (Quiet rules) (returnType func) ctx := by
  refine makes_query_bind fun signature hsignature => makes_typeOf (Or.inr ?_)
  obtain ⟨⟨s, info⟩, hfunc, hpure⟩ := Context.except_bind_eq_ok hsignature
  obtain ⟨hs, hk⟩ := Context.func_eq_ok hfunc
  cases hpure
  exact ⟨func, s, _, hs, rfl, rfl, Or.inr ⟨info, hk, rfl⟩⟩

/-- A type given by a reference is taken over, and one given by a name gets a new reference. -/
theorem makes_typeRef (t : TypeName) : Makes (Quiet rules) (typeRef t) ctx := by
  unfold typeRef
  split
  · exact makes_pure _
  · split
    · exact makes_throw _
    · exact makes_namedRef _

/-- What was just made may be used from then on. -/
theorem allows_of_namedRef {name : String} {type : TypeRef} {ctx' : Context}
    (hbase : rules.base ≤ ctx.slots.size) (h : namedRef name ctx = .ok type ctx') :
    rules.Allows ctx'.slots.size type := by
  cases h
  rw [Array.size_push]
  exact rules.refs_made hbase

/-- The same for a reference that is filled at once. -/
theorem allows_of_resolvedRef {name : String} {t : Ty} {type : TypeRef} {ctx' : Context}
    (hbase : rules.base ≤ ctx.slots.size) (h : resolvedRef name t ctx = .ok type ctx') :
    rules.Allows ctx'.slots.size type := by
  cases h
  rw [Array.size_push]
  exact rules.refs_made hbase

/-- What refers to a type may be used if it was made here, or if it was given and may be used. -/
theorem allows_of_typeRef {t : TypeName} {type : TypeRef} {ctx' : Context}
    (hbase : rules.base ≤ ctx.slots.size)
    (hrefs : ∀ type ∈ t.refs, rules.Allows ctx.slots.size type)
    (h : typeRef t ctx = .ok type ctx') : rules.Allows ctx'.slots.size type := by
  cases t with
  | ref given =>
    cases h
    exact hrefs _ (List.mem_singleton.mpr rfl)
  | name name =>
    by_cases hbad : (name.isEmpty || isCompound name) = true
    · simp only [typeRef, hbad, if_true] at h
      cases h
    · simp only [typeRef, hbad] at h
      exact allows_of_namedRef hbase h

/-- What follows a reference that may be used. -/
theorem makes_ref_bind {β : Type} {m : SemaM TypeRef} {f : TypeRef → SemaM β}
    (hm : Makes (Quiet rules) m ctx)
    (hallows : ∀ type ctx', m ctx = .ok type ctx' → rules.Allows ctx'.slots.size type)
    (hf : ∀ type ctx', ctx.slots.size ≤ ctx'.slots.size → rules.Allows ctx'.slots.size type →
      Makes (Quiet rules) (f type) ctx') : Makes (Quiet rules) (m >>= f) ctx :=
  makes_bind hm fun type ctx' h => hf type ctx' (hm.slots_size_le h) (hallows type ctx' h)

/-- After a name was turned into a reference, the rest may use it. -/
theorem makes_typeRef_bind {β : Type} {name : String} {f : TypeRef → SemaM β}
    (hbase : rules.base ≤ ctx.slots.size)
    (hf : ∀ type ctx', ctx.slots.size ≤ ctx'.slots.size → rules.Allows ctx'.slots.size type →
      Makes (Quiet rules) (f type) ctx') :
    Makes (Quiet rules) (typeRef (.name name) >>= f) ctx :=
  makes_ref_bind (makes_typeRef _) (fun _ _ => allows_of_typeRef hbase (List.forall_mem_nil _)) hf

/-- Several types are turned into references one after the other. -/
theorem makes_typeRefs (ts : List TypeName) : Makes (Quiet rules) (typeRefs ts) ctx := by
  induction ts generalizing ctx with
  | nil => exact makes_pure _
  | cons t rest ih =>
    exact makes_bind (makes_typeRef t) fun _ _ _ => makes_bind ih fun _ _ _ => makes_pure _

/-- A resolved type gets a reference under its own name. -/
theorem makes_typeRefOf (t : Ty) : Makes (Quiet rules) (typeRefOf t) ctx :=
  makes_query_bind fun _ _ => makes_resolvedRef _ _

/-- The reference to a resolved type may be used. -/
theorem allows_of_typeRefOf {t : Ty} {type : TypeRef} {ctx' : Context}
    (hbase : rules.base ≤ ctx.slots.size) (h : typeRefOf t ctx = .ok type ctx') :
    rules.Allows ctx'.slots.size type := by
  obtain ⟨name, ctx₁, hname, hrest⟩ := bind_eq_ok h
  obtain ⟨-, rfl⟩ := query_eq_ok hname
  exact allows_of_resolvedRef hbase hrest

/-- A function type makes references for its parts and then one for itself. -/
theorem makes_funcType (ret : TypeName) (params : List TypeName) :
    Makes (Quiet rules) (funcType ret params) ctx :=
  makes_bind (makes_typeRef ret) fun _ _ _ =>
    makes_bind (makes_typeRefs params) fun _ _ _ => makes_typeRefOf _

/-- The reference to a function type may be used, whatever was made for its parts before. -/
theorem allows_of_funcType {ret : TypeName} {params : List TypeName} {type : TypeRef}
    {ctx' : Context} (hbase : rules.base ≤ ctx.slots.size)
    (h : funcType ret params ctx = .ok type ctx') : rules.Allows ctx'.slots.size type := by
  obtain ⟨_, ctx₁, hret, hrest⟩ := bind_eq_ok h
  obtain ⟨_, ctx₂, hparams, hrest⟩ := bind_eq_ok hrest
  have hmakes₁ : Makes (Quiet rules) (typeRef ret) ctx := makes_typeRef _
  have hmakes₂ : Makes (Quiet rules) (typeRefs params) ctx₁ := makes_typeRefs _
  have hle := (hmakes₁.slots_size_le hret).trans (hmakes₂.slots_size_le hparams)
  exact allows_of_typeRefOf (hbase.trans hle) hrest

/-- A tuple makes references for its items and then one for itself. -/
theorem makes_tupleType (items : List TypeName) : Makes (Quiet rules) (tupleType items) ctx :=
  makes_bind (makes_typeRefs items) fun _ _ _ => makes_typeRefOf _

/-- The reference to a tuple may be used. -/
theorem allows_of_tupleType {items : List TypeName} {type : TypeRef} {ctx' : Context}
    (hbase : rules.base ≤ ctx.slots.size) (h : tupleType items ctx = .ok type ctx') :
    rules.Allows ctx'.slots.size type := by
  obtain ⟨_, ctx₁, hitems, hrest⟩ := bind_eq_ok h
  have hmakes : Makes (Quiet rules) (typeRefs items) ctx := makes_typeRefs _
  exact allows_of_typeRefOf (hbase.trans (hmakes.slots_size_le hitems)) hrest

/-- Nothing, the one type, or a tuple: each is made as above. -/
theorem makes_returnsType (items : List TypeRef) : Makes (Quiet rules) (returnsType items) ctx := by
  unfold returnsType
  split
  · exact makes_typeRef _
  · exact makes_pure _
  · exact makes_typeRefOf _

/-- The parameters of a parsed function type are turned into references in order. -/
theorem makes_parsedParams (ps : List ParsedParam) : Makes (Quiet rules) (parsedParams ps) ctx := by
  induction ps generalizing ctx with
  | nil => exact makes_pure _
  | cons p rest ih =>
    exact makes_bind (makes_typeRef _) fun _ _ _ => makes_bind ih fun _ _ _ => makes_pure _

/-- Checking an overload looks types up and edits nothing else. -/
theorem makes_checkOverload (right : TypedExpr) (func : SymbolId) :
    Makes (Quiet rules) (checkOverload right func) ctx := by
  unfold checkOverload
  refine makes_query_bind fun param _ => ?_
  refine makes_bind (makes_typeOfSymbol param) fun type _ _ => ?_
  exact makes_query_bind fun _ _ => makes_returnType func

/-! ### New symbols -/

/-- A module is a new symbol that is owned by the global scope. -/
theorem makes_addModule (name : String) : Makes (Quiet rules) (addModule name) ctx := by
  refine makes_alloc (.alloc ⟨rfl, rfl, rfl, trivial, nofun, nofun, ?_⟩)
  intro p hp
  cases hp
  exact Or.inl rfl

/-- A variable is a new symbol, if its type may be used. -/
theorem makes_addVariable {type : TypeRef} (name : String) (location : Option Location)
    (htype : rules.Allows ctx.slots.size type) :
    Makes (Quiet rules) (addVariable name type location) ctx :=
  makes_alloc (.alloc ⟨rfl, rfl, rfl, trivial, fun _ => rfl, fun _ h => by cases h; exact htype,
    nofun⟩)

/-- So is a parameter. -/
theorem makes_addParam {type : TypeRef} (name : String) (byRef : Bool) (location : Option Location)
    (htype : rules.Allows ctx.slots.size type) :
    Makes (Quiet rules) (addParam name type byRef location) ctx :=
  makes_alloc (.alloc ⟨rfl, rfl, rfl, trivial, fun _ => rfl, fun _ h => by cases h; exact htype,
    nofun⟩)

/-- So is a field. -/
theorem makes_addField {type : TypeRef} (name : String) (location : Option Location)
    (htype : rules.Allows ctx.slots.size type) :
    Makes (Quiet rules) (addField name type location) ctx :=
  makes_alloc (.alloc ⟨rfl, rfl, rfl, trivial, fun _ => rfl, fun _ h => by cases h; exact htype,
    nofun⟩)

/-- So is a field of the host. -/
theorem makes_addNativeField {type : TypeRef} (name : String) (accessor : Accessor)
    (htype : rules.Allows ctx.slots.size type) :
    Makes (Quiet rules) (addNativeField name type accessor) ctx :=
  makes_alloc (.alloc ⟨rfl, rfl, rfl, trivial, fun _ => rfl, fun _ h => by cases h; exact htype,
    nofun⟩)

/-- An enum is a new symbol that depends on no other. -/
theorem makes_addEnum (name : String) (location : Option Location) :
    Makes (Quiet rules) (addEnum name location) ctx :=
  makes_alloc (.alloc ⟨rfl, rfl, rfl, trivial, nofun, nofun, nofun⟩)

/-- A script function is a new symbol without parameters. -/
theorem makes_addScriptFunc {ret : TypeRef} (name : String) (location : Option Location)
    (hret : rules.Allows ctx.slots.size ret) :
    Makes (Quiet rules) (addScriptFunc name ret location) ctx :=
  makes_alloc (.alloc ⟨rfl, rfl, rfl, ⟨rfl, rfl, hret⟩, nofun, nofun, nofun⟩)

/-- A block is a new symbol inside an existing one, for a function that has frames. -/
theorem makes_addBlock {parent func : SymbolId} (level : Nat) (location : Option Location)
    (hparent : (ctx.arena.get? parent).isSome = true) (hframe : ctx.HasFrame func) :
    Makes (Quiet rules) (addBlock parent func level location) ctx := by
  refine makes_alloc (.alloc ⟨rfl, rfl, rfl, ⟨rfl, hframe⟩, nofun, nofun, ?_⟩)
  intro p hp
  cases hp
  exact Or.inr hparent

/-- A block is opened in a function or in a block of one, and nowhere else. -/
theorem makes_openBlock (parent : SymbolId) (location : Option Location) :
    Makes (Quiet rules) (openBlock parent location) ctx := by
  unfold openBlock
  refine makes_symbol_bind fun s hs => ?_
  have hparent : (ctx.arena.get? parent).isSome = true := by rw [hs]; rfl
  split
  · rename_i b hk
    exact makes_addBlock _ _ hparent (Or.inr ⟨parent, s, b, hs, hk, rfl⟩)
  · rename_i info hk
    exact makes_addBlock _ _ hparent (Or.inl ⟨s, info, hs, hk⟩)
  · exact makes_throw _

/-! ### Definitions -/

/-- A free name is entered. -/
theorem enter_of_free {scope sym : SymbolId} {s o : Symbol} (hs : ctx.arena.get? sym = some s)
    (ho : ctx.arena.get? scope = some o) (hnew : s.name ∉ o.members.keys) :
    enter scope sym ctx = .ok () ((Edit.enter scope sym).write ctx) := by
  cases hp : o.members.push? s.name sym with
  | none => exact absurd ((Assoc.push?_eq_none_iff _ _ _).mp hp) hnew
  | some members =>
    unfold enter
    rw [bind_of_ok (symbol_run hs), bind_of_ok (symbol_run ho)]
    simp only [hp]
    rw [bind_of_ok (modifySymbol_run _ ho)]
    -- The scope was written first, and may be the symbol itself.
    have hs' : ∃ t, (ctx.update scope fun o => { o with members }).arena.get? sym = some t := by
      rw [Context.get?_update, hs]
      split
      · exact ⟨_, rfl⟩
      · exact ⟨_, rfl⟩
    obtain ⟨t, ht⟩ := hs'
    rw [modifySymbol_run _ ht]
    simp only [Edit.write, Context.withMember, hs, ho, hp, Symbol.enteredAt]

/-- A name that is taken is refused, and nothing is written. -/
theorem enter_of_taken {scope sym : SymbolId} {s o : Symbol} (hs : ctx.arena.get? sym = some s)
    (ho : ctx.arena.get? scope = some o) (htaken : s.name ∈ o.members.keys) :
    enter scope sym ctx = .error s.duplicate ctx := by
  unfold enter
  rw [bind_of_ok (symbol_run hs), bind_of_ok (symbol_run ho)]
  simp only [(Assoc.push?_eq_none_iff o.members s.name sym).mpr htaken]
  rfl

/-- What a successful entry found and wrote. -/
theorem enter_eq_ok {scope sym : SymbolId} {u : Unit} {ctx' : Context}
    (h : enter scope sym ctx = .ok u ctx') :
    ∃ s o, ctx.arena.get? sym = some s ∧ ctx.arena.get? scope = some o ∧
      s.name ∉ o.members.keys ∧ ctx' = (Edit.enter scope sym).write ctx := by
  obtain ⟨s, ctx₁, hs, hrest⟩ := bind_eq_ok h
  obtain ⟨hs', rfl⟩ := query_eq_ok hs
  obtain ⟨o, ctx₂, ho, -⟩ := bind_eq_ok hrest
  obtain ⟨ho', rfl⟩ := query_eq_ok ho
  have hs := Context.symbol_eq_ok_iff.mp hs'
  have ho := Context.symbol_eq_ok_iff.mp ho'
  -- What remains is the check of the name.
  by_cases htaken : s.name ∈ o.members.keys
  · rw [enter_of_taken hs ho htaken] at h
    cases h
  · rw [enter_of_free hs ho htaken] at h
    cases h
    exact ⟨s, o, hs, ho, htaken, rfl⟩

/-- An entry is one edit if the name is free, and none if it is not. -/
theorem makes_enter {scope sym : SymbolId} (hwhy : ctx.Accepts scope sym) :
    Makes (Quiet rules) (enter scope sym) ctx := by
  -- An unknown id fails before anything is written.
  cases hs : ctx.arena.get? sym with
  | none =>
    refine makes_symbol_bind fun s h => ?_
    rw [hs] at h
    cases h
  | some s =>
    cases ho : ctx.arena.get? scope with
    | none =>
      refine makes_symbol_bind fun _ _ => makes_symbol_bind fun o h => ?_
      rw [ho] at h
      cases h
    | some o =>
      by_cases htaken : s.name ∈ o.members.keys
      · have hsame : after (enter scope sym) ctx = ctx := by
          rw [after, enter_of_taken hs ho htaken]
        rw [Makes, hsame]
        exact .refl ctx
      · exact makes_edit _ (.enter hs ho htaken hwhy) (after_ok (enter_of_free hs ho htaken))

/-- A block hands what is defined in it to the function around it. -/
theorem ownerFor_block_of_grows {scope sym owner : SymbolId} {o : Symbol} {b : BlockInfo}
    {ctx' : Context} (hgrows : ctx.Grows ctx') (ho : ctx'.arena.get? scope = some o)
    (hb : o.kind = .block b) (howner : ctx.ownerFor scope sym = .ok owner) : owner = b.func := by
  obtain ⟨s, hs, hrest⟩ := Context.except_bind_eq_ok howner
  -- The scope was a block of the same function before.
  obtain ⟨o', ho', hso⟩ := hgrows.symbols scope s (Context.symbol_eq_ok_iff.mp hs)
  rw [ho] at ho'
  cases ho'
  have hkind := hso.kind
  rw [hb] at hkind
  obtain ⟨b', hk, hfunc, -⟩ := hkind.to_block
  rw [hk] at hrest
  cases hrest
  exact hfunc.symm

/-- A definition enters the symbol at its owner. If it was made through a block, the block takes
note of it. -/
theorem makes_define (scope sym : SymbolId) : Makes (Quiet rules) (define scope sym) ctx := by
  unfold define
  refine makes_query_bind fun owner howner => ?_
  refine makes_bind (makes_enter (Or.inl ⟨scope, howner⟩)) fun _ ctx' hent => ?_
  refine makes_symbol_bind fun o ho => ?_
  split
  · rename_i b hb
    obtain ⟨s, o', hs, ho', hnew, rfl⟩ := enter_eq_ok hent
    obtain ⟨t, ht, hname, -⟩ := Context.get?_enter_sym hs ho' hnew
    obtain ⟨f, hf, -, hmembers⟩ := Context.get?_enter_scope hs ho' hnew
    have hmem : (t.name, sym) ∈ f.members.entries := by
      rw [hmembers, hname]
      exact List.mem_append_right _ (List.mem_singleton.mpr rfl)
    obtain rfl := ownerFor_block_of_grows (Context.grows_enter hs ho' hnew) ho hb howner
    -- The note in the block and the level of the variable are one edit.
    have hblock : ∃ p, ((Context.update ((Edit.enter b.func sym).write ctx) sym
        fun s => { s with level := b.level }).arena.get? scope) = some p := by
      rw [Context.get?_update, ho]
      split
      · exact ⟨_, rfl⟩
      · exact ⟨_, rfl⟩
    obtain ⟨p, hp⟩ := hblock
    refine makes_edit (.nest scope sym b.level) (.nest ht ho hb hf hmem) ?_
    refine after_ok (a := ()) ?_
    rw [bind_of_ok (modifySymbol_run _ ht), modifySymbol_run _ hp]
    rfl
  · exact makes_pure _

/-- Several definitions in one scope. -/
theorem makes_defineAll (scope : SymbolId) (syms : List SymbolId) :
    Makes (Quiet rules) (defineAll scope syms) ctx := by
  induction syms generalizing ctx with
  | nil => exact makes_pure _
  | cons sym rest ih => exact makes_bind (makes_define scope sym) fun _ _ _ => ih

/-- Hiding a symbol is one edit. -/
theorem makes_markOutOfScope (sym : SymbolId) : Makes (Quiet rules) (markOutOfScope sym) ctx :=
  makes_modifySymbol (.hide sym) (fun _ _ => .hide sym) rfl

/-- Hiding several symbols. -/
theorem makes_forM_markOutOfScope (vars : List SymbolId) :
    Makes (Quiet rules) (vars.forM markOutOfScope) ctx := by
  induction vars generalizing ctx with
  | nil => exact makes_pure _
  | cons v rest ih => exact makes_bind (makes_markOutOfScope v) fun _ _ _ => ih

/-- Closing a block hides its variables, and closing anything else does nothing. -/
theorem makes_closeBlock (block : SymbolId) : Makes (Quiet rules) (closeBlock block) ctx := by
  unfold closeBlock
  refine makes_symbol_bind fun s _ => ?_
  split
  · exact makes_forM_markOutOfScope _
  · exact makes_pure _

/-- A link is one edit, if the rules allow it. -/
theorem makes_link {scope : SymbolId} (h : rules.links ctx scope) :
    Makes (Quiet rules) (link scope) ctx :=
  makes_edit (.link scope) (.link h) rfl

/-- An enum item gets a type reference, a symbol and its place in the enum, in this order. -/
theorem makes_addItem {owner : SymbolId} (name : String) (value : Int) (location : Option Location)
    (hbase : rules.base ≤ ctx.slots.size)
    (howner : ∀ o, ctx.arena.get? owner = some o → rules.items o.kind) :
    Makes (Quiet rules) (addItem owner name value location) ctx := by
  unfold addItem
  refine makes_symbol_bind fun s hs => ?_
  refine makes_query_bind fun _ _ => ?_
  refine makes_bind (makes_resolvedRef _ _) fun type ctx₁ htype => ?_
  -- The new item belongs to an enum that the rules let have items.
  have hblank : Symbol.Blank rules ctx₁
      { name, kind := .enumItem owner value, type? := some type, location } := by
    have hallows := allows_of_resolvedRef hbase htype
    cases htype
    exact ⟨rfl, rfl, rfl, ⟨s, hs, howner s hs⟩, nofun, fun _ h => by cases h; exact hallows, nofun⟩
  refine makes_bind (makes_alloc (.alloc hblank)) fun item ctx₂ halloc => ?_
  rw [alloc_run] at halloc
  cases halloc
  refine makes_bind (makes_enter (Or.inr (Or.inl ?_))) fun _ _ _ => makes_pure _
  exact ⟨_, value, Context.get?_alloc_nextId _ _, rfl⟩

/-! ### Functions -/

/-- A script function or lambda keeps what is defined in it. -/
theorem ownerFor_func {func : SymbolId} {o : Symbol} {info : FuncInfo} (sym : SymbolId)
    (ho : ctx.arena.get? func = some o) (hi : o.kind = .func info)
    (hscript : info.flavor.isNative = false) : ctx.ownerFor func sym = .ok func := by
  unfold Context.ownerFor
  rw [Context.symbol_of_get? ho]
  simp only [Except.bind, bind, hi, hscript]
  rfl

/-- A script function or lambda takes a symbol whose name is free. -/
theorem define_of_free {func sym : SymbolId} {o s : Symbol} {info : FuncInfo}
    (ho : ctx.arena.get? func = some o) (hi : o.kind = .func info)
    (hscript : info.flavor.isNative = false) (hs : ctx.arena.get? sym = some s)
    (hnew : s.name ∉ o.members.keys) :
    define func sym ctx = .ok () ((Edit.enter func sym).write ctx) := by
  unfold define
  rw [bind_of_ok (query_of_ok (ownerFor_func sym ho hi hscript)),
    bind_of_ok (enter_of_free hs ho hnew)]
  obtain ⟨o', ho', hk', -⟩ := Context.get?_enter_scope hs ho hnew
  rw [bind_of_ok (symbol_run ho'), hk', hi]
  rfl

/-- A script function or lambda refuses a name that is taken. -/
theorem define_of_taken {func sym : SymbolId} {o s : Symbol} {info : FuncInfo}
    (ho : ctx.arena.get? func = some o) (hi : o.kind = .func info)
    (hscript : info.flavor.isNative = false) (hs : ctx.arena.get? sym = some s)
    (htaken : s.name ∈ o.members.keys) : define func sym ctx = .error s.duplicate ctx := by
  unfold define
  rw [bind_of_ok (query_of_ok (ownerFor_func sym ho hi hscript)),
    bind_of_error (enter_of_taken hs ho htaken)]

/-- What a definition in a function found and wrote, if it succeeded. -/
theorem define_func_eq_ok {func sym : SymbolId} {o : Symbol} {info : FuncInfo} {u : Unit}
    {ctx' : Context} (ho : ctx.arena.get? func = some o) (hi : o.kind = .func info)
    (h : define func sym ctx = .ok u ctx') :
    ∃ s, ctx.arena.get? sym = some s ∧ s.name ∉ o.members.keys ∧
      ctx' = (Edit.enter func sym).write ctx := by
  obtain ⟨owner, ctx₁, howner, hrest⟩ := bind_eq_ok h
  obtain ⟨howner, rfl⟩ := query_eq_ok howner
  cases hnative : info.flavor.isNative with
  | true =>
    -- A native function is not asked to keep anything: the search for an owner refuses it.
    obtain ⟨t, ht, hif⟩ := Context.except_bind_eq_ok howner
    rw [Context.symbol_of_get? ho] at ht
    cases ht
    simp only [hi, hnative, if_true] at hif
    obtain ⟨_, _, hthrow⟩ := Context.except_bind_eq_ok hif
    cases hthrow
  | false =>
    rw [ownerFor_func sym ho hi hnative] at howner
    cases howner
    obtain ⟨_, ctx₂, hent, -⟩ := bind_eq_ok hrest
    obtain ⟨s, o', hs, ho', hnew, -⟩ := enter_eq_ok hent
    rw [ho] at ho'
    cases ho'
    rw [define_of_free ho hi hnative hs hnew] at h
    cases h
    exact ⟨s, hs, hnew, rfl⟩

/-- The next member of a function that is an argument becomes its next parameter. -/
theorem makes_pushParam {func arg : SymbolId} {o : Symbol} {info : FuncInfo} (hasDefault : Bool)
    (ho : ctx.arena.get? func = some o) (hi : o.kind = .func info)
    (hat : ∀ a, ctx.arena.get? arg = some a →
      o.members.entries[info.signature.params.length]? = some (a.name, arg)) :
    Makes (Quiet rules) (pushParam func arg hasDefault) ctx := by
  unfold pushParam
  refine makes_query_bind fun type htype => ?_
  obtain ⟨a, ha, ht⟩ := Context.except_bind_eq_ok htype
  have ha := Context.symbol_eq_ok_iff.mp ha
  exact makes_modifySymbol (.param func type hasDefault)
    (fun _ _ => .param hasDefault ho hi ha ht (hat a ha)) rfl

/-- A parameter that was added is one edit, with some type. -/
theorem pushParam_eq_ok {func arg : SymbolId} {hasDefault : Bool} {u : Unit} {ctx' : Context}
    (h : pushParam func arg hasDefault ctx = .ok u ctx') :
    ∃ type, ctx' = (Edit.param func type hasDefault).write ctx := by
  obtain ⟨type, ctx₁, htype, hrest⟩ := bind_eq_ok h
  obtain ⟨-, rfl⟩ := query_eq_ok htype
  refine ⟨type, ?_⟩
  cases hg : ctx₁.arena.get? func with
  | none =>
    simp only [modifySymbol, hg] at hrest
    cases hrest
  | some o =>
    rw [modifySymbol_run _ hg] at hrest
    cases hrest
    rfl

/-- After a member was entered at the end, it stands where the next parameter is expected. -/
theorem entered_at_params_length {func arg : SymbolId} {s o : Symbol} {info : FuncInfo}
    (hs : ctx.arena.get? arg = some s) (ho : ctx.arena.get? func = some o)
    (hi : o.kind = .func info) (hnew : s.name ∉ o.members.keys)
    (hsize : o.members.size = info.signature.params.length) :
    ∃ o', ((Edit.enter func arg).write ctx).arena.get? func = some o' ∧ o'.kind = .func info ∧
      o'.members.size = o.members.size + 1 ∧
      ∀ a, ((Edit.enter func arg).write ctx).arena.get? arg = some a →
        o'.members.entries[info.signature.params.length]? = some (a.name, arg) := by
  obtain ⟨o', ho', hk', hm'⟩ := Context.get?_enter_scope hs ho hnew
  obtain ⟨s', hs', hname, -⟩ := Context.get?_enter_sym hs ho hnew
  refine ⟨o', ho', hk'.trans hi, by simp [Assoc.size, hm'], fun a ha => ?_⟩
  rw [hs'] at ha
  cases ha
  rw [hm', ← hsize, hname]
  exact List.getElem?_concat_length

/-- The arguments of a native function become its members and its parameters in step. -/
theorem makes_enterParams {func : SymbolId} {o : Symbol} {info : FuncInfo} (args : List SymbolId)
    (ho : ctx.arena.get? func = some o) (hi : o.kind = .func info)
    (hnative : info.flavor.isNative = true)
    (hsize : o.members.size = info.signature.params.length) :
    Makes (Quiet rules) (enterParams func args) ctx := by
  -- Both parameter lists grow by one in each round, so they stay equally long.
  induction args generalizing ctx o info with
  | nil => exact makes_pure _
  | cons arg rest ih =>
    refine makes_bind (makes_enter (Or.inr (Or.inr ⟨o, info, ho, hi, hnative⟩)))
      fun _ ctx₁ hent => ?_
    obtain ⟨s, p, hs, hp, hnew, rfl⟩ := enter_eq_ok hent
    rw [ho] at hp
    cases hp
    obtain ⟨o', ho', hi', hsize', hat⟩ := entered_at_params_length hs ho hi hnew hsize
    refine makes_bind (makes_pushParam false ho' hi' hat) fun _ ctx₂ hpush => ?_
    obtain ⟨type, rfl⟩ := pushParam_eq_ok hpush
    -- What the next round finds: one member more, and one parameter more.
    have hget :
        ((Edit.param func type false).write ((Edit.enter func arg).write ctx)).arena.get? func
        = some (o'.withParam type false) := by
      simp only [Edit.write]
      rw [Context.get?_update, if_pos rfl]
      simp only [Edit.write] at ho'
      rw [ho']
      rfl
    have hkind : (o'.withParam type false).kind = .func
        { info with
          signature := info.signature.addParam type } := by
      simp only [Symbol.withParam, hi']
      rfl
    refine ih hget hkind hnative ?_
    simp [Symbol.withParam, hi', hsize', hsize]

/-- A native function is made with all its arguments, unless more defaults are asked for than there
are arguments. -/
theorem makes_addNativeFunc {ret : TypeRef} (name : String) (defaults : Nat) (body : HostFunc)
    (args : List SymbolId) (hret : rules.Allows ctx.slots.size ret) :
    Makes (Quiet rules) (addNativeFunc name ret defaults body args) ctx := by
  unfold addNativeFunc
  dsimp only
  split
  · exact makes_throw_bind _ _
  · refine makes_bind
      (makes_alloc (.alloc ⟨rfl, rfl, rfl, ⟨rfl, rfl, hret⟩, nofun, nofun, nofun⟩))
      fun func ctx' halloc => ?_
    rw [alloc_run] at halloc
    cases halloc
    refine makes_bind (makes_enterParams args (Context.get?_alloc_nextId _ _) rfl rfl rfl)
      fun _ _ _ => makes_pure _

/-- An argument is defined like any other symbol and then added to the parameters. -/
theorem makes_defineArg (func arg : SymbolId) (hasDefault : Bool) :
    Makes (Quiet rules) (defineArg func arg hasDefault) ctx := by
  unfold defineArg
  refine makes_query_bind fun ⟨o, info⟩ hfunc => ?_
  obtain ⟨ho, hi⟩ := Context.func_eq_ok hfunc
  dsimp only
  split
  · exact makes_throw_bind _ _
  · -- The arguments are all the members so far, so the new member is the next argument.
    rename_i hsize
    refine makes_bind (makes_define func arg) fun _ ctx' hdef => ?_
    obtain ⟨s, hs, hnew, rfl⟩ := define_func_eq_ok ho hi hdef
    obtain ⟨o', ho', hi', -, hat⟩ :=
      entered_at_params_length hs ho hi hnew (not_not.mp hsize)
    exact makes_pushParam hasDefault ho' hi' hat

/-! ### Classes -/

/-- The values that a new instance starts with are found by looking types up. -/
theorem makes_template (members : List SymbolId) : Makes (Quiet rules) (template members) ctx := by
  induction members generalizing ctx with
  | nil => exact makes_pure _
  | cons id rest ih =>
    unfold template
    refine makes_symbol_bind fun s hs => ?_
    have hrest : ∀ (v : Value) (ctx' : Context),
        Makes (Quiet rules) (do return v :: (← template rest)) ctx' :=
      fun _ _ => makes_bind ih fun _ _ _ => makes_pure _
    dsimp only
    split
    · rename_i type _ htype
      -- The slot that is filled is the one of a field's type.
      have hmentions : ctx.Mentions type.slot type.name :=
        ⟨id, s, type, hs, rfl, rfl, Or.inl htype⟩
      exact makes_bind (makes_typeOf (Or.inr hmentions)) fun _ _ _ =>
        makes_bind (makes_pure _) fun _ _ _ => hrest _ _
    · exact makes_bind (makes_pure _) fun _ _ _ => hrest _ _

/-- To be ready to make instances, a class looks up the types of its fields. -/
theorem makes_classCreator (cls : SymbolId) : Makes (Quiet rules) (classCreator cls) ctx := by
  unfold classCreator
  refine makes_query_bind fun info _ => ?_
  split
  · exact makes_pure _
  · refine makes_symbol_bind fun s _ => ?_
    split
    · exact makes_throw _
    · exact makes_bind (makes_template _) fun _ _ _ => makes_pure _

/-- An operator is checked in several ways and then defined in its class. -/
theorem makes_overloadOperator (cls func : SymbolId) :
    Makes (Quiet rules) (overloadOperator cls func) ctx := by
  unfold overloadOperator
  refine makes_query_bind fun info _ => makes_symbol_bind fun s _ => ?_
  dsimp only
  split
  · exact makes_throw_bind _ _
  · refine makes_query_bind fun total _ => ?_
    split
    · exact makes_throw_bind _ _
    · refine makes_bind (makes_returnType func) fun type _ _ => ?_
      split
      · exact makes_throw_bind _ _
      · exact makes_define cls func

/-- A class starts empty, or with the members of its super class. -/
theorem makes_addClass (name : String) (superClass : Option SymbolId) (flavor : ClassFlavor)
    (location : Option Location) :
    Makes (Fits rules) (addClass name superClass flavor location) ctx := by
  unfold addClass
  refine makes_query_bind fun members hmembers => makes_alloc ?_
  cases superClass with
  | none =>
    cases hmembers
    exact .plain (.quiet (.alloc ⟨rfl, rfl, rfl, ⟨rfl, fun _ => rfl⟩, nofun, nofun, nofun⟩))
  | some parent =>
    obtain ⟨o, info, ho, hk, rfl⟩ := Context.inherited_eq_ok hmembers
    exact .inherit ho hk

/-- The class that was asked for, as it is at first. -/
theorem addClass_eq_ok {name : String} {superClass : Option SymbolId} {flavor : ClassFlavor}
    {location : Option Location} {cls : SymbolId} {ctx' : Context}
    (h : addClass name superClass flavor location ctx = .ok cls ctx') :
    ∃ o, ctx'.arena.get? cls = some o ∧ o.kind = .classDecl { superClass, flavor } := by
  obtain ⟨members, ctx₁, hmembers, hrest⟩ := bind_eq_ok h
  obtain ⟨-, rfl⟩ := query_eq_ok hmembers
  rw [alloc_run] at hrest
  cases hrest
  exact ⟨_, Context.get?_alloc_nextId _ _, rfl⟩

/-- A native class is a class whose creator is set afterwards. -/
theorem makes_addNativeClass (name : String) (superClass : Option SymbolId)
    (creator : Option Creator) :
    Makes (Fits rules) (addNativeClass name superClass creator) ctx := by
  unfold addNativeClass
  refine makes_bind (makes_addClass _ _ _ _) fun cls _ hadd => ?_
  refine makes_bind ?_ fun _ _ _ => makes_pure _
  obtain ⟨o, ho, hk⟩ := addClass_eq_ok hadd
  exact makes_modifySymbol (.creator cls creator)
    (fun _ _ => .plain (.quiet (.creator creator ho hk rfl))) rfl

/-! ### Array and map classes -/

/-- A parameter of a native function is a parameter. -/
theorem makes_nativeParam {type : TypeRef} (name : String)
    (htype : rules.Allows ctx.slots.size type) : Makes (Quiet rules) (nativeParam name type) ctx :=
  makes_addParam _ _ _ htype

/-- The methods and the field of an array class, one after the other. -/
theorem makes_addArrayMembers {item : TypeRef} (cls : SymbolId) (storage : ArrayStorage)
    (hbase : rules.base ≤ ctx.slots.size) (hitem : rules.Allows ctx.slots.size item) :
    Makes (Quiet rules) (addArrayMembers cls item storage) ctx := by
  unfold addArrayMembers
  refine makes_typeRef_bind hbase fun int ctx₁ hle₁ hint => ?_
  refine makes_typeRef_bind (hbase.trans hle₁) fun void ctx₂ hle₂ hvoid => ?_
  replace hint := hint.mono hle₂
  replace hitem := hitem.mono (hle₁.trans hle₂)
  -- From here on these references may be used, however many slots are added.
  have hle := Nat.le_refl ctx₂.slots.size
  refine makes_bind_from hle (makes_nativeParam _ (hitem.mono hle)) fun _ _ hle => ?_
  refine makes_bind_from hle (makes_addNativeFunc _ _ _ _ (hvoid.mono hle)) fun add _ hle => ?_
  refine makes_bind_from hle (makes_nativeParam _ (hint.mono hle)) fun _ _ hle => ?_
  refine makes_bind_from hle (makes_addNativeFunc _ _ _ _ (hitem.mono hle)) fun at_ _ hle => ?_
  refine makes_bind_from hle (makes_nativeParam _ (hint.mono hle)) fun _ _ hle => ?_
  refine makes_bind_from hle (makes_nativeParam _ (hitem.mono hle)) fun _ _ hle => ?_
  refine makes_bind_from hle (makes_addNativeFunc _ _ _ _ (hvoid.mono hle)) fun setAt _ hle => ?_
  refine makes_bind_from hle (makes_nativeParam _ (hint.mono hle)) fun _ _ hle => ?_
  refine makes_bind_from hle (makes_addNativeFunc _ _ _ _ (hvoid.mono hle)) fun removeAt _ hle => ?_
  refine makes_bind_from hle (makes_addNativeFunc _ _ _ _ (hvoid.mono hle)) fun clear _ hle => ?_
  refine makes_bind_from hle (makes_defineAll _ _) fun _ _ hle => ?_
  refine makes_bind_from hle (makes_addNativeField _ _ (hint.mono hle)) fun count _ hle => ?_
  refine makes_bind_from hle (makes_define _ _) fun _ _ hle => ?_
  refine makes_bind_from hle (makes_nativeParam _ (hitem.mono hle)) fun _ _ hle => ?_
  refine makes_bind_from hle (makes_addNativeFunc _ _ _ _ (hvoid.mono hle)) fun _ _ hle => ?_
  exact makes_define _ _

/-- The field and the methods of a map class, one after the other. -/
theorem makes_addMapMembers {key value : TypeRef} (cls : SymbolId)
    (hbase : rules.base ≤ ctx.slots.size) (hkey : rules.Allows ctx.slots.size key)
    (hvalue : rules.Allows ctx.slots.size value) :
    Makes (Quiet rules) (addMapMembers cls key value) ctx := by
  unfold addMapMembers
  refine makes_typeRef_bind hbase fun void ctx₁ hle₁ hvoid => ?_
  refine makes_typeRef_bind (hbase.trans hle₁) fun bool ctx₂ hle₂ hbool => ?_
  refine makes_typeRef_bind (hbase.trans (hle₁.trans hle₂)) fun int ctx₃ hle₃ hint => ?_
  have hle := Nat.le_refl ctx₃.slots.size
  refine makes_bind_from hle (makes_addNativeField _ _ hint) fun count _ hle => ?_
  refine makes_bind_from hle (makes_define _ _) fun _ ctx₄ hle₄ => ?_
  -- The result type of `TryGet` is a tuple, for which more slots are made.
  have hbase₄ : rules.base ≤ ctx₄.slots.size := by omega
  refine makes_ref_bind (makes_tupleType _) (fun _ _ => allows_of_tupleType hbase₄)
    fun pair ctx₅ hle₅ hpair => ?_
  replace hvoid := hvoid.mono (show _ ≤ ctx₅.slots.size by omega)
  replace hbool := hbool.mono (show _ ≤ ctx₅.slots.size by omega)
  replace hkey := hkey.mono (show _ ≤ ctx₅.slots.size by omega)
  replace hvalue := hvalue.mono (show _ ≤ ctx₅.slots.size by omega)
  have hle := Nat.le_refl ctx₅.slots.size
  refine makes_bind_from hle (makes_nativeParam _ (hkey.mono hle)) fun _ _ hle => ?_
  refine makes_bind_from hle (makes_nativeParam _ (hvalue.mono hle)) fun _ _ hle => ?_
  refine makes_bind_from hle (makes_addNativeFunc _ _ _ _ (hvoid.mono hle)) fun add _ hle => ?_
  refine makes_bind_from hle (makes_nativeParam _ (hkey.mono hle)) fun _ _ hle => ?_
  refine makes_bind_from hle (makes_addNativeFunc _ _ _ _ (hvoid.mono hle)) fun remove _ hle => ?_
  refine makes_bind_from hle (makes_nativeParam _ (hkey.mono hle)) fun _ _ hle => ?_
  refine makes_bind_from hle (makes_addNativeFunc _ _ _ _ (hbool.mono hle)) fun contains _ hle => ?_
  refine makes_bind_from hle (makes_nativeParam _ (hkey.mono hle)) fun _ _ hle => ?_
  refine makes_bind_from hle (makes_addNativeFunc _ _ _ _ (hpair.mono hle)) fun tryGet _ hle => ?_
  refine makes_bind_from hle (makes_addNativeFunc _ _ _ _ (hvoid.mono hle)) fun clear _ hle => ?_
  exact makes_defineAll _ _

/-- A class that was made for a type stays the class of that type. -/
theorem synthesized_of_alloc {s : Symbol} {info : ClassInfo} {st : Structural} {ctx' : Context}
    (hk : s.kind = .classDecl info) (hst : info.structural = some st)
    (h : Edits (Quiet rules) ((Edit.alloc s).write ctx) ctx') : ctx'.Synthesized ctx.nextId st :=
  (h.grows fun _ _ => Quiet.grows).synthesized
    ⟨s, info, Context.get?_alloc_nextId _ _, hk, hst⟩

/-- An array class is a new symbol that gets its members. -/
theorem makes_addArrayClass {item : TypeRef} (name : String) (registered : Option ArrayStorage)
    (hbase : rules.base ≤ ctx.slots.size) (hitem : rules.Allows ctx.slots.size item) :
    Makes (Quiet rules) (addArrayClass name item registered) ctx := by
  refine makes_bind (makes_alloc (.alloc ⟨rfl, rfl, rfl, ⟨rfl, nofun⟩, nofun, nofun, nofun⟩))
    fun _ ctx' halloc => ?_
  cases halloc
  exact makes_bind (makes_addArrayMembers _ _ hbase hitem) fun _ _ _ => makes_pure _

/-- It is the class of the array type that was asked for. -/
theorem addArrayClass_eq_ok {name : String} {item : TypeRef} {registered : Option ArrayStorage}
    {cls : SymbolId} {ctx' : Context}
    (h : addArrayClass name item registered ctx = .ok cls ctx') :
    ctx'.Synthesized cls (.array item registered.isNone) := by
  obtain ⟨id, ctx₁, halloc, hrest⟩ := bind_eq_ok h
  rw [alloc_run] at halloc
  cases halloc
  obtain ⟨u, ctx₂, hmembers, hrest⟩ := bind_eq_ok hrest
  cases hrest
  -- The methods are added to the class later on, which keeps what it is.
  have hmakes : ∀ c,
      Makes (Quiet {}) (addArrayMembers ctx.nextId item (registered.getD .generic)) c :=
    fun _ => makes_addArrayMembers _ _ (Nat.zero_le _) trivial
  exact synthesized_of_alloc rfl rfl ((hmakes _).of_ok hmembers)

/-- A map class is a new symbol that gets its members. -/
theorem makes_addMapClass {key value : TypeRef} (name : String)
    (hbase : rules.base ≤ ctx.slots.size) (hkey : rules.Allows ctx.slots.size key)
    (hvalue : rules.Allows ctx.slots.size value) :
    Makes (Quiet rules) (addMapClass name key value) ctx := by
  refine makes_bind (makes_alloc (.alloc ⟨rfl, rfl, rfl, ⟨rfl, nofun⟩, nofun, nofun, nofun⟩))
    fun _ ctx' halloc => ?_
  cases halloc
  exact makes_bind (makes_addMapMembers _ hbase hkey hvalue) fun _ _ _ => makes_pure _

/-- It is the class of the map type that was asked for. -/
theorem addMapClass_eq_ok {name : String} {key value : TypeRef} {cls : SymbolId} {ctx' : Context}
    (h : addMapClass name key value ctx = .ok cls ctx') :
    ctx'.Synthesized cls (.map key value) := by
  obtain ⟨id, ctx₁, halloc, hrest⟩ := bind_eq_ok h
  rw [alloc_run] at halloc
  cases halloc
  obtain ⟨u, ctx₂, hmembers, hrest⟩ := bind_eq_ok hrest
  cases hrest
  have hmakes : ∀ c, Makes (Quiet {}) (addMapMembers ctx.nextId key value) c :=
    fun _ => makes_addMapMembers _ (Nat.zero_le _) trivial trivial
  exact synthesized_of_alloc rfl rfl ((hmakes _).of_ok hmembers)

/-! ### Requests for array and map types -/

section Requests

/-- Quiet edits register no class. -/
theorem structural_eq_of_quiet {ctx' : Context} (h : Edits (Quiet rules) ctx ctx') :
    ctx'.structural = ctx.structural :=
  h.preserves (I := fun c => c.structural = ctx.structural)
    (fun _ _ he h => he.structural_eq.trans h) rfl

/-- Quiet edits register no storage. -/
theorem storages_eq_of_quiet {ctx' : Context} (h : Edits (Quiet rules) ctx ctx') :
    ctx'.storages = ctx.storages :=
  h.preserves (I := fun c => c.storages = ctx.storages)
    (fun c _ he h => (tables_write c he.isSilent).2.trans h) rfl

/-- A class is registered in the context in which its name was found to be free, but for edits that
register nothing. -/
theorem makes_keepStructural {name : String} {cls : SymbolId} {st : Structural} {ctx' : Context}
    (hfree : ctx.structural.find? name = none) (hedits : Edits (Quiet rules) ctx ctx')
    (hst : ctx'.Synthesized cls st) (hname : st.typeName = name) (hok : rules.types st) :
    Makes (Plain rules) (keepStructural name cls) ctx' := by
  have hfree' : ctx'.structural.find? name = none := by
    rw [structural_eq_of_quiet hedits]
    exact hfree
  exact makes_edit (.keep name cls) (.keep hfree' hst hname hok) rfl

/-- A structural class is made once and kept under its name; later requests find it. -/
theorem makes_structuralClass {name : String} {make : SemaM SymbolId} {st : Structural}
    (hname : st.typeName = name) (hmake : Makes (Quiet rules) make ctx)
    (hst : ∀ cls ctx', make ctx = .ok cls ctx' → ctx'.Synthesized cls st) (hok : rules.types st) :
    Makes (Plain rules) (structuralClass name make) ctx := by
  unfold structuralClass
  refine makes_get_bind ?_
  cases hfind : ctx.structural.find? name with
  | some cls => exact makes_pure cls
  | none =>
    refine makes_bind (hmake.mono fun _ _ => .quiet) fun cls ctx' hrun => ?_
    refine makes_bind ?_ fun _ _ _ => makes_pure cls
    exact makes_keepStructural hfind (hmake.of_ok hrun) (hst cls ctx' hrun) hname hok

/-- A name that is taken for a type is proper if it was not given as part of a reference. -/
theorem properName_of_typeRef {t : TypeName} {type : TypeRef} {ctx' : Context}
    (h : typeRef t ctx = .ok type ctx') (ht : t.Proper) : ProperName type.name := by
  cases t with
  | ref t =>
    cases h
    exact ht
  | name name =>
    by_cases hbad : (name.isEmpty || isCompound name) = true
    · simp only [typeRef, hbad, if_true] at h
      cases h
    · obtain ⟨hne, hcompound⟩ : name.isEmpty = false ∧ isCompound name = false := by
        simpa using hbad
      simp only [typeRef, hbad] at h
      cases h
      exact .of_simple hne hcompound

/-- An array type makes a reference for its item, finds or makes its class, and makes a reference to
that. -/
theorem makes_arrayType {item : TypeName} (hbase : rules.base ≤ ctx.slots.size)
    (hrefs : ∀ type ∈ item.refs, rules.Allows ctx.slots.size type)
    (hok : ∀ st, (item.Proper → st.Proper) → rules.types st) :
    Makes (Plain rules) (arrayType item) ctx := by
  unfold arrayType
  have hmakes : Makes (Quiet rules) (typeRef item) ctx := makes_typeRef item
  refine makes_bind (hmakes.mono fun _ _ => .quiet) fun type ctx' hitem => ?_
  -- Asking for the item type can have made a slot.
  have hbase' := hbase.trans (hmakes.slots_size_le hitem)
  refine makes_get_bind ?_
  refine makes_bind ?_ fun _ _ _ => (makes_resolvedRef _ _).mono fun _ _ => .quiet
  exact makes_structuralClass rfl
    (makes_addArrayClass _ _ hbase' (allows_of_typeRef hbase hrefs hitem))
    (fun _ _ h => addArrayClass_eq_ok h) (hok _ (properName_of_typeRef hitem))

/-- A map type does the same with a key and a value. -/
theorem makes_mapType {key value : TypeName} (hbase : rules.base ≤ ctx.slots.size)
    (hkeys : ∀ type ∈ key.refs, rules.Allows ctx.slots.size type)
    (hvalues : ∀ type ∈ value.refs, rules.Allows ctx.slots.size type)
    (hok : ∀ st, (key.Proper ∧ value.Proper → st.Proper) → rules.types st) :
    Makes (Plain rules) (mapType key value) ctx := by
  unfold mapType
  have hmakes : ∀ (t : TypeName) (c : Context), Makes (Quiet rules) (typeRef t) c :=
    fun t _ => makes_typeRef t
  refine makes_bind ((hmakes _ _).mono fun _ _ => .quiet) fun keyRef ctx₁ hkey => ?_
  have hle₁ := (hmakes _ _).slots_size_le hkey
  refine makes_bind ((hmakes _ _).mono fun _ _ => .quiet) fun valueRef ctx₂ hvalue => ?_
  have hle₂ := (hmakes _ _).slots_size_le hvalue
  -- The reference of the key was made first and may still be used after that of the value.
  have hkey' := (allows_of_typeRef hbase hkeys hkey).mono hle₂
  have hvalue' := allows_of_typeRef (hbase.trans hle₁) (fun t ht => (hvalues t ht).mono hle₁) hvalue
  refine makes_bind ?_ fun _ _ _ => (makes_resolvedRef _ _).mono fun _ _ => .quiet
  exact makes_structuralClass rfl
    (makes_addMapClass _ (hbase.trans (hle₁.trans hle₂)) hkey' hvalue')
    (fun _ _ h => addMapClass_eq_ok h)
    (hok _ fun h => ⟨properName_of_typeRef hkey h.1, properName_of_typeRef hvalue h.2⟩)

/-- An array type is registered with a storage if no class of it was made before. -/
theorem makes_registerArray {item : TypeName} (storage : ArrayStorage)
    (hbase : rules.base ≤ ctx.slots.size)
    (hrefs : ∀ type ∈ item.refs, rules.Allows ctx.slots.size type)
    (hok : ∀ st, (item.Proper → st.Proper) → rules.types st) :
    Makes (Plain rules) (registerArray item storage) ctx := by
  unfold registerArray
  have hmakes : Makes (Quiet rules) (typeRef item) ctx := makes_typeRef item
  refine makes_bind (hmakes.mono fun _ _ => .quiet) fun type ctx₁ hitem => ?_
  have hbase₁ := hbase.trans (hmakes.slots_size_le hitem)
  have htype := allows_of_typeRef hbase hrefs hitem
  refine makes_get_bind ?_
  dsimp only
  split
  · exact makes_throw_bind _ _
  · rename_i htaken
    -- The storage is noted before the class is made, and stays noted if that fails.
    have hstorage : after (modify fun ctx : Context =>
        { ctx with storages := ctx.storages.insert type.name storage } : SemaM PUnit) ctx₁
        = (Edit.storage type.name storage).write ctx₁ := rfl
    refine makes_bind (makes_edit _ (.storage _ _) hstorage) fun _ ctx₂ h => ?_
    have hctx₂ : ctx₂ = (Edit.storage type.name storage).write ctx₁ := by
      cases h
      rfl
    have hfree : ctx₂.structural.find? (arrayTypeName type) = none := by
      rw [hctx₂]
      simpa [Edit.write, Assoc.contains] using htaken
    have hclass : Makes (Quiet rules) (addArrayClass (arrayTypeName type) type (some storage))
        ctx₂ := by
      rw [hctx₂]
      exact makes_addArrayClass _ _ hbase₁ htype
    refine makes_bind (hclass.mono fun _ _ => .quiet) fun cls ctx₃ hrun => ?_
    refine makes_bind ?_ fun _ _ _ => (makes_resolvedRef _ _).mono fun _ _ => .quiet
    exact makes_keepStructural hfree (hclass.of_ok hrun) (addArrayClass_eq_ok hrun) rfl
      (hok _ (properName_of_typeRef hitem))

/-- The name of an array type is proper if that of its item is. -/
theorem properName_of_arrayType {item : TypeName} {type : TypeRef} {ctx' : Context}
    (h : arrayType item ctx = .ok type ctx') (hitem : item.Proper) : ProperName type.name := by
  obtain ⟨t, ctx₁, ht, hrest⟩ := bind_eq_ok h
  obtain ⟨_, ctx₂, hget, hrest⟩ := bind_eq_ok hrest
  obtain ⟨cls, ctx₃, -, hrest⟩ := bind_eq_ok hrest
  cases hrest
  exact (properName_of_typeRef ht hitem).array

/-- Names in a parsed type are proper, since they were accepted as references. -/
theorem properName_of_parsedParams {ps : List ParsedParam} {types : List TypeRef} {ctx' : Context}
    (h : parsedParams ps ctx = .ok types ctx') : ∀ t ∈ types, ProperName t.name := by
  induction ps generalizing ctx types ctx' with
  | nil =>
    cases h
    nofun
  | cons p rest ih =>
    obtain ⟨t, ctx₁, ht, hrest⟩ := bind_eq_ok h
    obtain ⟨ts, ctx₂, hts, hrest⟩ := bind_eq_ok hrest
    cases hrest
    have hname : ProperName t.name := properName_of_typeRef ht trivial
    exact List.forall_mem_cons.mpr ⟨hname, ih hts⟩

/-- Asking for the arrays of a type that was referred to before. -/
theorem makes_arrayOf {type : TypeRef} (hbase : rules.base ≤ ctx.slots.size)
    (hok : ∀ st, st.Proper → rules.types st) (htype : rules.Allows ctx.slots.size type)
    (hname : ProperName type.name) : Makes (Plain rules) (arrayType (.ref type)) ctx := by
  refine makes_arrayType hbase ?_ fun st h => hok st (h hname)
  intro given hgiven
  rw [List.mem_singleton.mp hgiven]
  exact htype

/-- All forms of a parsed type end with the suffix of an array, or without it. -/
theorem makes_arraySuffix {type : TypeRef} (isArray : Bool) (hbase : rules.base ≤ ctx.slots.size)
    (hok : ∀ st, st.Proper → rules.types st) (htype : rules.Allows ctx.slots.size type)
    (hname : ProperName type.name) :
    Makes (Plain rules) (if isArray then arrayType (.ref type) else pure type) ctx := by
  split
  · exact makes_arrayOf hbase hok htype hname
  · exact makes_pure _

/-- The function part of a parsed type, once its result type is there. -/
theorem makes_parsedFunc {ret : TypeRef} (params : List ParsedParam) (isArray : Bool)
    (hbase : rules.base ≤ ctx.slots.size) (hok : ∀ st, st.Proper → rules.types st)
    (hret : ProperName ret.name) :
    Makes (Plain rules) (do
      let params ← parsedParams params
      let type ← typeRefOf (.func (.of ret params))
      if isArray then arrayType (.ref type) else pure type) ctx := by
  have hmakes : Makes (Quiet rules) (parsedParams params) ctx := makes_parsedParams _
  refine makes_bind (hmakes.mono fun _ _ => .quiet) fun types ctx₁ htypes => ?_
  have hbase₁ := hbase.trans (hmakes.slots_size_le htypes)
  have hname : ProperName (Signature.of ret types).name :=
    Signature.properName hret (properName_of_parsedParams htypes)
  have hmakes : Makes (Quiet rules) (typeRefOf (.func (.of ret types))) ctx₁ := makes_typeRefOf _
  refine makes_bind (hmakes.mono fun _ _ => .quiet) fun type ctx₂ htype => ?_
  have hbase₂ := hbase₁.trans (hmakes.slots_size_le htype)
  have hallows := allows_of_typeRefOf hbase₁ htype
  cases htype
  exact makes_arraySuffix isArray hbase₂ hok hallows hname

/-- A parsed type is built from simple names. -/
theorem makes_parsedType (name : String) (isArray : Bool) (func : Option ParsedFunc)
    (hbase : rules.base ≤ ctx.slots.size) (hok : ∀ st, st.Proper → rules.types st) :
    Makes (Plain rules) (parsedType name isArray func) ctx := by
  unfold parsedType
  have hmakes : Makes (Quiet rules) (typeRef (.name name)) ctx := makes_typeRef _
  refine makes_bind (hmakes.mono fun _ _ => .quiet) fun plain ctx₁ hplain => ?_
  have hbase₁ := hbase.trans (hmakes.slots_size_le hplain)
  have hallows := allows_of_typeRef hbase (List.forall_mem_nil _) hplain
  have hname := properName_of_typeRef hplain trivial
  dsimp only
  split
  · refine makes_bind (makes_pure _) fun type ctx₂ hpure => ?_
    cases hpure
    exact makes_arraySuffix isArray hbase₁ hok hallows hname
  · rename_i f
    split
    · have hmakes := makes_arrayOf hbase₁ hok hallows hname
      refine makes_bind hmakes fun ret ctx₂ hret => ?_
      exact makes_parsedFunc f.params isArray (hbase₁.trans (hmakes.slots_size_le hret)) hok
        (properName_of_arrayType hret hname)
    · refine makes_bind (makes_pure _) fun ret ctx₂ hpure => ?_
      cases hpure
      exact makes_parsedFunc f.params isArray hbase₁ hok hname

end Requests

/-! ### The initial context -/

/-- Each primitive type gets a reference, a symbol and its place in the global scope. -/
theorem makes_addBuiltIns (types : List BuiltIn) (hbase : rules.base ≤ ctx.slots.size) :
    Makes (Quiet rules) (addBuiltIns types) ctx := by
  induction types generalizing ctx with
  | nil => exact makes_pure _
  | cons b rest ih =>
    unfold addBuiltIns
    refine makes_ref_bind (makes_resolvedRef _ _) (fun _ _ => allows_of_resolvedRef hbase)
      fun type ctx₁ hle₁ htype => ?_
    have hblank : Symbol.Blank rules ctx₁
        { name := b.name, kind := .builtIn b, type? := some type } :=
      ⟨rfl, rfl, rfl, trivial, nofun, fun _ h => by cases h; exact htype, nofun⟩
    refine makes_bind_from hle₁ (makes_alloc (.alloc hblank)) fun id _ hle => ?_
    exact makes_bind_from hle (makes_define _ _) fun _ _ hle => ih (hbase.trans hle)

/-- A native function in the global scope. -/
theorem makes_addGlobalFunc {ret : TypeRef} (name : String) (body : HostFunc)
    (args : List SymbolId) (hret : rules.Allows ctx.slots.size ret) :
    Makes (Quiet rules) (addGlobalFunc name ret body args) ctx :=
  makes_bind (makes_addNativeFunc _ _ _ _ hret) fun _ _ _ => makes_define _ _

/-- What the global scope starts with: the primitives, the generic array class and the functions
that steer fibers. -/
theorem makes_addGlobals (hbase : rules.base ≤ ctx.slots.size) :
    Makes (Quiet rules) addGlobals ctx := by
  unfold addGlobals
  refine makes_bind_from hbase (makes_addBuiltIns _ hbase) fun _ _ hbase => ?_
  refine makes_ref_bind (makes_namedRef _) (fun _ _ => allows_of_namedRef hbase)
    fun item _ hle hitem => ?_
  refine makes_bind_from (hbase.trans hle) (makes_addArrayClass _ _ (hbase.trans hle) hitem)
    fun _ _ hbase => ?_
  refine makes_bind_from hbase (makes_define _ _) fun _ _ hbase => ?_
  refine makes_typeRef_bind hbase fun void ctx₁ hle₁ hvoid => ?_
  -- The reference to `void` serves all functions without result.
  have hle := Nat.le_refl ctx₁.slots.size
  refine makes_bind_from hle (makes_addGlobalFunc _ _ _ (hvoid.mono hle)) fun _ _ hle => ?_
  refine makes_bind_from hle (makes_addGlobalFunc _ _ _ (hvoid.mono hle)) fun _ _ hle => ?_
  refine makes_bind_from hle (makes_addGlobalFunc _ _ _ (hvoid.mono hle)) fun _ ctx₂ hle => ?_
  have hbase₂ : rules.base ≤ ctx₂.slots.size := hbase.trans (hle₁.trans hle)
  refine makes_ref_bind (makes_funcType _ _) (fun _ _ => allows_of_funcType hbase₂)
    fun start _ hle' hstart => ?_
  refine makes_bind_from (hle.trans hle') (makes_nativeParam _ hstart) fun _ _ hle => ?_
  refine makes_typeRef_bind (hbase.trans (hle₁.trans hle)) fun int _ hle' hint => ?_
  refine makes_bind_from (hle.trans hle') (makes_addGlobalFunc _ _ _ hint) fun _ _ hle => ?_
  refine makes_typeRef_bind (hbase.trans (hle₁.trans hle)) fun int _ hle' hint => ?_
  refine makes_bind_from (hle.trans hle') (makes_nativeParam _ hint) fun _ _ hle => ?_
  exact makes_addGlobalFunc _ _ _ (hvoid.mono hle)

/-- The typed arrays of four primitives are registered. -/
theorem makes_addTypedArrays (hbase : rules.base ≤ ctx.slots.size)
    (hok : ∀ st, st.Proper → rules.types st) : Makes (Plain rules) addTypedArrays ctx := by
  have hregister : ∀ (b : BuiltIn) (storage : ArrayStorage) (ctx' : Context),
      rules.base ≤ ctx'.slots.size →
      Makes (Plain rules) (registerArray (.name b.name) storage) ctx' :=
    fun _ _ _ h => makes_registerArray _ h (List.forall_mem_nil _) fun st h => hok st (h trivial)
  unfold addTypedArrays
  refine makes_bind_from hbase (hregister _ _ _ hbase) fun _ _ hbase => ?_
  refine makes_bind_from hbase (hregister _ _ _ hbase) fun _ _ hbase => ?_
  refine makes_bind_from hbase (hregister _ _ _ hbase) fun _ _ hbase => ?_
  exact makes_bind (hregister _ _ _ hbase) fun _ _ _ => makes_pure _

end SemaM

/-- The initial context is what these steps make of the bare one. -/
theorem Context.initial_eq :
    Context.initial = SemaM.after (do SemaM.addGlobals; SemaM.addTypedArrays) Context.bare := by
  unfold Context.initial SemaM.after
  generalize (do SemaM.addGlobals; SemaM.addTypedArrays : SemaM Unit) Context.bare = result
  cases result <;> rfl

/-- The initial context is made from the bare one by edits. -/
theorem Edits.bare_initial {rules : Rules} (hbase : rules.base = 0)
    (hok : ∀ st, st.Proper → rules.types st) :
    Edits (Edit.Plain rules) Context.bare Context.initial := by
  rw [Context.initial_eq]
  have hbase : rules.base ≤ Context.bare.slots.size := by simp [hbase]
  exact SemaM.makes_bind_from hbase ((SemaM.makes_addGlobals hbase).mono fun _ _ => .quiet)
    fun _ _ hbase => SemaM.makes_addTypedArrays hbase hok

end Sema

import Sema.Context.Initial
import Sema.Proofs.Assoc

/-!
# `Sema.Proofs.Edit`: the elementary changes of a context

Every operation on a context, whether it succeeds or fails half way, is a sequence of a few kinds of
elementary changes. `Edit` lists them and `Edit.write` says what each one writes. The predicates
`Edit.Quiet`, `Edit.Plain`, `Edit.Nested` and `Edit.Fits` say when the operations make one: they
carry what was checked or read before the write. An invariant of all runs then needs one case per
elementary change and never looks at an operation again.

Some invariants hold only of runs that keep to more than the operations check. `Rules` says what a
run keeps to: where lambdas go, which scopes are linked, under which names the slots of type
references are looked up, and so on. `{}` asks for nothing.

* `Quiet` edits are those that the operations have in common.
* `Plain` edits are these and the registration of a synthesized class.
* `Nested` edits are the quiet ones and what new lambdas and look-ups from lambdas do.
* `Fits` holds of all of them and of the class that inherits.

`Edits P` is a sequence of edits that each meet `P` where they happen, and `SemaM.Makes P m ctx`
says that the computation `m` changes `ctx` in this way. The rules at the end of the module take a
computation apart along its binds.
-/

set_option autoImplicit false

namespace Sema

namespace Context

/-- The context with one symbol changed. An id that names no symbol changes nothing. -/
def update (ctx : Context) (id : SymbolId) (f : Symbol → Symbol) : Context :=
  match ctx.arena.get? id with
  | some s => { ctx with arena := ctx.arena.set id (f s) }
  | none => ctx

/-- The id that the next symbol gets. -/
def nextId (ctx : Context) : SymbolId := ⟨ctx.arena.size + 1⟩

/-- What an update leaves under each id. -/
theorem get?_update (ctx : Context) (id x : SymbolId) (f : Symbol → Symbol) :
    (ctx.update id f).arena.get? x
      = if x = id then (ctx.arena.get? x).map f else ctx.arena.get? x := by
  unfold update
  -- What is not there is not updated.
  cases h : ctx.arena.get? id with
  | none =>
    by_cases hx : x = id
    · simp [hx, h]
    · simp [hx]
  | some s =>
    by_cases hx : x = id
    · subst hx
      simp [h, Arena.get?_set_self _ _ (f s) s h]
    · simp [hx, Arena.get?_set_of_ne _ _ _ _ hx]

/-- What an update does not change about a symbol. -/
theorem map_get?_update {β : Type} {v : Symbol → β} (ctx : Context) (id : SymbolId)
    {f : Symbol → Symbol} (h : ∀ s, v (f s) = v s) (x : SymbolId) :
    ((ctx.update id f).arena.get? x).map v = (ctx.arena.get? x).map v := by
  rw [get?_update]
  split
  · rw [Option.map_map]
    exact congrArg (fun g => Option.map g (ctx.arena.get? x)) (funext h)
  · rfl

/-- An update touches nothing but the arena. -/
theorem update_fields (ctx : Context) (id : SymbolId) (f : Symbol → Symbol) :
    (ctx.update id f).slots = ctx.slots ∧ (ctx.update id f).links = ctx.links ∧
      (ctx.update id f).structural = ctx.structural := by
  unfold update
  split <;> simp

/-- Updating a symbol leaves the storages alone. -/
theorem storages_update (ctx : Context) (id : SymbolId) (f : Symbol → Symbol) :
    (ctx.update id f).storages = ctx.storages := by
  unfold update
  split <;> rfl

/-- Updating a symbol adds none. -/
theorem size_update (ctx : Context) (id : SymbolId) (f : Symbol → Symbol) :
    (ctx.update id f).arena.size = ctx.arena.size := by
  unfold update
  split
  · exact Arena.size_set _ _ _
  · rfl

end Context

/-- A symbol after it was entered among the members of `scope` at a position. -/
def Symbol.enteredAt (s : Symbol) (scope : SymbolId) (position : Nat) : Symbol :=
  { s with
    slot := if s.kind.isSlotted && s.slot.isNone then some position else s.slot
    scope := some scope }

/-- The variable that a lambda gets for one that it captures. -/
def Symbol.captured (s : Symbol) : Symbol :=
  { name := s.name, kind := .var, type? := s.type?, location := s.location }

/-- The context with a symbol added to the members of a scope. A name that is taken, or an id that
names no symbol, changes nothing. -/
def Context.withMember (ctx : Context) (scope sym : SymbolId) : Context :=
  match ctx.arena.get? sym, ctx.arena.get? scope with
  | some s, some o =>
    match o.members.push? s.name sym with
    | some members =>
      (ctx.update scope fun o => { o with members }).update sym (·.enteredAt scope o.members.size)
    | none => ctx
  | _, _ => ctx

/-- A new member is no new symbol. -/
theorem Context.size_withMember (ctx : Context) (scope sym : SymbolId) :
    (ctx.withMember scope sym).arena.size = ctx.arena.size := by
  unfold Context.withMember
  split
  · split
    · exact (size_update _ _ _).trans (size_update _ _ _)
    · rfl
  · rfl

/-- A new member touches nothing but the arena. -/
theorem Context.withMember_fields (ctx : Context) (scope sym : SymbolId) :
    (ctx.withMember scope sym).slots = ctx.slots ∧ (ctx.withMember scope sym).links = ctx.links ∧
      (ctx.withMember scope sym).structural = ctx.structural := by
  unfold Context.withMember
  split
  · split
    · simp only [update_fields, and_self]
    · simp only [and_self]
  · simp only [and_self]

/-- A new member leaves the storages alone. -/
theorem Context.storages_withMember (ctx : Context) (scope sym : SymbolId) :
    (ctx.withMember scope sym).storages = ctx.storages := by
  unfold Context.withMember
  split
  · split
    · rw [storages_update, storages_update]
    · rfl
  · rfl

/-- An elementary change of a context. -/
inductive Edit where
  | alloc (s : Symbol)
  /-- A symbol becomes a member of a scope. -/
  | enter (scope sym : SymbolId)
  /-- A block takes note of one of its variables. -/
  | nest (block sym : SymbolId) (level : Nat)
  | param (func : SymbolId) (type : TypeRef) (hasDefault : Bool)
  /-- A lambda gets a variable of its own for one that it captures, and takes note of it. -/
  | capture (lambda copy : SymbolId) (c : Capture)
  | creator (cls : SymbolId) (make : Option Creator)
  | hide (sym : SymbolId)
  | newSlot (content : Option Ty)
  | fill (slot : SlotId) (t : Ty)
  | link (scope : SymbolId)
  /-- A synthesized class is registered under its type name. -/
  | keep (name : String) (cls : SymbolId)
  | storage (item : String) (kind : ArrayStorage)

namespace Edit

/-- What an elementary change writes. -/
def write (ctx : Context) : Edit → Context
  | alloc s => { ctx with arena := (ctx.arena.alloc s).2 }
  | enter scope sym => ctx.withMember scope sym
  | nest block sym level =>
    (ctx.update sym fun s => { s with level }).update block (·.withBlockVar sym)
  | param func type hasDefault => ctx.update func (·.withParam type hasDefault)
  | capture lambda copy c => (ctx.withMember lambda copy).update lambda (·.withCapture c)
  | creator cls make => ctx.update cls (·.withCreator make)
  | hide sym => ctx.update sym fun s => { s with outOfScope := true }
  | newSlot content => { ctx with slots := ctx.slots.push content }
  | fill slot t => { ctx with slots := ctx.slots.setIfInBounds slot.index (some t) }
  | link scope =>
    if scope ∈ ctx.links then ctx else { ctx with links := ctx.links ++ [scope] }
  | keep name cls => { ctx with structural := ctx.structural.insert name cls }
  | storage item kind => { ctx with storages := ctx.storages.insert item kind }

end Edit

/-- The name under which the class of a structural type is registered. -/
def Structural.typeName : Structural → String
  | .array item _ => arrayTypeName item
  | .map key value => mapTypeName key value

namespace Context

/-- What is particular to a lambda, if the symbol is one. -/
def lambda? (ctx : Context) (id : SymbolId) : Option LambdaInfo :=
  (ctx.arena.get? id).bind (·.kind.lambda?)

/-- The stack of a lambda: the functions around it, outermost first, and last the lambda itself. -/
def stack? (ctx : Context) (id : SymbolId) : Option (List SymbolId) :=
  (ctx.lambda? id).map (·.stack)

/-- The lambda under an id is that of the symbol there. -/
theorem lambda?_of_get? {ctx : Context} {id : SymbolId} {s : Symbol}
    (hs : ctx.arena.get? id = some s) : ctx.lambda? id = s.kind.lambda? := by
  rw [lambda?, hs, Option.bind_some]

/-- Lambdas are what has a stack. -/
theorem stack?_eq_some_iff {ctx : Context} {id : SymbolId} {stack : List SymbolId} :
    ctx.stack? id = some stack ↔ ∃ l, ctx.lambda? id = some l ∧ l.stack = stack :=
  Option.map_eq_some_iff

/-- The class was made for this array or map type. -/
def Synthesized (ctx : Context) (cls : SymbolId) (st : Structural) : Prop :=
  ∃ s info, ctx.arena.get? cls = some s ∧ s.kind = .classDecl info ∧ info.structural = some st

/-- A function on some stack has `source` among its members, and `lambda` is the next lambda inward
on that stack. -/
def NextInward (ctx : Context) (source lambda : SymbolId) : Prop :=
  ∃ asker outer owner between inner o name,
    ctx.stack? asker = some (outer ++ owner :: between ++ lambda :: inner) ∧
    (∀ f ∈ between, ctx.stack? f = none) ∧
    ctx.arena.get? owner = some o ∧ (name, source) ∈ o.members.entries

/-- Why a scope takes a symbol as a member: some definition leads to it, or the symbol was made as
its item, or the scope is a native function that takes its parameters. -/
def Accepts (ctx : Context) (scope sym : SymbolId) : Prop :=
  (∃ via, ctx.ownerFor via sym = .ok scope) ∨
  (∃ s value, ctx.arena.get? sym = some s ∧ s.kind = .enumItem scope value) ∨
  (∃ o info, ctx.arena.get? scope = some o ∧ o.kind = .func info ∧ info.flavor.isNative = true)

/-- A block can stand in this frame: it belongs to a function, or another block stands in it. -/
def HasFrame (ctx : Context) (func : SymbolId) : Prop :=
  (∃ f info, ctx.arena.get? func = some f ∧ f.kind = .func info) ∨
  (∃ block o b, ctx.arena.get? block = some o ∧ o.kind = .block b ∧ b.func = func)

/-- Some symbol has a reference of this name to the slot as its type or as its result type. These
are the references that operations look up on their own. -/
def Mentions (ctx : Context) (slot : SlotId) (name : String) : Prop :=
  ∃ x s type, ctx.arena.get? x = some s ∧ type.slot = slot ∧ type.name = name ∧
    (s.type? = some type ∨ ∃ info, s.kind = .func info ∧ info.signature.ret = type)

end Context

/-- What a run keeps to. -/
structure Rules where
  /-- The functions into which a new lambda may be put. -/
  nests : Context → List SymbolId → Prop := fun _ _ => True
  /-- The array and map types for which a class may be registered. -/
  types : Structural → Prop := fun _ => True
  /-- The scopes that may be linked. -/
  links : Context → SymbolId → Prop := fun _ _ => True
  /-- What an item may be added to. -/
  items : SymbolKind → Prop := fun _ => True
  /-- The slots and names of the references in use when there are so many slots. -/
  refs : Nat → SlotId → String → Prop := fun _ _ _ => True
  /-- How many slots there are at least. -/
  base : Nat := 0
  refs_mono : ∀ {m n slot name}, m ≤ n → refs m slot name → refs n slot name := by
    intros; trivial
  /-- A new reference may be used. -/
  refs_made : ∀ {n name}, base ≤ n → refs (n + 1) ⟨n⟩ name := by
    intros; trivial

/-- The reference may be used when there are so many slots. -/
def Rules.Allows (rules : Rules) (size : Nat) (type : TypeRef) : Prop :=
  rules.refs size type.slot type.name

/-- A reference that is allowed stays allowed as slots are added. -/
theorem Rules.Allows.mono {rules : Rules} {m n : Nat} {type : TypeRef} (h : rules.Allows m type)
    (hle : m ≤ n) : rules.Allows n type :=
  rules.refs_mono hle h

/-- What is particular to a new symbol that is neither a lambda nor inherits. -/
def SymbolKind.Blank (rules : Rules) (ctx : Context) : SymbolKind → Prop
  | .classDecl info => info.superClass = none ∧ (info.flavor = .script → info.creator = none)
  | .func info =>
    info.flavor.lambda? = none ∧ info.signature.params = [] ∧
      rules.Allows ctx.slots.size info.signature.ret
  | .block b => b.vars = [] ∧ ctx.HasFrame b.func
  | .enumItem owner _ => ∃ o, ctx.arena.get? owner = some o ∧ rules.items o.kind
  | _ => True

/-- How a new symbol looks that is neither a lambda nor inherits. -/
structure Symbol.Blank (rules : Rules) (ctx : Context) (s : Symbol) : Prop where
  slot : s.slot = none
  shown : s.outOfScope = false
  members : s.members = .empty
  kind : s.kind.Blank rules ctx
  typed : s.kind.isVariable = true → s.type?.isSome = true
  type : ∀ type, s.type? = some type → rules.Allows ctx.slots.size type
  owner : ∀ p, s.scope = some p → p = Context.globals ∨ (ctx.arena.get? p).isSome = true

namespace Edit

/-- The edits that the operations have in common, with what was read before the write. -/
inductive Quiet (rules : Rules) (ctx : Context) : Edit → Prop
  | alloc {s : Symbol} (h : s.Blank rules ctx) : Quiet rules ctx (.alloc s)
  | enter {scope sym : SymbolId} {s o : Symbol} (hs : ctx.arena.get? sym = some s)
      (ho : ctx.arena.get? scope = some o) (hnew : s.name ∉ o.members.keys)
      (hwhy : ctx.Accepts scope sym) : Quiet rules ctx (.enter scope sym)
  /-- The variable of a block is a member of the function around the block. -/
  | nest {block sym : SymbolId} {s o f : Symbol} {b : BlockInfo} (hs : ctx.arena.get? sym = some s)
      (ho : ctx.arena.get? block = some o) (hb : o.kind = .block b)
      (hf : ctx.arena.get? b.func = some f) (hmem : (s.name, sym) ∈ f.members.entries) :
      Quiet rules ctx (.nest block sym b.level)
  | param {func arg : SymbolId} {o a : Symbol} {info : FuncInfo} {type : TypeRef}
      (hasDefault : Bool) (ho : ctx.arena.get? func = some o) (hi : o.kind = .func info)
      (ha : ctx.arena.get? arg = some a) (ht : a.paramType = .ok type)
      (hat : o.members.entries[info.signature.params.length]? = some (a.name, arg)) :
      Quiet rules ctx (.param func type hasDefault)
  /-- The host makes the instances of its own classes only. -/
  | creator {cls : SymbolId} {o : Symbol} {info : ClassInfo} (make : Option Creator)
      (ho : ctx.arena.get? cls = some o) (hk : o.kind = .classDecl info)
      (hnative : info.flavor = .native) : Quiet rules ctx (.creator cls make)
  | hide (sym : SymbolId) : Quiet rules ctx (.hide sym)
  | newSlot (content : Option Ty) : Quiet rules ctx (.newSlot content)
  /-- A slot is bound to what the name of a reference to it stands for. -/
  | fill {slot : SlotId} {t : Ty} {name : String} (hfree : ctx.slotType? slot = none)
      (ht : ctx.typeNamed name = .ok t)
      (hname : rules.refs ctx.slots.size slot name ∨ ctx.Mentions slot name) :
      Quiet rules ctx (.fill slot t)
  | link {scope : SymbolId} (h : rules.links ctx scope) : Quiet rules ctx (.link scope)

/-- Quiet edits and the registration of array and map classes. A class is registered once, under the
name of the type it was made for. -/
inductive Plain (rules : Rules) (ctx : Context) : Edit → Prop
  | quiet {e : Edit} (h : Quiet rules ctx e) : Plain rules ctx e
  | keep {name : String} {cls : SymbolId} {st : Structural}
      (hfree : ctx.structural.find? name = none) (hst : ctx.Synthesized cls st)
      (hname : st.typeName = name) (hok : rules.types st) : Plain rules ctx (.keep name cls)
  | storage (item : String) (kind : ArrayStorage) : Plain rules ctx (.storage item kind)

/-- Quiet edits and those of lambdas. -/
inductive Nested (rules : Rules) (ctx : Context) : Edit → Prop
  | quiet {e : Edit} (h : Quiet rules ctx e) : Nested rules ctx e
  /-- A new lambda stands last on its own stack. -/
  | lambda {name : String} {ret : TypeRef} {enclosing : List SymbolId} {location : Option Location}
      (hne : enclosing ≠ []) (hnests : rules.nests ctx enclosing)
      (hret : rules.Allows ctx.slots.size ret) :
      Nested rules ctx (.alloc
        { name
          kind := .func
            { flavor := .lambda { stack := enclosing ++ [ctx.nextId] }, signature := { ret } }
          scope := enclosing.getLast?
          location })
  /-- A captured variable is copied. -/
  | copy {source : SymbolId} {s : Symbol} (hs : ctx.arena.get? source = some s)
      (hv : s.kind.isVariable = true) : Nested rules ctx (.alloc s.captured)
  /-- The copy becomes the last member of the lambda, whose stack leads outward to the original. -/
  | capture {lambda copy source : SymbolId} {s o : Symbol} {slot : Nat}
      (hs : ctx.arena.get? source = some s) (hv : s.kind.isVariable = true)
      (hslot : s.slot = some slot) (hc : ctx.arena.get? copy = some s.captured)
      (ho : ctx.arena.get? lambda = some o) (hl : o.isLambda = true)
      (hnew : s.name ∉ o.members.keys) (hnext : ctx.NextInward source lambda) :
      Nested rules ctx
        (.capture lambda copy { name := s.name, target := o.members.size, source := slot })

/-- All edits. -/
inductive Fits (rules : Rules) (ctx : Context) : Edit → Prop
  | plain {e : Edit} (h : Plain rules ctx e) : Fits rules ctx e
  | nested {e : Edit} (h : Nested rules ctx e) : Fits rules ctx e
  /-- A new class starts with the members of its super class. -/
  | inherit {name : String} {parent : SymbolId} {o : Symbol} {info : ClassInfo}
      {flavor : ClassFlavor} {location : Option Location} (ho : ctx.arena.get? parent = some o)
      (hk : o.kind = .classDecl info) :
      Fits rules ctx (.alloc
        { name
          kind := .classDecl { superClass := some parent, flavor }
          location
          members := o.members })

end Edit

/-- A sequence of edits that each meet `P` where they happen. -/
inductive Edits (P : Context → Edit → Prop) : Context → Context → Prop
  | refl (ctx : Context) : Edits P ctx ctx
  | step {ctx last : Context} {e : Edit} (h : P ctx e) (rest : Edits P (e.write ctx) last) :
      Edits P ctx last

namespace Edits

variable {P Q : Context → Edit → Prop} {a b c : Context}

/-- One edit is a sequence of edits. -/
theorem single {e : Edit} (h : P a e) : Edits P a (e.write a) :=
  .step h (.refl _)

/-- Two sequences of edits make one. -/
theorem trans (hab : Edits P a b) (hbc : Edits P b c) : Edits P a c := by
  induction hab with
  | refl => exact hbc
  | step h _ ih => exact .step h (ih hbc)

/-- Edits that meet a condition meet a weaker one. -/
theorem mono (hPQ : ∀ ctx e, P ctx e → Q ctx e) (h : Edits P a b) : Edits Q a b := by
  induction h with
  | refl => exact .refl _
  | step h _ ih => exact .step (hPQ _ _ h) ih

/-- What every edit preserves a sequence of edits preserves. -/
theorem preserves {I : Context → Prop} (hstep : ∀ ctx e, P ctx e → I ctx → I (e.write ctx))
    (h : Edits P a b) (ha : I a) : I b := by
  induction h with
  | refl => exact ha
  | step h _ ih => exact ih (hstep _ _ h ha)

/-- A reflexive and transitive relation that holds across every edit holds across a sequence. -/
theorem relates {R : Context → Context → Prop} (hrefl : ∀ ctx, R ctx ctx)
    (htrans : ∀ x y z, R x y → R y z → R x z) (hstep : ∀ ctx e, P ctx e → R ctx (e.write ctx))
    (h : Edits P a b) : R a b := by
  induction h with
  | refl => exact hrefl _
  | step h _ ih => exact htrans _ _ _ (hstep _ _ h) ih

end Edits

/-- No edit takes a slot away. -/
theorem Edit.slots_size_le (ctx : Context) (e : Edit) :
    ctx.slots.size ≤ (e.write ctx).slots.size := by
  cases e with
  | link =>
    simp only [write]
    split <;> exact Nat.le_refl _
  | _ =>
    simp [write, Context.update_fields, Context.withMember_fields]

/-- Edits never take a slot away. -/
theorem Edits.slots_size_le {P : Context → Edit → Prop} {a b : Context} (h : Edits P a b) :
    a.slots.size ≤ b.slots.size :=
  h.relates (R := fun a b => a.slots.size ≤ b.slots.size) (fun _ => Nat.le_refl _)
    (fun _ _ _ => Nat.le_trans) fun ctx e _ => e.slots_size_le ctx

namespace SemaM

variable {α β : Type} {P : Context → Edit → Prop} {ctx : Context}

/-- The context that a computation leaves behind, whether it succeeds or fails. -/
def after (m : SemaM α) (ctx : Context) : Context :=
  match m ctx with
  | .ok _ ctx' => ctx'
  | .error _ ctx' => ctx'

/-- What a computation leaves when it succeeds. -/
theorem after_ok {m : SemaM α} {a : α} {ctx' : Context} (h : m ctx = .ok a ctx') :
    after m ctx = ctx' := by
  simp [after, h]

/-- A computation changes the context by edits that meet `P`, whether it succeeds or fails. -/
def Makes (P : Context → Edit → Prop) (m : SemaM α) (ctx : Context) : Prop :=
  Edits P ctx (after m ctx)

/-- Edits that meet a condition meet a weaker one, whatever computation makes them. -/
theorem Makes.mono {Q : Context → Edit → Prop} {m : SemaM α} (hPQ : ∀ ctx e, P ctx e → Q ctx e)
    (h : Makes P m ctx) : Makes Q m ctx :=
  Edits.mono hPQ h

/-- Seen from the result of a success. -/
theorem Makes.of_ok {m : SemaM α} {a : α} {ctx' : Context} (h : Makes P m ctx)
    (hm : m ctx = .ok a ctx') : Edits P ctx ctx' := by
  rw [Makes, after_ok hm] at h
  exact h

/-- No computation takes a slot away. -/
theorem Makes.slots_size_le {m : SemaM α} {a : α} {ctx' : Context} (h : Makes P m ctx)
    (hm : m ctx = .ok a ctx') : ctx.slots.size ≤ ctx'.slots.size :=
  (h.of_ok hm).slots_size_le

/-- Returning a value makes no edits. -/
theorem makes_pure (a : α) : Makes P (pure a : SemaM α) ctx := .refl ctx

/-- Failing makes no edits. -/
theorem makes_throw (e : CompileError) : Makes P (throw e : SemaM α) ctx := .refl ctx

/-- Reading makes no edits. -/
theorem makes_query (read : Context → Except CompileError α) : Makes P (query read) ctx := by
  have h : after (query read) ctx = ctx := by
    unfold after query
    cases read ctx <;> rfl
  rw [Makes, h]
  exact .refl ctx

/-- What follows a bind runs in the context that the first part left, and only if it succeeded. -/
theorem makes_bind {m : SemaM α} {f : α → SemaM β} (hm : Makes P m ctx)
    (hf : ∀ a ctx', m ctx = .ok a ctx' → Makes P (f a) ctx') : Makes P (m >>= f) ctx := by
  have hbind : (m >>= f) ctx = EStateM.bind m f ctx := rfl
  cases hmc : m ctx with
  | ok a ctx' =>
    have hrun : after (m >>= f) ctx = after (f a) ctx' := by
      simp only [after, hbind, EStateM.bind, hmc]
    rw [Makes, after_ok hmc] at hm
    rw [Makes, hrun]
    exact hm.trans (hf a ctx' hmc)
  | error e ctx' =>
    -- The second computation does not run.
    have hrun : after (m >>= f) ctx = after m ctx := by
      simp only [after, hbind, EStateM.bind, hmc]
    rw [Makes, hrun]
    exact hm

/-- What follows a failure is not reached. -/
theorem makes_throw_bind (e : CompileError) (f : α → SemaM β) : Makes P (throw e >>= f) ctx := by
  refine makes_bind (makes_throw e) fun a ctx' h => ?_
  cases h

/-- As `makes_bind`, where all that matters of the context is that it has so many slots. -/
theorem makes_bind_from {size : Nat} {m : SemaM α} {f : α → SemaM β} (hle : size ≤ ctx.slots.size)
    (hm : Makes P m ctx) (hf : ∀ a ctx', size ≤ ctx'.slots.size → Makes P (f a) ctx') :
    Makes P (m >>= f) ctx :=
  makes_bind hm fun a ctx' h => hf a ctx' (Nat.le_trans hle (hm.slots_size_le h))

/-- After a reading, what was read is at hand. -/
theorem makes_query_bind {read : Context → Except CompileError α} {f : α → SemaM β}
    (hf : ∀ a, read ctx = .ok a → Makes P (f a) ctx) : Makes P (query read >>= f) ctx := by
  refine makes_bind (makes_query read) fun a ctx' h => ?_
  unfold query at h
  cases hr : read ctx with
  | ok b =>
    rw [hr] at h
    cases h
    exact hf a hr
  | error e =>
    rw [hr] at h
    cases h

/-- After a symbol was read, it is at hand. -/
theorem makes_symbol_bind {id : SymbolId} {f : Symbol → SemaM β}
    (hf : ∀ s, ctx.arena.get? id = some s → Makes P (f s) ctx) :
    Makes P (symbol id >>= f) ctx := by
  refine makes_query_bind fun s hs => hf s ?_
  unfold Context.symbol at hs
  cases hg : ctx.arena.get? id with
  | some t =>
    rw [hg] at hs
    cases hs
    rfl
  | none =>
    rw [hg] at hs
    cases hs

/-- After the context was read, it is at hand. -/
theorem makes_get_bind {f : Context → SemaM β} (hf : Makes P (f ctx) ctx) :
    Makes P (get >>= f) ctx := hf

/-- A computation that makes one edit and cannot fail otherwise. -/
theorem makes_edit {m : SemaM α} (e : Edit) (h : P ctx e) (hm : after m ctx = e.write ctx) :
    Makes P m ctx := by
  rw [Makes, hm]
  exact .single h

/-- A new symbol is one edit. -/
theorem makes_alloc {s : Symbol} (h : P ctx (.alloc s)) : Makes P (alloc s) ctx :=
  makes_edit (.alloc s) h rfl

/-- Changing a symbol, if the change is an edit. -/
theorem makes_modifySymbol {id : SymbolId} {f : Symbol → Symbol} (e : Edit)
    (h : ∀ s, ctx.arena.get? id = some s → P ctx e) (he : e.write ctx = ctx.update id f) :
    Makes P (modifySymbol id f) ctx := by
  cases hg : ctx.arena.get? id with
  | some s =>
    refine makes_edit e (h s hg) ?_
    rw [he]
    simp [after, modifySymbol, Context.update, hg]
  | none =>
    have hsame : after (modifySymbol id f) ctx = ctx := by simp [after, modifySymbol, hg]
    rw [Makes, hsame]
    exact .refl ctx

end SemaM

end Sema

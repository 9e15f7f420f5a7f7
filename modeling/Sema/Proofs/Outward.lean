import Sema.Proofs.CaptureChain
import Sema.Proofs.Inheritance

/-!
# `Sema.Proofs.Outward`: every id that a search follows names a symbol

A search for a name goes from a scope to its owner, its super class, the function of its block or
the functions around a lambda. `Context.containers` lists these. `Context.Closed` says that all
these ids name symbols. It holds in every state of a well-nested run (`Reached.closed`), since the
operations write an id as an owner, a super class or a block's function only after they have read
its symbol. Only a lambda takes the ids around it unread, so all that matters is that those exist
(`Reached.closed_of_nests`).

It follows that going outward has one way to fail, that of a scope which contains itself:
`Closed.outer`.
-/

set_option autoImplicit false

namespace Sema

/-- The function that a block stands in. -/
def SymbolKind.frame? : SymbolKind → Option SymbolId
  | .block b => some b.func
  | _ => none

/-- A block stays in its function. -/
theorem SymbolKind.Grows.frame?_eq {a b : SymbolKind} (h : a.Grows b) : b.frame? = a.frame? := by
  cases h with
  | same => rfl
  | classDecl => rfl
  | func => rfl
  | block hf => exact congrArg some hf

namespace Symbol

/-- A parameter of the signature does not move the function. -/
theorem scope_withParam (s : Symbol) (type : TypeRef) (hasDefault : Bool) :
    (s.withParam type hasDefault).scope = s.scope := by
  unfold withParam
  split <;> rfl

/-- A creator does not move the class. -/
theorem scope_withCreator (s : Symbol) (make : Option Creator) :
    (s.withCreator make).scope = s.scope := by
  unfold withCreator
  split <;> rfl

/-- A noted variable does not move the block. -/
theorem scope_withBlockVar (s : Symbol) (var : SymbolId) :
    (s.withBlockVar var).scope = s.scope := by
  unfold withBlockVar
  split <;> rfl

/-- A capture does not move the lambda. -/
theorem scope_withCapture (s : Symbol) (c : Capture) : (s.withCapture c).scope = s.scope := by
  unfold withCapture
  split
  · split <;> rfl
  · rfl

end Symbol

namespace Context

variable {a b ctx : Context}

/-- There is a symbol under an id. -/
def Exists (ctx : Context) (id : SymbolId) : Prop := ∃ s, ctx.arena.get? id = some s

/-- Symbols stay. -/
theorem Grows.exists (h : a.Grows b) {id : SymbolId} (he : a.Exists id) : b.Exists id := by
  obtain ⟨s, hs⟩ := he
  obtain ⟨t, ht, -⟩ := h.symbols id s hs
  exact ⟨t, ht⟩

/-- A lambda exists. -/
theorem exists_of_stack? {id : SymbolId} {stack : List SymbolId} (h : ctx.stack? id = some stack) :
    ctx.Exists id := by
  obtain ⟨l, hl, -⟩ := stack?_eq_some_iff.mp h
  obtain ⟨s, hs, -⟩ := Option.bind_eq_some_iff.mp hl
  exact ⟨s, hs⟩

/-- The scope that a symbol is owned by. -/
def owner? (ctx : Context) (id : SymbolId) : Option SymbolId :=
  (ctx.arena.get? id).bind (·.scope)

/-- The function that a block belongs to. -/
def frame? (ctx : Context) (id : SymbolId) : Option SymbolId :=
  (ctx.arena.get? id).bind (·.kind.frame?)

/-- The owner is read off the symbol that is there. -/
theorem owner?_of_get? {id : SymbolId} {s : Symbol} (hs : ctx.arena.get? id = some s) :
    ctx.owner? id = s.scope := by
  rw [owner?, hs, Option.bind_some]

/-- The function of a block is read off the symbol that is there. -/
theorem frame?_of_get? {id : SymbolId} {s : Symbol} (hs : ctx.arena.get? id = some s) :
    ctx.frame? id = s.kind.frame? := by
  rw [frame?, hs, Option.bind_some]

/-- A block stays in its frame. -/
theorem Grows.frame? (h : a.Grows b) {block p : SymbolId} (hp : a.frame? block = some p) :
    b.frame? block = some p := by
  obtain ⟨o, ho, hframe⟩ := Option.bind_eq_some_iff.mp hp
  obtain ⟨o', ho', hoo⟩ := h.symbols block o ho
  rw [frame?_of_get? ho', hoo.kind.frame?_eq]
  exact hframe

/-- A function stays one. -/
theorem Grows.isFunc (h : a.Grows b) {func : SymbolId}
    (hfunc : ∃ o info, a.arena.get? func = some o ∧ o.kind = .func info) :
    ∃ o info, b.arena.get? func = some o ∧ o.kind = .func info := by
  obtain ⟨o, info, ho, hk⟩ := hfunc
  obtain ⟨o', ho', hoo⟩ := h.symbols func o ho
  obtain ⟨info', hk', -⟩ := hoo.kind.of_func hk
  exact ⟨o', info', ho', hk'⟩

/-- What contains a symbol: its owner, the super class of a class, the function of a block and the
outermost of the functions around a lambda. -/
def containers (ctx : Context) (id : SymbolId) : List SymbolId :=
  (ctx.owner? id).toList ++ (ctx.superClass? id).toList ++ (ctx.frame? id).toList ++
    ((ctx.stack? id).bind List.head?).toList

/-- One symbol is contained in another. -/
def Inside (ctx : Context) (x p : SymbolId) : Prop := p ∈ ctx.containers x

/-- A symbol is inside its owner, its super class, the function of its block and the outermost
function of its stack. -/
theorem inside_iff {x p : SymbolId} :
    ctx.Inside x p ↔ ctx.owner? x = some p ∨ ctx.superClass? x = some p ∨ ctx.frame? x = some p ∨
      ∃ stack, ctx.stack? x = some stack ∧ stack.head? = some p := by
  simp only [Inside, containers, List.mem_append, Option.mem_toList, or_assoc,
    Option.bind_eq_some_iff]

/-- Every id that a search follows names a symbol. -/
structure Closed (ctx : Context) : Prop where
  globals : ctx.Exists globals
  owner : ∀ {x p}, ctx.owner? x = some p → ctx.Exists p
  descends : ctx.Descends
  frame : ∀ {x p}, ctx.frame? x = some p → ctx.Exists p
  /-- A lambda stands last on its stack, and nowhere before. -/
  stack : ∀ {x stack}, ctx.stack? x = some stack →
    ∃ before, stack = before ++ [x] ∧ ∀ f ∈ before, ctx.Exists f ∧ f ≠ x

/-- The functions on a stack exist. -/
theorem Closed.of_mem_stack (h : ctx.Closed) {x f : SymbolId} {stack : List SymbolId}
    (hstack : ctx.stack? x = some stack) (hf : f ∈ stack) : ctx.Exists f := by
  obtain ⟨before, rfl, hbefore⟩ := h.stack hstack
  rcases List.mem_append.mp hf with hf | hf
  · exact (hbefore f hf).1
  · rw [List.mem_singleton.mp hf]
    exact exists_of_stack? hstack

/-- What contains a symbol exists. -/
theorem Closed.inside (h : ctx.Closed) {x p : SymbolId} (hp : ctx.Inside x p) : ctx.Exists p := by
  rcases inside_iff.mp hp with howner | hsuper | hframe | ⟨stack, hstack, hhead⟩
  · exact h.owner howner
  · obtain ⟨-, q, -, hq, -⟩ := h.descends hsuper
    exact ⟨q, hq⟩
  · exact h.frame hframe
  · exact h.of_mem_stack hstack (List.mem_of_head? hhead)

/-- An update that keeps the owner of every symbol keeps all owners. -/
theorem owner?_update {changed : SymbolId} {f : Symbol → Symbol}
    (h : ∀ s : Symbol, (f s).scope = s.scope) : (ctx.update changed f).owner? = ctx.owner? := by
  funext x
  have hmap := ctx.map_get?_update (v := Symbol.scope) changed h x
  simpa [owner?, Option.bind_map, Function.comp_def] using congrArg (Option.bind · id) hmap

/-- Entering a symbol makes the scope its owner, and changes no other owner. -/
theorem owner?_withMember {scope sym x p : SymbolId}
    (h : (ctx.withMember scope sym).owner? x = some p) :
    ctx.owner? x = some p ∨ (p = scope ∧ ctx.Exists scope) := by
  unfold withMember at h
  split at h
  · rename_i s o hs ho
    split at h
    · rename_i members hpush
      rw [owner?, get?_update] at h
      by_cases hx : x = sym
      · rw [if_pos hx, Option.bind_map] at h
        obtain ⟨t, -, ht⟩ := Option.bind_eq_some_iff.mp h
        cases ht
        exact Or.inr ⟨rfl, o, ho⟩
      · rw [if_neg hx] at h
        left
        rw [← owner?_update (f := fun o => { o with members }) fun _ => rfl]
        exact h
    · exact Or.inl h
  · exact Or.inl h

/-- A new symbol comes with its owner and changes no other. -/
theorem owner?_alloc (s : Symbol) (x : SymbolId) :
    ((Edit.alloc s).write ctx).owner? x = if x = ctx.nextId then s.scope else ctx.owner? x := by
  unfold owner?
  rw [get?_alloc]
  split <;> rfl

/-- Everything on a chain exists. -/
theorem Chain.exists {stack : List SymbolId} (h : ctx.Chain stack) {f : SymbolId} (hf : f ∈ stack) :
    ctx.Exists f := by
  induction h with
  | plain hs =>
    rw [List.mem_singleton.mp hf]
    exact ⟨_, hs⟩
  | lambda _ hl ih =>
    rcases List.mem_append.mp hf with hf | hf
    · exact ih hf
    · rw [List.mem_singleton.mp hf]
      exact exists_of_stack? hl

end Context

namespace Edit

variable {rules : Rules} {ctx : Context} {e : Edit}

/-- After a quiet edit every owner is a scope that was there before. -/
theorem Quiet.owner (he : Quiet rules ctx e) (h : ctx.Closed) {x p : SymbolId}
    (hx : (e.write ctx).owner? x = some p) : ctx.Exists p := by
  cases he with
  | alloc hb =>
    rw [Context.owner?_alloc] at hx
    split at hx
    · -- A new symbol is owned by the global scope, by a scope that was looked at, or by none.
      rcases hb.owner p hx with rfl | hp
      · exact h.globals
      · exact Option.isSome_iff_exists.mp hp
    · exact h.owner hx
  | enter =>
    rcases Context.owner?_withMember hx with hx | ⟨rfl, hp⟩
    · exact h.owner hx
    · exact hp
  | nest =>
    rw [Edit.write, Context.owner?_update, Context.owner?_update] at hx
    · exact h.owner hx
    · exact fun _ => rfl
    · exact fun s => s.scope_withBlockVar _
  | param =>
    rw [Edit.write, Context.owner?_update fun s => s.scope_withParam _ _] at hx
    exact h.owner hx
  | creator =>
    rw [Edit.write, Context.owner?_update fun s => s.scope_withCreator _] at hx
    exact h.owner hx
  | hide =>
    rw [Edit.write, Context.owner?_update] at hx
    · exact h.owner hx
    · exact fun _ => rfl
  | newSlot => exact h.owner hx
  | fill => exact h.owner hx
  | link =>
    simp only [Edit.write] at hx
    split at hx
    · exact h.owner hx
    · exact h.owner hx

section Nests

variable (hnests : ∀ enclosing, rules.nests ctx enclosing → ∀ f ∈ enclosing, ctx.Exists f)

include hnests

/-- An owner that an edit writes exists: of a new lambda it is the innermost function around it. -/
theorem Fits.owner (he : Fits rules ctx e) (h : ctx.Closed) {x p : SymbolId}
    (hx : (e.write ctx).owner? x = some p) : ctx.Exists p := by
  cases he with
  | plain he =>
    cases he with
    | quiet he => exact he.owner h hx
    | keep => exact h.owner hx
    | storage => exact h.owner hx
  | inherit =>
    rw [Context.owner?_alloc] at hx
    split at hx
    · cases hx
    · exact h.owner hx
  | nested he =>
    cases he with
    | lambda _ hput =>
      rw [Context.owner?_alloc] at hx
      split at hx
      · -- A lambda is owned by the innermost function around it.
        exact hnests _ hput p (List.mem_of_getLast? hx)
      · exact h.owner hx
    | copy =>
      rw [Context.owner?_alloc] at hx
      split at hx
      · cases hx
      · exact h.owner hx
    | capture =>
      rw [Edit.write, Context.owner?_update fun s => s.scope_withCapture _] at hx
      rcases Context.owner?_withMember hx with hx | ⟨rfl, hp⟩
      · exact h.owner hx
      · exact hp
    | quiet he => exact he.owner h hx

/-- A new lambda is put last on its stack, behind functions that were there before it. -/
theorem Fits.stack (he : Fits rules ctx e) (h : ctx.Closed) {x : SymbolId} {stack : List SymbolId}
    (hx : (e.write ctx).stack? x = some stack) :
    ∃ before, stack = before ++ [x] ∧ ∀ f ∈ before, ctx.Exists f ∧ f ≠ x := by
  obtain ⟨l, hl, rfl⟩ := Context.stack?_eq_some_iff.mp hx
  rcases he.lambda?_write hl with hold | ⟨enclosing, -, hput, rfl, rfl⟩ | ⟨_, _, l₀, -, hold, rfl⟩
  · exact h.stack (Context.stack?_eq_some_iff.mpr ⟨l, hold, rfl⟩)
  · refine ⟨enclosing, rfl, fun f hf => ?_⟩
    obtain ⟨s, hs⟩ := hnests enclosing hput f hf
    exact ⟨⟨s, hs⟩, Context.ne_nextId hs⟩
  · exact h.stack (Context.stack?_eq_some_iff.mpr ⟨l₀, hold, rfl⟩)

end Nests

section Frame

variable {F : SymbolId → Prop}
  (hfunc : ∀ f s info, ctx.arena.get? f = some s → s.kind = .func info → F f)
  (hframe : ∀ x p, ctx.frame? x = some p → F p)

include hfunc hframe

/-- A new block stands in a function, or in the frame of a block that was there before. -/
theorem frame_of_blank {s : Symbol} (hb : s.Blank rules ctx) {p : SymbolId}
    (hp : s.kind.frame? = some p) : F p := by
  have hkind := hb.kind
  cases hk : s.kind with
  | block b =>
    rw [hk] at hkind hp
    cases hp
    -- A block is opened in a function or in a block, and then has the function of that one.
    rcases hkind.2 with ⟨f, info, hf, hk⟩ | ⟨block, o, b', ho, hb', hsame⟩
    · exact hfunc _ f info hf hk
    · refine hframe block _ ?_
      rw [Context.frame?_of_get? ho, hb', ← hsame]
      rfl
  | _ =>
    rw [hk] at hp
    cases hp

/-- What holds of every function and of every frame holds of every frame after an edit. -/
theorem Fits.frame (he : Fits rules ctx e) {x p : SymbolId}
    (hx : (e.write ctx).frame? x = some p) : F p := by
  obtain ⟨s, hs, hp⟩ := Option.bind_eq_some_iff.mp hx
  rcases he.grown_or_born hs with ⟨t, ht, hgrows⟩ | hborn
  · rw [hgrows.kind.frame?_eq, ← Context.frame?_of_get? ht] at hp
    exact hframe x p hp
  · cases hborn with
    | blank hb => exact frame_of_blank hfunc hframe hb hp
    | lambda => cases hp
    | copy => cases hp
    | heir => cases hp

end Frame

/-- Every edit keeps the context closed when lambdas are put into functions that exist. -/
theorem Fits.closed (he : Fits rules ctx e)
    (hnests : ∀ enclosing, rules.nests ctx enclosing → ∀ f ∈ enclosing, ctx.Exists f)
    (h : ctx.Closed) : (e.write ctx).Closed where
  globals := he.grows.exists h.globals
  owner hx := he.grows.exists (he.owner hnests h hx)
  descends := he.descends h.descends
  frame hx := he.grows.exists (he.frame (fun _ s _ hs _ => ⟨s, hs⟩) (fun _ _ => h.frame) hx)
  stack hx := by
    obtain ⟨before, hsplit, hbefore⟩ := he.stack hnests h hx
    exact ⟨before, hsplit, fun f hf => ⟨he.grows.exists (hbefore f hf).1, (hbefore f hf).2⟩⟩

end Edit

/-- The bare context has one scope, and nothing inside it. -/
theorem Context.bare_closed : bare.Closed := by
  refine ⟨⟨_, rfl⟩, fun hx => ?_, bare_descends, fun hx => ?_, fun hx => ?_⟩
  · obtain ⟨s, hs, hp⟩ := Option.bind_eq_some_iff.mp hx
    rw [eq_of_get?_bare hs] at hp
    cases hp
  · obtain ⟨s, hs, hp⟩ := Option.bind_eq_some_iff.mp hx
    rw [eq_of_get?_bare hs] at hp
    cases hp
  · obtain ⟨l, hl, -⟩ := stack?_eq_some_iff.mp hx
    obtain ⟨s, hs, hl⟩ := Option.bind_eq_some_iff.mp hl
    rw [eq_of_get?_bare hs] at hl
    cases hl

/-- If a run puts lambdas into existing functions only, the ids that a search follows name symbols
in all of its states. -/
theorem Reached.closed_of_nests {allowed : Context → Op → Prop} {ctx : Context}
    {nests : Context → List SymbolId → Prop}
    (hnests : ∀ ctx enclosing, ctx.Closed → nests ctx enclosing → ∀ f ∈ enclosing, ctx.Exists f)
    (hallowed : ∀ ctx op, allowed ctx op → op.Nests nests ctx) (h : Reached allowed ctx) :
    ctx.Closed :=
  (h.edits_nested hallowed).preserves
    (fun ctx _ he hc => he.closed (fun enclosing hput => hnests ctx enclosing hc hput) hc)
    Context.bare_closed

/-- In every state of a well-nested run, the ids that a search follows name symbols. -/
theorem Reached.closed {allowed : Context → Op → Prop} {ctx : Context}
    (hallowed : ∀ ctx op, allowed ctx op → op.Nests Context.WellNested ctx)
    (h : Reached allowed ctx) : ctx.Closed := by
  refine h.closed_of_nests (fun ctx enclosing hc hput f hf => ?_) hallowed
  rcases hput with ⟨func, s, info, rfl, hs, -⟩ | ⟨lambda, hl⟩
  · rw [List.mem_singleton.mp hf]
    exact ⟨s, hs⟩
  · exact hc.of_mem_stack hl hf

/-! ### Going outward -/

/-- The id that the next step outward reads. -/
def Onward.target? : Onward → Option SymbolId
  | .scope next => next
  | .past owner => some owner
  | .sameAs func => some func

namespace Symbol

variable {s : Symbol} {id next : SymbolId}

/-- A class goes on to its super class, or else to its owner. -/
theorem target?_onward_class {info : ClassInfo} (hk : s.kind = .classDecl info)
    (h : (s.onward id).target? = some next) :
    s.scope = some next ∨ info.superClass = some next := by
  simp only [onward, hk, Onward.target?] at h
  cases hsuper : info.superClass with
  | some parent =>
    rw [hsuper] at h
    exact Or.inr h
  | none =>
    rw [hsuper] at h
    exact Or.inl h

/-- Whoever passes on past its owner has one. -/
theorem scope_of_past {o : Onward} (hsome : ∀ owner, s.scope = some owner → o = .past owner)
    (hnone : s.scope = none → o = .scope none) (h : o.target? = some next) :
    s.scope = some next := by
  cases hscope : s.scope with
  | none =>
    rw [hnone hscope] at h
    cases h
  | some owner =>
    rw [hsome owner hscope] at h
    exact h

/-- A function goes on to its owner. A lambda that is not the outermost of its stack goes on where
the outermost one does. -/
theorem target?_onward_func {info : FuncInfo} (hk : s.kind = .func info)
    (h : (s.onward id).target? = some next) :
    s.scope = some next ∨ ∃ l, info.flavor = .lambda l ∧ l.stack.head? = some next := by
  simp only [onward, hk] at h
  -- Only a lambda with somebody else at the bottom of its stack goes anywhere but past.
  cases hf : info.flavor with
  | lambda l =>
    simp only [hf] at h
    cases hhead : l.stack.head? with
    | none =>
      simp only [hhead] at h
      exact Or.inl (scope_of_past (fun owner ho => by rw [ho]) (fun ho => by rw [ho]) h)
    | some outermost =>
      simp only [hhead] at h
      split at h
      · exact Or.inl (scope_of_past (fun owner ho => by rw [ho]) (fun ho => by rw [ho]) h)
      · exact Or.inr ⟨l, rfl, hhead.trans h⟩
  | _ =>
    simp only [hf] at h
    exact Or.inl (scope_of_past (fun owner ho => by rw [ho]) (fun ho => by rw [ho]) h)

/-- Where any symbol goes on: to its owner, to the super class of a class, to the function of a
block, or to the outermost function around a lambda. -/
theorem target?_onward (h : (s.onward id).target? = some next) :
    s.scope = some next ∨ (∃ info, s.kind = .classDecl info ∧ info.superClass = some next) ∨
      (∃ b, s.kind = .block b ∧ b.func = next) ∨
      ∃ info l, s.kind = .func info ∧ info.flavor = .lambda l ∧ l.stack.head? = some next := by
  cases hk : s.kind with
  | classDecl info =>
    rcases target?_onward_class hk h with hscope | hsuper
    · exact Or.inl hscope
    · exact Or.inr (Or.inl ⟨info, rfl, hsuper⟩)
  | func info =>
    rcases target?_onward_func hk h with hscope | ⟨l, hf, hhead⟩
    · exact Or.inl hscope
    · exact Or.inr (Or.inr (Or.inr ⟨info, l, rfl, hf, hhead⟩))
  | block b =>
    -- A block only has its function to go to.
    simp only [onward, hk] at h
    exact Or.inr (Or.inr (Or.inl ⟨b, rfl, Option.some.inj h⟩))
  | globalScope =>
    simp only [onward, hk] at h
    cases h
  | _ =>
    simp only [onward, hk] at h
    exact Or.inl h

end Symbol

namespace Context

variable {ctx : Context} {scope : SymbolId}

/-- Going outward leads from a symbol to one that contains it. -/
theorem inside_of_onward {s : Symbol} {next : SymbolId} (hs : ctx.arena.get? scope = some s)
    (hnext : (s.onward scope).target? = some next) : ctx.Inside scope next := by
  rw [inside_iff]
  rcases Symbol.target?_onward hnext with hscope | ⟨info, hk, hsuper⟩ | ⟨b, hk, rfl⟩ |
    ⟨info, l, hk, hf, hhead⟩
  · exact Or.inl ((owner?_of_get? hs).trans hscope)
  · exact Or.inr (Or.inl ((superClass?_of_class hs hk).trans hsuper))
  · refine Or.inr (Or.inr (Or.inl ?_))
    rw [frame?_of_get? hs, hk]
    rfl
  · have hstack : ctx.stack? scope = some l.stack := by
      rw [stack?, lambda?_of_get? hs, hk]
      simp [SymbolKind.lambda?, SymbolKind.func?, hf, FuncFlavor.lambda?]
    exact Or.inr (Or.inr (Or.inr ⟨l.stack, hstack, hhead⟩))

/-- Going outward from a scope leads to another scope or to the end, unless it comes back to where
it was. -/
theorem Closed.outerWithin (h : ctx.Closed) (fuel : Nat) (hscope : ctx.Exists scope) :
    (∃ next, ctx.outerWithin fuel scope = .ok next ∧ ∀ n ∈ next, ctx.Exists n) ∨
      ∃ inside, ctx.outerWithin fuel scope = .error (.endless inside) := by
  induction fuel generalizing scope with
  | zero => exact Or.inr ⟨scope, rfl⟩
  | succ fuel ih =>
    obtain ⟨s, hs⟩ := hscope
    have htarget : ∀ next, (s.onward scope).target? = some next → ctx.Exists next :=
      fun _ hnext => h.inside (inside_of_onward hs hnext)
    rw [Context.outerWithin, symbol_of_get? hs]
    dsimp only [bind, Except.bind]
    cases honward : s.onward scope with
    | scope next =>
      rw [honward] at htarget
      exact Or.inl ⟨next, rfl, htarget⟩
    | sameAs func =>
      rw [honward] at htarget
      exact ih (htarget func rfl)
    | past owner =>
      rw [honward] at htarget
      obtain ⟨o, ho⟩ := htarget owner rfl
      left
      simp only [symbol_of_get? ho]
      refine ⟨_, rfl, fun n hn => ?_⟩
      -- Past a class the search goes on at the owner of the class.
      split at hn
      · exact h.owner (by rw [owner?_of_get? ho]; exact hn)
      · cases hn
        exact ⟨o, ho⟩

/-- The outer scope of a scope exists, if it has one and the way to it ends. -/
theorem Closed.outer (h : ctx.Closed) (hscope : ctx.Exists scope) :
    (∃ next, ctx.outer scope = .ok next ∧ ∀ n ∈ next, ctx.Exists n) ∨
      ∃ inside, ctx.outer scope = .error (.endless inside) :=
  h.outerWithin ctx.searchBound hscope

end Context

end Sema

import Mathlib.Data.List.Infix
import Sema.Proofs.Edit

/-!
# `Sema.Proofs.Growth`: a context only grows

`Context.Grows a b` says what stays true of a context for the rest of a compilation. A symbol keeps
its name, its type, its place and what it is; its members, parameters, captures and block variables
are only added to at the end; a slot that it has got it keeps. A script class gets no creator later.
A type reference that is bound, a link and a registered class stay as they are.

`Edit.Fits.grows` shows it for each elementary change. Most facts about later states come from it,
since a fact about a member at a position, such as `Context.At`, survives growth (`Grows.at`).
-/

set_option autoImplicit false

namespace Sema

/-- A function stays native, a script function or a lambda; a lambda keeps its stack and notes more
captures. -/
inductive FuncFlavor.Grows : FuncFlavor → FuncFlavor → Prop
  | same (f : FuncFlavor) : Grows f f
  | lambda {a b : LambdaInfo} (stack : b.stack = a.stack) (captures : a.captures <+: b.captures) :
      Grows (.lambda a) (.lambda b)

/-- A symbol stays of its kind. -/
inductive SymbolKind.Grows : SymbolKind → SymbolKind → Prop
  | same (k : SymbolKind) : Grows k k
  | classDecl {a b : ClassInfo} (superClass : b.superClass = a.superClass)
      (flavor : b.flavor = a.flavor) (structural : b.structural = a.structural)
      (creator : a.flavor = .script → b.creator = a.creator) : Grows (.classDecl a) (.classDecl b)
  | func {a b : FuncInfo} (flavor : a.flavor.Grows b.flavor)
      (ret : b.signature.ret = a.signature.ret)
      (params : a.signature.params <+: b.signature.params) (defaults : a.defaults ≤ b.defaults) :
      Grows (.func a) (.func b)
  | block {a b : BlockInfo} (func : b.func = a.func) (level : b.level = a.level)
      (vars : a.vars <+: b.vars) : Grows (.block a) (.block b)

/-- A symbol keeps what it has and gets more. -/
structure Symbol.Grows (s t : Symbol) : Prop where
  name : t.name = s.name
  location : t.location = s.location
  type? : t.type? = s.type?
  kind : s.kind.Grows t.kind
  slot : ∀ i, s.slot = some i → t.slot = some i
  hidden : s.outOfScope = true → t.outOfScope = true
  members : s.members.entries <+: t.members.entries

/-- A context keeps what it has and gets more. -/
structure Context.Grows (a b : Context) : Prop where
  symbols : ∀ id s, a.arena.get? id = some s → ∃ t, b.arena.get? id = some t ∧ s.Grows t
  slots : ∀ slot t, a.slotType? slot = some t → b.slotType? slot = some t
  links : a.links <+: b.links
  structural : ∀ name cls, a.structural.find? name = some cls → b.structural.find? name = some cls

/-- Growth of flavors is transitive. -/
theorem FuncFlavor.Grows.trans {a b c : FuncFlavor} (hab : a.Grows b) (hbc : b.Grows c) :
    a.Grows c := by
  cases hab with
  | same => exact hbc
  | lambda hs hc =>
    cases hbc with
    | same => exact .lambda hs hc
    | lambda hs' hc' => exact .lambda (hs'.trans hs) (hc.trans hc')

namespace SymbolKind.Grows

variable {a b c : SymbolKind}

/-- Growth of kinds is transitive. Both steps are of the same kind, so there is one case for each.
-/
theorem trans (hab : a.Grows b) (hbc : b.Grows c) : a.Grows c := by
  cases hab with
  | same => exact hbc
  | classDecl hs hf hst hc =>
    cases hbc with
    | same => exact .classDecl hs hf hst hc
    | classDecl hs' hf' hst' hc' =>
      exact .classDecl (hs'.trans hs) (hf'.trans hf) (hst'.trans hst) fun hscript =>
        (hc' (hf.trans hscript)).trans (hc hscript)
  | func hf hr hp hd =>
    cases hbc with
    | same => exact .func hf hr hp hd
    | func hf' hr' hp' hd' =>
      exact .func (hf.trans hf') (hr'.trans hr) (hp.trans hp') (hd.trans hd')
  | block hf hl hv =>
    cases hbc with
    | same => exact .block hf hl hv
    | block hf' hl' hv' => exact .block (hf'.trans hf) (hl'.trans hl) (hv.trans hv')

/-- What is a variable stays one, and nothing else becomes one. -/
theorem isVariable (h : a.Grows b) : b.isVariable = a.isVariable := by
  cases h <;> rfl

/-- The same holds of the kinds that have slots. -/
theorem isSlotted (h : a.Grows b) : b.isSlotted = a.isSlotted := by
  cases h <;> rfl

/-- What is a block was one before, in the same frame. -/
theorem to_block {b' : BlockInfo} (h : a.Grows (.block b')) :
    ∃ b, a = .block b ∧ b'.func = b.func ∧ b.vars <+: b'.vars := by
  cases h with
  | same => exact ⟨b', rfl, rfl, List.prefix_rfl⟩
  | block hf _ hv => exact ⟨_, rfl, hf, hv⟩

/-- What is a class was one before, and the host does not take a script class over. -/
theorem to_classDecl {info' : ClassInfo} (h : a.Grows (.classDecl info')) :
    ∃ info, a = .classDecl info ∧ info'.flavor = info.flavor ∧
      (info.flavor = .script → info'.creator = info.creator) := by
  cases h with
  | same => exact ⟨info', rfl, rfl, fun _ => rfl⟩
  | classDecl _ hf _ hc => exact ⟨_, rfl, hf, hc⟩

/-- An enum item was one from the start. -/
theorem to_enumItem {owner : SymbolId} {value : Int} (h : a.Grows (.enumItem owner value)) :
    a = .enumItem owner value := by
  cases h
  rfl

/-- What is a function was one before, with the same result. -/
theorem to_func {info' : FuncInfo} (h : a.Grows (.func info')) :
    ∃ info, a = .func info ∧ info'.signature.ret = info.signature.ret := by
  cases h with
  | same => exact ⟨info', rfl, rfl⟩
  | func _ hr => exact ⟨_, rfl, hr⟩

/-- What is a function was one before, and the host does not take a script function over. -/
theorem to_func_flavor {info' : FuncInfo} (h : a.Grows (.func info')) :
    ∃ info, a = .func info ∧ info'.flavor.isNative = info.flavor.isNative := by
  cases h with
  | same => exact ⟨info', rfl, rfl⟩
  | @func x y hf =>
    refine ⟨x, rfl, ?_⟩
    obtain ⟨xf, xs, xd⟩ := x
    obtain ⟨yf, ys, yd⟩ := info'
    cases hf <;> rfl

/-- A lambda stays one, with the same stack. -/
theorem lambda? {l : LambdaInfo} (h : a.Grows b) (hl : a.lambda? = some l) :
    ∃ l', b.lambda? = some l' ∧ l'.stack = l.stack ∧ l.captures <+: l'.captures := by
  cases h with
  | same => exact ⟨l, hl, rfl, List.prefix_rfl⟩
  | classDecl => cases hl
  | block => cases hl
  | @func x y hf =>
    obtain ⟨xf, xs, xd⟩ := x
    obtain ⟨yf, ys, yd⟩ := y
    cases hf with
    | same => exact ⟨l, hl, rfl, List.prefix_rfl⟩
    | lambda hs hc =>
      cases hl
      exact ⟨_, rfl, hs, hc⟩

/-- What is not a lambda does not become one. -/
theorem lambda?_eq_none (h : a.Grows b) (hl : a.lambda? = none) : b.lambda? = none := by
  cases h with
  | same => exact hl
  | classDecl => rfl
  | block => rfl
  | @func x y hf =>
    obtain ⟨xf, xs, xd⟩ := x
    obtain ⟨yf, ys, yd⟩ := y
    cases hf with
    | same => exact hl
    | lambda hs hc => cases hl

/-- A class keeps its super class, and nothing else gets one. -/
theorem superClass (h : a.Grows b) :
    b.class?.bind (·.superClass) = a.class?.bind (·.superClass) := by
  cases h with
  | same => rfl
  | classDecl hs => exact hs
  | func => rfl
  | block => rfl

/-- A local variable stays one. -/
theorem of_var (h : a.Grows b) (ha : a = .var) : b = .var := by
  subst ha
  cases h
  rfl

/-- A parameter stays one, and is passed as before. -/
theorem of_param (h : a.Grows b) {byRef : Bool} (ha : a = .param byRef) : b = .param byRef := by
  subst ha
  cases h
  rfl

/-- A function stays one. -/
theorem of_func (h : a.Grows b) {info : FuncInfo} (ha : a = .func info) :
    ∃ info', b = .func info' ∧ info.flavor.Grows info'.flavor := by
  subst ha
  cases h with
  | same => exact ⟨info, rfl, .same _⟩
  | func hf => exact ⟨_, rfl, hf⟩

/-- A block stays one of the same function and keeps its variables. -/
theorem of_block (h : a.Grows b) {i : BlockInfo} (ha : a = .block i) :
    ∃ i', b = .block i' ∧ i'.func = i.func ∧ i.vars <+: i'.vars := by
  subst ha
  cases h with
  | same => exact ⟨i, rfl, rfl, List.prefix_rfl⟩
  | block hf _ hv => exact ⟨_, rfl, hf, hv⟩

/-- A class stays one and keeps its super class, its flavor and the type that it was made for. -/
theorem of_classDecl (h : a.Grows b) {info : ClassInfo} (ha : a = .classDecl info) :
    ∃ info', b = .classDecl info' ∧ info'.superClass = info.superClass ∧
      info'.flavor = info.flavor ∧ info'.structural = info.structural := by
  subst ha
  cases h with
  | same => exact ⟨info, rfl, rfl, rfl, rfl⟩
  | classDecl hs hf hst => exact ⟨_, rfl, hs, hf, hst⟩

end SymbolKind.Grows

namespace Symbol

/-- Nothing happens to a symbol. -/
theorem Grows.refl (s : Symbol) : s.Grows s :=
  ⟨rfl, rfl, rfl, .same _, fun _ h => h, id, List.prefix_rfl⟩

/-- One change of a symbol follows another. -/
theorem Grows.trans {r s t : Symbol} (h : r.Grows s) (h' : s.Grows t) : r.Grows t :=
  ⟨h'.name.trans h.name, h'.location.trans h.location, h'.type?.trans h.type?, h.kind.trans h'.kind,
    fun i hi => h'.slot i (h.slot i hi), fun hh => h'.hidden (h.hidden hh),
    h.members.trans h'.members⟩

/-- A change of kind alone. -/
theorem grows_of_kind (s : Symbol) {k : SymbolKind} (h : s.kind.Grows k) :
    s.Grows { s with kind := k } :=
  ⟨rfl, rfl, rfl, h, fun _ h => h, id, List.prefix_rfl⟩

/-- A parameter is added behind the others. -/
theorem grows_withParam (s : Symbol) (type : TypeRef) (hasDefault : Bool) :
    s.Grows (s.withParam type hasDefault) := by
  unfold withParam
  split
  · rename_i info hk
    refine s.grows_of_kind ?_
    rw [hk]
    refine .func (.same _) rfl (List.prefix_append _ _) ?_
    simp only
    split <;> omega
  · exact .refl s

/-- A capture is noted behind the others. -/
theorem grows_withCapture (s : Symbol) (c : Capture) : s.Grows (s.withCapture c) := by
  unfold withCapture
  split
  · rename_i info hk
    split
    · rename_i l hl
      refine s.grows_of_kind ?_
      rw [hk]
      refine .func ?_ rfl List.prefix_rfl (Nat.le_refl _)
      rw [hl]
      exact .lambda rfl (List.prefix_append _ _)
    · exact .refl s
  · exact .refl s

/-- A creator is set. Only native classes get one afterwards. -/
theorem grows_withCreator (s : Symbol) (make : Option Creator)
    (hnative : ∀ info, s.kind = .classDecl info → info.flavor = .native) :
    s.Grows (s.withCreator make) := by
  unfold withCreator
  split
  · rename_i info hk
    refine s.grows_of_kind ?_
    rw [hk]
    refine .classDecl rfl rfl rfl fun hscript => ?_
    rw [hnative info hk] at hscript
    cases hscript
  · exact .refl s

/-- A variable of a block is noted behind the others. -/
theorem grows_withBlockVar (s : Symbol) (var : SymbolId) : s.Grows (s.withBlockVar var) := by
  unfold withBlockVar
  split
  · rename_i b hk
    refine s.grows_of_kind ?_
    rw [hk]
    exact .block rfl rfl (List.prefix_append _ _)
  · exact .refl s

/-- The level of a symbol is no part of what stays. -/
theorem grows_level (s : Symbol) (level : Nat) : s.Grows { s with level } :=
  ⟨rfl, rfl, rfl, .same _, fun _ h => h, id, List.prefix_rfl⟩

/-- A symbol is hidden, and stays so. -/
theorem grows_hide (s : Symbol) : s.Grows { s with outOfScope := true } :=
  ⟨rfl, rfl, rfl, .same _, fun _ h => h, fun _ => rfl, List.prefix_rfl⟩

/-- A slot that a symbol has is not given a second time. -/
theorem grows_enteredAt (s : Symbol) (scope : SymbolId) (position : Nat) :
    s.Grows (s.enteredAt scope position) := by
  refine ⟨rfl, rfl, rfl, .same _, ?_, id, List.prefix_rfl⟩
  intro i hi
  simp [enteredAt, hi]

/-- Members are added at the end. -/
theorem grows_members (s : Symbol) {members : Members}
    (h : s.members.entries <+: members.entries) : s.Grows { s with members } :=
  ⟨rfl, rfl, rfl, .same _, fun _ h => h, id, h⟩

end Symbol

namespace Context

variable {a b c ctx : Context}

/-- Nothing happens to a context. -/
theorem Grows.refl (ctx : Context) : ctx.Grows ctx :=
  ⟨fun _ s h => ⟨s, h, .refl s⟩, fun _ _ h => h, List.prefix_rfl, fun _ _ h => h⟩

/-- One change of a context follows another. -/
theorem Grows.trans (h : a.Grows b) (h' : b.Grows c) : a.Grows c := by
  refine ⟨fun id s hs => ?_, fun slot t ht => h'.slots slot t (h.slots slot t ht),
    h.links.trans h'.links, fun n cls hn => h'.structural n cls (h.structural n cls hn)⟩
  obtain ⟨t, ht, hst⟩ := h.symbols id s hs
  obtain ⟨u, hu, htu⟩ := h'.symbols id t ht
  exact ⟨u, hu, hst.trans htu⟩

/-- The symbol `x` stands under `name` at position `i` among the members of `scope`. -/
def At (ctx : Context) (scope : SymbolId) (i : Nat) (name : String) (x : SymbolId) : Prop :=
  ∃ o, ctx.arena.get? scope = some o ∧ o.members.entries[i]? = some (name, x)

/-- A member stays at its position. -/
theorem Grows.at (h : a.Grows b) {scope x : SymbolId} {i : Nat} {name : String}
    (hat : a.At scope i name x) : b.At scope i name x := by
  obtain ⟨o, ho, hi⟩ := hat
  obtain ⟨t, ht, hst⟩ := h.symbols scope o ho
  obtain ⟨rest, hrest⟩ := hst.members
  refine ⟨t, ht, ?_⟩
  rw [← hrest, List.getElem?_append_left (List.getElem?_eq_some_iff.mp hi).1]
  exact hi

/-- A lambda keeps its stack and notes more captures. -/
theorem Grows.lambda? (h : a.Grows b) {id : SymbolId} {l : LambdaInfo}
    (hl : a.lambda? id = some l) :
    ∃ l', b.lambda? id = some l' ∧ l'.stack = l.stack ∧ l.captures <+: l'.captures := by
  obtain ⟨s, hs, hl⟩ := Option.bind_eq_some_iff.mp hl
  obtain ⟨t, ht, hst⟩ := h.symbols id s hs
  rw [lambda?_of_get? ht]
  exact hst.kind.lambda? hl

/-- What is there and is no lambda never becomes one. -/
theorem Grows.lambda?_eq_none (h : a.Grows b) {id : SymbolId} {s : Symbol}
    (hs : a.arena.get? id = some s) (hl : a.lambda? id = none) : b.lambda? id = none := by
  obtain ⟨t, ht, hst⟩ := h.symbols id s hs
  rw [lambda?_of_get? hs] at hl
  rw [lambda?_of_get? ht]
  exact hst.kind.lambda?_eq_none hl

/-- A lambda keeps its stack. -/
theorem Grows.stack? (h : a.Grows b) {id : SymbolId} {stack : List SymbolId}
    (hs : a.stack? id = some stack) : b.stack? id = some stack := by
  obtain ⟨l, hl, rfl⟩ := stack?_eq_some_iff.mp hs
  obtain ⟨l', hl', hstack, -⟩ := h.lambda? hl
  exact stack?_eq_some_iff.mpr ⟨l', hl', hstack⟩

/-- The super class is read off the symbol, without the errors of the query. -/
theorem superClass?_eq (ctx : Context) (cls : SymbolId) :
    ctx.superClass? cls = (ctx.arena.get? cls).bind fun s => s.kind.class?.bind (·.superClass) := by
  cases hs : ctx.arena.get? cls with
  | none =>
    simp only [superClass?, superClass, classInfo, symbol, hs]
    rfl
  | some s =>
    simp only [superClass?, superClass, classInfo, symbol, hs]
    cases hk : s.kind <;> simp only [bind, Except.bind, Option.bind_some, hk] <;> rfl

/-- What is there keeps its super class, or goes on having none. -/
theorem Grows.superClass?_eq (h : a.Grows b) {cls : SymbolId} {s : Symbol}
    (hs : a.arena.get? cls = some s) : b.superClass? cls = a.superClass? cls := by
  obtain ⟨t, ht, hst⟩ := h.symbols cls s hs
  rw [Context.superClass?_eq, Context.superClass?_eq, hs, ht]
  exact hst.kind.superClass

/-- The class of a structural type stays its class. -/
theorem Grows.synthesized (h : a.Grows b) {cls : SymbolId} {st : Structural}
    (hs : a.Synthesized cls st) : b.Synthesized cls st := by
  obtain ⟨s, info, hcls, hk, hst⟩ := hs
  obtain ⟨t, ht, hgrows⟩ := h.symbols cls s hcls
  obtain ⟨info', hk', -, -, hst'⟩ := hgrows.kind.of_classDecl hk
  exact ⟨t, info', ht, hk', hst'.trans hst⟩

/-- A name stands at one position of a scope. -/
theorem At.unique {scope x y : SymbolId} {i j : Nat} {name : String}
    (hx : ctx.At scope i name x) (hy : ctx.At scope j name y) : i = j ∧ x = y := by
  obtain ⟨o, ho, hi⟩ := hx
  obtain ⟨o', ho', hj⟩ := hy
  rw [ho] at ho'
  cases ho'
  have hij := o.members.position_unique hi hj
  subst hij
  rw [hi] at hj
  cases hj
  exact ⟨rfl, rfl⟩

/-- Ids of symbols are at most the size of the arena. -/
theorem num_le_size {id : SymbolId} {s : Symbol} (h : ctx.arena.get? id = some s) :
    id.num ≤ ctx.arena.size := by
  obtain ⟨n⟩ := id
  cases n with
  | zero => cases h
  | succ n => exact (Array.getElem?_eq_some_iff.mp h).1

/-- They are smaller than the next id. -/
theorem lt_nextId {id : SymbolId} {s : Symbol} (h : ctx.arena.get? id = some s) :
    id.num < ctx.nextId.num :=
  Nat.lt_succ_of_le (num_le_size h)

/-- In particular the next id is none of them. -/
theorem ne_nextId {id : SymbolId} {s : Symbol} (h : ctx.arena.get? id = some s) :
    id ≠ ctx.nextId := by
  intro he
  have hlt := lt_nextId h
  rw [he] at hlt
  exact Nat.lt_irrefl _ hlt

/-- Ids that name no symbol: zero, and those beyond the arena. -/
theorem get?_eq_none_iff {id : SymbolId} :
    ctx.arena.get? id = none ↔ id.num = 0 ∨ ctx.arena.size < id.num := by
  obtain ⟨n⟩ := id
  cases n with
  | zero => simp [Arena.get?]
  | succ n =>
    rw [Arena.get?, Arena.size, Array.getElem?_eq_none_iff]
    -- The arena counts from zero and the ids from one.
    show ctx.arena.symbols.size ≤ n ↔ n + 1 = 0 ∨ ctx.arena.symbols.size < n + 1
    omega

/-- The next id names nothing yet. -/
theorem get?_nextId (ctx : Context) : ctx.arena.get? ctx.nextId = none := by
  cases h : ctx.arena.get? ctx.nextId with
  | none => rfl
  | some s => exact absurd rfl (ne_nextId h)

/-- The bare context has the global scope and nothing else. -/
theorem eq_of_get?_bare {x : SymbolId} {s : Symbol} (h : bare.arena.get? x = some s) :
    s = { name := "$global", kind := .globalScope } := by
  obtain ⟨n⟩ := x
  rcases n with _ | _ | n <;> cases h
  rfl

/-- What an allocation leaves under each id. -/
theorem get?_alloc (ctx : Context) (s : Symbol) (x : SymbolId) :
    ((Edit.alloc s).write ctx).arena.get? x
      = if x = ctx.nextId then some s else ctx.arena.get? x := by
  by_cases hx : x = ctx.nextId
  · subst hx
    rw [if_pos rfl]
    exact Arena.get?_alloc_self ctx.arena s
  · rw [if_neg hx]
    exact Arena.get?_alloc_of_ne ctx.arena s x hx

/-- A new symbol is found under the next id. -/
theorem get?_alloc_nextId (ctx : Context) (s : Symbol) :
    ((Edit.alloc s).write ctx).arena.get? ctx.nextId = some s := by
  rw [get?_alloc, if_pos rfl]

/-- Older symbols are found as before. -/
theorem get?_alloc_of_get? (s : Symbol) {x : SymbolId} {t : Symbol}
    (h : ctx.arena.get? x = some t) : ((Edit.alloc s).write ctx).arena.get? x = some t := by
  rw [get?_alloc, if_neg (ne_nextId h)]
  exact h

/-- What entering a symbol leaves under each id. -/
theorem get?_enter {scope sym : SymbolId} {s o : Symbol} (hs : ctx.arena.get? sym = some s)
    (ho : ctx.arena.get? scope = some o) (hnew : s.name ∉ o.members.keys) :
    ∃ members : Members, members.entries = o.members.entries ++ [(s.name, sym)] ∧
      ∀ x, ((Edit.enter scope sym).write ctx).arena.get? x = (ctx.arena.get? x).map fun t =>
        let t := if x = scope then { t with members } else t
        if x = sym then t.enteredAt scope o.members.size else t := by
  cases hp : o.members.push? s.name sym with
  | none => exact absurd ((Assoc.push?_eq_none_iff _ _ _).mp hp) hnew
  | some members =>
    refine ⟨members, ((Assoc.push?_eq_some_iff _ _ _ _).mp hp).2, fun x => ?_⟩
    have hwrite : (Edit.enter scope sym).write ctx
        = (ctx.update scope fun o => { o with members }).update sym
            (·.enteredAt scope o.members.size) := by
      simp only [Edit.write, Context.withMember, hs, ho, hp]
    rw [hwrite, get?_update, get?_update]
    -- Four cases: a symbol may be the scope, the one that is entered, both or neither.
    by_cases hx : x = sym <;> by_cases hx' : x = scope <;>
      simp only [hx, hx', if_true, if_false, Option.map_map, Option.map_id'] <;>
      cases ctx.arena.get? x <;> simp_all

/-- The scope after a symbol was entered: it has one member more, at the end. -/
theorem get?_enter_scope {scope sym : SymbolId} {s o : Symbol} (hs : ctx.arena.get? sym = some s)
    (ho : ctx.arena.get? scope = some o) (hnew : s.name ∉ o.members.keys) :
    ∃ o', ((Edit.enter scope sym).write ctx).arena.get? scope = some o' ∧ o'.kind = o.kind ∧
      o'.members.entries = o.members.entries ++ [(s.name, sym)] := by
  obtain ⟨members, hentries, hget⟩ := get?_enter hs ho hnew
  refine ⟨_, by rw [hget scope, ho]; rfl, ?_⟩
  by_cases h : scope = sym
  · simp [h, Symbol.enteredAt, hentries]
  · simp [h, hentries]

/-- The symbol after it was entered: it has a slot if its kind has one. -/
theorem get?_enter_sym {scope sym : SymbolId} {s o : Symbol} (hs : ctx.arena.get? sym = some s)
    (ho : ctx.arena.get? scope = some o) (hnew : s.name ∉ o.members.keys) :
    ∃ s', ((Edit.enter scope sym).write ctx).arena.get? sym = some s' ∧ s'.name = s.name ∧
      s'.kind = s.kind ∧ s'.type? = s.type? ∧ s'.scope = some scope ∧
      s'.slot = if s.kind.isSlotted && s.slot.isNone then some o.members.size else s.slot := by
  obtain ⟨members, hentries, hget⟩ := get?_enter hs ho hnew
  refine ⟨_, by rw [hget sym, hs]; rfl, ?_⟩
  by_cases h : sym = scope
  · simp [h, Symbol.enteredAt]
  · simp [h, Symbol.enteredAt]

/-- Every other symbol stays as it was. -/
theorem get?_enter_of_ne {scope sym x : SymbolId} (hscope : x ≠ scope) (hsym : x ≠ sym) :
    ((Edit.enter scope sym).write ctx).arena.get? x = ctx.arena.get? x := by
  simp only [Edit.write, Context.withMember]
  split
  · split
    · rw [get?_update, get?_update, if_neg hsym, if_neg hscope]
    · rfl
  · rfl

/-- A context grows with the one symbol that is updated. -/
theorem grows_update_of (ctx : Context) (id : SymbolId) {f : Symbol → Symbol}
    (h : ∀ s, ctx.arena.get? id = some s → s.Grows (f s)) : ctx.Grows (ctx.update id f) := by
  obtain ⟨hslots, hlinks, hstructural⟩ := ctx.update_fields id f
  refine ⟨fun x s hs => ?_, fun slot t ht => ?_, by rw [hlinks], fun n cls hn => ?_⟩
  · rw [get?_update]
    by_cases hx : x = id
    · exact ⟨f s, by rw [if_pos hx, hs]; rfl, h s (hx ▸ hs)⟩
    · exact ⟨s, by simpa [hx] using hs, .refl s⟩
  · rw [slotType?, hslots]
    exact ht
  · rw [hstructural]
    exact hn

/-- The same if the update lets every symbol grow. -/
theorem grows_update (ctx : Context) (id : SymbolId) {f : Symbol → Symbol}
    (h : ∀ s : Symbol, s.Grows (f s)) : ctx.Grows (ctx.update id f) :=
  ctx.grows_update_of id fun s _ => h s

/-- A new symbol changes no old one. -/
theorem grows_alloc (ctx : Context) (s : Symbol) : ctx.Grows ((Edit.alloc s).write ctx) := by
  exact ⟨fun x t ht => ⟨t, get?_alloc_of_get? s ht, .refl t⟩, fun _ _ h => h, List.prefix_rfl,
    fun _ _ h => h⟩

/-- An entry adds a member at the end and gives the symbol its place. -/
theorem grows_enter {scope sym : SymbolId} {s o : Symbol} (hs : ctx.arena.get? sym = some s)
    (ho : ctx.arena.get? scope = some o) (hnew : s.name ∉ o.members.keys) :
    ctx.Grows ((Edit.enter scope sym).write ctx) := by
  cases hp : o.members.push? s.name sym with
  | none => exact absurd ((Assoc.push?_eq_none_iff _ _ _).mp hp) hnew
  | some members =>
    -- The scope gets its member first, then the symbol its owner and slot.
    have hentries := ((Assoc.push?_eq_some_iff _ _ _ _).mp hp).2
    simp only [Edit.write, Context.withMember, hs, ho, hp]
    refine Grows.trans ?_ (grows_update _ _ fun s => s.grows_enteredAt scope _)
    refine ctx.grows_update_of scope fun t ht => t.grows_members ?_
    rw [ho] at ht
    cases ht
    rw [hentries]
    exact List.prefix_append _ _

/-- A new slot leaves the others as they are. -/
theorem grows_newSlot (ctx : Context) (content : Option Ty) :
    ctx.Grows ((Edit.newSlot content).write ctx) := by
  refine ⟨fun x s hs => ⟨s, hs, .refl s⟩, fun slot t ht => ?_, List.prefix_rfl, fun _ _ h => h⟩
  simp only [slotType?, Edit.write, Array.getElem?_push] at ht ⊢
  split
  · rename_i he
    simp [he] at ht
  · exact ht

/-- An empty slot is filled. -/
theorem grows_fill {slot : SlotId} (t : Ty) (hfree : ctx.slotType? slot = none) :
    ctx.Grows ((Edit.fill slot t).write ctx) := by
  refine ⟨fun x s hs => ⟨s, hs, .refl s⟩, fun slot' t' ht => ?_, List.prefix_rfl, fun _ _ h => h⟩
  by_cases he : slot.index = slot'.index
  · simp only [slotType?, he] at hfree ht
    rw [ht] at hfree
    cases hfree
  · simpa [slotType?, Edit.write, Array.getElem?_setIfInBounds, he] using ht

/-- A link is added behind the others, unless it is there already. -/
theorem grows_link (ctx : Context) (scope : SymbolId) :
    ctx.Grows ((Edit.link scope).write ctx) := by
  simp only [Edit.write]
  split
  · exact .refl ctx
  · exact ⟨fun x s hs => ⟨s, hs, .refl s⟩, fun _ _ h => h, List.prefix_append _ _, fun _ _ h => h⟩

/-- A class is registered under a free name. -/
theorem grows_keep {name : String} (cls : SymbolId) (hfree : ctx.structural.find? name = none) :
    ctx.Grows ((Edit.keep name cls).write ctx) := by
  refine ⟨fun x s hs => ⟨s, hs, .refl s⟩, fun _ _ h => h, List.prefix_rfl, fun n c hn => ?_⟩
  simp only [Edit.write, Assoc.find?_insert]
  split
  · rename_i he
    rw [he, hfree] at hn
    cases hn
  · exact hn

end Context

namespace Edit

variable {rules : Rules} {ctx : Context} {e : Edit}

/-- A symbol is new only after its allocation. -/
theorem eq_alloc_of_new {x : SymbolId} {s : Symbol} (hold : ctx.arena.get? x = none)
    (hnew : (e.write ctx).arena.get? x = some s) : e = .alloc s ∧ x = ctx.nextId := by
  -- No other edit changes the number of symbols, and an id is used up to that number.
  have hsame : (e.write ctx).arena.size = ctx.arena.size → False := by
    intro hsize
    have hle := Context.num_le_size hnew
    rw [hsize] at hle
    rcases Context.get?_eq_none_iff.mp hold with h | h
    · rw [Context.get?_eq_none_iff.mpr (Or.inl h)] at hnew
      cases hnew
    · omega
  cases e with
  | alloc t =>
    rw [Context.get?_alloc] at hnew
    split at hnew
    · rename_i hx
      cases hnew
      exact ⟨rfl, hx⟩
    · rw [hold] at hnew
      cases hnew
  | enter scope sym => exact (hsame (Context.size_withMember _ _ _)).elim
  | nest block sym level =>
    exact (hsame ((Context.size_update _ _ _).trans (Context.size_update _ _ _))).elim
  | param => exact (hsame (Context.size_update _ _ _)).elim
  | capture lambda copy c =>
    exact (hsame ((Context.size_update _ _ _).trans (Context.size_withMember _ _ _))).elim
  | creator => exact (hsame (Context.size_update _ _ _)).elim
  | hide => exact (hsame (Context.size_update _ _ _)).elim
  | newSlot => exact (hsame rfl).elim
  | fill => exact (hsame rfl).elim
  | link scope =>
    refine (hsame ?_).elim
    simp only [write]
    split <;> rfl
  | keep => exact (hsame rfl).elim
  | storage => exact (hsame rfl).elim

/-- Each quiet edit lets the context grow. -/
theorem Quiet.grows (h : Quiet rules ctx e) : ctx.Grows (e.write ctx) := by
  cases h with
  | alloc => exact ctx.grows_alloc _
  | enter hs ho hnew => exact Context.grows_enter hs ho hnew
  | nest =>
    -- The variable gets its level first, and then the block takes note of it.
    exact (ctx.grows_update _ fun s => s.grows_level _).trans
      (Context.grows_update _ _ fun s => s.grows_withBlockVar _)
  | param => exact ctx.grows_update _ fun s => s.grows_withParam _ _
  | creator make ho hk hnative =>
    refine ctx.grows_update_of _ fun s hs => s.grows_withCreator _ fun info' hk' => ?_
    rw [ho] at hs
    cases hs
    rw [hk] at hk'
    cases hk'
    exact hnative
  | hide => exact ctx.grows_update _ fun s => s.grows_hide
  | newSlot => exact ctx.grows_newSlot _
  | fill hfree => exact Context.grows_fill _ hfree
  | link => exact ctx.grows_link _

/-- So does each plain one. -/
theorem Plain.grows (h : Plain rules ctx e) : ctx.Grows (e.write ctx) := by
  cases h with
  | quiet h => exact h.grows
  | keep hfree => exact Context.grows_keep _ hfree
  | storage =>
    exact ⟨fun x s hs => ⟨s, hs, .refl s⟩, fun _ _ h => h, List.prefix_rfl, fun _ _ h => h⟩

/-- So does each edit that has to do with lambdas. -/
theorem Nested.grows (h : Nested rules ctx e) : ctx.Grows (e.write ctx) := by
  cases h with
  | quiet h => exact h.grows
  | lambda => exact ctx.grows_alloc _
  | copy => exact ctx.grows_alloc _
  | capture hs _ _ hc ho _ hnew =>
    -- The copy becomes a member of the lambda, and then the capture is noted.
    exact (Context.grows_enter hc ho hnew).trans
      (Context.grows_update _ _ fun s => s.grows_withCapture _)

/-- Every elementary change lets the context grow. -/
theorem Fits.grows (h : Fits rules ctx e) : ctx.Grows (e.write ctx) := by
  cases h with
  | plain h => exact h.grows
  | nested h => exact h.grows
  | inherit => exact ctx.grows_alloc _

end Edit

/-- How a new symbol looks, with what was read before it was made. -/
inductive Symbol.Born (rules : Rules) (ctx : Context) : Symbol → Prop
  | blank {s : Symbol} (h : s.Blank rules ctx) : Born rules ctx s
  | lambda {name : String} {ret : TypeRef} {enclosing : List SymbolId} {location : Option Location}
      (hret : rules.Allows ctx.slots.size ret) :
      Born rules ctx
        { name
          kind := .func
            { flavor := .lambda { stack := enclosing ++ [ctx.nextId] }, signature := { ret } }
          scope := enclosing.getLast?
          location }
  | copy {source : SymbolId} {s : Symbol} (hs : ctx.arena.get? source = some s)
      (hv : s.kind.isVariable = true) : Born rules ctx s.captured
  | heir {name : String} {parent : SymbolId} {flavor : ClassFlavor} {location : Option Location}
      {members : Members} :
      Born rules ctx
        { name, kind := .classDecl { superClass := some parent, flavor }, location, members }

/-- Every symbol after an edit has grown from one before it, or is new. -/
theorem Edit.Fits.grown_or_born {rules : Rules} {ctx : Context} {e : Edit} (he : Fits rules ctx e)
    {x : SymbolId} {s : Symbol} (hs : (e.write ctx).arena.get? x = some s) :
    (∃ t, ctx.arena.get? x = some t ∧ t.Grows s) ∨ s.Born rules ctx := by
  cases hold : ctx.arena.get? x with
  | some t =>
    obtain ⟨s', hs', hts⟩ := he.grows.symbols x t hold
    rw [hs] at hs'
    cases hs'
    exact Or.inl ⟨t, rfl, hts⟩
  | none =>
    right
    -- Only an allocation makes an id that was not there.
    obtain ⟨rfl, -⟩ := eq_alloc_of_new hold hs
    have hquiet : Quiet rules ctx (.alloc s) → s.Born rules ctx := by
      intro he
      cases he with
      | alloc hb => exact .blank hb
    cases he with
    | inherit => exact .heir
    | plain he =>
      cases he with
      | quiet he => exact hquiet he
    | nested he =>
      cases he with
      | lambda _ _ hret => exact .lambda hret
      | copy hsource hv => exact .copy hsource hv
      | quiet he => exact hquiet he

/-- Whether an edit of this kind is always a quiet one. -/
def Edit.isQuiet : Edit → Bool
  | alloc _ | capture .. | keep .. | storage .. => false
  | _ => true

/-- An edit of a quiet kind that fits is a quiet one. -/
theorem Edit.Fits.quiet {rules : Rules} {ctx : Context} {e : Edit} (he : Fits rules ctx e)
    (hkind : e.isQuiet = true) : Quiet rules ctx e := by
  cases he with
  | inherit => cases hkind
  | plain he =>
    cases he with
    | quiet he => exact he
    | keep => cases hkind
    | storage => cases hkind
  | nested he =>
    cases he with
    | quiet he => exact he
    | lambda => cases hkind
    | copy => cases hkind
    | capture => cases hkind

/-- Whether an edit of this kind leaves the two tables of array and map types as they are. -/
def Edit.isSilent : Edit → Bool
  | keep .. | storage .. => false
  | _ => true

/-- Only two edits write to the tables of structural types. -/
theorem Edit.tables_write (ctx : Context) {e : Edit} (h : e.isSilent = true) :
    (e.write ctx).structural = ctx.structural ∧ (e.write ctx).storages = ctx.storages := by
  cases e with
  | keep => cases h
  | storage => cases h
  | link scope =>
    simp only [write]
    split <;> exact ⟨rfl, rfl⟩
  | _ =>
    simp [write, Context.update_fields, Context.withMember_fields, Context.storages_update,
      Context.storages_withMember]

/-- No quiet edit is one of the two. -/
theorem Edit.Quiet.isSilent {rules : Rules} {ctx : Context} {e : Edit} (h : Quiet rules ctx e) :
    e.isSilent = true := by
  cases h <;> rfl

/-- Nor is one that has to do with lambdas. -/
theorem Edit.Nested.isSilent {rules : Rules} {ctx : Context} {e : Edit} (h : Nested rules ctx e) :
    e.isSilent = true := by
  cases h with
  | quiet h => exact h.isSilent
  | _ => rfl

/-- Quiet edits register nothing. -/
theorem Edit.Quiet.structural_eq {rules : Rules} {ctx : Context} {e : Edit}
    (h : Quiet rules ctx e) : (e.write ctx).structural = ctx.structural :=
  (tables_write ctx h.isSilent).1

/-- A sequence of edits lets the context grow. -/
theorem Edits.grows {P : Context → Edit → Prop} {a b : Context}
    (hP : ∀ ctx e, P ctx e → ctx.Grows (e.write ctx)) (h : Edits P a b) : a.Grows b :=
  h.relates Context.Grows.refl (fun _ _ _ => Context.Grows.trans) hP

end Sema

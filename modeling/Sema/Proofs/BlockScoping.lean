import Sema.Proofs.BlockMarks

/-!
# `Sema.Proofs.BlockScoping`: blocks, slots and visibility

The frame of a function is its members: what was declared in the function itself and in its blocks,
at any depth. The context does not say which block a variable was declared in, or whether a block
is still open. `FrameLog` is the record that one would keep beside a run: the blocks with the scopes
that they were opened in, those that were closed, and the declarations in order. `FrameLog.next`
adds a call to the record.

`FrameLog.Tracks` says that record and context agree. There is a lemma for each thing that can
happen in a frame: a symbol joins it outside all blocks (`Tracks.gain`, which also covers whatever
happens elsewhere), a symbol is declared in a block (`Tracks.declare`), a block is opened
(`Tracks.openBlock`) or closed (`Tracks.closeBlock`). `Tracks.next` sorts the calls into these four,
and `block_scoping` reads slots, levels and look-ups off the record.
-/

set_option autoImplicit false

namespace Sema

/-! ### Members in order -/

namespace Context

variable {a b ctx : Context} {scope func x : SymbolId}

/-- The holdings of a scope are the symbols of its dictionary, without their names. -/
theorem holdings_eq_members? (ctx : Context) (scope : SymbolId) :
    ctx.holdings scope = ((ctx.members? scope).getD []).map Prod.snd := by
  unfold holdings members?
  cases ctx.arena.get? scope <;> rfl

/-- A position in the holdings is a position in the dictionary. -/
theorem getElem?_holdings_iff {i : Nat} :
    (ctx.holdings scope)[i]? = some x ↔ ∃ name, ctx.At scope i name x := by
  unfold holdings At
  cases ctx.arena.get? scope with
  | none => simp
  | some o => simp [Assoc.values]

/-- Equal holdings hold the same symbols. -/
theorem holds_iff_of_holdings_eq (h : b.holdings scope = a.holdings scope) :
    b.Holds scope x ↔ a.Holds scope x := by
  rw [← mem_holdings_iff, h, mem_holdings_iff]

/-- No symbol is a member of a scope twice. -/
theorem Sound.nodup_holdings (h : ctx.Sound) (scope : SymbolId) : (ctx.holdings scope).Nodup := by
  rw [List.nodup_iff_getElem?_ne_getElem?]
  intro i j hij hj heq
  rw [List.getElem?_eq_getElem hj] at heq
  obtain ⟨name, hi⟩ := getElem?_holdings_iff.mp heq
  obtain ⟨name', hj⟩ := getElem?_holdings_iff.mp (List.getElem?_eq_getElem hj)
  exact absurd (h.position_unique hi hj) (by omega)

/-- A symbol whose name is free in a scope is no member of it. -/
theorem Sound.not_holds_of_free (h : ctx.Sound) {s o : Symbol} (hs : ctx.arena.get? x = some s)
    (ho : ctx.arena.get? scope = some o) (hnew : s.name ∉ o.members.keys) : ¬ctx.Holds scope x := by
  rintro ⟨i, name, hat⟩
  obtain ⟨l, hl, rfl⟩ := h.named hat
  rw [layout?_of_get? hs] at hl
  cases hl
  obtain ⟨o', ho', hi⟩ := hat
  rw [ho] at ho'
  cases ho'
  exact hnew (List.mem_map_of_mem (List.mem_of_getElem? hi))

/-- Members stay, in their order. -/
theorem Grows.holdings (h : a.Grows b) (hold : a.Exists scope) :
    a.holdings scope <+: b.holdings scope := by
  obtain ⟨o, ho⟩ := hold
  obtain ⟨o', ho', hoo⟩ := h.symbols scope o ho
  rw [holdings_eq_members?, holdings_eq_members?, members?_of_get? ho, members?_of_get? ho']
  exact hoo.members.map Prod.snd

/-- Membership is decidable, since the holdings are a list. -/
instance (ctx : Context) (scope x : SymbolId) : Decidable (ctx.Holds scope x) :=
  decidable_of_iff _ mem_holdings_iff

/-- A definition makes the symbol the last member of its owner. -/
theorem Defines.holdings_owner {owner sym : SymbolId} {name : String}
    (h : a.Defines b scope owner sym name) (hold : a.Exists owner) :
    b.holdings owner = a.holdings owner ++ [sym] := by
  obtain ⟨o, ho⟩ := hold
  rw [holdings_eq_members?, h.gained, holdings_eq_members?, members?_of_get? ho]
  simp

/-- A definition leaves the holdings of every scope but the owner's alone. -/
theorem Defines.holdings_of_ne {owner sym : SymbolId} {name : String}
    (h : a.Defines b scope owner sym name) (hold : a.Exists func) (hne : func ≠ owner) :
    b.holdings func = a.holdings func := by
  obtain ⟨o, ho⟩ := hold
  obtain ⟨o', ho', -, hmembers, -⟩ := h.only ho
  rw [holdings_eq_members?, holdings_eq_members?, members?_of_get? ho, members?_of_get? ho',
    hmembers hne]

/-- A new symbol leaves the holdings of those that are there alone. -/
theorem holdings_alloc (ctx : Context) (s : Symbol) (hold : ctx.Exists scope) :
    ((Edit.alloc s).write ctx).holdings scope = ctx.holdings scope := by
  rw [holdings_eq_members?, ctx.members?_alloc s hold, ← holdings_eq_members?]

/-- Hiding symbols takes none of them out of a scope. -/
theorem holdings_withHidden (ctx : Context) (gone : List SymbolId) (scope : SymbolId) :
    (ctx.withHidden gone).holdings scope = ctx.holdings scope := by
  rw [holdings_eq_members?, members?_withHidden, ← holdings_eq_members?]

/-- The slots of the members of this scope are their positions. -/
def AlignedIn (ctx : Context) (scope : SymbolId) : Prop :=
  ∀ ⦃i name x l⦄, ctx.At scope i name x → ctx.layout? x = some l → l.slotted = true →
    l.slot = some i

end Context

namespace Op

/-- What the call makes a member of the function has been a member of nothing and is not hidden, and
becomes a member of nothing else. -/
def DefinesFresh (func : SymbolId) (ctx : Context) (op : Op) : Prop :=
  ∀ x, op.Defines ctx func x →
    (∀ p, ¬ctx.Holds p x) ∧ (∀ p, op.Defines ctx p x → p = func) ∧
      ∀ s, ctx.arena.get? x = some s → s.outOfScope = false

/-- A call is checked for freshness on the finite list of its definitions. -/
instance (func : SymbolId) (ctx : Context) (op : Op) : Decidable (op.DefinesFresh func ctx) :=
  decidable_of_iff
    (∀ p ∈ op.definitions ctx, p.1 = func →
      (∀ q ∈ ctx.memberships, q.2 ≠ p.2) ∧ (∀ q ∈ op.definitions ctx, q.2 = p.2 → q.1 = func) ∧
        ∀ s ∈ ctx.arena.get? p.2, s.outOfScope = false) <| by
    simp only [Prod.forall, mem_definitions_iff, Context.mem_memberships_iff, Option.mem_def]
    constructor
    · intro h x hdef
      obtain ⟨hnone, honly, hshown⟩ := h func x hdef rfl
      exact ⟨fun p hp => hnone p x hp rfl, fun p hp => honly p x hp rfl, hshown⟩
    · rintro h scope x hdef rfl
      obtain ⟨hnone, honly, hshown⟩ := h x hdef
      exact ⟨fun p y hp he => hnone p (he ▸ hp), fun p y hp he => honly p (he ▸ hp), hshown⟩

variable {ctx : Context} {func x : SymbolId} {op : Op}

/-- A scope from before that holds a symbol only after a call has it defined by that call. -/
theorem defines_of_holds (hold : ctx.Exists func) (hx : (op.next ctx).Holds func x)
    (hnew : ¬ctx.Holds func x) : op.Defines ctx func x := by
  obtain ⟨o, ho⟩ := hold
  exact ⟨hx, hnew, fun hnone => by rw [ho] at hnone; cases hnone⟩

/-- What is defined afresh in a function is a member of nothing else afterwards. -/
theorem DefinesFresh.only (h : op.DefinesFresh func ctx) (hdescends : (op.next ctx).Descends)
    (hdef : op.Defines ctx func x) {p : SymbolId} (hp : (op.next ctx).Holds p x) : p = func := by
  obtain ⟨hnone, honly, -⟩ := h x hdef
  rcases Context.holds_next hdescends hp with hdef' | ⟨p₀, hp₀, -⟩
  · exact honly p hdef'
  · exact absurd hp₀ (hnone p₀)

/-- What comes fresh into a function gets its position as its slot. -/
theorem DefinesFresh.alignedIn (h : op.DefinesFresh func ctx) (hs : ctx.Sound)
    (hs' : (op.next ctx).Sound) (hdescends : (op.next ctx).Descends) (hold : ctx.Exists func)
    (haligned : ctx.AlignedIn func) : (op.next ctx).AlignedIn func := by
  intro i name x l hat hl hslotted
  have hgrows := op.grows ctx
  by_cases hheld : ctx.Holds func x
  · -- A member from before keeps its position and its slot.
    obtain ⟨j, m, hj⟩ := hheld
    obtain rfl := hs'.position_unique hat (hgrows.at hj)
    obtain ⟨l₀, hl₀, -⟩ := hs.named hj
    obtain ⟨l', hl', -, hkeeps, hkeep⟩ := hgrows.layout? hl₀
    rw [hl] at hl'
    cases hl'
    exact hkeep i (haligned hj hl₀ (hkeeps ▸ hslotted))
  · -- A slot is a position in some scope, and a new member is in no other scope than this.
    have hdef := defines_of_holds hold ⟨i, name, hat⟩ hheld
    obtain ⟨j, hj⟩ := hs'.slotted hat hl hslotted
    obtain ⟨p, m, hp⟩ := hs'.placed hl hj
    obtain rfl := h.only hdescends hdef ⟨j, m, hp⟩
    rw [hs'.position_unique hat hp]
    exact hj

end Op

/-! ### What leaves a frame alone -/

namespace Context

variable {a b : Context} {func : SymbolId}

/-- The second context comes from the first by something that leaves the blocks of the function, and
the symbols that it has, as they are. -/
structure Bypasses (a b : Context) (func : SymbolId) : Prop where
  grows : a.Grows b
  frame : ∀ {block}, b.frame? block = some func → a.frame? block = some func
  blocks : ∀ {block m}, a.frame? block = some func → a.mark? block = some m →
    ∃ m', b.mark? block = some m' ∧ m'.block? = m.block?
  marks : ∀ {x m}, a.Holds func x → a.mark? x = some m →
    ∃ m', b.mark? x = some m' ∧ m'.level = m.level ∧ m'.hidden = m.hidden
  noted : ∀ {block x}, b.Notes block x → b.Holds func x → a.Notes block x ∧ a.Holds func x

variable {ctx : Context}

/-- Hiding symbols that a function does not hold bypasses its frame. -/
theorem bypasses_withHidden {gone : List SymbolId} (hgone : ∀ x ∈ gone, ¬ctx.Holds func x) :
    ctx.Bypasses (ctx.withHidden gone) func where
  grows := grows_withHidden gone
  frame hframe := by
    rw [frame?_withHidden] at hframe
    exact hframe
  blocks _ hm := ⟨_, mark?_withHidden_of_some gone hm, rfl⟩
  marks {x m} hx hm := by
    have hkept : x ∉ gone := fun hmem => hgone x hmem hx
    refine ⟨_, mark?_withHidden_of_some gone hm, rfl, ?_⟩
    simp [Mark.hide, hkept]
  noted {block x} hnotes hx := by
    have hheld := ctx.holdings_withHidden gone func
    exact ⟨notes_withHidden.mp hnotes, (holds_iff_of_holdings_eq hheld).mp hx⟩

/-- A new block of another function. -/
theorem bypasses_alloc {s : Symbol} {b : BlockInfo} (hold : ctx.Exists func)
    (hmark : s.mark = { block? := some b }) (hb : b.func ≠ func) (hvars : b.vars = []) :
    ctx.Bypasses ((Edit.alloc s).write ctx) func where
  grows := ctx.grows_alloc s
  frame hframe := by
    -- The new block belongs to another function, so it adds no block to this frame.
    rcases frame?_alloc hframe with ⟨-, b', hb', hfunc⟩ | hframe
    · rw [hmark] at hb'
      cases hb'
      exact absurd hfunc hb
    · exact hframe
  blocks _ hm := ⟨_, mark?_alloc_of_some s hm, rfl⟩
  marks _ hm := ⟨_, mark?_alloc_of_some s hm, rfl, rfl⟩
  noted {block x} hnotes hx := by
    rw [holds_iff_of_holdings_eq (ctx.holdings_alloc s hold)] at hx
    rcases notes_alloc_cases hnotes with ⟨b', hb', hmem⟩ | hnotes
    · rw [hmark] at hb'
      cases hb'
      -- A block is opened with nothing noted in it.
      rw [hvars] at hmem
      cases hmem
    · exact ⟨hnotes, hx⟩

/-- A definition in a block of another function, of a symbol that this function does not have. -/
theorem bypasses_withDefinition {block sym : SymbolId} {o s p : Symbol} {b : BlockInfo}
    (hold : ctx.Exists func) (ho : ctx.arena.get? block = some o) (hk : o.kind = .block b)
    (hb : b.func ≠ func) (hsym : ¬ctx.Holds func sym) (hs : ctx.arena.get? sym = some s)
    (hp : ctx.arena.get? b.func = some p) (hnew : s.name ∉ p.members.keys)
    (hgrows : ctx.Grows (ctx.withDefinition block b.func sym)) :
    ctx.Bypasses (ctx.withDefinition block b.func sym) func := by
  have hhome := home_of_frame? (frame?_of_block ho hk)
  have hdefines : ctx.Defines (ctx.withDefinition block b.func sym) block b.func sym s.name := by
    have hdef := defines_withDefinition hs (hhome.symm ▸ hp) hnew
    rwa [hhome] at hdef
  have hheld := hdefines.holdings_of_ne hold hb.symm
  refine ⟨hgrows, fun hframe => ?_, fun {other m} hother hm => ?_, fun {x m} hx hm => ?_,
    fun {other x} hnotes hx => ?_⟩
  · rw [frame?_withDefinition] at hframe
    exact hframe
  · -- The only block whose notes grow is one of the other function.
    have hne : other ≠ block := by
      rintro rfl
      rw [frame?_of_block ho hk] at hother
      exact hb (Option.some.inj hother)
    refine ⟨_, by rw [mark?_withDefinition_of_block ho hk, hm, Option.map_some], ?_⟩
    exact if_neg hne
  · -- The only symbol that is marked is the one that is defined.
    have hne : x ≠ sym := fun heq => hsym (heq ▸ hx)
    refine ⟨_, by rw [mark?_withDefinition_of_block ho hk, hm, Option.map_some], ?_, ?_⟩
    · exact if_neg hne
    · rfl
  · rw [holds_iff_of_holdings_eq hheld] at hx
    rcases notes_withDefinition hnotes with hnotes | ⟨-, rfl⟩
    · exact ⟨hnotes, hx⟩
    · exact absurd hx hsym

end Context

namespace Op

variable {ctx : Context} {func : SymbolId} {op : Op}

/-- A call that leaves the marks alone leaves the blocks of a function alone, and what it has. -/
theorem DefinesFresh.bypasses (h : op.DefinesFresh func ctx) (hsteady : ctx.Steady (op.next ctx))
    (hframed : ctx.Framed) (hold : ctx.Exists func) : ctx.Bypasses (op.next ctx) func where
  grows := op.grows ctx
  frame {block} hframe := by
    obtain ⟨m, b, hm, hb, hfunc⟩ := Context.frame?_eq_some_iff.mp hframe
    rcases hsteady.mark_cases hm with hm | rfl
    · exact Context.frame?_eq_some_iff.mpr ⟨m, b, hm, hb, hfunc⟩
    · cases hb
  blocks _ hm := ⟨_, hsteady.kept hm, rfl⟩
  marks _ hm := ⟨_, hsteady.kept hm, rfl, rfl⟩
  noted {block x} hnotes hx := by
    have hnotes₀ : ctx.Notes block x := by
      obtain ⟨m, b, hm, hb, hmem⟩ := Context.notes_iff.mp hnotes
      rcases hsteady.mark_cases hm with hm | rfl
      · exact Context.notes_iff.mpr ⟨m, b, hm, hb, hmem⟩
      · cases hb
    refine ⟨hnotes₀, ?_⟩
    -- What a block has noted is a member of some function, so it does not come fresh.
    by_contra hnew
    obtain ⟨p, -, hp⟩ := hframed.noted hnotes₀
    exact (h x (defines_of_holds hold hx hnew)).1 p hp

/-- What comes fresh into a function by such a call is on level 0 and not hidden. -/
theorem DefinesFresh.blank (h : op.DefinesFresh func ctx) (hsteady : ctx.Steady (op.next ctx))
    (hframed : ctx.Framed) (hleveled : ctx.Leveled) {x : SymbolId} {m : Mark}
    (hdef : op.Defines ctx func x) (hm : (op.next ctx).mark? x = some m) :
    m.level = 0 ∧ m.hidden = false := by
  obtain ⟨hnone, -, hshown⟩ := h x hdef
  rcases hsteady.mark_cases hm with hm | rfl
  · obtain ⟨s, hs, rfl⟩ := Context.get?_of_mark? hm
    refine ⟨?_, hshown s hs⟩
    -- A level above zero would mean that a block notes it, and so that somebody holds it.
    by_contra hlevel
    obtain ⟨block, hnotes⟩ := hleveled x _ hm hlevel
    obtain ⟨p, -, hp⟩ := hframed.noted hnotes
    exact hnone p hp
  · exact ⟨rfl, rfl⟩

end Op

/-! ### The record of a frame -/

/-- What has happened in the frame of a function. -/
structure FrameLog where
  /-- The blocks, each with the scope that it was opened in, the latest first. -/
  blocks : List (SymbolId × SymbolId) := []
  closed : List SymbolId := []
  /-- The symbols in the order of their declarations, each with the scope it was declared in. -/
  decls : List (SymbolId × SymbolId) := []

/-- How many blocks there are around a scope, itself included. -/
def nesting : List (SymbolId × SymbolId) → SymbolId → Nat
  | [], _ => 0
  | (block, parent) :: older, scope =>
    if scope = block then nesting older parent + 1 else nesting older scope

/-- What no block is recorded under has nesting zero. -/
theorem nesting_eq_zero {blocks : List (SymbolId × SymbolId)} {scope : SymbolId}
    (h : scope ∉ blocks.map Prod.fst) : nesting blocks scope = 0 := by
  induction blocks with
  | nil => rfl
  | cons entry older ih =>
    rw [List.map_cons, List.mem_cons, not_or] at h
    rw [nesting, if_neg h.1]
    exact ih h.2

namespace FrameLog

/-- The scope is the function or one of its blocks. -/
def Covers (log : FrameLog) (func scope : SymbolId) : Prop :=
  scope = func ∨ scope ∈ log.blocks.map Prod.fst

/-- Whether a record covers a scope is decidable. -/
instance (log : FrameLog) (func scope : SymbolId) : Decidable (log.Covers func scope) :=
  inferInstanceAs (Decidable (_ ∨ _))

/-- How many blocks a scope stands in, the scope itself counted when it is a block. -/
def depth (log : FrameLog) (scope : SymbolId) : Nat := nesting log.blocks scope

/-- The symbols that were declared in a scope itself, in order. -/
def declaredIn (log : FrameLog) (scope : SymbolId) : List SymbolId :=
  (log.decls.filter (·.2 = scope)).map Prod.fst

/-- The record after one more call. -/
def next (log : FrameLog) (func : SymbolId) (ctx : Context) : Op → FrameLog
  | .define scope sym =>
    if log.Covers func scope ∧ SemaM.failure? (SemaM.define scope sym) ctx = none then
      { log with decls := log.decls ++ [(sym, scope)] }
    else log
  | .openBlock parent _ =>
    if log.Covers func parent then { log with blocks := (ctx.nextId, parent) :: log.blocks }
    else log
  | .closeBlock block =>
    if block ∈ log.blocks.map Prod.fst then { log with closed := block :: log.closed } else log
  | .markOutOfScope _ => log
  | op =>
    -- A parameter or an item becomes a member without being defined in a scope of the frame.
    let gained := ((op.next ctx).holdings func).drop (ctx.holdings func).length
    { log with decls := log.decls ++ gained.map (·, func) }

/-- The record after a run. -/
def after (func : SymbolId) : FrameLog → Context → List Op → FrameLog
  | log, _, [] => log
  | log, ctx, op :: rest => after func (log.next func ctx op) (op.next ctx) rest

/-- The call defines nothing in a closed block, and no symbol of the frame in yet another block. It
hides no symbol of the frame but by closing a block. -/
def Respects (log : FrameLog) (func : SymbolId) (ctx : Context) : Op → Prop
  | .define scope sym =>
    SemaM.failure? (SemaM.define scope sym) ctx = none →
      scope ∉ log.closed ∧ (ctx.Holds func sym → ctx.frame? scope = none)
  | .markOutOfScope sym => ¬ctx.Holds func sym
  | _ => True

/-- Whether a call respects a record is decidable, call by call. -/
instance (log : FrameLog) (func : SymbolId) (ctx : Context) (op : Op) :
    Decidable (log.Respects func ctx op) := by
  cases op <;> unfold Respects <;> infer_instance

/-- All calls of the run declare fresh symbols and keep to the blocks. -/
def AllAllowed (func : SymbolId) : FrameLog → Context → List Op → Prop
  | _, _, [] => True
  | log, ctx, op :: rest =>
    (op.DefinesFresh func ctx ∧ log.Respects func ctx op) ∧
      AllAllowed func (log.next func ctx op) (op.next ctx) rest

/-- A list of calls is checked from the front, with the record and the context carried along. -/
instance decidableAllAllowed (func : SymbolId) :
    (log : FrameLog) → (ctx : Context) → (ops : List Op) → Decidable (AllAllowed func log ctx ops)
  | _, _, [] => inferInstanceAs (Decidable True)
  | log, ctx, op :: rest =>
    have := decidableAllAllowed func (log.next func ctx op) (op.next ctx) rest
    inferInstanceAs (Decidable (_ ∧ _))

/-- Record and context agree. -/
structure Tracks (log : FrameLog) (func : SymbolId) (ctx : Context) : Prop where
  isFunc : ∃ o info, ctx.arena.get? func = some o ∧ o.kind = .func info
  held : log.decls.map Prod.fst = ctx.holdings func
  place : ∀ {v scope}, (v, scope) ∈ log.decls → log.Covers func scope
  nested : ∀ {block parent}, (block, parent) ∈ log.blocks →
    log.Covers func parent ∧ log.depth block = log.depth parent + 1
  closed : ∀ {block}, block ∈ log.closed → block ∈ log.blocks.map Prod.fst
  framed : ∀ {block}, ctx.frame? block = some func → block ∈ log.blocks.map Prod.fst
  /-- A block knows its level, and its variables in order. -/
  block : ∀ {block}, block ∈ log.blocks.map Prod.fst → ∃ m, ctx.mark? block = some m ∧
    m.block? = some { func, level := log.depth block, vars := log.declaredIn block }
  /-- A symbol is on the level of the scope it was declared in, and hidden once that is closed. -/
  mark : ∀ {v scope}, (v, scope) ∈ log.decls → ∃ m, ctx.mark? v = some m ∧
    m.level = log.depth scope ∧ m.hidden = decide (scope ∈ log.closed)
  /-- No other function has a block that could hide a symbol of the frame. -/
  noted : ∀ {block v}, ctx.Notes block v → ctx.Holds func v → ctx.frame? block = some func

namespace Tracks

variable {log : FrameLog} {func : SymbolId} {ctx ctx' : Context}

/-- The function that a record is kept for is no block. -/
theorem frame?_func (h : log.Tracks func ctx) : ctx.frame? func = none := by
  obtain ⟨o, info, ho, hk⟩ := h.isFunc
  rw [Context.frame?_of_get? ho, hk]
  rfl

/-- A recorded block is a block of the function. -/
theorem frame?_block (h : log.Tracks func ctx) {block : SymbolId}
    (hblock : block ∈ log.blocks.map Prod.fst) : ctx.frame? block = some func := by
  obtain ⟨m, hm, hb⟩ := h.block hblock
  exact Context.frame?_eq_some_iff.mpr ⟨m, _, hm, hb, rfl⟩

/-- The function is not one of its blocks. -/
theorem func_not_mem (h : log.Tracks func ctx) : func ∉ log.blocks.map Prod.fst := by
  intro hmem
  have hframe := h.frame?_block hmem
  rw [h.frame?_func] at hframe
  cases hframe

/-- A record covers the scopes whose home is the function. -/
theorem covers_iff (h : log.Tracks func ctx) {scope : SymbolId} :
    log.Covers func scope ↔ ctx.home scope = func := by
  constructor
  · rintro (rfl | hblock)
    · exact Context.home_of_none h.frame?_func
    · exact Context.home_of_frame? (h.frame?_block hblock)
  · intro hhome
    cases hframe : ctx.frame? scope with
    | none => exact Or.inl ((Context.home_of_none hframe).symm.trans hhome)
    | some p =>
      rw [Context.home_of_frame? hframe] at hhome
      exact Or.inr (h.framed (hhome ▸ hframe))

/-- What is recorded as declared is held by the function. -/
theorem holds_of_mem (h : log.Tracks func ctx) {v scope : SymbolId} (hv : (v, scope) ∈ log.decls) :
    ctx.Holds func v := by
  rw [← Context.mem_holdings_iff, ← h.held]
  exact List.mem_map_of_mem hv

/-- The function that a record is kept for exists. -/
theorem exists_func (h : log.Tracks func ctx) : ctx.Exists func := by
  obtain ⟨o, info, ho, -⟩ := h.isFunc
  exact ⟨o, ho⟩

/-- Every scope that a record covers exists. -/
theorem exists_of_covers (h : log.Tracks func ctx) {scope : SymbolId}
    (hscope : log.Covers func scope) : ctx.Exists scope := by
  rcases hscope with rfl | hblock
  · exact h.exists_func
  · obtain ⟨m, hm, -⟩ := h.block hblock
    obtain ⟨s, hs, -⟩ := Context.get?_of_mark? hm
    exact ⟨s, hs⟩

/-! ### What happens outside the blocks -/

/-- A symbol joins the frame outside all blocks, or none does. Whatever else happens happens
elsewhere. -/
theorem gain (h : log.Tracks func ctx) (hbypass : ctx.Bypasses ctx' func) {gained : List SymbolId}
    (hheld : ctx'.holdings func = ctx.holdings func ++ gained)
    (hnew : ∀ x ∈ gained, ∃ m, ctx'.mark? x = some m ∧ m.level = 0 ∧ m.hidden = false) :
    ({ log with decls := log.decls ++ gained.map (·, func) } : FrameLog).Tracks func ctx' := by
  have hfunc := h.func_not_mem
  refine ⟨hbypass.grows.isFunc h.isFunc, ?_, ?_, h.nested, h.closed, ?_, ?_, ?_, ?_⟩
  · rw [hheld, List.map_append, h.held]
    simp [Function.comp_def]
  · intro v scope hv
    rcases List.mem_append.mp hv with hv | hv
    · exact h.place hv
    · obtain ⟨x, -, heq⟩ := List.mem_map.mp hv
      cases heq
      exact Or.inl rfl
  · intro block hframe
    exact h.framed (hbypass.frame hframe)
  · intro block hblock
    obtain ⟨m, hm, hb⟩ := h.block hblock
    obtain ⟨m', hm', hb'⟩ := hbypass.blocks (h.frame?_block hblock) hm
    -- A symbol that joins outside all blocks is noted in none of them.
    have hne : func ≠ block := fun heq => hfunc (heq ▸ hblock)
    refine ⟨m', hm', ?_⟩
    rw [hb', hb]
    simp [declaredIn, depth, List.filter_map, Function.comp_def, hne]
  · intro v scope hv
    rcases List.mem_append.mp hv with hv | hv
    · obtain ⟨m, hm, hlevel, hhidden⟩ := h.mark hv
      obtain ⟨m', hm', hlevel', hhidden'⟩ := hbypass.marks (h.holds_of_mem hv) hm
      exact ⟨m', hm', hlevel'.trans hlevel, hhidden'.trans hhidden⟩
    · obtain ⟨x, hx, heq⟩ := List.mem_map.mp hv
      cases heq
      obtain ⟨m, hm, hlevel, hhidden⟩ := hnew v hx
      refine ⟨m, hm, hlevel.trans (nesting_eq_zero hfunc).symm, hhidden.trans ?_⟩
      -- The function is no block, so it cannot have been closed.
      exact (decide_eq_false fun hclosed => hfunc (h.closed hclosed)).symm
  · intro block v hnotes hholds
    obtain ⟨hnotes, hholds⟩ := hbypass.noted hnotes hholds
    exact hbypass.grows.frame? (h.noted hnotes hholds)

/-- Something happens elsewhere. -/
theorem aside (h : log.Tracks func ctx) (hbypass : ctx.Bypasses ctx' func)
    (hheld : ctx'.holdings func = ctx.holdings func) : log.Tracks func ctx' := by
  have hsame : ctx'.holdings func = ctx.holdings func ++ [] := by rw [hheld, List.append_nil]
  simpa using h.gain hbypass hsame (by simp)

/-! ### What happens in the blocks -/

/-- One more declaration adds its symbol at the end of its own scope and nowhere else. -/
theorem declaredIn_append (log : FrameLog) (v place scope : SymbolId) :
    ({ log with decls := log.decls ++ [(v, place)] } : FrameLog).declaredIn scope
      = log.declaredIn scope ++ if scope = place then [v] else [] := by
  by_cases hplace : place = scope
  · simp [declaredIn, hplace]
  · simp [declaredIn, hplace, Ne.symm hplace]

section Declare

variable {block sym : SymbolId} {q s : Symbol} {b : BlockInfo}

/-- The level that a block knows is its depth on record. -/
theorem level_eq_depth (h : log.Tracks func ctx) (hblock : block ∈ log.blocks.map Prod.fst)
    (hq : ctx.arena.get? block = some q) (hk : q.kind = .block b) : b.level = log.depth block := by
  obtain ⟨m, hm, hb⟩ := h.block hblock
  rw [Context.mark?_of_get? hq] at hm
  cases hm
  simp only [Symbol.mark, hk, SymbolKind.block?, Option.some.injEq] at hb
  rw [hb]

/-- A definition through a block sets the level of the symbol and adds it to the variables of the
block. All other marks stay. -/
theorem mark?_declare (hq : ctx.arena.get? block = some q) (hk : q.kind = .block b) {x : SymbolId}
    {m : Mark} (hm : ctx.mark? x = some m) :
    (ctx.withDefinition block b.func sym).mark? x = some
      { m with
        level := if x = sym then b.level else m.level
        block? := if x = block then m.block?.map fun b => { b with vars := b.vars ++ [sym] }
          else m.block? } := by
  rw [Context.mark?_withDefinition_of_block hq hk, hm, Option.map_some]

/-- The blocks after a declaration: one of them has one more variable. -/
theorem block_declare (h : log.Tracks b.func ctx) (hq : ctx.arena.get? block = some q)
    (hk : q.kind = .block b) {other : SymbolId} (hother : other ∈ log.blocks.map Prod.fst) :
    ∃ m, (ctx.withDefinition block b.func sym).mark? other = some m ∧
      m.block? = some
        { func := b.func, level := log.depth other
          vars := ({ log with decls := log.decls ++ [(sym, block)] } : FrameLog).declaredIn
            other } := by
  obtain ⟨m, hm, hb⟩ := h.block hother
  refine ⟨_, mark?_declare hq hk hm, ?_⟩
  simp only [declaredIn_append, hb]
  split <;> simp

/-- The symbols after a declaration: the old ones stay as they were, and the new one is on the level
of its block. -/
theorem mark_declare (h : log.Tracks b.func ctx) (hq : ctx.arena.get? block = some q)
    (hk : q.kind = .block b) (hblock : block ∈ log.blocks.map Prod.fst)
    (hopen : block ∉ log.closed) (hs : ctx.arena.get? sym = some s)
    (hfresh : ∀ p, ¬ctx.Holds p sym) (hshown : s.outOfScope = false) {v scope : SymbolId}
    (hv : (v, scope) ∈ log.decls ++ [(sym, block)]) :
    ∃ m, (ctx.withDefinition block b.func sym).mark? v = some m ∧
      m.level = log.depth scope ∧ m.hidden = decide (scope ∈ log.closed) := by
  rcases List.mem_append.mp hv with hv | hv
  · obtain ⟨m, hm, hdepth, hhidden⟩ := h.mark hv
    -- The variables declared before keep their marks.
    have hne : v ≠ sym := fun heq => hfresh _ (heq ▸ h.holds_of_mem hv)
    exact ⟨_, mark?_declare hq hk hm, (if_neg hne).trans hdepth, hhidden⟩
  · cases List.mem_singleton.mp hv
    refine ⟨_, mark?_declare hq hk (Context.mark?_of_get? hs), ?_, ?_⟩
    · exact (if_pos rfl).trans (h.level_eq_depth hblock hq hk)
    · exact hshown.trans (decide_eq_false hopen).symm

/-- Who may hide a symbol after a declaration. What is fresh has been noted by no block before. -/
theorem noted_declare (h : log.Tracks func ctx) (hframed : ctx.Framed)
    (hframe : ctx.frame? block = some func) (hfresh : ∀ p, ¬ctx.Holds p sym)
    (hheld : (ctx.withDefinition block func sym).holdings func = ctx.holdings func ++ [sym])
    {other v : SymbolId} (hnotes : (ctx.withDefinition block func sym).Notes other v)
    (hholds : (ctx.withDefinition block func sym).Holds func v) :
    (ctx.withDefinition block func sym).frame? other = some func := by
  rw [ctx.frame?_withDefinition block func sym]
  rcases Context.notes_withDefinition hnotes with hnotes | ⟨rfl, -⟩
  · rw [← Context.mem_holdings_iff, hheld] at hholds
    rcases List.mem_append.mp hholds with hholds | hholds
    · exact h.noted hnotes (Context.mem_holdings_iff.mp hholds)
    · cases List.mem_singleton.mp hholds
      -- The new variable was held nowhere, so no block can have noted it.
      obtain ⟨p, -, hp⟩ := hframed.noted hnotes
      exact absurd hp (hfresh p)
  · exact hframe

/-- A fresh symbol is declared in a block that is open. -/
theorem declare (h : log.Tracks func ctx) (hframed : ctx.Framed) {o : Symbol}
    (hblock : block ∈ log.blocks.map Prod.fst) (hopen : block ∉ log.closed)
    (hs : ctx.arena.get? sym = some s) (ho : ctx.arena.get? func = some o)
    (hnew : s.name ∉ o.members.keys) (hfresh : ∀ p, ¬ctx.Holds p sym)
    (hshown : s.outOfScope = false) (hgrows : ctx.Grows (ctx.withDefinition block func sym)) :
    ({ log with decls := log.decls ++ [(sym, block)] } : FrameLog).Tracks func
      (ctx.withDefinition block func sym) := by
  have hframe := h.frame?_block hblock
  obtain ⟨q, b, hq, hk, rfl⟩ := Context.exists_block_of_frame? hframe
  have hframes := ctx.frame?_withDefinition block b.func sym
  have hhome := Context.home_of_frame? hframe
  have hp : ctx.arena.get? (ctx.home block) = some o := by rw [hhome, ho]
  have hdefines := Context.defines_withDefinition hs hp hnew
  rw [hhome] at hdefines
  -- The function gets one more variable, at the end.
  have hheld := hdefines.holdings_owner ⟨o, ho⟩
  refine ⟨hgrows.isFunc h.isFunc, ?_, ?_, h.nested, h.closed, ?_, h.block_declare hq hk,
    h.mark_declare hq hk hblock hopen hs hfresh hshown, h.noted_declare hframed hframe hfresh hheld⟩
  · rw [hheld, ← h.held, List.map_append]
    rfl
  · intro v scope hv
    rcases List.mem_append.mp hv with hv | hv
    · exact h.place hv
    · cases List.mem_singleton.mp hv
      exact Or.inr hblock
  · intro other hother
    rw [hframes] at hother
    exact h.framed hother

end Declare

section Open

variable {parent : SymbolId} {s : Symbol}

/-- The scopes on record are older than a block that is opened now. -/
theorem ne_nextId_of_covers (h : log.Tracks func ctx) {scope : SymbolId}
    (hscope : log.Covers func scope) : scope ≠ ctx.nextId := by
  obtain ⟨t, ht⟩ := h.exists_of_covers hscope
  exact Context.ne_nextId ht

/-- Opening a block leaves the depth of every scope on record as it was. -/
theorem depth_openBlock (h : log.Tracks func ctx) (parent : SymbolId) {scope : SymbolId}
    (hscope : log.Covers func scope) :
    ({ log with blocks := (ctx.nextId, parent) :: log.blocks } : FrameLog).depth scope
      = log.depth scope := by
  simp [depth, nesting, h.ne_nextId_of_covers hscope]

/-- The new block is one level deeper than what it is opened in. -/
theorem depth_nextId (log : FrameLog) (ctx : Context) (parent : SymbolId) :
    ({ log with blocks := (ctx.nextId, parent) :: log.blocks } : FrameLog).depth ctx.nextId
      = log.depth parent + 1 :=
  if_pos rfl

/-- Every block is still one level deeper than what it was opened in. -/
theorem nested_openBlock (h : log.Tracks func ctx) (hparent : log.Covers func parent)
    {block outer : SymbolId} (hmem : (block, outer) ∈ (ctx.nextId, parent) :: log.blocks) :
    let log' : FrameLog := { log with blocks := (ctx.nextId, parent) :: log.blocks }
    log'.Covers func outer ∧ log'.depth block = log'.depth outer + 1 := by
  intro log'
  rcases List.mem_cons.mp hmem with heq | hmem
  · cases heq
    refine ⟨hparent.imp_right (List.mem_cons_of_mem _), ?_⟩
    rw [depth_nextId, h.depth_openBlock parent hparent]
  · obtain ⟨houter, hlevel⟩ := h.nested hmem
    have hblock : log.Covers func block := Or.inr (List.mem_map_of_mem hmem)
    refine ⟨houter.imp_right (List.mem_cons_of_mem _), ?_⟩
    rw [h.depth_openBlock parent hblock, h.depth_openBlock parent houter]
    exact hlevel

/-- Every block still knows its level and its variables; the new one has none yet. -/
theorem block_openBlock (h : log.Tracks func ctx)
    (hmark : s.mark = { block? := some { func, level := log.depth parent + 1 } })
    {block : SymbolId} (hblock : block ∈ ctx.nextId :: log.blocks.map Prod.fst) :
    let log' : FrameLog := { log with blocks := (ctx.nextId, parent) :: log.blocks }
    ∃ m, ((Edit.alloc s).write ctx).mark? block = some m ∧
      m.block? = some { func, level := log'.depth block, vars := log'.declaredIn block } := by
  intro log'
  rcases List.mem_cons.mp hblock with rfl | hblock
  · -- What was declared before was declared in older scopes.
    have hnone : log'.declaredIn ctx.nextId = [] := by
      rw [declaredIn, List.map_eq_nil_iff, List.filter_eq_nil_iff]
      intro entry hentry
      simpa using h.ne_nextId_of_covers (h.place hentry)
    refine ⟨s.mark, by rw [Context.mark?_alloc, if_pos rfl], ?_⟩
    rw [hmark, depth_nextId, hnone]
  · obtain ⟨m, hm, hb⟩ := h.block hblock
    refine ⟨m, Context.mark?_alloc_of_some s hm, ?_⟩
    rw [h.depth_openBlock parent (Or.inr hblock)]
    exact hb

/-- A block is opened in the function or in a block of it. -/
theorem openBlock (h : log.Tracks func ctx) (hparent : log.Covers func parent)
    (hmark : s.mark = { block? := some { func, level := log.depth parent + 1 } }) :
    ({ log with blocks := (ctx.nextId, parent) :: log.blocks } : FrameLog).Tracks func
      ((Edit.alloc s).write ctx) := by
  have hheld := ctx.holdings_alloc s h.exists_func
  have hfunc := (ctx.grows_alloc s).isFunc h.isFunc
  refine ⟨hfunc, h.held.trans hheld.symm, ?_, h.nested_openBlock hparent, ?_, ?_,
    h.block_openBlock hmark, ?_, ?_⟩
  · intro v scope hv
    exact (h.place hv).imp_right (List.mem_cons_of_mem _)
  · intro block hclosed
    exact List.mem_cons_of_mem _ (h.closed hclosed)
  · intro block hblock
    rcases Context.frame?_alloc hblock with ⟨rfl, -⟩ | hblock
    · exact List.mem_cons_self
    · exact List.mem_cons_of_mem _ (h.framed hblock)
  · intro v scope hv
    obtain ⟨m, hm, hlevel, hhidden⟩ := h.mark hv
    refine ⟨m, Context.mark?_alloc_of_some s hm, ?_, hhidden⟩
    rw [h.depth_openBlock parent (h.place hv)]
    exact hlevel
  · intro block v hnotes hholds
    rw [Context.holds_iff_of_holdings_eq hheld] at hholds
    rcases Context.notes_alloc_cases hnotes with ⟨b, hb, hv⟩ | hnotes
    · -- The new block notes nothing.
      rw [hmark] at hb
      cases hb
      cases hv
    · exact (ctx.grows_alloc s).frame? (h.noted hnotes hholds)

end Open

/-- A symbol is declared in a scope when the record has that pair. -/
theorem mem_declaredIn_iff {log : FrameLog} {v scope : SymbolId} :
    v ∈ log.declaredIn scope ↔ (v, scope) ∈ log.decls := by
  simp [declaredIn]

/-- A block has noted what was declared in it. -/
theorem notes_iff (h : log.Tracks func ctx) {block v : SymbolId}
    (hblock : block ∈ log.blocks.map Prod.fst) : ctx.Notes block v ↔ (v, block) ∈ log.decls := by
  obtain ⟨m, hm, hb⟩ := h.block hblock
  rw [Context.notes_iff, ← mem_declaredIn_iff]
  simp [hm, hb]

/-- A symbol was declared in one scope. -/
theorem scope_unique (h : log.Tracks func ctx) (hsound : ctx.Sound) {v scope scope' : SymbolId}
    (hv : (v, scope) ∈ log.decls) (hv' : (v, scope') ∈ log.decls) : scope = scope' := by
  have hnodup : (log.decls.map Prod.fst).Nodup := h.held ▸ hsound.nodup_holdings func
  exact congrArg Prod.snd (List.inj_on_of_nodup_map hnodup hv hv' rfl)

/-- A block of the function is closed. -/
theorem closeBlock (h : log.Tracks func ctx) (hsound : ctx.Sound) {block : SymbolId}
    (hblock : block ∈ log.blocks.map Prod.fst) :
    ({ log with closed := block :: log.closed } : FrameLog).Tracks func
      (ctx.withHidden (ctx.noted block)) := by
  have hframes := ctx.frame?_withHidden (ctx.noted block)
  have hheld := ctx.holdings_withHidden (ctx.noted block) func
  refine ⟨(ctx.grows_withHidden _).isFunc h.isFunc, h.held.trans hheld.symm, h.place, h.nested,
    ?_, ?_, ?_, ?_, ?_⟩
  · intro other hclosed
    rcases List.mem_cons.mp hclosed with rfl | hclosed
    · exact hblock
    · exact h.closed hclosed
  · intro other hframe
    rw [hframes] at hframe
    exact h.framed hframe
  · intro other hother
    obtain ⟨m, hm, hb⟩ := h.block hother
    exact ⟨_, Context.mark?_withHidden_of_some _ hm, hb⟩
  · intro v scope hv
    obtain ⟨m, hm, hlevel, hhidden⟩ := h.mark hv
    refine ⟨_, Context.mark?_withHidden_of_some _ hm, hlevel, ?_⟩
    -- The block hides exactly what was declared in it.
    have hiff : v ∈ ctx.noted block ↔ scope = block := by
      rw [Context.mem_noted_iff, h.notes_iff hblock]
      constructor
      · intro hvb
        exact h.scope_unique hsound hv hvb
      · rintro rfl
        exact hv
    show (m.hidden || decide (v ∈ ctx.noted block)) = decide (scope ∈ block :: log.closed)
    rw [hhidden]
    simp [hiff, List.mem_cons, Bool.or_comm]
  · intro other v hnotes hholds
    rw [Context.notes_withHidden] at hnotes
    rw [Context.holds_iff_of_holdings_eq hheld] at hholds
    rw [hframes]
    exact h.noted hnotes hholds

/-! ### Calls and runs -/

variable {op : Op}

/-- A call that leaves the marks alone, whatever it adds to the function. -/
theorem gain_of_steady (h : log.Tracks func ctx) (hreached : Reached (fun _ _ => True) ctx)
    (hfresh : op.DefinesFresh func ctx) (hsteady : ctx.Steady (op.next ctx))
    {gained : List SymbolId} (hheld : (op.next ctx).holdings func = ctx.holdings func ++ gained) :
    ({ log with decls := log.decls ++ gained.map (·, func) } : FrameLog).Tracks func
      (op.next ctx) := by
  have hsound' : (op.next ctx).Sound := (hreached.step op trivial).sound
  refine h.gain (hfresh.bypasses hsteady hreached.framed h.exists_func) hheld ?_
  intro x hx
  have hholds : (op.next ctx).Holds func x := by
    rw [← Context.mem_holdings_iff, hheld]
    exact List.mem_append_right _ hx
  have hnew : ¬ctx.Holds func x := by
    intro hold
    -- A member from before stands in the first part of a list without repeats.
    have hnodup := hsound'.nodup_holdings func
    rw [hheld] at hnodup
    exact List.disjoint_of_nodup_append hnodup (Context.mem_holdings_iff.mpr hold) hx
  have hdef := Op.defines_of_holds h.exists_func hholds hnew
  obtain ⟨s, hs⟩ := hsound'.exists_of_holds hholds
  have hm := Context.mark?_of_get? hs
  exact ⟨_, hm, hfresh.blank hsteady hreached.framed hreached.leveled hdef hm⟩

section Definition

variable {scope sym : SymbolId} {s p : Symbol}

/-- A definition in a scope of the frame is a declaration there. -/
theorem define_inside (h : log.Tracks func ctx) (hreached : Reached (fun _ _ => True) ctx)
    (hfresh : (Op.define scope sym).DefinesFresh func ctx) (hcovers : log.Covers func scope)
    (hopen : scope ∉ log.closed) (hs : ctx.arena.get? sym = some s)
    (hp : ctx.arena.get? (ctx.home scope) = some p) (hnew : s.name ∉ p.members.keys)
    (hnext : (Op.define scope sym).next ctx = ctx.withDefinition scope (ctx.home scope) sym) :
    ({ log with decls := log.decls ++ [(sym, scope)] } : FrameLog).Tracks func
      ((Op.define scope sym).next ctx) := by
  have hgrows := (Op.define scope sym).grows ctx
  have hdefines := Context.defines_withDefinition hs hp hnew
  rw [h.covers_iff.mp hcovers] at hp hnext hdefines
  have hheld := hdefines.holdings_owner h.exists_func
  rcases hcovers with rfl | hblock
  · -- Declared in the function itself.
    have hsteady : ctx.Steady ((Op.define scope sym).next ctx) := by
      rw [hnext]
      exact .of_eq (Context.mark?_withDefinition_of_none h.frame?_func _ _)
    rw [← hnext] at hheld
    exact h.gain_of_steady hreached hfresh hsteady hheld
  · have hdef : (Op.define scope sym).Defines ctx func sym := by
      refine Op.defines_of_holds h.exists_func ?_ (hreached.sound.not_holds_of_free hs hp hnew)
      rw [hnext, ← Context.mem_holdings_iff, hheld]
      exact List.mem_append_right _ (List.mem_singleton.mpr rfl)
    obtain ⟨hnone, -, hshown⟩ := hfresh sym hdef
    rw [hnext] at hgrows ⊢
    exact h.declare hreached.framed hblock hopen hs hp hnew hnone (hshown s hs) hgrows

/-- A definition in a scope outside the frame passes it by. -/
theorem define_outside (h : log.Tracks func ctx) (hreached : Reached (fun _ _ => True) ctx)
    (hfresh : (Op.define scope sym).DefinesFresh func ctx) (hcovers : ¬log.Covers func scope)
    (honce : ctx.Holds func sym → ctx.frame? scope = none) (hs : ctx.arena.get? sym = some s)
    (hp : ctx.arena.get? (ctx.home scope) = some p) (hnew : s.name ∉ p.members.keys)
    (hnext : (Op.define scope sym).next ctx = ctx.withDefinition scope (ctx.home scope) sym) :
    log.Tracks func ((Op.define scope sym).next ctx) := by
  have hgrows := (Op.define scope sym).grows ctx
  have hne : func ≠ ctx.home scope := fun heq => hcovers (h.covers_iff.mpr heq.symm)
  have hheld := (Context.defines_withDefinition hs hp hnew).holdings_of_ne h.exists_func hne
  rw [← hnext] at hheld
  refine h.aside ?_ hheld
  cases hframe : ctx.frame? scope with
  | none =>
    refine hfresh.bypasses ?_ hreached.framed h.exists_func
    rw [hnext]
    exact .of_eq (Context.mark?_withDefinition_of_none hframe _ _)
  | some owner =>
    -- A block of another function, which must not get at what this one has.
    obtain ⟨o, b, ho, hk, rfl⟩ := Context.exists_block_of_frame? hframe
    rw [Context.home_of_frame? hframe] at hp hne hnext
    have hsym : ¬ctx.Holds func sym := by
      intro hholds
      rw [honce hholds] at hframe
      cases hframe
    rw [hnext] at hgrows ⊢
    exact Context.bypasses_withDefinition h.exists_func ho hk hne.symm hsym hs hp hnew hgrows

/-- `define` is recorded as a declaration when it succeeds in a scope of the frame, and passes the
frame by otherwise. -/
theorem next_define (h : log.Tracks func ctx) (hreached : Reached (fun _ _ => True) ctx)
    (hfresh : (Op.define scope sym).DefinesFresh func ctx)
    (hrespects : log.Respects func ctx (.define scope sym)) :
    (log.next func ctx (.define scope sym)).Tracks func ((Op.define scope sym).next ctx) := by
  rcases Op.next_define ctx scope sym with ⟨⟨e, hfails⟩, hnext⟩ | ⟨s, p, hs, hp, hnew, hruns, hnext⟩
  · have hlog : log.next func ctx (.define scope sym) = log := by
      simp [FrameLog.next, SemaM.failure?, hfails]
    rw [hlog, hnext]
    exact h
  -- Past this point the call succeeds, and what counts is whose frame the scope belongs to.
  have hok : SemaM.failure? (SemaM.define scope sym) ctx = none := by rw [SemaM.failure?, hruns]
  obtain ⟨hopen, honce⟩ := hrespects hok
  by_cases hcovers : log.Covers func scope
  · have hlog : log.next func ctx (.define scope sym)
        = { log with decls := log.decls ++ [(sym, scope)] } := if_pos ⟨hcovers, hok⟩
    rw [hlog]
    exact h.define_inside hreached hfresh hcovers hopen hs hp hnew hnext
  · have hlog : log.next func ctx (.define scope sym) = log :=
      if_neg fun hboth => hcovers hboth.1
    rw [hlog]
    exact h.define_outside hreached hfresh hcovers honce hs hp hnew hnext

end Definition

/-- A block that is opened in a scope of the frame is a block of the function, and one level deeper
than the scope. -/
theorem blockIn?_of_covers (h : log.Tracks func ctx) {parent : SymbolId}
    (hparent : log.Covers func parent) :
    ctx.blockIn? parent = some { func, level := log.depth parent + 1 } := by
  rcases hparent with rfl | hblock
  · obtain ⟨o, info, ho, hk⟩ := h.isFunc
    -- The body of the function is at depth zero.
    have hdepth : log.depth parent = 0 := nesting_eq_zero h.func_not_mem
    simp [Context.blockIn?, ho, hk, hdepth]
  · obtain ⟨m, hm, hb⟩ := h.block hblock
    obtain ⟨o, ho, rfl⟩ := Context.get?_of_mark? hm
    cases hk : o.kind with
    | block b =>
      simp only [Symbol.mark, hk, SymbolKind.block?, Option.some.injEq] at hb
      simp [Context.blockIn?, ho, hk, hb]
    | _ => simp [Symbol.mark, hk, SymbolKind.block?] at hb

/-- `openBlock` is recorded when the parent scope belongs to the frame. -/
theorem next_openBlock (h : log.Tracks func ctx) (parent : SymbolId) (location : Option Location) :
    (log.next func ctx (.openBlock parent location)).Tracks func
      ((Op.openBlock parent location).next ctx) := by
  by_cases hparent : log.Covers func parent
  · have hlog : log.next func ctx (.openBlock parent location)
        = { log with blocks := (ctx.nextId, parent) :: log.blocks } := if_pos hparent
    have hin := h.blockIn?_of_covers hparent
    rcases Op.next_openBlock ctx parent location with ⟨hnone, -⟩ | ⟨b, s, hb, hmark, hnext⟩
    · rw [hin] at hnone
      cases hnone
    · rw [hin] at hb
      cases hb
      rw [hlog, hnext]
      exact h.openBlock hparent hmark
  · have hlog : log.next func ctx (.openBlock parent location) = log := if_neg hparent
    rw [hlog]
    rcases Op.next_openBlock ctx parent location with ⟨-, hnext⟩ | ⟨b, s, hb, hmark, hnext⟩
    · rw [hnext]
      exact h
    · obtain ⟨hfunc, hvars⟩ := Context.func_of_blockIn? hb
      -- The new block takes the function of its parent, which is another one.
      have hne : b.func ≠ func := by
        intro heq
        exact hparent (h.covers_iff.mpr (hfunc.symm.trans heq))
      rw [hnext]
      exact h.aside (Context.bypasses_alloc h.exists_func hmark hne hvars)
        (ctx.holdings_alloc s h.exists_func)

/-- `closeBlock` is recorded for a block of the frame and hides nothing of the frame otherwise. -/
theorem next_closeBlock (h : log.Tracks func ctx) (hreached : Reached (fun _ _ => True) ctx)
    (block : SymbolId) :
    (log.next func ctx (.closeBlock block)).Tracks func ((Op.closeBlock block).next ctx) := by
  rw [Op.next_closeBlock hreached.sound hreached.framed]
  by_cases hblock : block ∈ log.blocks.map Prod.fst
  · have hlog : log.next func ctx (.closeBlock block)
        = { log with closed := block :: log.closed } := if_pos hblock
    rw [hlog]
    exact h.closeBlock hreached.sound hblock
  · have hlog : log.next func ctx (.closeBlock block) = log := if_neg hblock
    rw [hlog]
    refine h.aside (Context.bypasses_withHidden ?_) (ctx.holdings_withHidden _ func)
    -- What has noted a symbol of the frame is a block of the function.
    intro x hx hholds
    exact hblock (h.framed (h.noted (Context.mem_noted_iff.mp hx) hholds))

/-- Every call that declares fresh symbols and keeps to the blocks leaves record and context in
agreement. -/
theorem next (h : log.Tracks func ctx) (hreached : Reached (fun _ _ => True) ctx)
    (hfresh : op.DefinesFresh func ctx) (hrespects : log.Respects func ctx op) :
    (log.next func ctx op).Tracks func (op.next ctx) := by
  cases op with
  | define scope sym => exact h.next_define hreached hfresh hrespects
  | openBlock parent location => exact h.next_openBlock parent location
  | closeBlock block => exact h.next_closeBlock hreached block
  | markOutOfScope sym =>
    rw [Op.next_markOutOfScope]
    refine h.aside (Context.bypasses_withHidden ?_) (ctx.holdings_withHidden _ func)
    intro x hx
    rw [List.mem_singleton.mp hx]
    exact hrespects
  | _ =>
    -- All other calls leave the marks alone, and the record takes what they add to the function.
    refine h.gain_of_steady hreached hfresh (Op.steady_next _ h.exists_func rfl) ?_
    exact (List.prefix_iff_eq_append.mp ((Op.grows _ ctx).holdings h.exists_func)).symm

end Tracks

/-- A function that has just been made has neither members nor blocks. -/
theorem tracks_alloc {ctx : Context} {s : Symbol} {info : FuncInfo} (hframed : ctx.Framed)
    (hk : s.kind = .func info) (hmembers : s.members = .empty) :
    ({} : FrameLog).Tracks ctx.nextId ((Edit.alloc s).write ctx) ∧
      ((Edit.alloc s).write ctx).AlignedIn ctx.nextId := by
  have hget := ctx.get?_alloc_nextId s
  have hheld : ((Edit.alloc s).write ctx).holdings ctx.nextId = [] := by
    rw [Context.holdings_eq_members?, Context.members?_of_get? hget, hmembers]
    rfl
  have hempty : ∀ v, ¬((Edit.alloc s).write ctx).Holds ctx.nextId v := by
    intro v hv
    rw [← Context.mem_holdings_iff, hheld] at hv
    cases hv
  have hnil : ∀ {α : Type} {x : α} {P : Prop}, x ∈ ([] : List α) → P :=
    fun hx => absurd hx List.not_mem_nil
  refine ⟨⟨⟨s, info, hget, hk⟩, hheld.symm, hnil, hnil, hnil, ?_, hnil, hnil, ?_⟩, ?_⟩
  · intro block hframe
    rcases Context.frame?_alloc hframe with ⟨-, b, hb, -⟩ | hframe
    · simp [Symbol.mark, hk, SymbolKind.block?] at hb
    · -- The function is too new for a block that was there before.
      obtain ⟨f, info, hf, -⟩ := hframed.func hframe
      exact absurd rfl (Context.ne_nextId hf)
  · intro block v hnotes hholds
    exact absurd hholds (hempty v)
  · intro i n x l hat
    exact absurd ⟨i, n, hat⟩ (hempty x)

/-- Record and context agree along a run, and the slots of the function are the positions. -/
theorem Tracks.after {log : FrameLog} {func : SymbolId} {ctx : Context} (h : log.Tracks func ctx)
    (haligned : ctx.AlignedIn func) (hreached : Reached (fun _ _ => True) ctx) {ops : List Op}
    (hops : AllAllowed func log ctx ops) :
    (FrameLog.after func log ctx ops).Tracks func (Op.runs ctx ops) ∧
      (Op.runs ctx ops).AlignedIn func := by
  induction ops generalizing log ctx with
  | nil => exact ⟨h, haligned⟩
  | cons op rest ih =>
    obtain ⟨⟨hfresh, hrespects⟩, hrest⟩ := hops
    have hnext : Reached (fun _ _ => True) (op.next ctx) := hreached.step op trivial
    refine ih (h.next hreached hfresh hrespects) ?_ hnext hrest
    exact hfresh.alignedIn hreached.sound hnext.sound hnext.descends h.exists_func haligned

/-- From every scope of the frame a look-up finds what the function has under a name. -/
theorem Tracks.lookup_eq {log : FrameLog} {func : SymbolId} {ctx : Context}
    (h : log.Tracks func ctx) (hsound : ctx.Sound) (hframed : ctx.Framed) {scope x : SymbolId}
    {s : Symbol} (hscope : log.Covers func scope) (hx : ctx.Holds func x)
    (hs : ctx.arena.get? x = some s) :
    SemaM.lookup scope s.name ctx = .ok (if s.isHidden then none else some x) ctx := by
  obtain ⟨i, name, hat⟩ := hx
  -- A member stands under its own name, so the search ends at the home of the scope.
  obtain ⟨l, hl, rfl⟩ := hsound.named hat
  rw [Context.layout?_of_get? hs] at hl
  cases hl
  obtain ⟨o, ho, hi⟩ := hat
  have hfind : o.members.find? s.name = some x :=
    (Assoc.find?_eq_some_iff _ _ _).mpr (List.mem_of_getElem? hi)
  have hhome : ctx.arena.get? (ctx.home scope) = some o := by rw [h.covers_iff.mp hscope, ho]
  exact SemaM.lookup_of_home hframed (h.exists_of_covers hscope) hhome hfind hs

end FrameLog

/-- Take a script function from the moment it is made, and any run after that in which what becomes
a member of the function is fresh, nothing is defined in a closed block of it, and no member is
defined in yet another block or hidden by itself. Blocks may be opened in the function and in its
blocks at any depth, and closed in any order.

Then its members are the symbols that were declared in it and in its blocks, in this order, and the
slot of each is the number of those before it. Its level is the number of blocks around the
declaration. From the function and from every block of it, a look-up of the name finds the symbol,
unless it is a variable that was declared in a block that is closed; then the look-up finds
nothing. -/
theorem block_scoping {ctx₀ ctx₁ : Context} {name : String} {ret : TypeRef}
    {location : Option Location} {func : SymbolId} (h : Reached (fun _ _ => True) ctx₀)
    (hmade : SemaM.addScriptFunc name ret location ctx₀ = .ok func ctx₁) {ops : List Op}
    (hops : FrameLog.AllAllowed func {} ctx₁ ops) :
    let ctx := Op.runs ctx₁ ops
    let log := FrameLog.after func {} ctx₁ ops
    log.decls.map Prod.fst = ctx.holdings func ∧
    (∀ block, ctx.frame? block = some func ↔ ∃ parent, (block, parent) ∈ log.blocks) ∧
    (log.depth func = 0 ∧ ∀ block parent, (block, parent) ∈ log.blocks →
      log.depth block = log.depth parent + 1) ∧
    ∀ i v scope, log.decls[i]? = some (v, scope) → ∃ s, ctx.arena.get? v = some s ∧
      (s.kind.isSlotted = true → s.slot = some i) ∧
      s.level = log.depth scope ∧
      ∀ viewer, viewer = func ∨ ctx.frame? viewer = some func →
        SemaM.lookup viewer s.name ctx
          = .ok (if s.kind.isVariable = true ∧ scope ∈ log.closed then none else some v) ctx := by
  intro ctx log
  have hreached₁ : Reached (fun _ _ => True) ctx₁ := by
    have hnext : (Op.addScriptFunc name ret location).next ctx₀ = ctx₁ :=
      (SemaM.after_forget _).trans (SemaM.after_ok hmade)
    exact hnext ▸ h.step _ trivial
  have hreached : Reached (fun _ _ => True) ctx := hreached₁.runs_free ops
  -- A function starts with an empty frame, which the empty record describes.
  have hstart : ({} : FrameLog).Tracks func ctx₁ ∧ ctx₁.AlignedIn func := by
    rw [SemaM.addScriptFunc, SemaM.alloc_run] at hmade
    cases hmade
    exact FrameLog.tracks_alloc h.framed rfl rfl
  obtain ⟨htracks, haligned⟩ := hstart.1.after hstart.2 hreached₁ hops
  have hcovers : ∀ {viewer}, viewer = func ∨ ctx.frame? viewer = some func →
      log.Covers func viewer := fun hviewer => hviewer.imp_right htracks.framed
  refine ⟨htracks.held, fun block => ⟨fun hframe => ?_, ?_⟩,
    ⟨nesting_eq_zero htracks.func_not_mem, fun _ _ hmem => (htracks.nested hmem).2⟩, ?_⟩
  · obtain ⟨⟨b, parent⟩, hmem, rfl⟩ := List.mem_map.mp (htracks.framed hframe)
    exact ⟨parent, hmem⟩
  · rintro ⟨parent, hmem⟩
    exact htracks.frame?_block (List.mem_map_of_mem hmem)
  · intro i v scope hi
    -- The slot comes from the alignment of the frame, level and visibility from the mark.
    have hmem := List.mem_of_getElem? hi
    have hholds := htracks.holds_of_mem hmem
    obtain ⟨m, hm, hlevel, hhidden⟩ := htracks.mark hmem
    obtain ⟨s, hs, rfl⟩ := Context.get?_of_mark? hm
    refine ⟨s, hs, fun hslotted => ?_, hlevel, fun viewer hviewer => ?_⟩
    · have hat : (ctx.holdings func)[i]? = some v := by
        rw [← htracks.held, List.getElem?_map, hi]
        rfl
      obtain ⟨name, hat⟩ := Context.getElem?_holdings_iff.mp hat
      exact haligned hat (Context.layout?_of_get? hs) hslotted
    · have hout : s.outOfScope = decide (scope ∈ log.closed) := hhidden
      have hfound := htracks.lookup_eq hreached.sound hreached.framed (hcovers hviewer) hholds hs
      simp only [Symbol.isHidden, hout, Bool.and_eq_true, decide_eq_true_eq] at hfound
      exact hfound

/-- In a function: a variable `a`, a block with `b`, a block inside it with `c` that is closed, and
`d` after that in the outer block. Then a second block is opened, and a lambda of the function gets
a copy of `a`. -/
def nestedBlocksRun : List Op :=
  let type : TypeRef := { name := "int", slot := ⟨0⟩ }
  [.addVariable "a" type none, .define ⟨85⟩ ⟨86⟩,
    .openBlock ⟨85⟩ none, .addVariable "b" type none, .define ⟨87⟩ ⟨88⟩,
    .openBlock ⟨87⟩ none, .addVariable "c" type none, .define ⟨89⟩ ⟨90⟩, .closeBlock ⟨89⟩,
    .addVariable "d" type none, .define ⟨87⟩ ⟨91⟩,
    .openBlock ⟨85⟩ none, .addLambda "l" type [⟨85⟩] none, .lookup ⟨93⟩ "a"]

/-- The record of `nestedBlocksRun` and the marks that it leaves, by running it. -/
theorem nestedBlocksRun_facts :
    let ctx₁ := (Op.addScriptFunc "f" { name := "int", slot := ⟨0⟩ } none).next .initial
    let ctx := Op.runs ctx₁ nestedBlocksRun
    let log := FrameLog.after ⟨85⟩ {} ctx₁ nestedBlocksRun
    Context.initial.nextId = ⟨85⟩ ∧ FrameLog.AllAllowed ⟨85⟩ {} ctx₁ nestedBlocksRun ∧
    log.decls = [(⟨86⟩, ⟨85⟩), (⟨88⟩, ⟨87⟩), (⟨90⟩, ⟨89⟩), (⟨91⟩, ⟨87⟩)] ∧ log.closed = [⟨89⟩] ∧
    log.depth ⟨87⟩ = 1 ∧ log.depth ⟨89⟩ = 2 ∧ ctx.frame? ⟨92⟩ = some ⟨85⟩ ∧
    (ctx.arena.get? ⟨90⟩).map (fun s => (s.name, s.kind.isVariable)) = some ("c", true) ∧
    (ctx.arena.get? ⟨91⟩).map (fun s => (s.name, s.kind.isVariable)) = some ("d", true) := by
  decide +kernel

/-- Both blocks declare after `b`. Only `d` is seen from the second block, and the slot of `c` stays
in use. -/
theorem block_scoping_nestedBlocksRun :
    let ctx₁ := (Op.addScriptFunc "f" { name := "int", slot := ⟨0⟩ } none).next .initial
    let ctx := Op.runs ctx₁ nestedBlocksRun
    FrameLog.AllAllowed ⟨85⟩ {} ctx₁ nestedBlocksRun ∧
    (∃ s, ctx.arena.get? ⟨90⟩ = some s ∧ s.slot = some 2 ∧ s.level = 2 ∧
      SemaM.lookup ⟨92⟩ "c" ctx = .ok none ctx) ∧
    ∃ s, ctx.arena.get? ⟨91⟩ = some s ∧ s.slot = some 3 ∧ s.level = 1 ∧
      SemaM.lookup ⟨92⟩ "d" ctx = .ok (some ⟨91⟩) ctx := by
  intro ctx₁ ctx
  obtain ⟨hid, hallowed, hdecls, hclosed, hdepth, hdepth', hframe, hc, hd⟩ := nestedBlocksRun_facts
  have hmade : SemaM.addScriptFunc "f" { name := "int", slot := ⟨0⟩ } none .initial
      = .ok ⟨85⟩ ctx₁ := by
    rw [SemaM.addScriptFunc, SemaM.alloc_run, hid]
    rfl
  obtain ⟨-, -, -, hall⟩ := block_scoping Reached.initial hmade hallowed
  rw [hdecls, hclosed] at hall
  obtain ⟨c, hc', hname⟩ := Option.map_eq_some_iff.mp hc
  obtain ⟨d, hd', hname'⟩ := Option.map_eq_some_iff.mp hd
  obtain ⟨hcn, hcv⟩ := Prod.mk.inj hname
  obtain ⟨hdn, hdv⟩ := Prod.mk.inj hname'
  refine ⟨hallowed, ⟨c, hc', ?_⟩, ⟨d, hd', ?_⟩⟩
  · -- The block of the first variable is closed by now; that of the second is open.
    obtain ⟨s, hs, hslot, hlevel, hfound⟩ := hall 2 ⟨90⟩ ⟨89⟩ rfl
    rw [hc'] at hs
    cases hs
    have hseen := hfound ⟨92⟩ (Or.inr hframe)
    rw [hcn, hcv, if_pos (by decide)] at hseen
    exact ⟨hslot (SymbolKind.isSlotted_of_isVariable hcv), hlevel.trans hdepth', hseen⟩
  · obtain ⟨s, hs, hslot, hlevel, hfound⟩ := hall 3 ⟨91⟩ ⟨87⟩ rfl
    rw [hd'] at hs
    cases hs
    have hseen := hfound ⟨92⟩ (Or.inr hframe)
    rw [hdn, hdv, if_neg (by decide)] at hseen
    exact ⟨hslot (SymbolKind.isSlotted_of_isVariable hdv), hlevel.trans hdepth, hseen⟩

end Sema

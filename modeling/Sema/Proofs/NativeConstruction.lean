import Sema.Proofs.ParameterDefinition

/-!
# `Sema.Proofs.NativeConstruction`: what is left of a native function that was refused

A native function is made with all its parameters. The number of defaults is compared with theirs
before anything else. Then the function is allocated and takes the symbols in, one after the other,
each as a member first and then as a parameter. The first one that does not suit ends the call with
an error, and by then the ones before it belong to the function.

`Context.Suits` says which lists of symbols can be the parameters of a new function, `Context.Cut`
which of them it takes in before it fails, and `Context.Hands` what that does to them: each one is
owned by the new function and has got a slot, if it had none. The slot is the position in the list
that was refused. It lasts, so the symbol has it as well in a function that takes it at another
position. `native_construction_exact` states all of this, and `refused_arguments_keep_their_slots`
shows the smallest case.
-/

set_option autoImplicit false

namespace Sema

/-! ### Owners that exist -/

namespace Context

variable {ctx : Context}

/-- Every owner exists, those of lambdas apart. -/
structure Rooted (ctx : Context) : Prop where
  globals : ctx.Exists globals
  owner : ∀ {x s p}, ctx.arena.get? x = some s → s.kind.lambda? = none → s.scope = some p →
    ctx.Exists p

/-- The bare context has only its global scope. -/
theorem bare_rooted : bare.Rooted := by
  refine ⟨⟨_, rfl⟩, fun hs _ hp => ?_⟩
  rw [eq_of_get?_bare hs] at hp
  cases hp

end Context

/-- An edit gives a symbol that is there only to scopes that are there. -/
theorem Edit.owner?_write {ctx : Context} {x p : SymbolId} (e : Edit) (hx : ctx.Exists x)
    (hp : (e.write ctx).owner? x = some p) : ctx.owner? x = some p ∨ ctx.Exists p := by
  -- A symbol that is entered gets an owner that was there.
  have hentered : ∀ {scope sym : SymbolId}, (ctx.withMember scope sym).owner? x = some p →
      ctx.owner? x = some p ∨ ctx.Exists p := by
    intro scope sym hp
    rcases Context.owner?_withMember hp with hold | ⟨rfl, hscope⟩
    · exact Or.inl hold
    · exact Or.inr hscope
  cases e with
  | alloc s =>
    obtain ⟨t, ht⟩ := hx
    rw [Context.owner?_alloc, if_neg (Context.ne_nextId ht)] at hp
    exact Or.inl hp
  | enter => exact hentered hp
  | capture =>
    rw [write, Context.owner?_update fun s => s.scope_withCapture _] at hp
    exact hentered hp
  | nest =>
    rw [write, Context.owner?_update, Context.owner?_update] at hp
    · exact Or.inl hp
    · exact fun _ => rfl
    · exact fun s => s.scope_withBlockVar _
  | param =>
    rw [write, Context.owner?_update fun s => s.scope_withParam _ _] at hp
    exact Or.inl hp
  | creator =>
    rw [write, Context.owner?_update fun s => s.scope_withCreator _] at hp
    exact Or.inl hp
  | hide =>
    rw [write, Context.owner?_update] at hp
    · exact Or.inl hp
    · exact fun _ => rfl
  | link =>
    simp only [write] at hp
    split at hp
    · exact Or.inl hp
    · exact Or.inl hp
  | newSlot => exact Or.inl hp
  | fill => exact Or.inl hp
  | keep => exact Or.inl hp
  | storage => exact Or.inl hp

/-- Every edit keeps owners among the symbols that exist. -/
theorem Edit.Fits.rooted {rules : Rules} {ctx : Context} {e : Edit} (he : Fits rules ctx e)
    (h : ctx.Rooted) : (e.write ctx).Rooted := by
  have hgrows := he.grows
  refine ⟨hgrows.exists h.globals, fun {x s p} hs hplain hp => hgrows.exists ?_⟩
  rcases he.grown_or_born hs with ⟨t, ht, hts⟩ | hborn
  · -- A lambda stays one, so what is none now was none before.
    have hplain' : t.kind.lambda? = none := by
      refine Option.eq_none_iff_forall_ne_some.mpr fun l hl => ?_
      obtain ⟨l', hl', -⟩ := hts.kind.lambda? hl
      rw [hplain] at hl'
      cases hl'
    have howner : (e.write ctx).owner? x = some p := (Context.owner?_of_get? hs).trans hp
    rcases e.owner?_write ⟨t, ht⟩ howner with hold | hexists
    · exact h.owner ht hplain' ((Context.owner?_of_get? ht).symm.trans hold)
    · exact hexists
  · cases hborn with
    | blank hb =>
      rcases hb.owner p hp with rfl | hexists
      · exact h.globals
      · exact Option.isSome_iff_exists.mp hexists
    | lambda => cases hplain
    | copy => cases hp
    | heir => cases hp

/-- Owners exist in every state that is reached. -/
theorem Reached.rooted {allowed : Context → Op → Prop} {ctx : Context} (h : Reached allowed ctx) :
    ctx.Rooted :=
  h.edits_free.preserves (fun _ _ he => he.rooted) Context.bare_rooted

/-- A symbol that exists changes when a function that is about to be made takes it in: it gets
another owner, or its first slot. -/
theorem Context.Rooted.enteredAt_ne {ctx : Context} (h : ctx.Rooted) (hsound : ctx.Sound)
    (howned : ctx.Owned) {x : SymbolId} {s : Symbol} (hs : ctx.arena.get? x = some s) (i : Nat) :
    s.enteredAt ctx.nextId i ≠ s := by
  intro heq
  have hscope : s.scope = some ctx.nextId := (congrArg Symbol.scope heq).symm
  have hnone : ¬ctx.Exists ctx.nextId := by
    rintro ⟨t, ht⟩
    exact ne_nextId ht rfl
  cases hlambda : s.kind.lambda? with
  | none => exact hnone (h.owner hs hlambda hscope)
  | some l =>
    -- A lambda can be made inside functions that do not exist, but then it has no slot.
    have hslotted : s.kind.isSlotted = true := by
      cases hk : s.kind with
      | func => rfl
      | _ =>
        rw [hk] at hlambda
        cases hlambda
    have hslot : s.slot = if s.kind.isSlotted && s.slot.isNone then some i else s.slot :=
      (congrArg Symbol.slot heq).symm
    cases hold : s.slot with
    | none =>
      rw [hold, hslotted] at hslot
      cases hslot
    | some j =>
      -- A slot is a position among the members of some scope, and then the owner is one.
      obtain ⟨scope, name, hat⟩ := hsound.placed (layout?_of_get? hs) hold
      obtain ⟨q, hq, k, name', o, ho, -⟩ := howned.held ⟨j, name, hat⟩
      rw [owner?_of_get? hs, hscope] at hq
      cases hq
      exact hnone ⟨o, ho⟩

/-! ### Which symbols a new function takes in -/

namespace Context

variable {ctx before after : Context} {args good : List SymbolId}

/-- The name of the symbol under an id. -/
def name? (ctx : Context) (id : SymbolId) : Option String := (ctx.arena.get? id).map (·.name)

/-- The name is read off the symbol that is there. -/
theorem name?_of_get? {id : SymbolId} {s : Symbol} (hs : ctx.arena.get? id = some s) :
    ctx.name? id = some s.name := by
  rw [name?, hs]
  rfl

/-- The symbols can be the parameters of a new function, in this order. -/
structure Suits (ctx : Context) (args : List SymbolId) : Prop where
  params : ∀ arg ∈ args, ctx.IsParam arg
  names : (args.map ctx.name?).Nodup

/-- A new function that has taken in `good` takes in the next symbol as a member: the symbol exists
and has a new name. -/
def TakesNext (ctx : Context) (good : List SymbolId) (next : SymbolId) : Prop :=
  ctx.Exists next ∧ ctx.name? next ∉ good.map ctx.name?

/-- The arguments do not suit, and `taken` are the ones that a new function takes in: those before
the first that does not suit, and this one too if it can be a member at all. -/
def Cut (ctx : Context) (args taken : List SymbolId) : Prop :=
  ∃ good bad rest, args = good ++ bad :: rest ∧ ctx.Suits good ∧ ¬ctx.Suits (good ++ [bad]) ∧
    (ctx.TakesNext good bad ∧ taken = good ++ [bad] ∨ ¬ctx.TakesNext good bad ∧ taken = good)

/-- One function is new, and owns the symbols that it has taken in. Each of these has the slot that
it had, or else its position. Nothing else has changed. -/
structure Hands (before after : Context) (taken : List SymbolId) : Prop where
  slots : after.slots = before.slots
  links : after.links = before.links
  structural : after.structural = before.structural
  storages : after.storages = before.storages
  size : after.arena.size = before.arena.size + 1
  kept : ∀ {x s}, before.arena.get? x = some s → x ∉ taken → after.arena.get? x = some s
  handed : ∀ {i x s}, taken[i]? = some x → before.arena.get? x = some s →
    after.arena.get? x = some (s.enteredAt before.nextId i)

/-- One more argument suits when it is a parameter with a name of its own. -/
theorem suits_append_singleton {arg : SymbolId} :
    ctx.Suits (good ++ [arg]) ↔
      ctx.Suits good ∧ ctx.IsParam arg ∧ ctx.name? arg ∉ good.map ctx.name? := by
  -- The last argument clashes with none of those before it.
  have hnodup : ((good ++ [arg]).map ctx.name?).Nodup ↔
      ctx.name? arg ∉ good.map ctx.name? ∧ (good.map ctx.name?).Nodup := by
    rw [List.map_append, List.map_singleton, ← List.concat_eq_append, List.nodup_concat]
  constructor
  · rintro ⟨hparams, hnames⟩
    obtain ⟨hnew, hnames⟩ := hnodup.mp hnames
    exact ⟨⟨fun x hx => hparams x (List.mem_append_left _ hx), hnames⟩,
      hparams arg (List.mem_append_right _ (List.mem_singleton.mpr rfl)), hnew⟩
  · rintro ⟨⟨hparams, hnames⟩, harg, hnew⟩
    refine ⟨fun x hx => ?_, hnodup.mpr ⟨hnew, hnames⟩⟩
    rcases List.mem_append.mp hx with hx | hx
    · exact hparams x hx
    · rw [List.mem_singleton.mp hx]
      exact harg

/-- What is done to the new function alone does not matter. -/
theorem Hands.congr {after' : Context} (h : before.Hands after args)
    (hfields : after'.slots = after.slots ∧ after'.links = after.links ∧
      after'.structural = after.structural)
    (hstorages : after'.storages = after.storages) (hsize : after'.arena.size = after.arena.size)
    (hget : ∀ x, x ≠ before.nextId → after'.arena.get? x = after.arena.get? x) :
    before.Hands after' args where
  slots := hfields.1.trans h.slots
  links := hfields.2.1.trans h.links
  structural := hfields.2.2.trans h.structural
  storages := hstorages.trans h.storages
  size := hsize.trans h.size
  kept hs hx := (hget _ (ne_nextId hs)).trans (h.kept hs hx)
  handed hi hs := (hget _ (ne_nextId hs)).trans (h.handed hi hs)

/-- The new function takes in one symbol more. -/
theorem Hands.enter {arg : SymbolId} {o s : Symbol} (h : before.Hands after good)
    (ho : after.arena.get? before.nextId = some o) (hsize : o.members.size = good.length)
    (hs : before.arena.get? arg = some s) (hnew : s.name ∉ o.members.keys) (hfresh : arg ∉ good) :
    before.Hands ((Edit.enter before.nextId arg).write after) (good ++ [arg]) := by
  have hs' := h.kept hs hfresh
  obtain ⟨members, -, hget⟩ := get?_enter hs' ho hnew
  -- Entering the argument touches it and the new function only.
  have hother : ∀ {x t}, before.arena.get? x = some t → x ≠ arg →
      ((Edit.enter before.nextId arg).write after).arena.get? x = after.arena.get? x :=
    fun ht hx => get?_enter_of_ne (ne_nextId ht) hx
  obtain ⟨hslots, hlinks, hstructural⟩ := after.withMember_fields before.nextId arg
  refine ⟨hslots.trans h.slots, hlinks.trans h.links, hstructural.trans h.structural,
    (after.storages_withMember _ _).trans h.storages, (after.size_withMember _ _).trans h.size,
    fun {x t} ht hx => ?_, fun {i x t} hi ht => ?_⟩
  · rw [List.mem_append, List.mem_singleton, not_or] at hx
    exact (hother ht hx.2).trans (h.kept ht hx.1)
  · by_cases hlt : i < good.length
    · -- An old position, of a symbol that is not the new one.
      rw [List.getElem?_append_left hlt] at hi
      have hx : x ≠ arg := fun heq => hfresh (heq ▸ List.mem_of_getElem? hi)
      exact (hother ht hx).trans (h.handed hi ht)
    · obtain ⟨rfl, rfl⟩ : i = good.length ∧ arg = x := by
        rw [List.getElem?_append_right (Nat.le_of_not_lt hlt)] at hi
        obtain ⟨hzero, hx⟩ : i - good.length = 0 ∧ arg = x := by
          simpa [List.getElem?_singleton] using hi
        exact ⟨by omega, hx⟩
      rw [hs] at ht
      cases ht
      rw [hget, hs', ← hsize]
      simp [ne_nextId hs]

/-- A symbol is what it was, for those that ask for its name or its type. -/
theorem Hands.grown (h : before.Hands after args) {x : SymbolId} {s : Symbol}
    (hs : before.arena.get? x = some s) :
    ∃ t, after.arena.get? x = some t ∧ t.name = s.name ∧ t.kind = s.kind ∧ t.type? = s.type? := by
  by_cases hx : x ∈ args
  · obtain ⟨i, hi⟩ := List.mem_iff_getElem?.mp hx
    exact ⟨_, h.handed hi hs, rfl, rfl, rfl⟩
  · exact ⟨s, h.kept hs hx, rfl, rfl, rfl⟩

/-- A new function is there, and has taken in `done` as its parameters. -/
structure Collecting (ctx now : Context) (done : List SymbolId) : Prop where
  hands : ctx.Hands now done
  suits : ctx.Suits done
  func : ∃ o info, now.arena.get? ctx.nextId = some o ∧ o.kind = .func info ∧
    o.members.keys.map some = done.map ctx.name?

/-- A new function has collected nothing yet. -/
theorem collecting_alloc (s : Symbol) {info : FuncInfo} (hk : s.kind = .func info)
    (hmembers : s.members = .empty) : ctx.Collecting ((Edit.alloc s).write ctx) [] where
  hands :=
    { slots := rfl
      links := rfl
      structural := rfl
      storages := rfl
      size := Array.size_push _
      kept := fun ht _ => get?_alloc_of_get? s ht
      handed := fun hi _ => by cases hi }
  suits := ⟨List.forall_mem_nil _, List.nodup_nil⟩
  func := by
    refine ⟨s, info, ctx.get?_alloc_nextId s, hk, ?_⟩
    rw [hmembers]
    rfl

/-- A symbol that was taken in and suits becomes a parameter. -/
theorem collecting_param {now : Context} {done : List SymbolId} {o : Symbol} {info : FuncInfo}
    (hhands : ctx.Hands now done) (hsuits : ctx.Suits done)
    (ho : now.arena.get? ctx.nextId = some o) (hk : o.kind = .func info)
    (hkeys : o.members.keys.map some = done.map ctx.name?) (type : TypeRef) :
    ctx.Collecting ((Edit.param ctx.nextId type false).write now) done where
  hands := hhands.congr (now.update_fields _ _) (now.storages_update _ _) (now.size_update _ _)
    fun x hx => by rw [Edit.write, get?_update, if_neg hx]
  suits := hsuits
  func := by
    obtain ⟨info', hk'⟩ : ∃ info', (o.withParam type false).kind = .func info' := by
      simp only [Symbol.withParam, hk]
      exact ⟨_, rfl⟩
    refine ⟨o.withParam type false, info', ?_, hk', ?_⟩
    · rw [Edit.write, get?_update, if_pos rfl, ho]
      rfl
    · rw [← hkeys]
      simp only [Symbol.withParam, hk]

/-! ### What a call that failed has left -/

/-- The first of arguments that suit suit. -/
theorem Suits.of_append {rest : List SymbolId} (h : ctx.Suits (good ++ rest)) : ctx.Suits good where
  params x hx := h.params x (List.mem_append_left _ hx)
  names := by
    have hnames := h.names
    rw [List.map_append] at hnames
    exact hnames.of_append_left

/-- Arguments that are cut short do not suit. -/
theorem Cut.not_suits {taken : List SymbolId} (h : ctx.Cut args taken) : ¬ctx.Suits args := by
  obtain ⟨good, bad, rest, rfl, -, hunsuited, -⟩ := h
  intro hsuits
  rw [List.append_cons] at hsuits
  exact hunsuited hsuits.of_append

/-- What was taken from arguments that are cut short exists. -/
theorem Cut.exists {taken : List SymbolId} (h : ctx.Cut args taken) {x : SymbolId}
    (hx : x ∈ taken) : ctx.Exists x := by
  obtain ⟨good, bad, rest, -, hsuits, -, htaken⟩ := h
  -- Parameters exist, and the one that stopped the loop was taken only if it does.
  have hgood : ∀ x ∈ good, ctx.Exists x := by
    intro x hx
    obtain ⟨s, -, hs, -⟩ := hsuits.params x hx
    exact ⟨s, hs⟩
  rcases htaken with ⟨htakes, rfl⟩ | ⟨-, rfl⟩
  · rcases List.mem_append.mp hx with hx | hx
    · exact hgood x hx
    · rw [List.mem_singleton.mp hx]
      exact htakes.1
  · exact hgood x hx

/-- Nothing is taken in if already the first symbol does not exist. -/
theorem Cut.eq_nil_iff {taken : List SymbolId} (h : ctx.Cut args taken) :
    taken = [] ↔ ∀ first ∈ args.head?, ¬ctx.Exists first := by
  obtain ⟨good, bad, rest, rfl, hsuits, -, htaken⟩ := h
  -- With no suitable argument in front, it is the first one that decides.
  cases good with
  | nil =>
    have hnext : ctx.TakesNext [] bad ↔ ctx.Exists bad :=
      and_iff_left (List.not_mem_nil)
    rw [hnext] at htaken
    simp only [List.nil_append, List.head?_cons, Option.mem_def, Option.some.injEq, forall_eq']
    rcases htaken with ⟨hexists, rfl⟩ | ⟨hmissing, rfl⟩
    · simp [hexists]
    · simp [hmissing]
  | cons first good =>
    obtain ⟨s, -, hs, -⟩ := hsuits.params first List.mem_cons_self
    have hexists : ctx.Exists first := ⟨s, hs⟩
    have hne : taken ≠ [] := by
      rcases htaken with ⟨-, rfl⟩ | ⟨-, rfl⟩
      · exact List.cons_ne_nil _ _
      · exact List.cons_ne_nil _ _
    simp [hne, hexists]

/-- The symbols that exist are as they were exactly if none of them was taken in. -/
theorem Hands.unchanged_iff (h : before.Hands after args) (hroot : before.Rooted)
    (hsound : before.Sound) (howned : before.Owned) (hexist : ∀ x ∈ args, before.Exists x) :
    (∀ x s, before.arena.get? x = some s → after.arena.get? x = some s) ↔ args = [] := by
  constructor
  · intro hsame
    cases args with
    | nil => rfl
    | cons first rest =>
      obtain ⟨s, hs⟩ := hexist first List.mem_cons_self
      -- The first argument would have kept its owner and slot while getting new ones.
      have hhanded := h.handed (i := 0) rfl hs
      rw [hsame first s hs, Option.some.injEq] at hhanded
      exact absurd hhanded.symm (hroot.enteredAt_ne hsound howned hs 0)
  · rintro rfl x s hs
    exact h.kept hs List.not_mem_nil

/-- A first slot lasts. -/
theorem Hands.slot_lasts (h : before.Hands after args) {i : Nat} {x : SymbolId} {s : Symbol}
    (hi : args[i]? = some x) (hs : before.arena.get? x = some s)
    (hslotted : s.kind.isSlotted = true) (hfree : s.slot = none) (ops : List Op) :
    ∃ t, (Op.runs after ops).arena.get? x = some t ∧ t.slot = some i := by
  obtain ⟨t, ht, hgrows⟩ := (Op.runs_grows after ops).symbols x _ (h.handed hi hs)
  refine ⟨t, ht, hgrows.slot i ?_⟩
  simp [Symbol.enteredAt, hslotted, hfree]

end Context

namespace SemaM

variable {ctx now : Context} {arg : SymbolId} {done : List SymbolId}

/-- A symbol that cannot be a member ends the call, and those that exist are as they were. -/
theorem enterParams_of_refused (h : ctx.Collecting now done) (hrefused : ¬ctx.TakesNext done arg)
    (rest : List SymbolId) :
    ∃ e now', enterParams ctx.nextId (arg :: rest) now = .error e now' ∧ ctx.Hands now' done := by
  -- The argument repeats a name, or it is the function itself, or it is nothing at all.
  obtain ⟨o, info, ho, hk, hkeys⟩ := h.func
  cases hs : ctx.arena.get? arg with
  | some s =>
    have htaken : s.name ∈ o.members.keys := by
      by_contra hnew
      refine hrefused ⟨⟨s, hs⟩, fun hmem => hnew ?_⟩
      rw [Context.name?_of_get? hs, ← hkeys] at hmem
      obtain ⟨key, hkey, heq⟩ := List.mem_map.mp hmem
      cases heq
      exact hkey
    obtain ⟨t, ht, hname, -⟩ := h.hands.grown hs
    rw [← hname] at htaken
    exact ⟨_, now, bind_of_error (enter_of_taken ht ho htaken), h.hands⟩
  | none =>
    by_cases hself : arg = ctx.nextId
    · -- The function itself can become a member of it, but is no parameter.
      subst hself
      by_cases htaken : o.name ∈ o.members.keys
      · exact ⟨_, now, bind_of_error (enter_of_taken ho ho htaken), h.hands⟩
      · obtain ⟨o', ho', hk', -⟩ := Context.get?_enter_scope ho ho htaken
        rcases o'.paramType_cases with ⟨byRef, type, hparam, -⟩ | ⟨-, herror⟩
        · rw [hk', hk] at hparam
          cases hparam
        · refine ⟨_, _, (bind_of_ok (enter_of_free ho ho htaken)).trans
            (bind_of_error (pushParam_of_error ho' herror false)), ?_⟩
          exact h.hands.congr (now.withMember_fields _ _) (now.storages_withMember _ _)
            (now.size_withMember _ _) fun x hx => Context.get?_enter_of_ne hx hx
    · have hnone : now.arena.get? arg = none := by
        rw [Context.get?_eq_none_iff] at hs ⊢
        have hnum : arg.num ≠ ctx.arena.size + 1 := fun heq => hself (congrArg SymbolId.mk heq)
        have hsize := h.hands.size
        omega
      have hfails : enter ctx.nextId arg now = .error (.danglingSymbol arg) now :=
        bind_of_error (query_of_error (Context.symbol_of_none hnone))
      exact ⟨_, now, bind_of_error hfails, h.hands⟩

/-- A symbol that can be a member is one before it is looked at. -/
theorem enterParams_of_takesNext (h : ctx.Collecting now done) (htakes : ctx.TakesNext done arg)
    (rest : List SymbolId) :
    ∃ between o info, enterParams ctx.nextId (arg :: rest) now
        = (do pushParam ctx.nextId arg false; enterParams ctx.nextId rest) between ∧
      ctx.Hands between (done ++ [arg]) ∧ between.arena.get? ctx.nextId = some o ∧
      o.kind = .func info ∧ o.members.keys.map some = (done ++ [arg]).map ctx.name? := by
  obtain ⟨⟨s, hs⟩, hname⟩ := htakes
  obtain ⟨o, info, ho, hk, hkeys⟩ := h.func
  -- The members of the function are the arguments done so far, so the name is free there.
  have hnew : s.name ∉ o.members.keys := by
    intro hmem
    rw [Context.name?_of_get? hs, ← hkeys] at hname
    exact hname (List.mem_map_of_mem hmem)
  have hfresh : arg ∉ done := fun hmem => hname (List.mem_map_of_mem hmem)
  have hsize : o.members.size = done.length := by
    simpa [Assoc.keys, Assoc.size] using congrArg List.length hkeys
  have hs' := h.hands.kept hs hfresh
  obtain ⟨o', ho', hk', hentries⟩ := Context.get?_enter_scope hs' ho hnew
  refine ⟨_, o', info, bind_of_ok (enter_of_free hs' ho hnew),
    h.hands.enter ho hsize hs hnew hfresh, ho', hk'.trans hk, ?_⟩
  rw [List.map_append, ← hkeys, Assoc.keys, Assoc.keys, hentries, List.map_singleton,
    Context.name?_of_get? hs]
  simp

/-- The function takes the next symbol as a parameter, or the call ends. -/
theorem enterParams_cons_cases (htyped : ctx.Typed) (h : ctx.Collecting now done)
    (rest : List SymbolId) :
    (ctx.Suits (done ++ [arg]) ∧ ∃ now',
      enterParams ctx.nextId (arg :: rest) now = enterParams ctx.nextId rest now' ∧
      ctx.Collecting now' (done ++ [arg])) ∨
    (¬ctx.Suits (done ++ [arg]) ∧ ∃ e now' taken,
      enterParams ctx.nextId (arg :: rest) now = .error e now' ∧ ctx.Hands now' taken ∧
      (ctx.TakesNext done arg ∧ taken = done ++ [arg] ∨
        ¬ctx.TakesNext done arg ∧ taken = done)) := by
  by_cases htakes : ctx.TakesNext done arg
  · obtain ⟨between, o, info, hrun, hhands, ho, hk, hkeys⟩ := enterParams_of_takesNext h htakes rest
    obtain ⟨⟨s, hs⟩, hnew⟩ := htakes
    obtain ⟨t, ht, hname, hkind, htype⟩ := hhands.grown hs
    -- Only now the function asks what kind of symbol it has taken in.
    rcases t.paramType_cases with ⟨byRef, type, hparam, -, hok⟩ | ⟨hnone, herror⟩
    · left
      have hsuits : ctx.Suits (done ++ [arg]) := Context.suits_append_singleton.mpr
        ⟨h.suits, ⟨s, byRef, hs, hkind.symm.trans hparam⟩, hnew⟩
      rw [bind_of_ok (pushParam_of_ok ht hok ho false)] at hrun
      exact ⟨hsuits, _, hrun, Context.collecting_param hhands hsuits ho hk hkeys _⟩
    · right
      refine ⟨?_, _, between, _, hrun.trans (bind_of_error (pushParam_of_error ht herror false)),
        hhands, Or.inl ⟨⟨⟨s, hs⟩, hnew⟩, rfl⟩⟩
      intro hsuits
      obtain ⟨-, ⟨s', byRef, hs', hparam⟩, -⟩ := Context.suits_append_singleton.mp hsuits
      rw [hs] at hs'
      cases hs'
      obtain ⟨type, hsome⟩ := Option.isSome_iff_exists.mp (htyped hs (by rw [hparam]; rfl))
      exact hnone byRef type (hkind.trans hparam) (htype.trans hsome)
  · right
    obtain ⟨e, now', hrun, hhands⟩ := enterParams_of_refused h htakes rest
    refine ⟨fun hsuits => ?_, e, now', done, hrun, hhands, Or.inr ⟨htakes, rfl⟩⟩
    obtain ⟨-, ⟨s, -, hs, -⟩, hnew⟩ := Context.suits_append_singleton.mp hsuits
    exact htakes ⟨⟨s, hs⟩, hnew⟩

/-- The function takes all the symbols, or the call ends at the first that does not suit. -/
theorem enterParams_cases (htyped : ctx.Typed) (h : ctx.Collecting now done)
    (args : List SymbolId) :
    (ctx.Suits (done ++ args) ∧ ∃ now', enterParams ctx.nextId args now = .ok () now' ∧
      ctx.Hands now' (done ++ args)) ∨
    ∃ e now' taken, enterParams ctx.nextId args now = .error e now' ∧ ctx.Hands now' taken ∧
      ctx.Cut (done ++ args) taken := by
  -- The induction is on what is still to come; `Collecting` carries what is done.
  induction args generalizing now done with
  | nil =>
    rw [List.append_nil]
    exact Or.inl ⟨h.suits, now, rfl, h.hands⟩
  | cons arg rest ih =>
    rcases enterParams_cons_cases htyped h rest with
      ⟨-, now', hrun, hnext⟩ | ⟨hunsuited, e, now', taken, hrun, hhands, htaken⟩
    · rw [hrun, List.append_cons]
      exact ih hnext
    · exact Or.inr ⟨e, now', taken, hrun, hhands, done, arg, rest, rfl, h.suits, hunsuited, htaken⟩

/-- The three ends of a call for a native function. -/
theorem addNativeFunc_cases (htyped : ctx.Typed) (name : String) (ret : TypeRef) (defaults : Nat)
    (body : HostFunc) (args : List SymbolId) :
    (args.length < defaults ∧ ∃ e, addNativeFunc name ret defaults body args ctx = .error e ctx) ∨
    (defaults ≤ args.length ∧ ctx.Suits args ∧ ∃ ctx',
      addNativeFunc name ret defaults body args ctx = .ok ctx.nextId ctx' ∧ ctx.Hands ctx' args) ∨
    (defaults ≤ args.length ∧ ∃ e ctx' taken,
      addNativeFunc name ret defaults body args ctx = .error e ctx' ∧ ctx.Hands ctx' taken ∧
      ctx.Cut args taken) := by
  unfold addNativeFunc
  dsimp only
  split
  · rename_i hlt
    exact Or.inl ⟨hlt, _, bind_of_error rfl⟩
  · rename_i hle
    have hle := Nat.le_of_not_lt hle
    -- The loop starts at a function that has no argument yet.
    have hstart := ctx.collecting_alloc
      { name, kind := .func { flavor := .native body, signature := { ret }, defaults } } rfl rfl
    rw [bind_of_ok (alloc_run _)]
    rcases enterParams_cases htyped hstart args with ⟨hsuits, ctx', hrun, hhands⟩ |
      ⟨e, ctx', taken, hrun, hhands, hcut⟩
    · exact Or.inr (Or.inl ⟨hle, hsuits, ctx', bind_of_ok hrun, hhands⟩)
    · exact Or.inr (Or.inr ⟨hle, e, ctx', taken, bind_of_error hrun, hhands, hcut⟩)

end SemaM

/-- A call for a native function in any reached context, with any list of symbols.

* It succeeds exactly if there are not more defaults than symbols, and the symbols are parameters
  with different names. The new function then owns them, and each has the slot that it had before
  or else its position.
* If it fails for its number of defaults, nothing has changed. If it fails later, the symbols before
  the first that does not suit, and this one if it could be a member, are owned by a function that
  nobody was given. Those that had no slot have their position in the refused list for ever.
* So a call that fails leaves the symbols that exist as they were exactly if it fails for its number
  of defaults, or already the first symbol does not exist. -/
theorem native_construction_exact {ctx : Context} (h : Reached (fun _ _ => True) ctx)
    (name : String) (ret : TypeRef) (defaults : Nat) (body : HostFunc) (args : List SymbolId) :
    let made := SemaM.addNativeFunc name ret defaults body args ctx
    ((∃ func ctx', made = .ok func ctx') ↔ defaults ≤ args.length ∧ ctx.Suits args) ∧
    (∀ func ctx', made = .ok func ctx' → func = ctx.nextId ∧ ctx.Hands ctx' args) ∧
    (∀ e ctx', made = .error e ctx' →
      (args.length < defaults ∧ ctx' = ctx ∨
        defaults ≤ args.length ∧ ∃ taken, ctx.Cut args taken ∧ ctx.Hands ctx' taken ∧
          ∀ i x s ops, taken[i]? = some x → ctx.arena.get? x = some s →
            s.kind.isSlotted = true → s.slot = none →
            ∃ t, (Op.runs ctx' ops).arena.get? x = some t ∧ t.slot = some i) ∧
      ((∀ x s, ctx.arena.get? x = some s → ctx'.arena.get? x = some s) ↔
        args.length < defaults ∨ ∀ first ∈ args.head?, ¬ctx.Exists first)) := by
  intro made
  -- Too many defaults, arguments that suit, arguments that do not: each settles all three
  -- statements.
  rcases SemaM.addNativeFunc_cases h.typed name ret defaults body args with
    ⟨hlt, e, hrun⟩ | ⟨hle, hsuits, ctx', hrun, hhands⟩ | ⟨hle, e, ctx', taken, hrun, hhands, hcut⟩
  · have hmade : made = .error e ctx := hrun
    rw [hmade]
    refine ⟨⟨?_, fun hboth => absurd hlt (Nat.not_lt.mpr hboth.1)⟩, ?_, ?_⟩
    · rintro ⟨func, ctx', heq⟩
      cases heq
    · rintro func ctx' heq
      cases heq
    · rintro e' ctx' heq
      cases heq
      exact ⟨Or.inl ⟨hlt, rfl⟩, fun _ => Or.inl hlt, fun _ _ _ hs => hs⟩
  · have hmade : made = .ok ctx.nextId ctx' := hrun
    rw [hmade]
    refine ⟨⟨fun _ => ⟨hle, hsuits⟩, fun _ => ⟨_, _, rfl⟩⟩, ?_, ?_⟩
    · rintro func ctx'' heq
      cases heq
      exact ⟨rfl, hhands⟩
    · rintro e' ctx'' heq
      cases heq
  · have hmade : made = .error e ctx' := hrun
    rw [hmade]
    refine ⟨⟨?_, fun hboth => absurd hboth.2 hcut.not_suits⟩, ?_, ?_⟩
    · rintro ⟨func, ctx'', heq⟩
      cases heq
    · rintro func ctx'' heq
      cases heq
    · rintro e' ctx'' heq
      cases heq
      refine ⟨Or.inr ⟨hle, taken, hcut, hhands, fun i x s ops hi hs hslotted hfree =>
        hhands.slot_lasts hi hs hslotted hfree ops⟩, ?_⟩
      rw [hhands.unchanged_iff h.rooted h.sound h.owned fun x hx => hcut.exists hx, hcut.eq_nil_iff]
      exact (or_iff_right (Nat.not_lt.mpr hle)).symm

/-- Two parameters of one name, and a third one. -/
def looseParamsRun : List Op :=
  let int : TypeRef := { name := "int", slot := ⟨0⟩ }
  [.addParam "x" int false none, .addParam "x" int false none, .addParam "y" int false none]

/-- A call for a native function of these. -/
def nativeOf (args : List SymbolId) : SemaM SymbolId :=
  SemaM.addNativeFunc "f" { name := "void", slot := ⟨2⟩ } 0 (fun _ => pure .done) args

/-- What `looseParamsRun` and the attempts after it leave, by running them. -/
theorem looseParamsRun_facts :
    let ctx := Op.runs .initial looseParamsRun
    let refused := SemaM.after (nativeOf [⟨85⟩, ⟨86⟩]) ctx
    let slotOf (ctx : Context) := (ctx.arena.get? ⟨85⟩).map (·.slot)
    Op.AllAllowed (fun _ _ => True) .initial looseParamsRun ∧
    (nativeOf [⟨85⟩]).run' ctx = some ⟨88⟩ ∧
    SemaM.failure? (nativeOf [⟨85⟩, ⟨86⟩]) ctx = some (.duplicateSymbol "x(?)" "x") ∧
    ctx.owner? ⟨85⟩ = none ∧ slotOf ctx = some none ∧
    refused.owner? ⟨85⟩ = some ⟨88⟩ ∧ slotOf refused = some (some 0) ∧
    (nativeOf [⟨87⟩, ⟨85⟩]).run' ctx = some ⟨88⟩ ∧
    slotOf (SemaM.after (nativeOf [⟨87⟩, ⟨85⟩]) ctx) = some (some 1) ∧
    (nativeOf [⟨87⟩, ⟨85⟩]).run' refused = some ⟨89⟩ ∧
    slotOf (SemaM.after (nativeOf [⟨87⟩, ⟨85⟩]) refused) = some (some 0) := by
  decide +kernel

/-- The first two are refused, since they have one name. The first has a slot from then on. -/
theorem native_construction_exact_looseParamsRun :
    let ctx := Op.runs .initial looseParamsRun
    Reached (fun _ _ => True) ctx ∧ ctx.Suits [⟨87⟩, ⟨85⟩] ∧ ¬ctx.Suits [⟨85⟩, ⟨86⟩] ∧
    (∃ ctx', nativeOf [⟨87⟩, ⟨85⟩] ctx = .ok ctx.nextId ctx' ∧ ctx.Hands ctx' [⟨87⟩, ⟨85⟩]) ∧
    ∃ ctx', nativeOf [⟨85⟩, ⟨86⟩] ctx = .error (.duplicateSymbol "x(?)" "x") ctx' ∧
      ¬(∀ x s, ctx.arena.get? x = some s → ctx'.arena.get? x = some s) ∧
      ∀ ops, ∃ t, (Op.runs ctx' ops).arena.get? ⟨85⟩ = some t ∧ t.slot = some 0 := by
  intro ctx
  obtain ⟨hallowed, hone, hfails, -, hfirst, -, -, htwo, -⟩ := looseParamsRun_facts
  have hreached : Reached (fun _ _ => True) ctx := Reached.initial.runs hallowed
  have hexact (args : List SymbolId) := native_construction_exact hreached "f"
    { name := "void", slot := ⟨2⟩ } 0 (fun _ => pure .done) args
  obtain ⟨s, hs, hfree⟩ := Option.map_eq_some_iff.mp hfirst
  have hone := SemaM.eq_ok_of_run' hone
  have htwo := SemaM.eq_ok_of_run' htwo
  obtain ⟨ctx', hfails⟩ := SemaM.failure?_eq_some_iff.mp hfails
  have hsuits : ctx.Suits [⟨85⟩] := ((hexact _).1.mp ⟨_, _, hone⟩).2
  have hslotted : s.kind.isSlotted = true := by
    obtain ⟨s', byRef, hs', hk⟩ := hsuits.params ⟨85⟩ List.mem_cons_self
    rw [hs] at hs'
    cases hs'
    rw [hk]
    rfl
  have hunsuited : ¬ctx.Suits [⟨85⟩, ⟨86⟩] := by
    intro hsuits
    obtain ⟨func, ctx'', hrun⟩ := (hexact [⟨85⟩, ⟨86⟩]).1.mpr ⟨Nat.zero_le _, hsuits⟩
    cases hrun.symm.trans hfails
  obtain ⟨hfunc, hhands⟩ := (hexact [⟨87⟩, ⟨85⟩]).2.1 _ _ htwo
  obtain ⟨hleft, hunchanged⟩ := (hexact [⟨85⟩, ⟨86⟩]).2.2 _ _ hfails
  refine ⟨hreached, ((hexact _).1.mp ⟨_, _, htwo⟩).2, hunsuited, ⟨_, hfunc ▸ htwo, hhands⟩, ctx',
    hfails, ?_, ?_⟩
  · intro hsame
    rcases hunchanged.mp hsame with hlt | hmissing
    · cases hlt
    · exact hmissing ⟨85⟩ rfl ⟨s, hs⟩
  · intro ops
    rcases hleft with ⟨hlt, -⟩ | ⟨-, taken, ⟨good, bad, rest, hargs, -, hbad, htaken⟩, -, hlasts⟩
    · cases hlt
    · refine hlasts 0 ⟨85⟩ s ops ?_ hs hslotted hfree
      cases good with
      | nil =>
        -- The first symbol suits, so it is not the one that ends the call.
        cases hargs
        exact absurd hsuits hbad
      | cons first good =>
        obtain ⟨rfl, -⟩ := List.cons.inj hargs
        rcases htaken with ⟨-, rfl⟩ | ⟨-, rfl⟩
        · rfl
        · rfl

/-- A call fails, and afterwards its first argument has an owner and a slot, which it had not. So a
second call, which succeeds, does not give it the slot that it would have got otherwise. -/
theorem refused_arguments_keep_their_slots :
    let ctx := Op.runs .initial looseParamsRun
    let refused := SemaM.after (nativeOf [⟨85⟩, ⟨86⟩]) ctx
    let slotOf (ctx : Context) := (ctx.arena.get? ⟨85⟩).map (·.slot)
    SemaM.failure? (nativeOf [⟨85⟩, ⟨86⟩]) ctx = some (.duplicateSymbol "x(?)" "x") ∧
    ctx.owner? ⟨85⟩ = none ∧ slotOf ctx = some none ∧
    refused.owner? ⟨85⟩ = some ⟨88⟩ ∧ slotOf refused = some (some 0) ∧
    (nativeOf [⟨87⟩, ⟨85⟩]).run' ctx = some ⟨88⟩ ∧
    slotOf (SemaM.after (nativeOf [⟨87⟩, ⟨85⟩]) ctx) = some (some 1) ∧
    (nativeOf [⟨87⟩, ⟨85⟩]).run' refused = some ⟨89⟩ ∧
    slotOf (SemaM.after (nativeOf [⟨87⟩, ⟨85⟩]) refused) = some (some 0) := by
  obtain ⟨-, -, hrest⟩ := looseParamsRun_facts
  exact hrest

end Sema

import Sema.Proofs.Outward

/-!
# `Sema.Proofs.Ownership`: a symbol stands in the scope that owns it

A scope notes its members, and a member notes the scope that owns it and its slot there. The two
sides are written in separate steps, and a class that inherits has members that another class owns.
`Context.Owned` holds in every reached state: whatever is a member somewhere is a member of its
owner, only kinds that have slots get one, and the variables that a block has noted are members of
the function around the block.

In a run that defines every symbol once, a symbol is a member of several scopes only by inheritance
(`Context.HeldOnce`). As a function does not inherit, the owner of a block's variable is the
function. Together with `Reached.aligned`, which makes slots positions, this gives
`slots_are_positions`: a slot is the position of the symbol among the members of its owner.
-/

set_option autoImplicit false

namespace Sema

/-- The variables that a block has noted. -/
def SymbolKind.vars : SymbolKind → List SymbolId
  | .block b => b.vars
  | _ => []

/-- The notes of a block only grow at the end. -/
theorem SymbolKind.Grows.vars {a b : SymbolKind} (h : a.Grows b) : a.vars <+: b.vars := by
  cases h with
  | same => exact List.prefix_rfl
  | classDecl => exact List.prefix_rfl
  | func => exact List.prefix_rfl
  | block _ _ hv => exact hv

namespace Symbol

variable (s : Symbol)

/-- A parameter of the signature is no note of a block. -/
theorem vars_withParam (type : TypeRef) (hasDefault : Bool) :
    (s.withParam type hasDefault).kind.vars = s.kind.vars := by
  unfold withParam
  split
  · rename_i info hk
    rw [hk]
    rfl
  · rfl

/-- A capture is no note of a block. -/
theorem vars_withCapture (c : Capture) : (s.withCapture c).kind.vars = s.kind.vars := by
  unfold withCapture
  split
  · rename_i info hk
    split
    · rw [hk]
      rfl
    · rfl
  · rfl

/-- The creator of a class is no note of a block. -/
theorem vars_withCreator (make : Option Creator) :
    (s.withCreator make).kind.vars = s.kind.vars := by
  unfold withCreator
  split
  · rename_i info hk
    rw [hk]
    rfl
  · rfl

/-- A block that notes a variable gains no other note. -/
theorem mem_vars_withBlockVar {s : Symbol} {var x : SymbolId}
    (h : x ∈ (s.withBlockVar var).kind.vars) : x ∈ s.kind.vars ∨ x = var := by
  unfold withBlockVar at h
  split at h
  · rename_i b hk
    rw [hk]
    rcases List.mem_append.mp h with h | h
    · exact Or.inl h
    · exact Or.inr (List.mem_singleton.mp h)
  · exact Or.inl h

end Symbol

namespace Context

variable {a b ctx : Context}

/-- The symbol is a variable that the block has noted. -/
def Notes (ctx : Context) (block x : SymbolId) : Prop :=
  ∃ o, ctx.arena.get? block = some o ∧ x ∈ o.kind.vars

/-- A scope never loses a member. -/
theorem Grows.holds (h : a.Grows b) {p x : SymbolId} (hp : a.Holds p x) : b.Holds p x := by
  obtain ⟨i, name, hat⟩ := hp
  exact ⟨i, name, h.at hat⟩

/-- A block never loses a note. -/
theorem Grows.notes (h : a.Grows b) {block x : SymbolId} (hx : a.Notes block x) :
    b.Notes block x := by
  obtain ⟨o, ho, hmem⟩ := hx
  obtain ⟨o', ho', hoo⟩ := h.symbols block o ho
  exact ⟨o', ho', hoo.kind.vars.subset hmem⟩

/-- What is noted after an update was noted before, if the update does not change the notes. -/
theorem notes_update {id block x : SymbolId} {f : Symbol → Symbol}
    (hx : (ctx.update id f).Notes block x) (h : ∀ s : Symbol, (f s).kind.vars = s.kind.vars) :
    ctx.Notes block x := by
  obtain ⟨o, ho, hmem⟩ := hx
  rw [get?_update] at ho
  split at ho
  · obtain ⟨s, hs, rfl⟩ := Option.map_eq_some_iff.mp ho
    exact ⟨s, hs, h s ▸ hmem⟩
  · exact ⟨o, ho, hmem⟩

/-- A new symbol without notes adds none. -/
theorem notes_alloc {s : Symbol} {block x : SymbolId} (hvars : s.kind.vars = [])
    (hx : ((Edit.alloc s).write ctx).Notes block x) : ctx.Notes block x := by
  obtain ⟨o, ho, hmem⟩ := hx
  rw [get?_alloc] at ho
  split at ho
  · cases ho
    rw [hvars] at hmem
    cases hmem
  · exact ⟨o, ho, hmem⟩

/-- A new member is not a note. -/
theorem notes_withMember {scope sym block x : SymbolId}
    (hx : (ctx.withMember scope sym).Notes block x) : ctx.Notes block x := by
  unfold withMember at hx
  split at hx
  · split at hx
    · exact notes_update (notes_update hx fun _ => rfl) fun _ => rfl
    · exact hx
  · exact hx

/-- Members and their owners agree. -/
structure Owned (ctx : Context) : Prop where
  /-- Whatever is a member somewhere is a member of its owner. -/
  held : ∀ {p x}, ctx.Holds p x → ∃ q, ctx.owner? x = some q ∧ ctx.Holds q x
  /-- Only kinds that have slots get one. -/
  slotted : ∀ {x l i}, ctx.layout? x = some l → l.slot = some i → l.slotted = true

/-- Blocks and the functions around them agree. -/
structure Framed (ctx : Context) : Prop where
  /-- Around a block there is a function. -/
  func : ∀ {block p}, ctx.frame? block = some p →
    ∃ f info, ctx.arena.get? p = some f ∧ f.kind = .func info
  /-- The variables of a block are members of the function around it. -/
  noted : ∀ {block x}, ctx.Notes block x → ∃ p, ctx.frame? block = some p ∧ ctx.Holds p x

/-- Every member exists. -/
theorem Sound.exists_of_holds (h : ctx.Sound) {p x : SymbolId} (hp : ctx.Holds p x) :
    ctx.Exists x := by
  obtain ⟨i, name, hat⟩ := hp
  obtain ⟨l, hl, -⟩ := h.named hat
  obtain ⟨s, hs, -⟩ := Option.map_eq_some_iff.mp hl
  exact ⟨s, hs⟩

/-- The owners after an entry: the scope owns the symbol, and all else is owned as before. -/
theorem owner?_enter {scope sym : SymbolId} {s o : Symbol} (hs : ctx.arena.get? sym = some s)
    (ho : ctx.arena.get? scope = some o) (hnew : s.name ∉ o.members.keys) (x : SymbolId) :
    ((Edit.enter scope sym).write ctx).owner? x = if x = sym then some scope else ctx.owner? x := by
  obtain ⟨members, -, hget⟩ := get?_enter hs ho hnew
  unfold owner?
  rw [hget x]
  -- Only the symbol gets an owner; the scope gets a member.
  by_cases hx : x = sym
  · subst hx
    simp [hs, Symbol.enteredAt]
  · by_cases hscope : x = scope
    · subst hscope
      simp [hx, ho]
    · simp [hx, hscope]

/-- Ownership is read off layouts and owners. -/
theorem Owned.congr (h : a.Owned) (hlayout : b.layout? = a.layout?) (howner : b.owner? = a.owner?) :
    b.Owned := by
  have hholds : ∀ {p x}, b.Holds p x ↔ a.Holds p x :=
    exists_congr fun _ => exists_congr fun _ => at_congr hlayout
  refine ⟨fun hp => ?_, fun hl hi => ?_⟩
  · obtain ⟨q, hq, hqx⟩ := h.held (hholds.mp hp)
    exact ⟨q, howner ▸ hq, hholds.mpr hqx⟩
  · rw [hlayout] at hl
    exact h.slotted hl hi

/-- A new symbol is a member of nothing yet, so members and owners stay as they are. -/
theorem Owned.alloc (h : ctx.Owned) (hsound : ctx.Sound) {s : Symbol} (hslot : s.slot = none)
    (hmembers : ∀ i name x, s.members.entries[i]? = some (name, x) → ∃ p, ctx.At p i name x) :
    ((Edit.alloc s).write ctx).Owned := by
  refine ⟨fun {p x} hp => ?_, fun {x l i} hl hi => ?_⟩
  · obtain ⟨i, name, hat⟩ := hp
    have hold : ∃ p, ctx.Holds p x := by
      -- What a new class inherits is held by its super class already.
      rcases at_alloc.mp hat with ⟨-, hi⟩ | hat
      · obtain ⟨p, hp⟩ := hmembers i name x hi
        exact ⟨p, i, name, hp⟩
      · exact ⟨p, i, name, hat⟩
    obtain ⟨p', hp'⟩ := hold
    obtain ⟨q, hq, hqx⟩ := h.held hp'
    obtain ⟨t, ht⟩ := hsound.exists_of_holds hp'
    refine ⟨q, ?_, (ctx.grows_alloc s).holds hqx⟩
    rw [owner?_alloc, if_neg (ne_nextId ht)]
    exact hq
  · unfold layout? at hl
    rw [get?_alloc] at hl
    split at hl
    · cases hl
      -- The new symbol has no slot.
      rw [Symbol.layout, hslot] at hi
      cases hi
    · exact h.slotted hl hi

/-- A symbol that is entered is a member of its new owner, and gets a slot if its kind has one. -/
theorem Owned.enter (h : ctx.Owned) {scope sym : SymbolId} {s o : Symbol}
    (hs : ctx.arena.get? sym = some s) (ho : ctx.arena.get? scope = some o)
    (hnew : s.name ∉ o.members.keys) : ((Edit.enter scope sym).write ctx).Owned := by
  refine ⟨fun {p x} hp => ?_, fun {x l i} hl hi => ?_⟩
  · by_cases hx : x = sym
    · subst hx
      refine ⟨scope, ?_, o.members.size, s.name, ?_⟩
      · rw [owner?_enter hs ho hnew, if_pos rfl]
      · exact (at_enter hs ho hnew).mpr (Or.inr ⟨rfl, rfl, rfl, rfl⟩)
    · obtain ⟨i, name, hat⟩ := hp
      rcases (at_enter hs ho hnew).mp hat with hat | ⟨-, -, -, rfl⟩
      · obtain ⟨q, hq, hqx⟩ := h.held ⟨i, name, hat⟩
        refine ⟨q, ?_, (grows_enter hs ho hnew).holds hqx⟩
        rw [owner?_enter hs ho hnew, if_neg hx]
        exact hq
      · exact absurd rfl hx
  · by_cases hx : x = sym
    · subst hx
      obtain ⟨s', hs', -, hkind, -, -, hslot⟩ := get?_enter_sym hs ho hnew
      rw [layout?_of_get? hs'] at hl
      cases hl
      show s'.kind.isSlotted = true
      have hi : s'.slot = some i := hi
      rw [hkind]
      cases hslotted : s.kind.isSlotted with
      | true => rfl
      | false =>
        -- The kind has no slots, so the slot would be an old one.
        rw [hslot, hslotted] at hi
        rw [← hslotted]
        exact h.slotted (layout?_of_get? hs) hi
    · obtain ⟨l₀, hl₀, hslot, hslotted⟩ := layout?_enter_of_ne hs ho hnew hx hl
      rw [hslotted]
      exact h.slotted hl₀ (hslot ▸ hi)

/-- The bare context has nothing to own. -/
theorem bare_owned : bare.Owned := by
  refine ⟨fun hp => ?_, fun hl hi => ?_⟩
  · obtain ⟨i, name, o, ho, hat⟩ := hp
    rw [eq_of_get?_bare ho] at hat
    cases hat
  · obtain ⟨s, hs, rfl⟩ := Option.map_eq_some_iff.mp hl
    rw [eq_of_get?_bare hs] at hi
    cases hi

/-- The bare context has no blocks. -/
theorem bare_framed : bare.Framed := by
  refine ⟨fun hp => ?_, fun hx => ?_⟩
  · obtain ⟨s, hs, hp⟩ := Option.bind_eq_some_iff.mp hp
    rw [eq_of_get?_bare hs] at hp
    cases hp
  · obtain ⟨o, ho, hmem⟩ := hx
    rw [eq_of_get?_bare ho] at hmem
    cases hmem

end Context

namespace Edit

variable {rules : Rules} {ctx : Context} {e : Edit}

/-- Of the quiet edits only a new symbol and a new member touch what is owned. -/
theorem Quiet.owned (he : Quiet rules ctx e) (hsound : ctx.Sound) (h : ctx.Owned) :
    (e.write ctx).Owned := by
  cases he with
  | alloc hb => exact h.alloc hsound hb.slot (by simp [hb.members, Assoc.empty])
  | enter hs ho hnew => exact h.enter hs ho hnew
  | nest =>
    refine h.congr ?_ ?_
    · exact (Context.layout?_update fun s => s.layout_withBlockVar _).trans
        (Context.layout?_update fun _ => rfl)
    · exact (Context.owner?_update fun s => s.scope_withBlockVar _).trans
        (Context.owner?_update fun _ => rfl)
  | param =>
    exact h.congr (Context.layout?_update fun s => s.layout_withParam _ _)
      (Context.owner?_update fun s => s.scope_withParam _ _)
  | creator =>
    exact h.congr (Context.layout?_update fun s => s.layout_withCreator _)
      (Context.owner?_update fun s => s.scope_withCreator _)
  | hide => exact h.congr (Context.layout?_update fun _ => rfl) (Context.owner?_update fun _ => rfl)
  | newSlot => exact h.congr rfl rfl
  | fill => exact h.congr rfl rfl
  | link =>
    -- A scope can be linked only once.
    simp only [Edit.write]
    split
    · exact h
    · exact h.congr rfl rfl

/-- Every edit keeps members with their owners. -/
theorem Fits.owned (he : Fits rules ctx e) (hsound : ctx.Sound) (h : ctx.Owned) :
    (e.write ctx).Owned := by
  cases he with
  | inherit ho => exact h.alloc hsound rfl fun i name x hi => ⟨_, _, ho, hi⟩
  | plain he =>
    cases he with
    | quiet he => exact he.owned hsound h
    | keep => exact h.congr rfl rfl
    | storage => exact h.congr rfl rfl
  | nested he =>
    cases he with
    | lambda => exact h.alloc hsound rfl (by simp [Assoc.empty])
    | copy => exact h.alloc hsound rfl (by simp [Assoc.empty, Symbol.captured])
    | capture hs _ _ hc ho _ hnew =>
      exact (h.enter hc ho hnew).congr (Context.layout?_update fun s => s.layout_withCapture _)
        (Context.owner?_update fun s => s.scope_withCapture _)
    | quiet he => exact he.owned hsound h

/-- A block notes only variables that are members of the function around it. -/
theorem Quiet.notes (he : Quiet rules ctx e) {block x : SymbolId}
    (hx : (e.write ctx).Notes block x) :
    ctx.Notes block x ∨ ∃ p, ctx.frame? block = some p ∧ ctx.Holds p x := by
  cases he with
  | @alloc s hb =>
    refine Or.inl (Context.notes_alloc ?_ hx)
    have hkind := hb.kind
    cases hk : s.kind with
    | block b =>
      rw [hk] at hkind
      exact hkind.1
    | _ => rfl
  | enter => exact Or.inl (Context.notes_withMember hx)
  | @nest block' sym s o f b hs ho hb hf hmem =>
    obtain ⟨o', ho', hvars⟩ := hx
    rw [Edit.write, Context.get?_update] at ho'
    split at ho'
    · rename_i hblock
      subst hblock
      obtain ⟨t, ht, rfl⟩ := Option.map_eq_some_iff.mp ho'
      rcases Symbol.mem_vars_withBlockVar hvars with hold | rfl
      · exact Or.inl (Context.notes_update ⟨t, ht, hold⟩ fun _ => rfl)
      · -- The variable that is noted here is a member of the function already.
        obtain ⟨i, hi⟩ := List.mem_iff_getElem?.mp hmem
        refine Or.inr ⟨b.func, ?_, i, s.name, f, hf, hi⟩
        rw [Context.frame?_of_get? ho, hb]
        rfl
    · exact Or.inl (Context.notes_update ⟨o', ho', hvars⟩ fun _ => rfl)
  | param => exact Or.inl (Context.notes_update hx fun s => s.vars_withParam _ _)
  | creator => exact Or.inl (Context.notes_update hx fun s => s.vars_withCreator _)
  | hide => exact Or.inl (Context.notes_update hx fun _ => rfl)
  | newSlot => exact Or.inl hx
  | fill => exact Or.inl hx
  | link =>
    simp only [Edit.write] at hx
    split at hx
    · exact Or.inl hx
    · exact Or.inl hx

/-- What a block notes after an edit it noted before, or it is a member of the block's function. -/
theorem Fits.notes (he : Fits rules ctx e) {block x : SymbolId}
    (hx : (e.write ctx).Notes block x) :
    ctx.Notes block x ∨ ∃ p, ctx.frame? block = some p ∧ ctx.Holds p x := by
  cases he with
  | inherit => exact Or.inl (Context.notes_alloc rfl hx)
  | plain he =>
    cases he with
    | quiet he => exact he.notes hx
    | keep => exact Or.inl hx
    | storage => exact Or.inl hx
  | nested he =>
    cases he with
    | lambda => exact Or.inl (Context.notes_alloc rfl hx)
    | copy => exact Or.inl (Context.notes_alloc rfl hx)
    | capture =>
      have hmember := Context.notes_update hx fun s => s.vars_withCapture _
      exact Or.inl (Context.notes_withMember hmember)
    | quiet he => exact he.notes hx

/-- Every edit keeps blocks inside functions that hold what the blocks note. -/
theorem Fits.framed (he : Fits rules ctx e) (h : ctx.Framed) : (e.write ctx).Framed := by
  refine ⟨fun hp => ?_, fun {block x} hx => ?_⟩
  · refine he.grows.isFunc (he.frame (F := fun p => ∃ f info, ctx.arena.get? p = some f ∧
      f.kind = .func info) (fun _ s info hs hk => ⟨s, info, hs, hk⟩) (fun _ _ => h.func) hp)
  · have hold : ∃ p, ctx.frame? block = some p ∧ ctx.Holds p x := by
      rcases he.notes hx with hx | hx
      · exact h.noted hx
      · exact hx
    obtain ⟨p, hp, hpx⟩ := hold
    exact ⟨p, he.grows.frame? hp, he.grows.holds hpx⟩

end Edit

namespace Reached

variable {allowed : Context → Op → Prop} {ctx : Context}

/-- Members are with their owners in every state that is reached. -/
theorem owned (h : Reached allowed ctx) : ctx.Owned := by
  have hboth : ctx.Sound ∧ ctx.Owned :=
    h.edits_free.preserves (I := fun c => c.Sound ∧ c.Owned)
      (fun _ _ he hc => ⟨he.sound hc.1, he.owned hc.1 hc.2⟩)
      ⟨Context.bare_sound, Context.bare_owned⟩
  exact hboth.2

/-- Blocks are inside functions in every state that is reached. -/
theorem framed (h : Reached allowed ctx) : ctx.Framed :=
  h.edits_free.preserves (fun _ _ he => he.framed) Context.bare_framed

end Reached

/-! ### Symbols that are defined once -/

namespace Context

variable {ctx : Context} {op : Op}

/-- The symbol under an id is a class. -/
def IsClass (ctx : Context) (id : SymbolId) : Prop :=
  ∃ s info, ctx.arena.get? id = some s ∧ s.kind = .classDecl info

/-- A class stays a class. -/
theorem Grows.isClass {a b : Context} (h : a.Grows b) {id : SymbolId} (hc : a.IsClass id) :
    b.IsClass id := by
  obtain ⟨s, info, hs, hk⟩ := hc
  obtain ⟨t, ht, hst⟩ := h.symbols id s hs
  obtain ⟨info', hk', -⟩ := hst.kind.of_classDecl hk
  exact ⟨t, info', ht, hk'⟩

/-- A symbol is a member of several scopes only by inheritance. -/
def HeldOnce (ctx : Context) : Prop :=
  ∀ ⦃p q x⦄, ctx.Holds p x → ctx.Holds q x → p = q ∨ (ctx.IsClass p ∧ ctx.IsClass q)

/-- What is a member after a call was defined by it, or was a member of the scope before, or of the
class from which the scope inherits. -/
theorem holds_next (hdescends : (op.next ctx).Descends) {p x : SymbolId}
    (hp : (op.next ctx).Holds p x) :
    op.Defines ctx p x ∨ ∃ p₀, ctx.Holds p₀ x ∧
      (p₀ = p ∨ ((op.next ctx).IsClass p₀ ∧ (op.next ctx).IsClass p)) := by
  by_cases hheld : ctx.Holds p x
  · exact Or.inr ⟨p, hheld, Or.inl rfl⟩
  by_cases hinherits : ctx.arena.get? p = none → (op.next ctx).superClass? p = none
  · exact Or.inl ⟨hp, hheld, hinherits⟩
  · -- The scope is a new class, whose members are those of its super class.
    obtain ⟨hfresh, hsome⟩ := Classical.not_imp.mp hinherits
    obtain ⟨parent, hsuper⟩ := Option.ne_none_iff_exists'.mp hsome
    obtain ⟨q, o, hq, -, ho, hm⟩ := Op.startsFrom hfresh hsuper
    obtain ⟨i, name, o', ho', hi⟩ := hp
    rw [ho] at ho'
    cases ho'
    obtain ⟨-, hparent⟩ := hdescends hsuper
    obtain ⟨info, hk⟩ := exists_class_of_superClass? hsuper ho
    exact Or.inr ⟨parent, ⟨i, name, q, hq, hm ▸ hi⟩, Or.inr ⟨hparent, o, info, ho, hk⟩⟩

/-- A call that defines symbols once adds no second scope but by inheritance. -/
theorem HeldOnce.next (h : ctx.HeldOnce) (hdescends : (op.next ctx).Descends)
    (honce : op.DefinesOnce ctx) : (op.next ctx).HeldOnce := by
  intro p q x hp hq
  rcases holds_next hdescends hp with hp | ⟨p₀, hp₀, hp⟩
  · obtain ⟨hnone, huniq⟩ := honce p x hp
    rcases holds_next hdescends hq with hq | ⟨q₀, hq₀, -⟩
    · exact Or.inl (huniq q hq).symm
    · exact absurd hq₀ (hnone q₀)
  rcases holds_next hdescends hq with hq | ⟨q₀, hq₀, hq⟩
  · exact absurd hp₀ ((honce q x hq).1 p₀)
  -- Both stood in a scope before. Two different ones were classes, and so is what inherits.
  have hold : p₀ = q₀ ∨ ((op.next ctx).IsClass p₀ ∧ (op.next ctx).IsClass q₀) := by
    rcases h hp₀ hq₀ with heq | ⟨hpc, hqc⟩
    · exact Or.inl heq
    · exact Or.inr ⟨(op.grows ctx).isClass hpc, (op.grows ctx).isClass hqc⟩
  grind

/-- No symbol is in two scopes at the start. -/
theorem initial_heldOnce : initial.HeldOnce := by
  have hnodup : (initial.memberships.map Prod.snd).Nodup := by decide +kernel
  intro p q x hp hq
  have heq := List.inj_on_of_nodup_map hnodup (mem_memberships_iff.mpr hp)
    (mem_memberships_iff.mpr hq) rfl
  exact Or.inl (congrArg Prod.fst heq)

end Context

/-- When every call defines once, no symbol gets into two scopes, inheritance apart. -/
theorem Reached.heldOnce {allowed : Context → Op → Prop} {ctx : Context}
    (hallowed : ∀ ctx op, allowed ctx op → op.DefinesOnce ctx) (h : Reached allowed ctx) :
    ctx.HeldOnce := by
  induction h with
  | initial => exact Context.initial_heldOnce
  | step op h hop ih => exact ih.next (h.step op hop).descends (hallowed _ _ hop)

/-- A slot is a position in some scope. If slots are the positions in all scopes, it is the position
in the owner. -/
theorem Context.Owned.at_slot {ctx : Context} (h : ctx.Owned) (hsound : ctx.Sound)
    (haligned : ctx.Aligned) {x : SymbolId} {s : Symbol} {i : Nat}
    (hs : ctx.arena.get? x = some s) (hi : s.slot = some i) :
    ∃ p, s.scope = some p ∧ ctx.At p i s.name x := by
  have hl := layout?_of_get? hs
  obtain ⟨p, name, hat⟩ := hsound.placed hl hi
  -- It stands at that position somewhere, and the owner is one of those who hold it.
  obtain ⟨q, hq, j, m, hat'⟩ := h.held ⟨i, name, hat⟩
  have hslot : s.slot = some j := haligned hat' hl (h.slotted hl hi)
  obtain rfl : i = j := Option.some.inj (hi.symm.trans hslot)
  obtain ⟨l, hl', rfl⟩ := hsound.named hat'
  rw [hl] at hl'
  cases hl'
  rw [owner?_of_get? hs] at hq
  exact ⟨q, hq, hat'⟩

/-- The owner of a variable that a block has noted is the function around the block. -/
theorem Context.HeldOnce.owner_of_noted {ctx : Context} (h : ctx.HeldOnce) (howned : ctx.Owned)
    (hframed : ctx.Framed) {block x p : SymbolId} (hx : ctx.Notes block x)
    (hp : ctx.frame? block = some p) : ctx.owner? x = some p := by
  obtain ⟨p', hp', hpx⟩ := hframed.noted hx
  rw [hp] at hp'
  cases hp'
  obtain ⟨q, hq, hqx⟩ := howned.held hpx
  rcases h hpx hqx with rfl | ⟨⟨s, info, hs, hk⟩, -⟩
  · exact hq
  · -- A class is no function.
    obtain ⟨f, finfo, hf, hfk⟩ := hframed.func hp
    rw [hs] at hf
    cases hf
    rw [hk] at hfk
    cases hfk

/-- What is defined through a block is noted by the block. -/
theorem SemaM.notes_of_define {ctx ctx' : Context} {block sym : SymbolId} {o : Symbol}
    {b : BlockInfo} {u : Unit} (ho : ctx.arena.get? block = some o) (hb : o.kind = .block b)
    (h : SemaM.define block sym ctx = .ok u ctx') : ctx'.Notes block sym := by
  obtain ⟨owner, ctx₀, howner, hrest⟩ := bind_eq_ok h
  obtain ⟨-, rfl⟩ := query_eq_ok howner
  obtain ⟨_, ctx₁, hent, hrest⟩ := bind_eq_ok hrest
  obtain ⟨s, q, hs, hq, hnew, rfl⟩ := enter_eq_ok hent
  obtain ⟨s₁, hs₁, -⟩ := Context.get?_enter_sym hs hq hnew
  obtain ⟨o₁, ho₁, hoo⟩ := (Context.grows_enter hs hq hnew).symbols block o ho
  obtain ⟨b₁, hb₁, -⟩ := hoo.kind.of_block hb
  -- The symbol is in the frame now; what is left are its level and the note in the block.
  rw [bind_of_ok (symbol_run ho₁)] at hrest
  simp only [hb₁] at hrest
  rw [bind_of_ok (modifySymbol_run _ hs₁)] at hrest
  obtain ⟨o₂, ho₂, hoo₂⟩ := (Context.grows_update _ sym fun s => s.grows_level b₁.level).symbols
    block o₁ ho₁
  obtain ⟨b₂, hb₂, -⟩ := hoo₂.kind.of_block hb₁
  rw [modifySymbol_run _ ho₂] at hrest
  cases hrest
  refine ⟨o₂.withBlockVar sym, ?_, ?_⟩
  · rw [Context.get?_update, if_pos rfl, ho₂]
    rfl
  · simp [Symbol.withBlockVar, hb₂, SymbolKind.vars]

/-- Take a run in which every symbol is defined at most once. Then a slot is the position of the
symbol, under its own name, among the members of its owner, so two symbols of one owner have
different slots. A variable that is defined through a block is noted by the block from then on, and
the owner of what a block has noted is the function around the block. Every member of every scope
exists and has the name that it stands under. -/
theorem slots_are_positions {ctx : Context} (h : Reached (fun ctx op => op.DefinesOnce ctx) ctx) :
    (∀ x s i, ctx.arena.get? x = some s → s.slot = some i →
      ∃ p, s.scope = some p ∧ ctx.At p i s.name x) ∧
    (∀ x y s t p i, ctx.arena.get? x = some s → ctx.arena.get? y = some t → s.scope = some p →
      t.scope = some p → s.slot = some i → t.slot = some i → x = y) ∧
    (∀ block o b x, ctx.arena.get? block = some o → o.kind = .block b →
      (∀ u ctx' ops, SemaM.define block x ctx = .ok u ctx' → (Op.runs ctx' ops).Notes block x) ∧
      (ctx.Notes block x → ∃ s f info, ctx.arena.get? x = some s ∧ s.scope = some b.func ∧
        ctx.arena.get? b.func = some f ∧ f.kind = .func info)) ∧
    (∀ p i name x, ctx.At p i name x → ∃ s, ctx.arena.get? x = some s ∧ s.name = name) := by
  have haligned : ctx.Aligned := h.aligned fun _ _ hop => hop
  have hslots : ∀ x s i, ctx.arena.get? x = some s → s.slot = some i →
      ∃ p, s.scope = some p ∧ ctx.At p i s.name x :=
    fun _ _ _ => h.owned.at_slot h.sound haligned
  refine ⟨hslots, ?_, ?_, ?_⟩
  · intro x y s t p i hs ht hsp htp hsi hti
    -- Both stand at the same position of the same scope.
    obtain ⟨p', hp', hx⟩ := hslots x s i hs hsi
    obtain ⟨q', hq', hy⟩ := hslots y t i ht hti
    rw [hsp] at hp'
    rw [htp] at hq'
    cases hp'
    cases hq'
    obtain ⟨o, ho, hxi⟩ := hx
    obtain ⟨o', ho', hyi⟩ := hy
    rw [ho] at ho'
    cases ho'
    rw [hxi] at hyi
    exact (Prod.mk.inj (Option.some.inj hyi)).2
  · intro block o b x ho hb
    refine ⟨fun u ctx' ops hdefine => ?_, fun hx => ?_⟩
    · exact (Op.runs_grows ctx' ops).notes (SemaM.notes_of_define ho hb hdefine)
    have hframe : ctx.frame? block = some b.func := by
      rw [Context.frame?_of_get? ho, hb]
      rfl
    -- The variable is a member of the block's function, and of no other scope that could own it.
    have howner := (h.heldOnce fun _ _ hop => hop).owner_of_noted h.owned h.framed hx hframe
    obtain ⟨s, hs, hscope⟩ := Option.bind_eq_some_iff.mp howner
    obtain ⟨f, info, hf, hk⟩ := h.framed.func hframe
    exact ⟨s, f, info, hs, hscope, hf, hk⟩
  · intro p i name x hat
    obtain ⟨l, hl, hname⟩ := h.sound.named hat
    obtain ⟨s, hs, rfl⟩ := Option.map_eq_some_iff.mp hl
    exact ⟨s, hs, hname⟩

/-- A function with a variable that is defined through a block, a lambda that captures it, and a
class with a field and with a class below it. -/
def blockRun : List Op :=
  let type : TypeRef := { name := "int", slot := ⟨0⟩ }
  [.addScriptFunc "f" type none, .openBlock ⟨85⟩ none, .addVariable "v" type none,
    .define ⟨86⟩ ⟨87⟩, .addLambda "l" type [⟨85⟩] none, .lookup ⟨88⟩ "v",
    .addClass "Base" none .script none, .addField "a" type none, .define ⟨90⟩ ⟨91⟩,
    .addClass "Leaf" (some ⟨90⟩) .script none]

/-- The slots and the notes that `blockRun` leaves, by running it. -/
theorem blockRun_facts :
    Op.AllAllowed (fun ctx op => op.DefinesOnce ctx) .initial blockRun ∧
    ((Op.runs .initial blockRun).arena.get? ⟨87⟩).map (·.slot) = some (some 0) ∧
    ((Op.runs .initial blockRun).arena.get? ⟨89⟩).map (·.slot) = some (some 0) ∧
    ((Op.runs .initial blockRun).arena.get? ⟨91⟩).map (·.slot) = some (some 0) ∧
    ((Op.runs .initial blockRun).arena.get? ⟨86⟩).map (fun o => (o.kind.frame?, o.kind.vars))
      = some (some ⟨85⟩, [⟨87⟩]) := by
  decide +kernel

/-- The variable of the block, the copy in the lambda and the field, which the class below has as
well, stand in slot 0 of their owners. The owner of the variable is the function. -/
theorem slots_are_positions_blockRun :
    let ctx := Op.runs .initial blockRun
    Reached (fun ctx op => op.DefinesOnce ctx) ctx ∧
    (∀ x, x = ⟨87⟩ ∨ x = ⟨89⟩ ∨ x = ⟨91⟩ → ∃ s p, ctx.arena.get? x = some s ∧ s.slot = some 0 ∧
      s.scope = some p ∧ ctx.At p 0 s.name x) ∧
    ∃ s, ctx.Notes ⟨86⟩ ⟨87⟩ ∧ ctx.arena.get? ⟨87⟩ = some s ∧ s.scope = some ⟨85⟩ := by
  obtain ⟨hallowed, hv, hcopy, ha, hblock⟩ := blockRun_facts
  have hreached := Reached.initial.runs hallowed
  obtain ⟨hslots, -, hblocks, -⟩ := slots_are_positions hreached
  refine ⟨hreached, fun x hx => ?_, ?_⟩
  · have hslot : ((Op.runs .initial blockRun).arena.get? x).map (·.slot) = some (some 0) := by
      rcases hx with rfl | rfl | rfl
      · exact hv
      · exact hcopy
      · exact ha
    obtain ⟨s, hs, hslot⟩ := Option.map_eq_some_iff.mp hslot
    obtain ⟨p, hp, hat⟩ := hslots x s 0 hs hslot
    exact ⟨s, p, hs, hslot, hp, hat⟩
  · obtain ⟨o, ho, hkind⟩ := Option.map_eq_some_iff.mp hblock
    obtain ⟨hframe, hvars⟩ := Prod.mk.inj hkind
    -- Only a block has a frame, so the symbol under 86 is one.
    obtain ⟨b, hb, hfunc⟩ : ∃ b, o.kind = .block b ∧ b.func = ⟨85⟩ := by
      cases hk : o.kind with
      | block b =>
        rw [hk] at hframe
        exact ⟨b, rfl, Option.some.inj hframe⟩
      | _ =>
        rw [hk] at hframe
        cases hframe
    have hnotes : (Op.runs .initial blockRun).Notes ⟨86⟩ ⟨87⟩ :=
      ⟨o, ho, hvars ▸ List.mem_singleton.mpr rfl⟩
    obtain ⟨s, -, -, hs, hscope, -⟩ := (hblocks ⟨86⟩ o b ⟨87⟩ ho hb).2 hnotes
    exact ⟨s, hnotes, hs, hfunc ▸ hscope⟩

end Sema

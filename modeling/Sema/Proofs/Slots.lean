import Sema.Proofs.Run

/-!
# `Sema.Proofs.Slots`: slots are positions

A symbol gets its slot when it first becomes a member of a scope: its position there.
`Context.Sound` holds in every reached state. It says that members exist and stand under their own
names, that a member of a kind that has slots has one, and that a slot is a position of the symbol
in some scope.

That scope need not be the one that is asked about. A symbol that is defined twice keeps its first
slot and stands at another position in the second scope. `Op.DefinesOnce` rules this out: a symbol
is defined once it has become a member of a scope, also if the call that put it there failed later,
and a class that takes over the members of its super class does not define them. `Reached.aligned`
shows that then every slot is the position in every scope.
-/

set_option autoImplicit false

namespace Sema

/-- The part of a symbol that says where it stands and what stands in it. -/
structure Layout where
  name : String
  slotted : Bool
  slot : Option Nat
  members : List (String × SymbolId)

/-- A symbol read as what bears on positions and slots, without its kind's own data. -/
def Symbol.layout (s : Symbol) : Layout where
  name := s.name
  slotted := s.kind.isSlotted
  slot := s.slot
  members := s.members.entries

namespace Symbol

variable (s : Symbol)

/-- A parameter of the signature is no part of the layout. -/
theorem layout_withParam (type : TypeRef) (hasDefault : Bool) :
    (s.withParam type hasDefault).layout = s.layout := by
  unfold withParam
  split
  · rename_i info hk
    simp [layout, hk, SymbolKind.isSlotted]
  · rfl

/-- The note of a capture is no part of the layout. -/
theorem layout_withCapture (c : Capture) : (s.withCapture c).layout = s.layout := by
  unfold withCapture
  split
  · rename_i info hk
    split
    · simp [layout, hk, SymbolKind.isSlotted]
    · rfl
  · rfl

/-- The creator of a class is no part of the layout. -/
theorem layout_withCreator (make : Option Creator) : (s.withCreator make).layout = s.layout := by
  unfold withCreator
  split
  · rename_i info hk
    simp [layout, hk, SymbolKind.isSlotted]
  · rfl

/-- The notes of a block are no part of the layout. -/
theorem layout_withBlockVar (var : SymbolId) : (s.withBlockVar var).layout = s.layout := by
  unfold withBlockVar
  split
  · rename_i b hk
    simp [layout, hk, SymbolKind.isSlotted]
  · rfl

end Symbol

namespace Context

variable {a b ctx : Context}

/-- The layout of the symbol under an id. -/
def layout? (ctx : Context) (id : SymbolId) : Option Layout :=
  (ctx.arena.get? id).map Symbol.layout

/-- An update that keeps the layout of every symbol keeps all layouts. -/
theorem layout?_update {id : SymbolId} {f : Symbol → Symbol}
    (h : ∀ s : Symbol, (f s).layout = s.layout) : (ctx.update id f).layout? = ctx.layout? := by
  funext x
  exact ctx.map_get?_update id h x

/-- Positions are read off layouts. -/
theorem at_iff_layout? {scope x : SymbolId} {i : Nat} {name : String} :
    ctx.At scope i name x ↔ ∃ l, ctx.layout? scope = some l ∧ l.members[i]? = some (name, x) := by
  unfold At layout?
  constructor
  · rintro ⟨o, ho, hi⟩
    exact ⟨o.layout, by rw [ho]; rfl, hi⟩
  · rintro ⟨l, hl, hi⟩
    obtain ⟨o, ho, rfl⟩ := Option.map_eq_some_iff.mp hl
    exact ⟨o, ho, hi⟩

/-- Equal layouts have the same members at the same positions. -/
theorem at_congr (hab : b.layout? = a.layout?) {scope x : SymbolId} {i : Nat} {name : String} :
    b.At scope i name x ↔ a.At scope i name x := by
  rw [at_iff_layout?, at_iff_layout?, hab]

/-- Members and slots are in order. -/
structure Sound (ctx : Context) : Prop where
  /-- A member exists and stands under its own name. -/
  named : ∀ {scope i name x}, ctx.At scope i name x → ∃ l, ctx.layout? x = some l ∧ l.name = name
  /-- A member of a kind that has slots has one. -/
  slotted : ∀ {scope i name x l}, ctx.At scope i name x → ctx.layout? x = some l →
    l.slotted = true → ∃ j, l.slot = some j
  /-- A slot is a position in some scope. -/
  placed : ∀ {x l i}, ctx.layout? x = some l → l.slot = some i → ∃ scope name, ctx.At scope i name x

/-- Whether a context is sound depends on its layout only. -/
theorem Sound.congr (h : a.Sound) (hab : b.layout? = a.layout?) : b.Sound := by
  refine ⟨fun hm => ?_, fun hm hl hs => ?_, fun hl hs => ?_⟩
  · rw [hab]
    exact h.named ((at_congr hab).mp hm)
  · rw [hab] at hl
    exact h.slotted ((at_congr hab).mp hm) hl hs
  · rw [hab] at hl
    obtain ⟨scope, name, hm⟩ := h.placed hl hs
    exact ⟨scope, name, (at_congr hab).mpr hm⟩

/-- A symbol keeps its name, its need for a slot and the slot that it has. -/
theorem Grows.layout? (h : a.Grows b) {x : SymbolId} {l : Layout} (hl : a.layout? x = some l) :
    ∃ l', b.layout? x = some l' ∧ l'.name = l.name ∧ l'.slotted = l.slotted ∧
      ∀ j, l.slot = some j → l'.slot = some j := by
  obtain ⟨s, hs, rfl⟩ := Option.map_eq_some_iff.mp hl
  obtain ⟨t, ht, hst⟩ := h.symbols x s hs
  refine ⟨t.layout, ?_, hst.name, hst.kind.isSlotted, hst.slot⟩
  unfold Context.layout?
  rw [ht]
  rfl

/-- The members after an allocation: the old ones, and those that the new symbol brings. -/
theorem at_alloc {s : Symbol} {scope x : SymbolId} {i : Nat} {name : String} :
    ((Edit.alloc s).write ctx).At scope i name x ↔
      (scope = ctx.nextId ∧ s.members.entries[i]? = some (name, x)) ∨ ctx.At scope i name x := by
  unfold At
  rw [get?_alloc]
  by_cases h : scope = ctx.nextId
  · simp [h, get?_nextId]
  · simp [h]

/-- The members after an entry: the old ones, and the symbol at the end of its scope. -/
theorem at_enter {scope sym : SymbolId} {s o : Symbol} (hs : ctx.arena.get? sym = some s)
    (ho : ctx.arena.get? scope = some o) (hnew : s.name ∉ o.members.keys) {p x : SymbolId} {i : Nat}
    {name : String} :
    ((Edit.enter scope sym).write ctx).At p i name x ↔
      ctx.At p i name x ∨ (p = scope ∧ i = o.members.size ∧ name = s.name ∧ x = sym) := by
  obtain ⟨members, hentries, hget⟩ := get?_enter hs ho hnew
  by_cases hp : p = scope
  · subst hp
    obtain ⟨o', ho', -, hm'⟩ := get?_enter_scope hs ho hnew
    have hafter : ((Edit.enter p sym).write ctx).At p i name x ↔
        (o.members.entries ++ [(s.name, sym)])[i]? = some (name, x) := by
      unfold At
      rw [ho', ← hm']
      simp
    have hbefore : ctx.At p i name x ↔ o.members.entries[i]? = some (name, x) := by
      unfold At
      rw [ho]
      simp
    -- The position is an old one, the next one, or past the end.
    rw [hafter, hbefore, List.getElem?_append]
    by_cases hi : i < o.members.entries.length
    · have hne : i ≠ o.members.size := Nat.ne_of_lt hi
      simp [hi, hne]
    · have hnone : o.members.entries[i]? = none := List.getElem?_eq_none (Nat.not_lt.mp hi)
      rw [if_neg hi, hnone]
      by_cases he : i = o.members.size
      · have hz : i - o.members.entries.length = 0 := by rw [he]; exact Nat.sub_self _
        rw [hz]
        simp [he, eq_comm]
      · have hpos : i - o.members.entries.length ≠ 0 := by
          have hne : i ≠ o.members.entries.length := he
          omega
        simp [he, hpos]
  · -- Another scope keeps its members, also if it is the symbol itself.
    have hsame : ((Edit.enter scope sym).write ctx).At p i name x ↔ ctx.At p i name x := by
      unfold At
      rw [hget p]
      by_cases hq : p = sym
      · subst hq
        simp [hp, Symbol.enteredAt]
      · simp [hp, hq]
    rw [hsame]
    simp [hp]

/-- The layout under an id is that of the symbol there. -/
theorem layout?_of_get? {x : SymbolId} {s : Symbol} (hs : ctx.arena.get? x = some s) :
    ctx.layout? x = some s.layout := by
  rw [layout?, hs]
  rfl

/-- An entry gives a slot to no other symbol. -/
theorem layout?_enter_of_ne {scope sym : SymbolId} {s o : Symbol} (hs : ctx.arena.get? sym = some s)
    (ho : ctx.arena.get? scope = some o) (hnew : s.name ∉ o.members.keys) {x : SymbolId}
    {l : Layout} (hx : x ≠ sym) (hl : ((Edit.enter scope sym).write ctx).layout? x = some l) :
    ∃ l₀, ctx.layout? x = some l₀ ∧ l.slot = l₀.slot ∧ l.slotted = l₀.slotted := by
  obtain ⟨members, -, hget⟩ := get?_enter hs ho hnew
  obtain ⟨t', ht', rfl⟩ := Option.map_eq_some_iff.mp hl
  rw [hget x] at ht'
  obtain ⟨t, ht, rfl⟩ := Option.map_eq_some_iff.mp ht'
  refine ⟨t.layout, layout?_of_get? ht, ?_⟩
  by_cases hscope : x = scope
  · simp only [hscope, if_true, if_neg (hscope ▸ hx), Symbol.layout, and_self]
  · simp only [hscope, if_false, hx, and_self]

/-- A member still has its name after growth. -/
theorem Sound.named_grows (h : a.Sound) (hab : a.Grows b) {scope x : SymbolId} {i : Nat}
    {name : String} (hat : a.At scope i name x) : ∃ l, b.layout? x = some l ∧ l.name = name := by
  obtain ⟨l, hl, rfl⟩ := h.named hat
  obtain ⟨l', hl', hname, -⟩ := hab.layout? hl
  exact ⟨l', hl', hname⟩

/-- A member still has its slot after growth. -/
theorem Sound.slotted_grows (h : a.Sound) (hab : a.Grows b) {scope x : SymbolId} {i : Nat}
    {name : String} {l : Layout} (hat : a.At scope i name x) (hl : b.layout? x = some l)
    (hslotted : l.slotted = true) : ∃ j, l.slot = some j := by
  obtain ⟨l₀, hl₀, -⟩ := h.named hat
  obtain ⟨l', hl', -, hkeeps, hkeep⟩ := hab.layout? hl₀
  rw [hl'] at hl
  cases hl
  obtain ⟨j, hj⟩ := h.slotted hat hl₀ (hkeeps ▸ hslotted)
  exact ⟨j, hkeep j hj⟩

/-- An allocation keeps a context sound if the new symbol has no slot and brings only members that
stand at the same positions elsewhere. -/
theorem Sound.alloc (h : ctx.Sound) {s : Symbol} (hslot : s.slot = none)
    (hmembers : ∀ i name x, s.members.entries[i]? = some (name, x) → ∃ p, ctx.At p i name x) :
    ((Edit.alloc s).write ctx).Sound := by
  have hgrows := ctx.grows_alloc s
  -- What a class inherits stands at the same positions in its super class.
  have hold : ∀ {scope i name x}, ((Edit.alloc s).write ctx).At scope i name x →
      ∃ p, ctx.At p i name x := by
    intro scope i name x hat
    rcases at_alloc.mp hat with ⟨-, hi⟩ | hat
    · exact hmembers i name x hi
    · exact ⟨scope, hat⟩
  refine ⟨fun hat => ?_, fun hat hl hs => ?_, fun {x l i} hl hs => ?_⟩
  · obtain ⟨p, hp⟩ := hold hat
    exact h.named_grows hgrows hp
  · obtain ⟨p, hp⟩ := hold hat
    exact h.slotted_grows hgrows hp hl hs
  · -- The new symbol has no slot, and every other one stands where it stood.
    unfold layout? at hl
    rw [get?_alloc] at hl
    by_cases hx : x = ctx.nextId
    · rw [if_pos hx] at hl
      cases hl
      rw [Symbol.layout, hslot] at hs
      cases hs
    · rw [if_neg hx] at hl
      obtain ⟨p, name, hp⟩ := h.placed hl hs
      exact ⟨p, name, at_alloc.mpr (Or.inr hp)⟩

/-- An entry keeps a context sound: the symbol has, or now gets, a slot at which it stands. -/
theorem Sound.enter (h : ctx.Sound) {scope sym : SymbolId} {s o : Symbol}
    (hs : ctx.arena.get? sym = some s) (ho : ctx.arena.get? scope = some o)
    (hnew : s.name ∉ o.members.keys) : ((Edit.enter scope sym).write ctx).Sound := by
  have hgrows := grows_enter hs ho hnew
  have hat := @at_enter ctx scope sym s o hs ho hnew
  -- Old members are as they were, and there is one new one, at the end of its scope.
  obtain ⟨s', hs', hname', hkind', -, -, hslot'⟩ := get?_enter_sym hs ho hnew
  have hl' := layout?_of_get? hs'
  refine ⟨fun hm => ?_, fun hm hl hslotted => ?_, fun {x l i} hl hi => ?_⟩
  · rcases hat.mp hm with hm | ⟨-, -, rfl, rfl⟩
    · exact h.named_grows hgrows hm
    · exact ⟨s'.layout, hl', hname'⟩
  · rcases hat.mp hm with hm | ⟨-, -, -, rfl⟩
    · exact h.slotted_grows hgrows hm hl hslotted
    · -- The symbol that is entered: it keeps a slot that it has, and else gets the next position.
      rw [hl'] at hl
      cases hl
      have hslotted : s.kind.isSlotted = true := hkind' ▸ hslotted
      cases hslot : s.slot with
      | none => exact ⟨o.members.size, by simp [Symbol.layout, hslot', hslotted, hslot]⟩
      | some j => exact ⟨j, by simp [Symbol.layout, hslot', hslot]⟩
  · by_cases hx : x = sym
    · subst hx
      rw [hl'] at hl
      cases hl
      have hi : s'.slot = some i := hi
      rw [hslot'] at hi
      split at hi
      · cases hi
        exact ⟨scope, s.name, hat.mpr (Or.inr ⟨rfl, rfl, rfl, rfl⟩)⟩
      · obtain ⟨p, name, hp⟩ := h.placed (layout?_of_get? hs) hi
        exact ⟨p, name, hat.mpr (Or.inl hp)⟩
    · -- Any other symbol has the slot it had.
      obtain ⟨l₀, hl₀, hslot₀, -⟩ := layout?_enter_of_ne hs ho hnew hx hl
      obtain ⟨p, name, hp⟩ := h.placed hl₀ (hslot₀ ▸ hi)
      exact ⟨p, name, hat.mpr (Or.inl hp)⟩

/-- The bare context has no members and no slots. -/
theorem bare_sound : bare.Sound := by
  have hno : ∀ {scope i name x}, ¬bare.At scope i name x := by
    rintro scope i name x ⟨o, ho, hi⟩
    rw [eq_of_get?_bare ho] at hi
    cases hi
  refine ⟨fun hm => absurd hm hno, fun hm => absurd hm hno, fun hl hi => ?_⟩
  obtain ⟨s, hs, rfl⟩ := Option.map_eq_some_iff.mp hl
  rw [eq_of_get?_bare hs] at hi
  cases hi

end Context

namespace Edit

variable {rules : Rules} {ctx : Context} {e : Edit}

/-- Of the quiet edits only a new symbol and a new member touch the layout. -/
theorem Quiet.sound (he : Quiet rules ctx e) (h : ctx.Sound) : (e.write ctx).Sound := by
  cases he with
  | alloc hb => exact h.alloc hb.slot (by simp [hb.members, Assoc.empty])
  | enter hs ho hnew => exact h.enter hs ho hnew
  | nest =>
    refine h.congr ?_
    exact (Context.layout?_update fun s => s.layout_withBlockVar _).trans
      (Context.layout?_update fun _ => rfl)
  | param => exact h.congr (Context.layout?_update fun s => s.layout_withParam _ _)
  | creator => exact h.congr (Context.layout?_update fun s => s.layout_withCreator _)
  | hide => exact h.congr (Context.layout?_update fun _ => rfl)
  | newSlot => exact h.congr rfl
  | fill => exact h.congr rfl
  | link =>
    refine h.congr ?_
    simp only [Edit.write]
    split <;> rfl

/-- Every elementary change keeps a context sound. -/
theorem Fits.sound (he : Fits rules ctx e) (h : ctx.Sound) : (e.write ctx).Sound := by
  cases he with
  | inherit ho => exact h.alloc rfl fun i name x hi => ⟨_, _, ho, hi⟩
  | plain he =>
    cases he with
    | quiet he => exact he.sound h
    | keep => exact h.congr rfl
    | storage => exact h.congr rfl
  | nested he =>
    cases he with
    | lambda => exact h.alloc rfl (by simp [Assoc.empty])
    | copy => exact h.alloc rfl (by simp [Assoc.empty, Symbol.captured])
    | capture hs _ _ hc ho _ hnew =>
      exact (h.enter hc ho hnew).congr (Context.layout?_update fun s => s.layout_withCapture _)
    | quiet he => exact he.sound h

end Edit

/-- Every reached state is sound. -/
theorem Reached.sound {allowed : Context → Op → Prop} {ctx : Context} (h : Reached allowed ctx) :
    ctx.Sound :=
  h.edits_free.preserves (fun _ _ he => he.sound) Context.bare_sound

/-! ### New classes -/

namespace Op

variable {ctx : Context} {cls parent : SymbolId}

/-- A class that a call makes below a super class starts with the members of that super class, which
the call leaves as it is. -/
def StartsFrom (ctx ctx' : Context) (cls parent : SymbolId) : Prop :=
  ∃ q o, ctx.arena.get? parent = some q ∧ ctx'.arena.get? parent = some q ∧
    ctx'.arena.get? cls = some o ∧ o.members = q.members

/-- A new class with the members that it inherits. -/
theorem startsFrom_of_inherited {ctx' : Context} {superClass : Option SymbolId} {place : String}
    {o : Symbol} (hm : ctx.inherited superClass place = .ok o.members)
    (hnew : ctx'.arena.get? ctx.nextId = some o)
    (ho : o.kind.class?.bind (·.superClass) = superClass)
    (hold : ∀ x, x ≠ ctx.nextId → ctx'.arena.get? x = ctx.arena.get? x)
    (hfresh : ctx.arena.get? cls = none) (hsuper : ctx'.superClass? cls = some parent) :
    StartsFrom ctx ctx' cls parent := by
  rw [Context.superClass?_eq] at hsuper
  -- Only the class that was just made can be new.
  by_cases hcls : cls = ctx.nextId
  · rw [hcls, hnew] at hsuper
    have hparent : superClass = some parent := ho.symm.trans hsuper
    subst hparent
    obtain ⟨q, info, hq, -, hmembers⟩ := Context.inherited_eq_ok hm
    refine ⟨q, o, hq, ?_, hcls ▸ hnew, hmembers.symm⟩
    rw [hold parent (Context.ne_nextId hq)]
    exact hq
  · rw [hold cls hcls, hfresh] at hsuper
    cases hsuper

/-- A call for a new class that fails makes none. -/
theorem startsFrom_of_failed (hfresh : ctx.arena.get? cls = none)
    (hsuper : ctx.superClass? cls = some parent) : StartsFrom ctx ctx cls parent := by
  rw [Context.superClass?_eq, hfresh] at hsuper
  cases hsuper

/-- A class starts with the members of its super class. -/
theorem startsFrom_addClass {name : String} {superClass : Option SymbolId} {flavor : ClassFlavor}
    {location : Option Location} (hfresh : ctx.arena.get? cls = none)
    (hsuper : (SemaM.after (SemaM.addClass name superClass flavor location) ctx).superClass? cls
      = some parent) :
    StartsFrom ctx (SemaM.after (SemaM.addClass name superClass flavor location) ctx) cls
      parent := by
  cases hm : ctx.inherited superClass (Location.describe location name) with
  | error e =>
    have hrun : SemaM.addClass name superClass flavor location ctx = .error e ctx :=
      SemaM.bind_of_error (SemaM.query_of_error hm)
    simp only [SemaM.after, hrun] at hsuper ⊢
    exact startsFrom_of_failed hfresh hsuper
  | ok members =>
    have hrun : SemaM.addClass name superClass flavor location ctx = .ok ctx.nextId ((Edit.alloc
        { name, kind := .classDecl { superClass, flavor }, location, members }).write ctx) :=
      SemaM.bind_of_ok (SemaM.query_of_ok hm)
    rw [SemaM.after_ok hrun] at hsuper ⊢
    refine startsFrom_of_inherited hm (Context.get?_alloc_nextId _ _) rfl ?_ hfresh hsuper
    intro x hx
    rw [Context.get?_alloc, if_neg hx]

/-- A class of the host starts with the members of its super class. -/
theorem startsFrom_addNativeClass {name : String} {superClass : Option SymbolId}
    {make : Option Creator} (hfresh : ctx.arena.get? cls = none)
    (hsuper : (SemaM.after (SemaM.addNativeClass name superClass make) ctx).superClass? cls
      = some parent) :
    StartsFrom ctx (SemaM.after (SemaM.addNativeClass name superClass make) ctx) cls parent := by
  cases hm : ctx.inherited superClass (Location.describe none name) with
  | error e =>
    have hrun : SemaM.addNativeClass name superClass make ctx = .error e ctx :=
      SemaM.bind_of_error (SemaM.bind_of_error (SemaM.query_of_error hm))
    simp only [SemaM.after, hrun] at hsuper ⊢
    exact startsFrom_of_failed hfresh hsuper
  | ok members =>
    have hadd : SemaM.addClass name superClass .native none ctx = .ok ctx.nextId ((Edit.alloc
        { name, kind := .classDecl { superClass, flavor := .native }, members }).write ctx) :=
      SemaM.bind_of_ok (SemaM.query_of_ok hm)
    have hget := ctx.get?_alloc_nextId
      { name, kind := .classDecl { superClass, flavor := .native }, members }
    have hrun : SemaM.addNativeClass name superClass make ctx = .ok ctx.nextId
        (((Edit.alloc { name, kind := .classDecl { superClass, flavor := .native }, members }).write
          ctx).update ctx.nextId (·.withCreator make)) :=
      (SemaM.bind_of_ok hadd).trans (SemaM.bind_of_ok (SemaM.modifySymbol_run _ hget))
    rw [SemaM.after_ok hrun] at hsuper ⊢
    -- The host's way to make instances is noted in the new class alone.
    have hnew : (((Edit.alloc
          { name, kind := .classDecl { superClass, flavor := .native }, members }).write ctx).update
            ctx.nextId (·.withCreator make)).arena.get? ctx.nextId
        = some
          { name
            kind := .classDecl { superClass, flavor := .native, creator := make }
            members } := by
      rw [Context.get?_update, if_pos rfl, hget]
      rfl
    refine startsFrom_of_inherited hm hnew rfl ?_ hfresh hsuper
    intro x hx
    rw [Context.get?_update, if_neg hx, Context.get?_alloc, if_neg hx]

end Op

/-- A new symbol that is no inheriting class. -/
theorem Edit.Quiet.superClass_alloc {rules : Rules} {ctx : Context} {s : Symbol}
    (h : Edit.Quiet rules ctx (.alloc s)) : s.kind.class?.bind (·.superClass) = none := by
  cases h with
  | alloc hb =>
    have hkind := hb.kind
    cases hk : s.kind with
    | classDecl info =>
      rw [hk] at hkind
      exact hkind.1
    | _ => rfl

/-- No plain edit makes a class with a super class. -/
theorem Edit.Plain.superClass_alloc {rules : Rules} {ctx : Context} {s : Symbol}
    (h : Edit.Plain rules ctx (.alloc s)) : s.kind.class?.bind (·.superClass) = none := by
  cases h with
  | quiet h => exact h.superClass_alloc

/-- No edit of a capture makes a class with a super class. -/
theorem Edit.Nested.superClass_alloc {rules : Rules} {ctx : Context} {s : Symbol}
    (h : Edit.Nested rules ctx (.alloc s)) : s.kind.class?.bind (·.superClass) = none := by
  cases h with
  | quiet h => exact h.superClass_alloc
  | lambda => rfl
  | copy => rfl

/-- A symbol gets a super class only when it is allocated. -/
theorem Edit.superClass?_eq_none {ctx : Context} {e : Edit} {cls : SymbolId}
    (hgrows : ctx.Grows (e.write ctx))
    (halloc : ∀ s, e = .alloc s → s.kind.class?.bind (·.superClass) = none)
    (h : ctx.superClass? cls = none) : (e.write ctx).superClass? cls = none := by
  cases hold : ctx.arena.get? cls with
  | some s =>
    rw [hgrows.superClass?_eq hold]
    exact h
  | none =>
    rw [Context.superClass?_eq]
    cases hnew : (e.write ctx).arena.get? cls with
    | none => rfl
    | some s => exact halloc s (Edit.eq_alloc_of_new hold hnew).1

/-- Only a call that asks for a class gives a new symbol a super class. -/
theorem Op.superClass?_eq_none {op : Op} {ctx : Context} {cls : SymbolId}
    (hdeclares : op.declaresClass = false) (h : ctx.superClass? cls = none) :
    (op.next ctx).superClass? cls = none := by
  cases hasks : op.asksStructural with
  | true =>
    have hedits := op.next_plain (op.keeps_free ctx) hasks
    exact hedits.preserves (I := fun c => c.superClass? cls = none)
      (fun _ _ he => Edit.superClass?_eq_none he.grows fun s hs => (hs ▸ he).superClass_alloc) h
  | false =>
    have hedits := op.next_nested (op.keeps_free ctx) hdeclares hasks
    exact hedits.preserves (I := fun c => c.superClass? cls = none)
      (fun _ _ he => Edit.superClass?_eq_none he.grows fun s hs => (hs ▸ he).superClass_alloc) h

/-- A class that a call makes below a super class starts from that super class. -/
theorem Op.startsFrom {op : Op} {ctx : Context} {cls parent : SymbolId}
    (hfresh : ctx.arena.get? cls = none)
    (hsuper : (op.next ctx).superClass? cls = some parent) :
    Op.StartsFrom ctx (op.next ctx) cls parent := by
  cases hdeclares : op.declaresClass with
  | false =>
    -- Other calls make no symbol that has a super class.
    have hnone : (op.next ctx).superClass? cls = none :=
      Op.superClass?_eq_none hdeclares (by rw [Context.superClass?_eq, hfresh]; rfl)
    rw [hnone] at hsuper
    cases hsuper
  | true =>
    cases op with
    | addClass =>
      simp only [Op.next, Op.exec, SemaM.after_forget] at hsuper ⊢
      exact Op.startsFrom_addClass hfresh hsuper
    | addNativeClass =>
      simp only [Op.next, Op.exec, SemaM.after_forget] at hsuper ⊢
      exact Op.startsFrom_addNativeClass hfresh hsuper
    | _ => cases hdeclares

/-! ### Symbols that are defined once -/

namespace Context

/-- The symbol is a member of the scope. -/
def Holds (ctx : Context) (scope x : SymbolId) : Prop := ∃ i name, ctx.At scope i name x

/-- The members of a scope. -/
def holdings (ctx : Context) (scope : SymbolId) : List SymbolId :=
  match ctx.arena.get? scope with
  | some o => o.members.values
  | none => []

/-- Every scope with each of its members. -/
def memberships (ctx : Context) : List (SymbolId × SymbolId) :=
  (List.range (ctx.arena.size + 1)).flatMap fun n => (ctx.holdings ⟨n⟩).map (⟨n⟩, ·)

/-- The holdings are what a scope holds. -/
theorem mem_holdings_iff {ctx : Context} {scope x : SymbolId} :
    x ∈ ctx.holdings scope ↔ ctx.Holds scope x := by
  unfold holdings Holds At
  cases ctx.arena.get? scope with
  | none => simp
  | some o =>
    simp only [Assoc.values, List.mem_map, Prod.exists, exists_eq_right, Option.some.injEq,
      exists_eq_left']
    constructor
    · rintro ⟨name, h⟩
      obtain ⟨i, hi⟩ := List.mem_iff_getElem?.mp h
      exact ⟨i, name, hi⟩
    · rintro ⟨i, name, hi⟩
      exact ⟨name, List.mem_of_getElem? hi⟩

/-- The memberships are all pairs of a scope and what it holds. -/
theorem mem_memberships_iff {ctx : Context} {scope x : SymbolId} :
    (scope, x) ∈ ctx.memberships ↔ ctx.Holds scope x := by
  rw [← mem_holdings_iff, memberships, List.mem_flatMap]
  constructor
  · rintro ⟨n, -, h⟩
    obtain ⟨y, hy, he⟩ := List.mem_map.mp h
    cases he
    exact hy
  · intro h
    obtain ⟨i, name, o, ho, -⟩ := mem_holdings_iff.mp h
    have hle := num_le_size ho
    exact ⟨scope.num, List.mem_range.mpr (by omega), List.mem_map.mpr ⟨x, h, rfl⟩⟩

end Context

namespace Op

/-- The call makes `x` a member of `scope`. A new class does not define the members of its super
class, with which it starts. -/
def Defines (op : Op) (ctx : Context) (scope x : SymbolId) : Prop :=
  (op.next ctx).Holds scope x ∧ ¬ctx.Holds scope x ∧
    (ctx.arena.get? scope = none → (op.next ctx).superClass? scope = none)

/-- What the call defines was a member of no scope before, and becomes a member of one. -/
def DefinesOnce (ctx : Context) (op : Op) : Prop :=
  ∀ scope x, op.Defines ctx scope x →
    (∀ p, ¬ctx.Holds p x) ∧ ∀ p, op.Defines ctx p x → p = scope

/-- The pairs of a scope and a symbol that the call defines in it. -/
def definitions (op : Op) (ctx : Context) : List (SymbolId × SymbolId) :=
  (op.next ctx).memberships.filter fun p =>
    p.2 ∉ ctx.holdings p.1 ∧
      ((ctx.arena.get? p.1).isNone = true → (op.next ctx).superClass? p.1 = none)

/-- The definitions are what a call defines. -/
theorem mem_definitions_iff {op : Op} {ctx : Context} {scope x : SymbolId} :
    (scope, x) ∈ op.definitions ctx ↔ op.Defines ctx scope x := by
  simp [definitions, Defines, Context.mem_memberships_iff, Context.mem_holdings_iff, imp_iff_not_or]

/-- Whether a call defines once is decided on the finite lists of memberships. -/
instance (ctx : Context) (op : Op) : Decidable (op.DefinesOnce ctx) :=
  decidable_of_iff
    (∀ p ∈ op.definitions ctx, (∀ q ∈ ctx.memberships, q.2 ≠ p.2) ∧
      ∀ q ∈ op.definitions ctx, q.2 = p.2 → q.1 = p.1) <| by
    -- Both sides quantify over the same finitely many pairs.
    simp only [Prod.forall, mem_definitions_iff, Context.mem_memberships_iff]
    constructor
    · intro h scope x hdef
      obtain ⟨hnone, huniq⟩ := h scope x hdef
      exact ⟨fun p hp => hnone p x hp rfl, fun p hp => huniq p x hp rfl⟩
    · intro h scope x hdef
      obtain ⟨hnone, huniq⟩ := h scope x hdef
      refine ⟨fun p y hp he => ?_, fun p y hp he => ?_⟩
      · exact hnone p (he ▸ hp)
      · exact huniq p (he ▸ hp)

end Op

namespace Context

variable {ctx : Context} {op : Op}

/-- Every slot is the position in every scope. -/
def Aligned (ctx : Context) : Prop :=
  ∀ ⦃scope i name x l⦄, ctx.At scope i name x → ctx.layout? x = some l → l.slotted = true →
    l.slot = some i

/-- A symbol stands at one position of a scope. -/
theorem Sound.position_unique (h : ctx.Sound) {scope x : SymbolId} {i j : Nat} {name name' : String}
    (hi : ctx.At scope i name x) (hj : ctx.At scope j name' x) : i = j := by
  obtain ⟨l, hl, rfl⟩ := h.named hi
  obtain ⟨l', hl', rfl⟩ := h.named hj
  rw [hl] at hl'
  cases hl'
  exact (hi.unique hj).1

/-- A call that defines symbols once keeps slots and positions together. -/
theorem Aligned.next (h : ctx.Aligned) (hs : ctx.Sound) (hs' : (op.next ctx).Sound)
    (honce : op.DefinesOnce ctx) : (op.next ctx).Aligned := by
  intro scope i name x l hat hl hslotted
  have hgrows := op.grows ctx
  -- A symbol that stood at the position before, in whichever scope, has that slot already.
  have hbefore : ∀ p, ctx.At p i name x → l.slot = some i := by
    intro p hp
    obtain ⟨l₀, hl₀, -⟩ := hs.named hp
    obtain ⟨l', hl', -, hkeeps, hkeep⟩ := hgrows.layout? hl₀
    rw [hl] at hl'
    cases hl'
    exact hkeep i (h hp hl₀ (hkeeps ▸ hslotted))
  -- Members that a new class inherits stood at the same positions of its super class.
  have hinherited : ∀ {p parent j m}, ctx.arena.get? p = none →
      (op.next ctx).superClass? p = some parent → (op.next ctx).At p j m x →
      ctx.At parent j m x := by
    rintro p parent j m hfresh hsuper ⟨o', ho', hj⟩
    obtain ⟨q, o, hq, -, ho, hm⟩ := Op.startsFrom hfresh hsuper
    rw [ho] at ho'
    cases ho'
    exact ⟨q, hq, by rw [← hm]; exact hj⟩
  by_cases hheld : ctx.Holds scope x
  · -- A member from before stands where it stood.
    obtain ⟨j, m, hj⟩ := hheld
    obtain rfl := hs'.position_unique hat (hgrows.at hj)
    obtain ⟨l', hl', rfl⟩ := hs'.named hat
    obtain ⟨l'', hl'', rfl⟩ := hs'.named (hgrows.at hj)
    rw [hl'] at hl''
    cases hl''
    exact hbefore scope hj
  by_cases hinherits : ctx.arena.get? scope = none →
      (op.next ctx).superClass? scope = none
  · -- The call defines the symbol here, so here is where its slot was given.
    obtain ⟨hnone, huniq⟩ := honce scope x ⟨⟨i, name, hat⟩, hheld, hinherits⟩
    obtain ⟨j, hj⟩ := hs'.slotted hat hl hslotted
    obtain ⟨p, m, hp⟩ := hs'.placed hl hj
    have hdefines : op.Defines ctx p x := by
      refine ⟨⟨j, m, hp⟩, hnone p, fun hfresh => ?_⟩
      cases hsuper : (op.next ctx).superClass? p with
      | none => rfl
      | some parent => exact absurd ⟨j, m, hinherited hfresh hsuper hp⟩ (hnone parent)
    obtain rfl := huniq p hdefines
    rw [hs'.position_unique hat hp]
    exact hj
  · -- A new class with a super class has all its members from there.
    obtain ⟨hfresh, hsome⟩ := Classical.not_imp.mp hinherits
    obtain ⟨parent, hsuper⟩ := Option.ne_none_iff_exists'.mp hsome
    exact hbefore parent (hinherited hfresh hsuper hat)

/-- Goes through all scopes and compares the slots of their members with their positions. -/
def checkAligned (ctx : Context) : Bool :=
  ctx.arena.symbols.toList.all fun o =>
    o.members.entries.zipIdx.all fun (entry, i) =>
      match ctx.layout? entry.2 with
      | some l => !l.slotted || l.slot = some i
      | none => true

/-- A symbol that is there is one of the arena's. -/
theorem mem_symbols_of_get? {id : SymbolId} {s : Symbol} (hs : ctx.arena.get? id = some s) :
    s ∈ ctx.arena.symbols.toList := by
  obtain ⟨n⟩ := id
  cases n with
  | zero => cases hs
  | succ n => exact Array.mem_toList_iff.mpr (Array.mem_of_getElem? hs)

/-- The check that runs over all members decides alignment. -/
theorem aligned_of_checkAligned (h : ctx.checkAligned = true) : ctx.Aligned := by
  rintro scope i name x l ⟨o, ho, hi⟩ hl hslotted
  have hscope := List.all_eq_true.mp h o (mem_symbols_of_get? ho)
  have hentry := List.all_eq_true.mp hscope ((name, x), i) (List.mem_zipIdx_iff_getElem?.mpr hi)
  simpa [hl, hslotted] using hentry

/-- The initial context is aligned. -/
theorem initial_aligned : initial.Aligned :=
  aligned_of_checkAligned (by decide +kernel)

end Context

/-- In runs that define every symbol once, every slot is the position in every scope. -/
theorem Reached.aligned {allowed : Context → Op → Prop} {ctx : Context}
    (hallowed : ∀ ctx op, allowed ctx op → op.DefinesOnce ctx) (h : Reached allowed ctx) :
    ctx.Aligned := by
  induction h with
  | initial => exact Context.initial_aligned
  | step op h hop ih =>
    exact Context.Aligned.next ih h.sound (h.step op hop).sound (hallowed _ _ hop)

end Sema

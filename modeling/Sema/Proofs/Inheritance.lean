import Mathlib.Logic.Relation
import Sema.Proofs.Slots

/-!
# `Sema.Proofs.Inheritance`: the members of a class and of those above it

A class takes over the members of its super class when it is made. If no member is added to a class
that has one below it, the members of every ancestor stay at the front of its own, in the same order
and thus in the same slots. `class_layout` says so for every class of every reached state, and that
a look-up in the whole hierarchy finds nothing more than a look-up in the class itself.

A super class is older than the classes below it (`Context.Descends`), so going upward comes to an
end. This needs nothing about the run.
-/

set_option autoImplicit false

namespace Sema

namespace Context

variable {ctx : Context}

/-- A super class is a class, and older than the class below it. -/
def Descends (ctx : Context) : Prop :=
  ∀ ⦃x p⦄, ctx.superClass? x = some p →
    p.num < x.num ∧ ∃ q info, ctx.arena.get? p = some q ∧ q.kind = .classDecl info

/-- The bare context has no classes. -/
theorem bare_descends : bare.Descends := by
  intro x p hp
  rw [superClass?_eq] at hp
  obtain ⟨s, hs, hp⟩ := Option.bind_eq_some_iff.mp hp
  rw [eq_of_get?_bare hs] at hp
  cases hp

end Context

/-- Every edit keeps super classes below their classes. -/
theorem Edit.Fits.descends {rules : Rules} {ctx : Context} {e : Edit}
    (he : Edit.Fits rules ctx e) (h : ctx.Descends) :
    (e.write ctx).Descends := by
  have hgrows := he.grows
  intro x p hp
  have hkeeps : (p.num < x.num ∧ ∃ q info, ctx.arena.get? p = some q ∧ q.kind = .classDecl info) →
      p.num < x.num ∧ ∃ q info, (e.write ctx).arena.get? p = some q ∧ q.kind = .classDecl info := by
    rintro ⟨hlt, q, info, hq, hk⟩
    obtain ⟨q', hq', hqq⟩ := hgrows.symbols p q hq
    obtain ⟨info', hk', -⟩ := hqq.kind.of_classDecl hk
    exact ⟨hlt, q', info', hq', hk'⟩
  cases hold : ctx.arena.get? x with
  | some s =>
    rw [hgrows.superClass?_eq hold] at hp
    exact hkeeps (h hp)
  | none =>
    -- A new class gets the next id, which is past all ids in use.
    rw [Context.superClass?_eq] at hp
    obtain ⟨s, hs, hsuper⟩ := Option.bind_eq_some_iff.mp hp
    obtain ⟨rfl, rfl⟩ := Edit.eq_alloc_of_new hold hs
    cases he with
    | plain he =>
      rw [he.superClass_alloc] at hsuper
      cases hsuper
    | nested he =>
      rw [he.superClass_alloc] at hsuper
      cases hsuper
    | inherit ho hk =>
      cases hsuper
      exact hkeeps ⟨Context.lt_nextId ho, _, _, ho, hk⟩

/-- Super classes are below their classes in every state that is reached. -/
theorem Reached.descends {allowed : Context → Op → Prop} {ctx : Context} (h : Reached allowed ctx) :
    ctx.Descends :=
  h.edits_free.preserves (fun _ _ he => he.descends) Context.bare_descends

/-! ### Members that are inherited -/

/-- The members of the super class stand first in each class below it. -/
def Context.Inherits (ctx : Context) : Prop :=
  ∀ ⦃x p⦄, ctx.superClass? x = some p →
    ∃ o q, ctx.arena.get? x = some o ∧ ctx.arena.get? p = some q ∧
      q.members.entries <+: o.members.entries

/-- No member is added to a class that has one below it. -/
def Op.LeavesSupers (ctx : Context) (op : Op) : Prop :=
  ∀ x p, ctx.superClass? x = some p →
    ((op.next ctx).arena.get? p).map (·.members.entries)
      = (ctx.arena.get? p).map (·.members.entries)

/-- The classes that have one below them. -/
def Context.supers (ctx : Context) : List SymbolId :=
  (List.range (ctx.arena.size + 1)).filterMap fun n => ctx.superClass? ⟨n⟩

/-- The list of all super classes. -/
theorem Context.mem_supers_iff {ctx : Context} {p : SymbolId} :
    p ∈ ctx.supers ↔ ∃ x, ctx.superClass? x = some p := by
  rw [supers, List.mem_filterMap]
  constructor
  · rintro ⟨n, -, hn⟩
    exact ⟨⟨n⟩, hn⟩
  · rintro ⟨x, hx⟩
    have hbound := hx
    rw [superClass?_eq] at hbound
    obtain ⟨s, hs, -⟩ := Option.bind_eq_some_iff.mp hbound
    have hle := num_le_size hs
    exact ⟨x.num, List.mem_range.mpr (by omega), hx⟩

/-- Whether a call leaves super classes alone is checked on their finite list. -/
instance (ctx : Context) (op : Op) : Decidable (op.LeavesSupers ctx) :=
  decidable_of_iff
    (∀ p ∈ ctx.supers, ((op.next ctx).arena.get? p).map (·.members.entries)
      = (ctx.arena.get? p).map (·.members.entries)) <| by
    simp only [Context.mem_supers_iff]
    exact ⟨fun h x p hp => h p ⟨x, hp⟩, fun h p ⟨x, hp⟩ => h x p hp⟩

/-- There is no inheritance at the start. -/
theorem Context.initial_superClass? (x : SymbolId) : initial.superClass? x = none := by
  have hbare : bare.superClass? x = none := by
    rw [Context.superClass?_eq]
    cases hs : bare.arena.get? x with
    | none => rfl
    | some s =>
      rw [eq_of_get?_bare hs]
      rfl
  have hedits : Edits (Edit.Plain {}) .bare .initial := Edits.bare_initial rfl fun _ _ => trivial
  exact hedits.preserves (I := fun c => c.superClass? x = none)
    (fun _ _ he => Edit.superClass?_eq_none he.grows fun s hs => (hs ▸ he).superClass_alloc) hbare

/-- A call that leaves super classes alone keeps their members first in their classes. -/
theorem Context.Inherits.next {ctx : Context} {op : Op} (h : ctx.Inherits)
    (hleaves : op.LeavesSupers ctx) : (op.next ctx).Inherits := by
  have hgrows := op.grows ctx
  intro x p hp
  cases hold : ctx.arena.get? x with
  | some s =>
    -- The class was there before: it only gets more members, and its super class gets none.
    rw [hgrows.superClass?_eq hold] at hp
    obtain ⟨o, q, ho, hq, hfirst⟩ := h hp
    obtain ⟨o', ho', hoo⟩ := hgrows.symbols x o ho
    obtain ⟨q', hq', -⟩ := hgrows.symbols p q hq
    have hsame : q'.members.entries = q.members.entries := by
      have hleft := hleaves x p hp
      rw [hq', hq] at hleft
      exact Option.some.inj hleft
    exact ⟨o', q', ho', hq', hsame ▸ hfirst.trans hoo.members⟩
  | none =>
    -- A new class has the members of its super class and no others yet.
    obtain ⟨q, o, -, hq, ho, hm⟩ := Op.startsFrom hold hp
    exact ⟨o, q, ho, hq, by rw [hm]⟩

/-- Members of super classes stand first when every call leaves super classes alone. -/
theorem Reached.inherits {allowed : Context → Op → Prop} {ctx : Context}
    (hallowed : ∀ ctx op, allowed ctx op → op.LeavesSupers ctx) (h : Reached allowed ctx) :
    ctx.Inherits := by
  induction h with
  | initial =>
    intro x p hp
    rw [Context.initial_superClass?] at hp
    cases hp
  | step op _ hop ih => exact ih.next (hallowed _ _ hop)

namespace Context

variable {ctx : Context}

/-- A class or one above it. -/
def Ancestor (ctx : Context) : SymbolId → SymbolId → Prop :=
  Relation.ReflTransGen fun x p => ctx.superClass? x = some p

/-- A super class of an ancestor is an ancestor. -/
theorem Ancestor.above {x m p : SymbolId} (h : ctx.Ancestor x m) (hp : ctx.superClass? m = some p) :
    ctx.Ancestor x p :=
  h.tail hp

/-- The members of every ancestor stand first in the class. -/
theorem Inherits.ancestor (h : ctx.Inherits) {x p : SymbolId} {o : Symbol}
    (ho : ctx.arena.get? x = some o) (hp : ctx.Ancestor x p) :
    ∃ q, ctx.arena.get? p = some q ∧ q.members.entries <+: o.members.entries := by
  -- Upward along the super classes: each has a part of the members of the one before.
  induction hp with
  | refl => exact ⟨o, ho, List.prefix_rfl⟩
  | tail _ hstep ih =>
    obtain ⟨m, hm, hfirst⟩ := ih
    obtain ⟨m', q, hm', hq, hfirst'⟩ := h hstep
    rw [hm] at hm'
    cases hm'
    exact ⟨q, hq, hfirst'.trans hfirst⟩

/-- The super class is read off the class. -/
theorem superClass?_of_class {x : SymbolId} {o : Symbol} {info : ClassInfo}
    (ho : ctx.arena.get? x = some o) (hk : o.kind = .classDecl info) :
    ctx.superClass? x = info.superClass := by
  rw [superClass?_eq, ho, Option.bind_some, hk]
  rfl

/-- What has a super class is a class. -/
theorem exists_class_of_superClass? {x p : SymbolId} {o : Symbol}
    (hp : ctx.superClass? x = some p) (ho : ctx.arena.get? x = some o) :
    ∃ info, o.kind = .classDecl info := by
  rw [superClass?_eq, ho, Option.bind_some] at hp
  cases hk : o.kind with
  | classDecl info => exact ⟨info, rfl⟩
  | _ =>
    rw [hk] at hp
    cases hp

/-- `superClass` reads the super class of a class. -/
theorem superClass_of_class {x : SymbolId} {o : Symbol} {info : ClassInfo}
    (ho : ctx.arena.get? x = some o) (hk : o.kind = .classDecl info) :
    ctx.superClass x = .ok info.superClass := by
  simp only [superClass, classInfo, symbol_of_get? ho, bind, Except.bind, hk]
  rfl

/-- A look-up in a class and everything above it finds what a look-up in the class finds. The ids
get smaller on the way, so as many steps as the class has predecessors are enough. -/
theorem Inherits.memberWithin (h : ctx.Inherits) (hdescends : ctx.Descends) (name : String)
    {x : SymbolId} {o : Symbol} {info : ClassInfo} (ho : ctx.arena.get? x = some o)
    (hk : o.kind = .classDecl info) {fuel : Nat} (hfuel : x.num < fuel) :
    ctx.memberWithin name fuel x = .ok (o.members.find? name) := by
  induction fuel generalizing x o info with
  | zero => omega
  | succ fuel ih =>
    unfold Context.memberWithin
    simp only [symbol_of_get? ho, bind, Except.bind]
    cases hfind : o.members.find? name with
    | some id => rfl
    | none =>
      simp only [superClass_of_class ho hk]
      cases hsuper : info.superClass with
      | none => rfl
      | some p =>
        have hp : ctx.superClass? x = some p := (superClass?_of_class ho hk).trans hsuper
        obtain ⟨hlt, q, qinfo, hq, hqk⟩ := hdescends hp
        obtain ⟨o', q', ho', hq', hfirst⟩ := h hp
        rw [ho] at ho'
        rw [hq] at hq'
        cases ho'
        cases hq'
        -- What the super class has the class has as well, so the super class has nothing either.
        have hnone : q.members.find? name = none := by
          rw [Assoc.find?_eq_none_iff] at hfind ⊢
          exact fun hmem => hfind ((hfirst.map Prod.fst).subset hmem)
        simp only
        rw [ih hq hqk (by omega), hnone]

/-- Looking a member up is looking into the dictionary of the class. -/
theorem Inherits.lookupMember (h : ctx.Inherits) (hdescends : ctx.Descends) {x : SymbolId}
    {o : Symbol} {info : ClassInfo} (ho : ctx.arena.get? x = some o) (hk : o.kind = .classDecl info)
    (name : String) : ctx.lookupMember x name = .ok (o.members.find? name) := by
  have hle := num_le_size ho
  exact h.memberWithin hdescends name ho hk (by unfold searchBound; omega)

end Context

/-- Take a run in which every symbol is defined at most once and a class with one below it gets no
more members. Then every class starts with the members of its super class, each member with a slot
has the slot that is its position, and a look-up of a member does not depend on the classes above.
So a member of any ancestor has the same slot in the class. -/
theorem class_layout {ctx : Context} {x : SymbolId} {o : Symbol} {info : ClassInfo}
    (h : Reached (fun ctx op => op.DefinesOnce ctx ∧ op.LeavesSupers ctx) ctx)
    (ho : ctx.arena.get? x = some o) (hk : o.kind = .classDecl info) :
    (∀ p, info.superClass = some p →
      ∃ q, ctx.arena.get? p = some q ∧ q.members.entries <+: o.members.entries) ∧
    (∀ i name id, ctx.At x i name id → ∃ s, ctx.arena.get? id = some s ∧ s.name = name ∧
      (s.kind.isSlotted = true → s.slot = some i)) ∧
    (∀ name, ctx.lookupMember x name = .ok (o.members.find? name)) ∧
    (∀ p, ctx.Ancestor x p → ∀ i name id, ctx.At p i name id → ctx.At x i name id) := by
  have hinherits : ctx.Inherits := h.inherits fun _ _ hop => hop.2
  have haligned : ctx.Aligned := h.aligned fun _ _ hop => hop.1
  refine ⟨?_, ?_, hinherits.lookupMember h.descends ho hk, ?_⟩
  · intro p hp
    have hsuper : ctx.superClass? x = some p := (Context.superClass?_of_class ho hk).trans hp
    exact hinherits.ancestor ho (.above .refl hsuper)
  · intro i name id hat
    obtain ⟨l, hl, hname⟩ := h.sound.named hat
    have hslot := haligned hat hl
    obtain ⟨s, hs, rfl⟩ := Option.map_eq_some_iff.mp hl
    exact ⟨s, hs, hname, hslot⟩
  · intro p hp i name id hat
    -- The members of the ancestor stand first, at the same positions.
    obtain ⟨q, hq, hfirst⟩ := hinherits.ancestor ho hp
    obtain ⟨q', hq', hi⟩ := hat
    rw [hq] at hq'
    cases hq'
    obtain ⟨rest, hrest⟩ := hfirst
    refine ⟨o, ho, ?_⟩
    rw [← hrest, List.getElem?_append_left (List.getElem?_eq_some_iff.mp hi).1]
    exact hi

/-- Three classes, one below the other, each with a field of its own, and a second class below the
first. -/
def hierarchyRun : List Op :=
  let type : TypeRef := { name := "int", slot := ⟨0⟩ }
  [.addClass "Base" none .script none, .addField "a" type none, .define ⟨85⟩ ⟨86⟩,
    .addClass "Middle" (some ⟨85⟩) .script none, .addField "b" type none, .define ⟨87⟩ ⟨88⟩,
    .addClass "Leaf" (some ⟨87⟩) .script none, .addField "c" type none, .define ⟨89⟩ ⟨90⟩,
    .addClass "Other" (some ⟨85⟩) .script none, .addField "d" type none, .define ⟨91⟩ ⟨92⟩]

/-- What `hierarchyRun` leaves, by running it. -/
theorem hierarchyRun_facts :
    Op.AllAllowed (fun ctx op => op.DefinesOnce ctx ∧ op.LeavesSupers ctx) .initial hierarchyRun ∧
    ((Op.runs .initial hierarchyRun).arena.get? ⟨89⟩).map (·.members.entries)
      = some [("a", ⟨86⟩), ("b", ⟨88⟩), ("c", ⟨90⟩)] ∧
    (Op.runs .initial hierarchyRun).superClass? ⟨89⟩ = some ⟨87⟩ ∧
    (Op.runs .initial hierarchyRun).superClass? ⟨87⟩ = some ⟨85⟩ := by
  decide +kernel

/-- The field of the first class is in slot 0 of the third as well. -/
theorem class_layout_hierarchyRun :
    Reached (fun ctx op => op.DefinesOnce ctx ∧ op.LeavesSupers ctx)
      (Op.runs .initial hierarchyRun) ∧
    (Op.runs .initial hierarchyRun).Ancestor ⟨89⟩ ⟨85⟩ ∧
    ∃ o info, (Op.runs .initial hierarchyRun).arena.get? ⟨89⟩ = some o ∧
      o.kind = .classDecl info ∧ o.members.entries = [("a", ⟨86⟩), ("b", ⟨88⟩), ("c", ⟨90⟩)] ∧
      (∀ p, info.superClass = some p → ∃ q, (Op.runs .initial hierarchyRun).arena.get? p = some q ∧
        q.members.entries <+: o.members.entries) ∧
      (∀ i name id, (Op.runs .initial hierarchyRun).At ⟨89⟩ i name id →
        ∃ s, (Op.runs .initial hierarchyRun).arena.get? id = some s ∧ s.name = name ∧
          (s.kind.isSlotted = true → s.slot = some i)) ∧
      (∀ name, (Op.runs .initial hierarchyRun).lookupMember ⟨89⟩ name
        = .ok (o.members.find? name)) ∧
      (∀ p, (Op.runs .initial hierarchyRun).Ancestor ⟨89⟩ p → ∀ i name id,
        (Op.runs .initial hierarchyRun).At p i name id →
          (Op.runs .initial hierarchyRun).At ⟨89⟩ i name id) := by
  obtain ⟨hallowed, hmembers, hleaf, hmiddle⟩ := hierarchyRun_facts
  have hreached := Reached.initial.runs hallowed
  obtain ⟨o, ho, hentries⟩ := Option.map_eq_some_iff.mp hmembers
  obtain ⟨info, hk⟩ := Context.exists_class_of_superClass? hleaf ho
  have hancestor : (Op.runs .initial hierarchyRun).Ancestor ⟨89⟩ ⟨85⟩ :=
    .above (.above .refl hleaf) hmiddle
  exact ⟨hreached, hancestor, o, info, ho, hk, hentries, class_layout hreached ho hk⟩

end Sema

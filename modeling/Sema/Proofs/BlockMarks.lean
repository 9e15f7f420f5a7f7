import Sema.Proofs.DefinitionEffect

/-!
# `Sema.Proofs.BlockMarks`: what calls do to blocks and to their variables

A block has no members of its own. Its variables are members of the function around it, and what the
block does to them stands in three places: the level of a variable, the flag that hides it, and the
notes that the block takes. A `Mark` is these three for one symbol.

Four calls change marks: a definition, the opening of a block, its closing, and hiding. For each of
them there is a lemma on what becomes of every mark. `Context.Steady` is what the other calls do
(`Op.steady_next`): all marks stay, and new symbols come without.

`Context.Leveled` is the first thing that follows for every run: a symbol that no block has noted
has level 0.
-/

set_option autoImplicit false

namespace Sema

/-- A note goes to the end of the variables of a block. -/
theorem SymbolKind.block?_noting (kind : SymbolKind) (sym : SymbolId) :
    (kind.noting sym).block? = kind.block?.map fun b => { b with vars := b.vars ++ [sym] } := by
  cases kind <;> rfl

/-- What blocks have done to a symbol, and what the symbol has noted if it is a block itself. -/
structure Mark where
  level : Nat := 0
  hidden : Bool := false
  block? : Option BlockInfo := none

/-- The mark of a symbol that may have been hidden. -/
def Mark.hide (m : Mark) (gone : Bool) : Mark := { m with hidden := m.hidden || gone }

namespace Symbol

variable (s : Symbol)

/-- The mark of a symbol. -/
def mark : Mark where
  level := s.level
  hidden := s.outOfScope
  block? := s.kind.block?

/-- A parameter changes no mark. -/
theorem mark_withParam (type : TypeRef) (hasDefault : Bool) :
    (s.withParam type hasDefault).mark = s.mark := by
  unfold withParam
  split
  · rename_i info hk
    simp [mark, hk, SymbolKind.block?]
  · rfl

/-- Nor does a capture. -/
theorem mark_withCapture (c : Capture) : (s.withCapture c).mark = s.mark := by
  unfold withCapture
  split
  · rename_i info hk
    split
    · simp [mark, hk, SymbolKind.block?]
    · rfl
  · rfl

/-- Nor does a creator. -/
theorem mark_withCreator (make : Option Creator) : (s.withCreator make).mark = s.mark := by
  unfold withCreator
  split
  · rename_i info hk
    simp [mark, hk, SymbolKind.block?]
  · rfl

variable {s}

/-- A symbol that has nothing to do with blocks has the empty mark. -/
theorem Unmarked.mark_eq (h : s.Unmarked) : s.mark = {} := by
  have hblock : s.kind.block? = none := by
    have hframe := h.frame
    cases hk : s.kind with
    | block b =>
      rw [hk] at hframe
      cases hframe
    | _ => rfl
  simp [mark, h.level, h.shown, hblock]

end Symbol

namespace Context

variable {a b c ctx : Context} {x : SymbolId} {m : Mark}

/-- The mark of the symbol with the id. -/
def mark? (ctx : Context) (id : SymbolId) : Option Mark := (ctx.arena.get? id).map Symbol.mark

/-- The variables that a block has noted, and none if the symbol is no block. -/
def noted (ctx : Context) (block : SymbolId) : List SymbolId :=
  ((ctx.arena.get? block).map (·.kind.vars)).getD []

/-- The mark of an existing symbol. -/
theorem mark?_of_get? {s : Symbol} (hs : ctx.arena.get? x = some s) :
    ctx.mark? x = some s.mark := by
  rw [mark?, hs, Option.map_some]

/-- Whatever has a mark exists. -/
theorem get?_of_mark? (h : ctx.mark? x = some m) :
    ∃ s, ctx.arena.get? x = some s ∧ s.mark = m :=
  Option.map_eq_some_iff.mp h

/-- Only what does not exist has no mark. -/
theorem mark?_eq_none_iff : ctx.mark? x = none ↔ ctx.arena.get? x = none :=
  Option.map_eq_none_iff

/-- The function of a block can be read off its mark. -/
theorem frame?_eq_mark? : ctx.frame? x = (ctx.mark? x).bind fun m => m.block?.map (·.func) := by
  unfold frame? mark?
  cases ctx.arena.get? x with
  | none => rfl
  | some s => cases hk : s.kind <;> simp [Symbol.mark, hk, SymbolKind.block?, SymbolKind.frame?]

/-- The same, spelled out. -/
theorem frame?_eq_some_iff {p : SymbolId} :
    ctx.frame? x = some p ↔ ∃ m b, ctx.mark? x = some m ∧ m.block? = some b ∧ b.func = p := by
  simp only [frame?_eq_mark?, Option.bind_eq_some_iff, Option.map_eq_some_iff]
  constructor
  · rintro ⟨m, hm, b, hb, rfl⟩
    exact ⟨m, b, hm, hb, rfl⟩
  · rintro ⟨m, b, hm, hb, rfl⟩
    exact ⟨m, hm, b, hb, rfl⟩

/-- The variables of a block as a list and as a relation. -/
theorem mem_noted_iff {block : SymbolId} : x ∈ ctx.noted block ↔ ctx.Notes block x := by
  unfold noted Notes
  cases ctx.arena.get? block <;> simp

/-- The variables of a block can be read off its mark. -/
theorem notes_iff {block : SymbolId} :
    ctx.Notes block x ↔ ∃ m b, ctx.mark? block = some m ∧ m.block? = some b ∧ x ∈ b.vars := by
  constructor
  · rintro ⟨o, ho, hx⟩
    cases hk : o.kind with
    | block b =>
      rw [hk] at hx
      exact ⟨o.mark, b, mark?_of_get? ho, by simp [Symbol.mark, hk, SymbolKind.block?], hx⟩
    | _ =>
      rw [hk] at hx
      cases hx
  · rintro ⟨m, b, hm, hb, hx⟩
    obtain ⟨o, ho, rfl⟩ := get?_of_mark? hm
    refine ⟨o, ho, ?_⟩
    cases hk : o.kind with
    | block b' =>
      simp only [Symbol.mark, hk, SymbolKind.block?, Option.some.injEq] at hb
      rw [hb]
      exact hx
    | _ => simp [Symbol.mark, hk, SymbolKind.block?] at hb

/-! ### Marks and edits -/

/-- An update that leaves the mark of every symbol alone. -/
theorem mark?_update {id : SymbolId} {f : Symbol → Symbol} (h : ∀ s : Symbol, (f s).mark = s.mark) :
    (ctx.update id f).mark? = ctx.mark? := by
  funext x
  exact ctx.map_get?_update id h x

/-- A new member changes no mark. -/
theorem mark?_withMember (scope sym : SymbolId) :
    (ctx.withMember scope sym).mark? = ctx.mark? := by
  unfold withMember
  split
  · split
    · refine (mark?_update ?_).trans (mark?_update ?_)
      · intro s
        rfl
      · intro s
        rfl
    · rfl
  · rfl

/-- A new symbol brings its mark along. -/
theorem mark?_alloc (s : Symbol) (x : SymbolId) :
    ((Edit.alloc s).write ctx).mark? x = if x = ctx.nextId then some s.mark else ctx.mark? x := by
  unfold mark?
  rw [get?_alloc]
  split <;> rfl

/-- Older marks stay. -/
theorem mark?_alloc_of_some (s : Symbol) (hm : ctx.mark? x = some m) :
    ((Edit.alloc s).write ctx).mark? x = some m := by
  obtain ⟨t, ht, -⟩ := get?_of_mark? hm
  rw [mark?_alloc, if_neg (ne_nextId ht), hm]

/-- A block is a new one or was there before. -/
theorem frame?_alloc {s : Symbol} {block p : SymbolId}
    (h : ((Edit.alloc s).write ctx).frame? block = some p) :
    (block = ctx.nextId ∧ ∃ b, s.mark.block? = some b ∧ b.func = p) ∨
      ctx.frame? block = some p := by
  obtain ⟨m, b, hm, hb, hfunc⟩ := frame?_eq_some_iff.mp h
  rw [mark?_alloc] at hm
  split at hm
  · rename_i hblock
    cases hm
    exact Or.inl ⟨hblock, b, hb, hfunc⟩
  · exact Or.inr (frame?_eq_some_iff.mpr ⟨m, b, hm, hb, hfunc⟩)

/-- A note stands in a new block or stood there before. -/
theorem notes_alloc_cases {s : Symbol} {block x : SymbolId}
    (h : ((Edit.alloc s).write ctx).Notes block x) :
    (∃ b, s.mark.block? = some b ∧ x ∈ b.vars) ∨ ctx.Notes block x := by
  obtain ⟨m, b, hm, hb, hx⟩ := notes_iff.mp h
  rw [mark?_alloc] at hm
  split at hm
  · cases hm
    exact Or.inl ⟨b, hb, hx⟩
  · exact Or.inr (notes_iff.mpr ⟨m, b, hm, hb, hx⟩)

/-- Hiding a symbol is noted in its mark and nowhere else. -/
theorem mark?_hide (sym x : SymbolId) :
    ((Edit.hide sym).write ctx).mark? x = (ctx.mark? x).map (·.hide (decide (x = sym))) := by
  simp only [mark?, Edit.write, get?_update]
  cases ctx.arena.get? x with
  | none => split <;> rfl
  | some s =>
    by_cases hx : x = sym
    · simp [if_pos hx, Symbol.mark, Mark.hide, decide_eq_true hx]
    · simp [if_neg hx, Mark.hide, decide_eq_false hx]

/-- A nested variable gets the level of the block, and the block takes note of it. -/
theorem mark?_nest (block sym x : SymbolId) (level : Nat) :
    ((Edit.nest block sym level).write ctx).mark? x = (ctx.mark? x).map fun m =>
      { m with
        level := if x = sym then level else m.level
        block? := if x = block then m.block?.map fun b => { b with vars := b.vars ++ [sym] }
          else m.block? } := by
  -- The variable and the block may be one symbol, so both updates are gone through.
  cases hx : ctx.arena.get? x with
  | none =>
    have hnone : ((Edit.nest block sym level).write ctx).arena.get? x = none := by
      simp only [Edit.write, get?_update, hx]
      split <;> split <;> rfl
    rw [mark?_eq_none_iff.mpr hnone, mark?_eq_none_iff.mpr hx, Option.map_none]
  | some s =>
    rw [mark?_of_get? (get?_nest block sym level hx), mark?_of_get? hx, Option.map_some]
    simp only [Symbol.mark, apply_ite SymbolKind.block?, SymbolKind.block?_noting]

/-! ### Calls that leave the marks alone -/

/-- Marks stay, and new symbols come without. -/
structure Steady (a b : Context) : Prop where
  kept : ∀ {x m}, a.mark? x = some m → b.mark? x = some m
  blank : ∀ {x m}, a.mark? x = none → b.mark? x = some m → m = {}

/-- Equal marks are steady. -/
theorem Steady.of_eq (h : b.mark? = a.mark?) : a.Steady b := by
  refine ⟨fun hm => h ▸ hm, fun hnone hsome => ?_⟩
  rw [h, hnone] at hsome
  cases hsome

/-- One steady change follows another. -/
theorem Steady.trans (hab : a.Steady b) (hbc : b.Steady c) : a.Steady c := by
  refine ⟨fun hm => hbc.kept (hab.kept hm), fun {x m} hnone hsome => ?_⟩
  cases hb : b.mark? x with
  | none => exact hbc.blank hb hsome
  | some m' =>
    have hm := hbc.kept hb
    rw [hsome] at hm
    rw [Option.some.inj hm]
    exact hab.blank hnone hb

/-- A mark after steady calls is that from before, or there is none yet. -/
theorem Steady.mark_cases (h : a.Steady b) (hm : b.mark? x = some m) :
    a.mark? x = some m ∨ m = {} := by
  cases hx : a.mark? x with
  | none => exact Or.inr (h.blank hx hm)
  | some m' =>
    have hkept := h.kept hx
    rw [hm] at hkept
    exact Or.inl hkept.symm

end Context

/-- An edit that leaves blocks alone is steady. -/
theorem Edit.Leaves.steady {func : SymbolId} {opened : Prop} {ctx : Context} {e : Edit}
    (h : Edit.Leaves func opened False ctx e) : ctx.Steady (e.write ctx) := by
  cases e with
  | alloc s =>
    -- Only new symbols get a mark, and it is the empty one.
    rcases h with hunmarked | hfalse
    · refine ⟨fun {x m} hm => ?_, fun {x m} hnone hm => ?_⟩
      · exact Context.mark?_alloc_of_some s hm
      · rw [Context.mark?_alloc, hnone] at hm
        split at hm
        · exact (Option.some.inj hm).symm.trans hunmarked.mark_eq
        · cases hm
    · exact hfalse.elim
  | enter scope sym => exact .of_eq (Context.mark?_withMember scope sym)
  | nest => exact h.elim
  | param => exact .of_eq (Context.mark?_update fun s => s.mark_withParam _ _)
  | capture lambda copy c =>
    exact .of_eq ((Context.mark?_update fun s => s.mark_withCapture c).trans
      (Context.mark?_withMember lambda copy))
  | creator => exact .of_eq (Context.mark?_update fun s => s.mark_withCreator _)
  | hide => exact h.elim
  | link =>
    refine .of_eq ?_
    simp only [Edit.write]
    split <;> rfl
  | newSlot => exact .of_eq rfl
  | fill => exact .of_eq rfl
  | keep => exact .of_eq rfl
  | storage => exact .of_eq rfl

/-- All calls but four leave the marks alone. -/
theorem Op.steady_next {ctx : Context} {func : SymbolId} (op : Op) (hold : ctx.Exists func)
    (hop : op.handlesBlocks = false) : ctx.Steady (op.next ctx) := by
  have hedits : Edits (Edit.Leaves func True False) ctx (op.next ctx) :=
    op.next_leaves hold (fun _ => trivial) (by simp [hop])
  exact hedits.relates (fun _ => .of_eq rfl) (fun _ _ _ => .trans) fun _ _ => Edit.Leaves.steady

/-! ### Hiding -/

namespace Context

variable {ctx : Context}

/-- The context with these variables hidden. -/
def withHidden (ctx : Context) (gone : List SymbolId) : Context :=
  gone.foldl (fun c v => (Edit.hide v).write c) ctx

/-- After several symbols were hidden, each mark says whether its symbol is one of them. -/
theorem mark?_withHidden (gone : List SymbolId) (x : SymbolId) :
    (ctx.withHidden gone).mark? x = (ctx.mark? x).map (·.hide (decide (x ∈ gone))) := by
  induction gone generalizing ctx with
  | nil => simp [withHidden, Mark.hide]
  | cons v rest ih =>
    have hstep : ctx.withHidden (v :: rest) = ((Edit.hide v).write ctx).withHidden rest := rfl
    rw [hstep, ih, mark?_hide, Option.map_map]
    congr 1
    funext m
    simp [Mark.hide, Bool.or_assoc]

/-- The same for a symbol that exists. -/
theorem mark?_withHidden_of_some (gone : List SymbolId) {x : SymbolId} {m : Mark}
    (hm : ctx.mark? x = some m) :
    (ctx.withHidden gone).mark? x = some (m.hide (decide (x ∈ gone))) := by
  rw [mark?_withHidden, hm, Option.map_some]

/-- Blocks stay with their functions. -/
theorem frame?_withHidden (gone : List SymbolId) : (ctx.withHidden gone).frame? = ctx.frame? := by
  funext x
  rw [frame?_eq_mark?, mark?_withHidden, frame?_eq_mark?]
  cases ctx.mark? x <;> rfl

/-- Blocks keep their variables. -/
theorem notes_withHidden {gone : List SymbolId} {block x : SymbolId} :
    (ctx.withHidden gone).Notes block x ↔ ctx.Notes block x := by
  rw [notes_iff, mark?_withHidden, notes_iff]
  cases ctx.mark? block <;> simp [Mark.hide]

/-- Scopes keep their members. -/
theorem members?_withHidden (gone : List SymbolId) :
    (ctx.withHidden gone).members? = ctx.members? := by
  induction gone generalizing ctx with
  | nil => rfl
  | cons v rest ih => exact ih.trans (members?_update fun _ => rfl)

/-- Hiding is growth. -/
theorem grows_withHidden (gone : List SymbolId) : ctx.Grows (ctx.withHidden gone) := by
  induction gone generalizing ctx with
  | nil => exact .refl ctx
  | cons v rest ih => exact (ctx.grows_update v fun s => s.grows_hide).trans ih

end Context

/-- Variables that exist are hidden one after the other. -/
theorem SemaM.forM_markOutOfScope {ctx : Context} {vars : List SymbolId}
    (hvars : ∀ v ∈ vars, ctx.Exists v) :
    (vars.forM markOutOfScope : SemaM Unit) ctx = .ok () (ctx.withHidden vars) := by
  induction vars generalizing ctx with
  | nil => rfl
  | cons v rest ih =>
    obtain ⟨s, hs⟩ := hvars v List.mem_cons_self
    -- Each variable is marked in turn, and those that follow stay where they are.
    have hhead : markOutOfScope v ctx = .ok () ((Edit.hide v).write ctx) := modifySymbol_run _ hs
    have hrest : ∀ w ∈ rest, ((Edit.hide v).write ctx).Exists w :=
      fun w hw => Context.exists_update (hvars w (List.mem_cons_of_mem v hw))
    show (markOutOfScope v >>= fun _ => rest.forM markOutOfScope) ctx = _
    rw [bind_of_ok hhead]
    exact ih hrest

namespace Op

variable {ctx : Context}

/-- A call that hides one symbol. An unknown id changes nothing, and neither does hiding it. -/
theorem next_markOutOfScope (sym : SymbolId) :
    (Op.markOutOfScope sym).next ctx = ctx.withHidden [sym] := by
  show SemaM.after (SemaM.modifySymbol sym _) ctx = ctx.update sym _
  cases hs : ctx.arena.get? sym <;> simp [SemaM.after, SemaM.modifySymbol, Context.update, hs]

/-- A block that is closed hides what it has noted, and what is no block hides nothing. -/
theorem next_closeBlock (hsound : ctx.Sound) (hframed : ctx.Framed) (block : SymbolId) :
    (Op.closeBlock block).next ctx = ctx.withHidden (ctx.noted block) := by
  show SemaM.after (SemaM.closeBlock block) ctx = _
  -- A call on an unknown id fails, and then there are no variables to hide.
  cases ho : ctx.arena.get? block with
  | none =>
    have hfails : SemaM.closeBlock block ctx = .error (.danglingSymbol block) ctx :=
      SemaM.bind_of_error (SemaM.query_of_error (Context.symbol_of_none ho))
    rw [SemaM.after, hfails, Context.noted, ho]
    rfl
  | some o =>
    have hruns : SemaM.closeBlock block ctx = .ok () (ctx.withHidden o.kind.vars) := by
      unfold SemaM.closeBlock
      rw [SemaM.bind_of_ok (SemaM.symbol_run ho)]
      cases hk : o.kind with
      | block b =>
        refine SemaM.forM_markOutOfScope fun v hv => ?_
        -- Each variable of the block is a member of a scope, so it exists and hiding it succeeds.
        obtain ⟨p, -, hheld⟩ := hframed.noted ⟨o, ho, by rw [hk]; exact hv⟩
        exact hsound.exists_of_holds hheld
      | _ => rfl
    rw [SemaM.after_ok hruns, Context.noted, ho]
    rfl

end Op

/-! ### Opening a block -/

/-- What a block is like that is opened in a scope: in a block one of the same function and one
level deeper, in a function one of the first level. -/
def Context.blockIn? (ctx : Context) (parent : SymbolId) : Option BlockInfo :=
  (ctx.arena.get? parent).bind fun o =>
    match o.kind with
    | .block b => some { func := b.func, level := b.level + 1 }
    | .func _ => some { func := parent, level := 1 }
    | _ => none

/-- A new block is in the frame of the scope that it is opened in, and has noted nothing. -/
theorem Context.func_of_blockIn? {ctx : Context} {parent : SymbolId} {b : BlockInfo}
    (h : ctx.blockIn? parent = some b) : b.func = ctx.home parent ∧ b.vars = [] := by
  obtain ⟨o, ho, hb⟩ := Option.bind_eq_some_iff.mp h
  have hframe : ctx.frame? parent = o.kind.frame? := frame?_of_get? ho
  cases hk : o.kind with
  | block info =>
    rw [hk] at hb hframe
    cases hb
    exact ⟨(home_of_frame? hframe).symm, rfl⟩
  | func info =>
    rw [hk] at hb hframe
    cases hb
    exact ⟨(home_of_none hframe).symm, rfl⟩
  | _ =>
    rw [hk] at hb
    cases hb

/-- Opening a block makes the block and nothing else, or fails and makes nothing. -/
theorem Op.next_openBlock (ctx : Context) (parent : SymbolId) (location : Option Location) :
    (ctx.blockIn? parent = none ∧ (Op.openBlock parent location).next ctx = ctx) ∨
      ∃ b s, ctx.blockIn? parent = some b ∧ s.mark = { block? := some b } ∧
        (Op.openBlock parent location).next ctx = (Edit.alloc s).write ctx := by
  have hnext : (Op.openBlock parent location).next ctx
      = SemaM.after (SemaM.openBlock parent location) ctx := SemaM.after_forget _
  rw [hnext]
  cases ho : ctx.arena.get? parent with
  | none =>
    have hfails : SemaM.openBlock parent location ctx = .error (.danglingSymbol parent) ctx :=
      SemaM.bind_of_error (SemaM.query_of_error (Context.symbol_of_none ho))
    refine Or.inl ⟨by simp [Context.blockIn?, ho], ?_⟩
    rw [SemaM.after, hfails]
  | some o =>
    unfold SemaM.openBlock
    rw [SemaM.after, SemaM.bind_of_ok (SemaM.symbol_run ho)]
    -- A block is opened in a block or in a function. All other symbols refuse.
    cases hk : o.kind with
    | block b => exact Or.inr ⟨_, _, by simp [Context.blockIn?, ho, hk], rfl, rfl⟩
    | func info => exact Or.inr ⟨_, _, by simp [Context.blockIn?, ho, hk], rfl, rfl⟩
    | _ => exact Or.inl ⟨by simp [Context.blockIn?, ho, hk], rfl⟩

/-! ### Definitions -/

namespace Context

variable {ctx : Context} {scope : SymbolId}

/-- A definition that names no block leaves the marks alone. -/
theorem mark?_withDefinition_of_none (h : ctx.frame? scope = none) (owner sym : SymbolId) :
    (ctx.withDefinition scope owner sym).mark? = ctx.mark? := by
  rw [withDefinition_of_none h]
  exact mark?_withMember owner sym

/-- A definition in a block puts the symbol on the level of the block, which notes it. -/
theorem mark?_withDefinition_of_block {o : Symbol} {b : BlockInfo}
    (ho : ctx.arena.get? scope = some o) (hk : o.kind = .block b) (owner sym x : SymbolId) :
    (ctx.withDefinition scope owner sym).mark? x = (ctx.mark? x).map fun m =>
      { m with
        level := if x = sym then b.level else m.level
        block? := if x = scope then m.block?.map fun b => { b with vars := b.vars ++ [sym] }
          else m.block? } := by
  rw [withDefinition_of_block ho hk, mark?_nest]
  exact congrArg (Option.map _) (congrFun (mark?_withMember owner sym) x)

/-- The notes after a definition: the old ones, and that of the block that the definition names. -/
theorem notes_withDefinition {owner sym block x : SymbolId}
    (h : (ctx.withDefinition scope owner sym).Notes block x) :
    ctx.Notes block x ∨ (block = scope ∧ x = sym) := by
  cases hframe : ctx.frame? scope with
  | none =>
    rw [notes_iff, mark?_withDefinition_of_none hframe, ← notes_iff] at h
    exact Or.inl h
  | some func =>
    -- A definition through a block adds one note, in that block.
    obtain ⟨o, info, ho, hk, rfl⟩ := exists_block_of_frame? hframe
    obtain ⟨m', b', hm', hb', hx⟩ := notes_iff.mp h
    rw [mark?_withDefinition_of_block ho hk, Option.map_eq_some_iff] at hm'
    obtain ⟨m, hm, rfl⟩ := hm'
    dsimp only at hb'
    split at hb'
    · rename_i hblock
      obtain ⟨b, hb, rfl⟩ := Option.map_eq_some_iff.mp hb'
      rcases List.mem_append.mp hx with hx | hx
      · exact Or.inl (notes_iff.mpr ⟨m, b, hm, hb, hx⟩)
      · exact Or.inr ⟨hblock, List.mem_singleton.mp hx⟩
    · exact Or.inl (notes_iff.mpr ⟨m, b', hm, hb', hx⟩)

/-- No definition moves a block to another function. -/
theorem frame?_withDefinition (ctx : Context) (scope owner sym : SymbolId) :
    (ctx.withDefinition scope owner sym).frame? = ctx.frame? := by
  funext x
  -- Defining in a block writes to the block as well.
  cases hframe : ctx.frame? scope with
  | none => rw [frame?_eq_mark?, mark?_withDefinition_of_none hframe, ← frame?_eq_mark?]
  | some func =>
    obtain ⟨o, b, ho, hk, rfl⟩ := exists_block_of_frame? hframe
    rw [frame?_eq_mark?, mark?_withDefinition_of_block ho hk, frame?_eq_mark?]
    cases ctx.mark? x with
    | none => rfl
    | some m =>
      by_cases hx : x = scope
      · simp [if_pos hx, Function.comp_def]
      · simp [if_neg hx]

end Context

/-- A definition fails and changes nothing, or the home of the scope takes the symbol in. -/
theorem Op.next_define (ctx : Context) (scope sym : SymbolId) :
    ((∃ e, SemaM.define scope sym ctx = .error e ctx) ∧ (Op.define scope sym).next ctx = ctx) ∨
      ∃ s p, ctx.arena.get? sym = some s ∧ ctx.arena.get? (ctx.home scope) = some p ∧
        s.name ∉ p.members.keys ∧
        SemaM.define scope sym ctx = .ok () (ctx.withDefinition scope (ctx.home scope) sym) ∧
        (Op.define scope sym).next ctx = ctx.withDefinition scope (ctx.home scope) sym := by
  show (_ ∧ SemaM.after (SemaM.define scope sym) ctx = ctx) ∨
    ∃ s p, _ ∧ _ ∧ _ ∧ _ ∧ SemaM.after (SemaM.define scope sym) ctx = _
  rcases SemaM.define_outcome scope sym with ⟨e, hfails⟩ | ⟨s, p, hs, hp, hnew, hruns⟩
  · exact Or.inl ⟨⟨e, hfails⟩, by rw [SemaM.after, hfails]⟩
  · exact Or.inr ⟨s, p, hs, hp, hnew, hruns, SemaM.after_ok hruns⟩

/-! ### Levels -/

/-- What no block has noted is on level 0. -/
def Context.Leveled (ctx : Context) : Prop :=
  ∀ x m, ctx.mark? x = some m → m.level ≠ 0 → ∃ block, ctx.Notes block x

/-- Only a definition in a block changes a level, and then the block has noted the symbol. -/
theorem Op.level_next {ctx : Context} (hglobals : ctx.Exists Context.globals) (hsound : ctx.Sound)
    (hframed : ctx.Framed) (op : Op) {x : SymbolId} {m : Mark}
    (hm : (op.next ctx).mark? x = some m) :
    m.level = 0 ∨ (∃ m₀, ctx.mark? x = some m₀ ∧ m₀.level = m.level) ∨
      ∃ block, (op.next ctx).Notes block x := by
  -- Hiding leaves all levels as they are.
  have hhidden : ∀ gone, (ctx.withHidden gone).mark? x = some m →
      ∃ m₀, ctx.mark? x = some m₀ ∧ m₀.level = m.level := by
    intro gone hm
    rw [Context.mark?_withHidden, Option.map_eq_some_iff] at hm
    obtain ⟨m₀, hm₀, rfl⟩ := hm
    exact ⟨m₀, hm₀, rfl⟩
  cases op with
  | define scope sym =>
    rcases next_define ctx scope sym with ⟨-, hnext⟩ | ⟨s, p, -, -, -, hruns, hnext⟩
    · rw [hnext] at hm
      exact Or.inr (Or.inl ⟨m, hm, rfl⟩)
    rw [hnext] at hm ⊢
    cases hframe : ctx.frame? scope with
    | none =>
      -- No block is named, so no mark changes.
      rw [Context.mark?_withDefinition_of_none hframe] at hm
      exact Or.inr (Or.inl ⟨m, hm, rfl⟩)
    | some func =>
      obtain ⟨o, b, ho, hk, rfl⟩ := Context.exists_block_of_frame? hframe
      by_cases hx : x = sym
      · subst hx
        exact Or.inr (Or.inr ⟨scope, SemaM.notes_of_define ho hk hruns⟩)
      · rw [Context.mark?_withDefinition_of_block ho hk, Option.map_eq_some_iff] at hm
        obtain ⟨m₀, hm₀, rfl⟩ := hm
        exact Or.inr (Or.inl ⟨m₀, hm₀, (if_neg hx).symm⟩)
  | markOutOfScope sym =>
    rw [next_markOutOfScope] at hm
    exact Or.inr (Or.inl (hhidden _ hm))
  | closeBlock block =>
    rw [next_closeBlock hsound hframed] at hm
    exact Or.inr (Or.inl (hhidden _ hm))
  | openBlock parent location =>
    rcases next_openBlock ctx parent location with ⟨-, hnext⟩ | ⟨b, s, -, hmark, hnext⟩
    · rw [hnext] at hm
      exact Or.inr (Or.inl ⟨m, hm, rfl⟩)
    · rw [hnext, Context.mark?_alloc] at hm
      split at hm
      · rw [hmark] at hm
        cases hm
        exact Or.inl rfl
      · exact Or.inr (Or.inl ⟨m, hm, rfl⟩)
  | _ =>
    rcases (steady_next _ hglobals rfl).mark_cases hm with hkept | hblank
    · exact Or.inr (Or.inl ⟨m, hkept, rfl⟩)
    · rw [hblank]
      exact Or.inl rfl

/-- To begin with, all symbols are on level zero. -/
theorem Context.initial_leveled : Context.initial.Leveled := by
  have hall : Context.initial.arena.symbols.toList.all (·.level = 0) = true := by decide +kernel
  intro x m hm hlevel
  obtain ⟨s, hs, rfl⟩ := get?_of_mark? hm
  have hzero := of_decide_eq_true (List.all_eq_true.mp hall s (mem_symbols_of_get? hs))
  exact absurd hzero hlevel

/-- In every state, a symbol on another level is noted by a block. -/
theorem Reached.leveled {allowed : Context → Op → Prop} {ctx : Context} (h : Reached allowed ctx) :
    ctx.Leveled := by
  induction h with
  | initial => exact Context.initial_leveled
  | @step ctx op h hop ih =>
    intro x m hm hlevel
    obtain ⟨g, hg, -⟩ := Context.isGlobal_globals h
    -- A call leaves a symbol on level zero, leaves its level alone, or has it noted by a block.
    rcases op.level_next ⟨g, hg⟩ h.sound h.framed hm with hzero | ⟨m₀, hm₀, hsame⟩ | hnoted
    · exact absurd hzero hlevel
    · obtain ⟨block, hnotes⟩ := ih x m₀ hm₀ (hsame ▸ hlevel)
      exact ⟨block, (op.grows ctx).notes hnotes⟩
    · exact hnoted

end Sema

import Sema.Proofs.DefinitionOrder
import Sema.Proofs.Sealing

/-!
# `Sema.Proofs.DefinitionEffect`: when a definition is refused and what it writes

A definition names a scope and a symbol. `Context.home` is the scope that keeps the symbol: the
function around a block, and else the scope that was named. `Context.Barred` says of a scope that it
takes no definitions at all, and `Context.Repeats` that a definition would bring in a name for the
second time. `SemaM.define_trichotomy` goes through the kinds of scopes once: nothing but these two
decides on a definition.

`Context.Defines` compares the contexts before and after a definition that is accepted. It says of
every part of every symbol whether it changes, also where the scope, the symbol and the home are not
three different symbols. `definition_exact` puts all of it together for the reached contexts.
-/

set_option autoImplicit false

namespace Sema

/-- What is particular to a block, if the symbol is one. -/
def SymbolKind.block? : SymbolKind → Option BlockInfo
  | .block b => some b
  | _ => none

/-- The kind of a block that has taken note of one more variable. Other kinds keep no notes. -/
def SymbolKind.noting (sym : SymbolId) : SymbolKind → SymbolKind
  | .block b => .block { b with vars := b.vars ++ [sym] }
  | kind => kind

/-- Noting a variable changes the kind of a symbol and nothing else. -/
theorem Symbol.withBlockVar_eq (s : Symbol) (sym : SymbolId) :
    s.withBlockVar sym = { s with kind := s.kind.noting sym } := by
  unfold Symbol.withBlockVar
  cases s with
  | mk name kind => cases kind <;> rfl

/-- Only blocks note variables. -/
theorem SymbolKind.noting_of_frame? {kind : SymbolKind} (h : kind.frame? = none) (sym : SymbolId) :
    kind.noting sym = kind := by
  cases kind with
  | block b => cases h
  | _ => rfl

namespace Context

variable {ctx : Context} {scope sym : SymbolId} {o s : Symbol} {name : String}

/-- The scope that keeps what is defined in this one. -/
def home (ctx : Context) (scope : SymbolId) : SymbolId := (ctx.frame? scope).getD scope

/-- The scope takes no definitions: it is an enum or a native function. -/
def Barred (ctx : Context) (scope : SymbolId) : Prop :=
  (∃ o, ctx.arena.get? scope = some o ∧ o.kind = .enumDecl) ∨ ctx.IsNative scope

/-- A scope other than the one that would keep the name has it, and must not have it: the super
class of a class, or a linked scope beside the global scope or a module. -/
def RepeatsOther (ctx : Context) (scope : SymbolId) (name : String) : Prop :=
  (∃ parent, ctx.superClass? scope = some parent ∧ ctx.Taken parent name) ∨
    (ctx.IsGlobal scope ∧ ctx.ShownBeside scope name)

/-- A definition in the scope would bring in the name for the second time. -/
def Repeats (ctx : Context) (scope : SymbolId) (name : String) : Prop :=
  ctx.Taken (ctx.home scope) name ∨ ctx.RepeatsOther scope name

/-- What a definition of `sym` in `scope`, kept by `owner`, makes of each symbol, and all that it
makes of the context. -/
structure Defines (before after : Context) (scope owner sym : SymbolId) (name : String) : Prop where
  slots : after.slots = before.slots
  links : after.links = before.links
  structural : after.structural = before.structural
  storages : after.storages = before.storages
  size : after.arena.size = before.arena.size
  /-- The owner gets the symbol as its last member. -/
  gained : after.members? owner = (before.members? owner).map (· ++ [(name, sym)])
  owned : after.owner? sym = some owner
  /-- A symbol changes in its members only if it is the owner, in its place only if it is the one
  defined, and in its notes only if it is the block that was named. -/
  only : ∀ {x t}, before.arena.get? x = some t → ∃ t', after.arena.get? x = some t' ∧
    t' = { t with
      kind := t'.kind, scope := t'.scope, slot := t'.slot, level := t'.level
      members := t'.members } ∧
    (x ≠ owner → t'.members = t.members) ∧
    (x ≠ sym → t'.scope = t.scope ∧ t'.slot = t.slot ∧ t'.level = t.level) ∧
    t'.kind = if x = scope then t.kind.noting sym else t.kind

/-- The home of a block is its function. -/
theorem home_of_frame? {func : SymbolId} (h : ctx.frame? scope = some func) :
    ctx.home scope = func := by
  rw [home, h, Option.getD_some]

/-- Every other scope is its own home. -/
theorem home_of_none (h : ctx.frame? scope = none) : ctx.home scope = scope := by
  rw [home, h, Option.getD_none]

/-- A block belongs to its function. -/
theorem frame?_of_block {b : BlockInfo} (ho : ctx.arena.get? scope = some o)
    (hk : o.kind = .block b) : ctx.frame? scope = some b.func := by
  rw [frame?_of_get? ho, hk]
  rfl

/-- What belongs to a function is a block of it. -/
theorem exists_block_of_frame? {func : SymbolId} (h : ctx.frame? scope = some func) :
    ∃ o b, ctx.arena.get? scope = some o ∧ o.kind = .block b ∧ b.func = func := by
  obtain ⟨o, ho, hframe⟩ := Option.bind_eq_some_iff.mp h
  cases hk : o.kind with
  | block b =>
    rw [hk] at hframe
    exact ⟨o, b, ho, hk, Option.some.inj hframe⟩
  | _ =>
    rw [hk] at hframe
    cases hframe

/-- The scope that keeps what is defined in an existing one exists. -/
theorem Framed.exists_home (h : ctx.Framed) (hscope : ctx.Exists scope) :
    ctx.Exists (ctx.home scope) := by
  cases hframe : ctx.frame? scope with
  | none => rwa [home_of_none hframe]
  | some func =>
    rw [home_of_frame? hframe]
    obtain ⟨f, info, hf, -⟩ := h.func hframe
    exact ⟨f, hf⟩

/-- No block keeps what is defined in a scope. -/
theorem Framed.frame?_home (h : ctx.Framed) : ctx.frame? (ctx.home scope) = none := by
  cases hframe : ctx.frame? scope with
  | none => rwa [home_of_none hframe]
  | some func =>
    rw [home_of_frame? hframe]
    obtain ⟨f, info, hf, hk⟩ := h.func hframe
    rw [frame?_of_get? hf, hk]
    rfl

/-! ### Who is asked -/

/-- Enums and native functions are barred. -/
theorem barred_iff (ho : ctx.arena.get? scope = some o) :
    ctx.Barred scope ↔
      o.kind = .enumDecl ∨ ∃ info, o.kind = .func info ∧ info.flavor.isNative = true := by
  rw [Barred, isNative_iff]
  constructor
  · rintro (⟨o', ho', hk⟩ | ⟨o', info, ho', hk, hnative⟩)
    all_goals
      rw [ho] at ho'
      cases ho'
    · exact Or.inl hk
    · exact Or.inr ⟨info, hk, hnative⟩
  · rintro (hk | ⟨info, hk, hnative⟩)
    · exact Or.inl ⟨o, ho, hk⟩
    · exact Or.inr ⟨o, info, ho, hk, hnative⟩

/-- The global scope and the modules are global. -/
theorem isGlobal_iff (ho : ctx.arena.get? scope = some o) :
    ctx.IsGlobal scope ↔ o.kind = .globalScope ∨ o.kind = .moduleScope := by
  constructor
  · rintro ⟨o', ho', hk⟩
    rw [ho] at ho'
    cases ho'
    exact hk
  · intro hk
    exact ⟨o, ho, hk⟩

/-- Only a class, the global scope and a module ask others about a name. -/
theorem not_repeatsOther (ho : ctx.arena.get? scope = some o) (hclass : o.kind.class? = none)
    (hglobal : o.kind ≠ .globalScope) (hmodule : o.kind ≠ .moduleScope) :
    ¬ctx.RepeatsOther scope name := by
  rintro (⟨parent, hparent, -⟩ | ⟨hscope, -⟩)
  · rw [superClass?_eq, ho, Option.bind_some, hclass] at hparent
    cases hparent
  · rcases (isGlobal_iff ho).mp hscope with hk | hk
    · exact hglobal hk
    · exact hmodule hk

/-- A class asks its super class and no other. -/
theorem repeatsOther_class_iff {info : ClassInfo} (ho : ctx.arena.get? scope = some o)
    (hk : o.kind = .classDecl info) :
    ctx.RepeatsOther scope name ↔
      ∃ parent, info.superClass = some parent ∧ ctx.Taken parent name := by
  rw [RepeatsOther, isGlobal_iff ho, superClass?_of_class ho hk, hk]
  simp

/-- A class owns what is defined in it unless its super class has the name. -/
theorem Descends.ownerFor_class (h : ctx.Descends) {info : ClassInfo}
    (ho : ctx.arena.get? scope = some o) (hk : o.kind = .classDecl info)
    (hs : ctx.arena.get? sym = some s) :
    (ctx.RepeatsOther scope s.name ∧ ctx.ownerFor scope sym = .error s.duplicate) ∨
      (¬ctx.RepeatsOther scope s.name ∧ ctx.ownerFor scope sym = .ok scope) := by
  rw [repeatsOther_class_iff ho hk]
  cases hsuper : info.superClass with
  | none =>
    refine Or.inr ⟨by simp, ?_⟩
    simp only [ownerFor, symbol_of_get? ho, bind, Except.bind, hk, hsuper]
    rfl
  | some parent =>
    -- The super class exists, so it can be asked.
    obtain ⟨-, q, -, hq, -⟩ := h ((superClass?_of_class ho hk).trans hsuper)
    have howner : ctx.ownerFor scope sym
        = if q.members.contains s.name then .error s.duplicate else .ok scope := by
      simp only [ownerFor, symbol_of_get? ho, symbol_of_get? hs, symbol_of_get? hq, bind,
        Except.bind, hk, hsuper]
      rfl
    rw [howner]
    by_cases hkey : s.name ∈ q.members.keys
    · exact Or.inl ⟨⟨parent, rfl, q, hq, hkey⟩, if_pos ((Assoc.contains_iff _ _).mpr hkey)⟩
    · refine Or.inr ⟨?_, if_neg (hkey ∘ (Assoc.contains_iff _ _).mp)⟩
      · rintro ⟨p, hp, htaken⟩
        cases hp
        exact (not_taken_iff hq).mpr ((Assoc.find?_eq_none_iff _ _).mpr hkey) htaken

/-- The global scope and a module ask the other links. -/
theorem Sound.ownerFor_global (h : ctx.Sound) (hlinks : ∀ link ∈ ctx.links, ctx.Exists link)
    (ho : ctx.arena.get? scope = some o) (hk : o.kind = .globalScope ∨ o.kind = .moduleScope)
    (hs : ctx.arena.get? sym = some s) :
    (ctx.RepeatsOther scope s.name ∧ ctx.ownerFor scope sym = .error s.duplicate) ∨
      (¬ctx.RepeatsOther scope s.name ∧ ctx.ownerFor scope sym = .ok scope) := by
  have hscope := (isGlobal_iff ho).mpr hk
  -- Such a scope has no super class, so only links can have the name.
  have hnone : ctx.superClass? scope = none := by
    rw [superClass?_eq, ho, Option.bind_some]
    rcases hk with hk | hk <;> rw [hk] <;> rfl
  rcases h.ownerFor_cases hlinks hscope hs with ⟨hshown, herror⟩ | ⟨hfree, hok⟩
  · exact Or.inl ⟨Or.inr ⟨hscope, hshown⟩, herror⟩
  · refine Or.inr ⟨?_, hok⟩
    rintro (⟨parent, hparent, -⟩ | ⟨-, hshown⟩)
    · rw [hnone] at hparent
      cases hparent
    · exact hfree hshown

/-- An enum and a native function take no definitions. -/
theorem ownerFor_of_barred (h : ctx.Barred scope) (ho : ctx.arena.get? scope = some o)
    (hs : ctx.arena.get? sym = some s) :
    ctx.ownerFor scope sym = .error (.defineNotAllowed s.place o.name) := by
  rcases (barred_iff ho).mp h with hk | ⟨info, hk, hnative⟩
  · simp only [ownerFor, symbol_of_get? ho, symbol_of_get? hs, bind, Except.bind, hk]
    rfl
  · exact ownerFor_of_native (isNative_iff.mpr ⟨o, info, ho, hk, hnative⟩) ho hs

/-- A scope that asks nobody keeps what is defined in it, but a block hands it to its function. -/
theorem ownerFor_of_quiet (ho : ctx.arena.get? scope = some o) (hopen : ¬ctx.Barred scope)
    (hclass : o.kind.class? = none) (hglobal : o.kind ≠ .globalScope)
    (hmodule : o.kind ≠ .moduleScope) : ctx.ownerFor scope sym = .ok (ctx.home scope) := by
  have hframe : ctx.frame? scope = o.kind.frame? := frame?_of_get? ho
  cases hk : o.kind with
  | enumDecl => exact absurd ((barred_iff ho).mpr (Or.inl hk)) hopen
  | classDecl info =>
    rw [hk] at hclass
    cases hclass
  | globalScope => exact absurd hk hglobal
  | moduleScope => exact absurd hk hmodule
  | func info =>
    -- Native functions are barred, so this one is not native.
    have hnative : info.flavor.isNative = false :=
      Bool.eq_false_iff.mpr fun hnative => hopen ((barred_iff ho).mpr (Or.inr ⟨info, hk, hnative⟩))
    rw [hk] at hframe
    rw [home_of_none hframe]
    exact SemaM.ownerFor_func sym ho hk hnative
  | block b =>
    rw [home_of_frame? (frame?_of_block ho hk)]
    simp only [ownerFor, symbol_of_get? ho, bind, Except.bind, hk]
    rfl
  | _ =>
    rw [hk] at hframe
    rw [home_of_none hframe]
    simp only [ownerFor, symbol_of_get? ho, bind, Except.bind, hk]
    rfl

/-- A scope that takes definitions refuses a name that another scope has, and keeps the rest. -/
theorem ownerFor_of_open (hsound : ctx.Sound) (hdescends : ctx.Descends)
    (hlinks : ∀ link ∈ ctx.links, ctx.Exists link) (ho : ctx.arena.get? scope = some o)
    (hs : ctx.arena.get? sym = some s) (hopen : ¬ctx.Barred scope) :
    (ctx.RepeatsOther scope s.name ∧ ctx.ownerFor scope sym = .error s.duplicate) ∨
      (¬ctx.RepeatsOther scope s.name ∧ ctx.ownerFor scope sym = .ok (ctx.home scope)) := by
  have hframe : ctx.frame? scope = o.kind.frame? := frame?_of_get? ho
  -- Scopes of all other kinds repeat no other scope's names.
  have hquiet : o.kind.class? = none → o.kind ≠ .globalScope → o.kind ≠ .moduleScope →
      ¬ctx.RepeatsOther scope s.name ∧ ctx.ownerFor scope sym = .ok (ctx.home scope) := by
    intro hclass hglobal hmodule
    exact ⟨not_repeatsOther ho hclass hglobal hmodule,
      ownerFor_of_quiet ho hopen hclass hglobal hmodule⟩
  cases hk : o.kind with
  | classDecl info =>
    rw [hk] at hframe
    rw [home_of_none hframe]
    exact hdescends.ownerFor_class ho hk hs
  | globalScope =>
    rw [hk] at hframe
    rw [home_of_none hframe]
    exact hsound.ownerFor_global hlinks ho (Or.inl hk) hs
  | moduleScope =>
    rw [hk] at hframe
    rw [home_of_none hframe]
    exact hsound.ownerFor_global hlinks ho (Or.inr hk) hs
  | _ => exact Or.inr (hquiet (by rw [hk]; rfl) (by simp [hk]) (by simp [hk]))

/-- Who keeps a definition, over all kinds of scopes. -/
theorem ownerFor_trichotomy (hsound : ctx.Sound) (hdescends : ctx.Descends)
    (hlinks : ∀ link ∈ ctx.links, ctx.Exists link) (ho : ctx.arena.get? scope = some o)
    (hs : ctx.arena.get? sym = some s) :
    (ctx.Barred scope ∧ ctx.ownerFor scope sym = .error (.defineNotAllowed s.place o.name)) ∨
    (¬ctx.Barred scope ∧ ctx.RepeatsOther scope s.name ∧
      ctx.ownerFor scope sym = .error s.duplicate) ∨
    (¬ctx.Barred scope ∧ ¬ctx.RepeatsOther scope s.name ∧
      ctx.ownerFor scope sym = .ok (ctx.home scope)) := by
  by_cases hbarred : ctx.Barred scope
  · exact Or.inl ⟨hbarred, ownerFor_of_barred hbarred ho hs⟩
  · rcases ownerFor_of_open hsound hdescends hlinks ho hs hbarred with hrepeats | hkept
    · exact Or.inr (Or.inl ⟨hbarred, hrepeats⟩)
    · exact Or.inr (Or.inr ⟨hbarred, hkept⟩)

/-! ### What is written -/

/-- An entry changes the members of the scope, and the owner and the slot of the symbol. -/
theorem enter_only (hs : ctx.arena.get? sym = some s) (ho : ctx.arena.get? scope = some o)
    (hnew : s.name ∉ o.members.keys) {x : SymbolId} {t : Symbol} (ht : ctx.arena.get? x = some t) :
    ∃ t', ((Edit.enter scope sym).write ctx).arena.get? x = some t' ∧
      t' = { t with scope := t'.scope, slot := t'.slot, members := t'.members } ∧
      (x ≠ scope → t'.members = t.members) ∧ (x ≠ sym → t'.scope = t.scope ∧ t'.slot = t.slot) := by
  obtain ⟨members, -, hget⟩ := get?_enter hs ho hnew
  -- Written out in full, so that scope and symbol may be one and the same.
  have hafter : ((Edit.enter scope sym).write ctx).arena.get? x = some
      { t with
        scope := if x = sym then some scope else t.scope
        slot := if x = sym then (t.enteredAt scope o.members.size).slot else t.slot
        members := if x = scope then members else t.members } := by
    rw [hget x, ht, Option.map_some]
    dsimp only
    split <;> split <;> rfl
  exact ⟨_, hafter, rfl, fun hne => if_neg hne, fun hne => ⟨if_neg hne, if_neg hne⟩⟩

/-- The note of a block changes the kind of the block and the level of the variable. -/
theorem get?_nest (block sym : SymbolId) (level : Nat) {x : SymbolId} {t : Symbol}
    (ht : ctx.arena.get? x = some t) :
    ((Edit.nest block sym level).write ctx).arena.get? x = some
      { t with
        kind := if x = block then t.kind.noting sym else t.kind
        level := if x = sym then level else t.level } := by
  simp only [Edit.write]
  rw [get?_update, get?_update, ht]
  simp only [Symbol.withBlockVar_eq]
  split <;> split <;> rfl

/-- A definition outside all blocks is a new member and nothing else. -/
theorem defines_enter (hs : ctx.arena.get? sym = some s) (ho : ctx.arena.get? scope = some o)
    (hnew : s.name ∉ o.members.keys) (hframe : ctx.frame? scope = none) :
    ctx.Defines ((Edit.enter scope sym).write ctx) scope scope sym s.name := by
  obtain ⟨o', ho', -, hm'⟩ := get?_enter_scope hs ho hnew
  obtain ⟨hslots, hlinks, hstructural⟩ := ctx.withMember_fields scope sym
  refine ⟨hslots, hlinks, hstructural, ctx.storages_withMember scope sym,
    ctx.size_withMember scope sym, ?_, ?_, ?_⟩
  · rw [members?_of_get? ho', hm', members?_of_get? ho, Option.map_some]
  · rw [owner?_enter hs ho hnew, if_pos rfl]
  · intro x t ht
    -- What is left is that nothing else has changed.
    obtain ⟨t', ht', heq, hmembers, hplace⟩ := enter_only hs ho hnew ht
    have hkind : t'.kind = t.kind := by rw [heq]
    have hlevel : t'.level = t.level := by rw [heq]
    refine ⟨t', ht', by rw [hkind, hlevel]; exact heq, hmembers, fun hne => ?_, ?_⟩
    · exact ⟨(hplace hne).1, (hplace hne).2, hlevel⟩
    · rw [hkind]
      split
      · rename_i hx
        rw [hx] at ht
        rw [frame?_of_get? ht] at hframe
        exact (SymbolKind.noting_of_frame? hframe sym).symm
      · rfl

/-- A definition in a block is a new member of the function, with the block's level and a note in
the block. -/
theorem defines_nest {func : SymbolId} (hs : ctx.arena.get? sym = some s)
    (ho : ctx.arena.get? func = some o) (hnew : s.name ∉ o.members.keys) (block : SymbolId)
    (level : Nat) :
    ctx.Defines ((Edit.nest block sym level).write ((Edit.enter func sym).write ctx)) block func sym
      s.name := by
  obtain ⟨o', ho', -, hm'⟩ := get?_enter_scope hs ho hnew
  obtain ⟨hslots, hlinks, hstructural⟩ := ctx.withMember_fields func sym
  refine ⟨?_, ?_, ?_, ?_, ?_, ?_, ?_, ?_⟩
  · simp only [Edit.write, update_fields, hslots]
  · simp only [Edit.write, update_fields, hlinks]
  · simp only [Edit.write, update_fields, hstructural]
  · simp only [Edit.write, storages_update, storages_withMember]
  · simp only [Edit.write, size_update, size_withMember]
  · rw [members?_nest, members?_of_get? ho', hm', members?_of_get? ho, Option.map_some]
  · -- Level and note do not touch the owner.
    have hnest : ((Edit.nest block sym level).write ((Edit.enter func sym).write ctx)).owner?
        = ((Edit.enter func sym).write ctx).owner? :=
      (owner?_update fun t => t.scope_withBlockVar sym).trans (owner?_update fun _ => rfl)
    rw [hnest, owner?_enter hs ho hnew, if_pos rfl]
  · intro x t ht
    obtain ⟨t₁, ht₁, heq₁, hmembers, hplace⟩ := enter_only hs ho hnew ht
    have hkind : t₁.kind = t.kind := by rw [heq₁]
    have hlevel : t₁.level = t.level := by rw [heq₁]
    refine ⟨_, get?_nest block sym level ht₁, ?_, hmembers, fun hne => ?_, ?_⟩
    · dsimp only
      rw [heq₁]
    · exact ⟨(hplace hne).1, (hplace hne).2, (if_neg hne).trans hlevel⟩
    · dsimp only
      rw [hkind]

/-- The context after a definition that nobody refuses: the owner has the symbol as a member, and a
block has noted it. -/
def withDefinition (ctx : Context) (scope owner sym : SymbolId) : Context :=
  match (ctx.arena.get? scope).bind (·.kind.block?) with
  | some b => (Edit.nest scope sym b.level).write ((Edit.enter owner sym).write ctx)
  | none => (Edit.enter owner sym).write ctx

/-- A definition in a block is entered in the function and noted in the block. -/
theorem withDefinition_of_block {b : BlockInfo} (ho : ctx.arena.get? scope = some o)
    (hk : o.kind = .block b) (owner sym : SymbolId) :
    ctx.withDefinition scope owner sym
      = (Edit.nest scope sym b.level).write ((Edit.enter owner sym).write ctx) := by
  simp only [withDefinition, ho, Option.bind_some, hk, SymbolKind.block?]

/-- A definition outside all blocks is entered and not noted. -/
theorem withDefinition_of_none (h : ctx.frame? scope = none) (owner sym : SymbolId) :
    ctx.withDefinition scope owner sym = (Edit.enter owner sym).write ctx := by
  cases ho : ctx.arena.get? scope with
  | none => simp only [withDefinition, ho, Option.bind_none]
  | some o =>
    rw [frame?_of_get? ho] at h
    cases hk : o.kind with
    | block b =>
      rw [hk] at h
      cases h
    | _ => simp only [withDefinition, ho, Option.bind_some, hk, SymbolKind.block?]

/-- A definition has the effect that it should have, inside and outside of blocks. -/
theorem defines_withDefinition (hs : ctx.arena.get? sym = some s)
    (ho : ctx.arena.get? (ctx.home scope) = some o) (hnew : s.name ∉ o.members.keys) :
    ctx.Defines (ctx.withDefinition scope (ctx.home scope) sym) scope (ctx.home scope) sym
      s.name := by
  cases hframe : ctx.frame? scope with
  | some func =>
    obtain ⟨p, b, hp, hk, rfl⟩ := exists_block_of_frame? hframe
    rw [withDefinition_of_block hp hk]
    exact defines_nest hs ho hnew scope b.level
  | none =>
    rw [home_of_none hframe] at ho ⊢
    rw [withDefinition_of_none hframe]
    exact defines_enter hs ho hnew hframe

/-- After a definition the owner has the symbol under its name. -/
theorem Defines.find? {before after : Context} {owner : SymbolId} {t : Symbol}
    (h : before.Defines after scope owner sym name) (howner : before.Exists owner)
    (ht : after.arena.get? owner = some t) : t.members.find? name = some sym := by
  obtain ⟨o, ho⟩ := howner
  have hentries := h.gained
  rw [members?_of_get? ht, members?_of_get? ho, Option.map_some, Option.some.injEq] at hentries
  rw [Assoc.find?_eq_some_iff, hentries]
  exact List.mem_append_right _ (List.mem_singleton.mpr rfl)

/-- A definition hides and shows nothing. -/
theorem Defines.isHidden {before after : Context} {owner x : SymbolId} {t t' : Symbol}
    (h : before.Defines after scope owner sym name) (ht : before.arena.get? x = some t)
    (ht' : after.arena.get? x = some t') : t'.isHidden = t.isHidden := by
  obtain ⟨t₁, ht₁, heq, -, -, hkind⟩ := h.only ht
  rw [ht'] at ht₁
  cases ht₁
  have hout : t'.outOfScope = t.outOfScope := by rw [heq]
  have hvar : t'.kind.isVariable = t.kind.isVariable := by
    rw [hkind]
    split
    · cases t.kind <;> rfl
    · rfl
  rw [Symbol.isHidden, Symbol.isHidden, hout, hvar]

end Context

namespace SemaM

variable {ctx : Context} {scope sym : SymbolId} {o s : Symbol} {name : String}

/-- A definition that is allowed, of a name that the owner does not have yet. -/
theorem define_of_owner {owner : SymbolId} {p : Symbol} (hs : ctx.arena.get? sym = some s)
    (howner : ctx.ownerFor scope sym = .ok owner) (hp : ctx.arena.get? owner = some p)
    (hnew : s.name ∉ p.members.keys) :
    define scope sym ctx = .ok () (ctx.withDefinition scope owner sym) := by
  obtain ⟨o, ho, -⟩ := Context.ownerFor_eq_ok howner
  obtain ⟨o', ho', heq, -⟩ := Context.enter_only hs hp hnew ho
  have hk' : o'.kind = o.kind := by rw [heq]
  unfold define
  rw [bind_of_ok (query_of_ok howner), bind_of_ok (enter_of_free hs hp hnew),
    bind_of_ok (symbol_run ho'), hk']
  -- Only a block has more to write than the entry.
  cases hk : o.kind with
  | block b =>
    obtain ⟨t, ht, -⟩ := Context.get?_enter_sym hs hp hnew
    rw [Context.withDefinition_of_block ho hk]
    exact nest_run b.level ht ho'
  | _ =>
    have hframe : ctx.frame? scope = none := by
      rw [Context.frame?_of_get? ho, hk]
      rfl
    rw [Context.withDefinition_of_none hframe]
    rfl

/-- If nobody else objects, it is the home that decides on a definition. -/
theorem define_of_ownerFor (hframed : ctx.Framed) (ho : ctx.arena.get? scope = some o)
    (hs : ctx.arena.get? sym = some s) (howner : ctx.ownerFor scope sym = .ok (ctx.home scope)) :
    (ctx.Taken (ctx.home scope) s.name ∧ define scope sym ctx = .error s.duplicate ctx) ∨
    (¬ctx.Taken (ctx.home scope) s.name ∧ ∃ ctx', define scope sym ctx = .ok () ctx' ∧
      ctx.Defines ctx' scope (ctx.home scope) sym s.name) := by
  obtain ⟨p, hp⟩ := hframed.exists_home ⟨o, ho⟩
  by_cases htaken : s.name ∈ p.members.keys
  · refine Or.inl ⟨⟨p, hp, htaken⟩, ?_⟩
    unfold define
    rw [bind_of_ok (query_of_ok howner)]
    exact bind_of_error (enter_of_taken hs hp htaken)
  · refine Or.inr ⟨(Context.not_taken_iff hp).mpr ((Assoc.find?_eq_none_iff _ _).mpr htaken), ?_⟩
    exact ⟨_, define_of_owner hs howner hp htaken, Context.defines_withDefinition hs hp htaken⟩

/-- A definition fails and changes nothing, or the home takes the symbol in. -/
theorem define_outcome (scope sym : SymbolId) :
    (∃ e, define scope sym ctx = .error e ctx) ∨
      ∃ s p, ctx.arena.get? sym = some s ∧ ctx.arena.get? (ctx.home scope) = some p ∧
        s.name ∉ p.members.keys ∧
        define scope sym ctx = .ok () (ctx.withDefinition scope (ctx.home scope) sym) := by
  cases howner : ctx.ownerFor scope sym with
  | error e => exact Or.inl ⟨e, bind_of_error (query_of_error howner)⟩
  | ok owner =>
    obtain rfl : owner = ctx.home scope := by
      obtain ⟨o, ho, ⟨b, hk, rfl⟩ | ⟨rfl, -⟩⟩ := Context.ownerFor_eq_ok howner
      · exact (Context.home_of_frame? (Context.frame?_of_block ho hk)).symm
      · cases hframe : ctx.frame? owner with
        | none => exact (Context.home_of_none hframe).symm
        | some func =>
          -- A block that is its own function hands its definitions to itself.
          obtain ⟨o', b, ho', hk, rfl⟩ := Context.exists_block_of_frame? hframe
          rw [Context.home_of_frame? hframe]
          exact ownerFor_block_of_grows (.refl ctx) ho' hk howner
    rcases enter_cases (ctx.home scope) sym with ⟨e, hfails⟩ | ⟨s, p, hs, hp, hnew, -⟩
    · refine Or.inl ⟨e, ?_⟩
      unfold define
      rw [bind_of_ok (query_of_ok howner)]
      exact bind_of_error hfails
    · exact Or.inr ⟨s, p, hs, hp, hnew, define_of_owner hs howner hp hnew⟩

/-- A definition is refused by the scope, refused for its name, or accepted. A refusal changes
nothing. -/
theorem define_trichotomy (hsound : ctx.Sound) (hdescends : ctx.Descends) (hframed : ctx.Framed)
    (hlinks : ∀ link ∈ ctx.links, ctx.Exists link) (ho : ctx.arena.get? scope = some o)
    (hs : ctx.arena.get? sym = some s) :
    (ctx.Barred scope ∧
      define scope sym ctx = .error (.defineNotAllowed s.place o.name) ctx) ∨
    (¬ctx.Barred scope ∧ ctx.Repeats scope s.name ∧ define scope sym ctx = .error s.duplicate ctx) ∨
    (¬ctx.Barred scope ∧ ¬ctx.Repeats scope s.name ∧ ∃ ctx', define scope sym ctx = .ok () ctx' ∧
      ctx.Defines ctx' scope (ctx.home scope) sym s.name) := by
  rcases Context.ownerFor_trichotomy hsound hdescends hlinks ho hs with
    ⟨hbarred, herror⟩ | ⟨hopen, hother, herror⟩ | ⟨hopen, hfree, hok⟩
  · exact Or.inl ⟨hbarred, bind_of_error (query_of_error herror)⟩
  · exact Or.inr (Or.inl ⟨hopen, Or.inr hother, bind_of_error (query_of_error herror)⟩)
  · -- The owner can still have the name itself.
    rcases define_of_ownerFor hframed ho hs hok with ⟨htaken, herror⟩ | ⟨hnew, hdefines⟩
    · exact Or.inr (Or.inl ⟨hopen, Or.inl htaken, herror⟩)
    · refine Or.inr (Or.inr ⟨hopen, ?_, hdefines⟩)
      rintro (htaken | hother)
      · exact hnew htaken
      · exact hfree hother

/-- A scope that is no block settles the search for a name that it has. -/
theorem answer_of_found {x : SymbolId} {t : Symbol} (ho : ctx.arena.get? scope = some o)
    (hframe : ctx.frame? scope = none) (hfind : o.members.find? name = some x)
    (ht : ctx.arena.get? x = some t) :
    answer scope name ctx = .ok (.settled (if t.isHidden then none else some x)) ctx := by
  have hb : ∀ b, o.kind ≠ .block b := by
    intro b hk
    rw [Context.frame?_of_block ho hk] at hframe
    cases hframe
  rw [answer_of_member ho hb hfind, bind_of_ok (query_of_ok (Context.visible_of_get? ht))]
  rfl

/-- A look-up from a scope finds what the scope that keeps its definitions has. -/
theorem lookup_of_home {x : SymbolId} {p t : Symbol} (hframed : ctx.Framed)
    (hscope : ctx.Exists scope) (hp : ctx.arena.get? (ctx.home scope) = some p)
    (hfind : p.members.find? name = some x) (ht : ctx.arena.get? x = some t) :
    lookup scope name ctx = .ok (if t.isHidden then none else some x) ctx := by
  have hrun : lookup scope name ctx = lookupWithin (ctx.arena.size + 1) scope name ctx := rfl
  have hanswer := answer_of_found hp hframed.frame?_home hfind ht
  rw [hrun, lookupWithin]
  cases hframe : ctx.frame? scope with
  | none =>
    rw [Context.home_of_none hframe] at hanswer
    rw [bind_of_ok hanswer]
    rfl
  | some func =>
    -- A block passes the search on to its function, so the bound must leave a second step.
    obtain ⟨o, b, ho, hk, rfl⟩ := Context.exists_block_of_frame? hframe
    rw [Context.home_of_frame? hframe] at hanswer
    rw [bind_of_ok (answer_of_block ho hk)]
    obtain ⟨n, hn⟩ : ∃ n, ctx.arena.size = n + 1 := by
      have hle : [scope].length ≤ ctx.arena.size :=
        Context.length_le_size (List.nodup_singleton scope) (by simpa using hscope)
      exact Nat.exists_eq_add_of_le' hle
    simp only [hn]
    rw [lookupWithin, bind_of_ok hanswer]
    rfl

end SemaM

/-- A look-up from the scope finds a symbol that was just defined, unless it is hidden. -/
theorem Context.Defines.lookup_sym {ctx ctx' : Context} {scope sym : SymbolId} {o s : Symbol}
    (hdefines : ctx.Defines ctx' scope (ctx.home scope) sym s.name)
    (h : Reached (fun _ _ => True) ctx) (ho : ctx.arena.get? scope = some o)
    (hs : ctx.arena.get? sym = some s) (hok : SemaM.define scope sym ctx = .ok () ctx')
    (hshown : s.isHidden = false) : SemaM.lookup scope s.name ctx' = .ok (some sym) ctx' := by
  -- The context after the definition is reached as well, and the home is where it was.
  have hreached : Reached (fun _ _ => True) ((Op.define scope sym).next ctx) :=
    h.step _ trivial
  have hgrows : ctx.Grows ((Op.define scope sym).next ctx) := Op.grows _ ctx
  have hafter : (Op.define scope sym).next ctx = ctx' := SemaM.after_ok hok
  rw [hafter] at hreached hgrows
  have hscope : ctx.Exists scope := ⟨o, ho⟩
  have hexists := h.framed.exists_home hscope
  have hhome : ctx'.home scope = ctx.home scope := by
    obtain ⟨o', ho', hoo⟩ := hgrows.symbols scope o ho
    rw [Context.home, Context.home, Context.frame?_of_get? ho', Context.frame?_of_get? ho,
      hoo.kind.frame?_eq]
  obtain ⟨p, hp⟩ := hgrows.exists hexists
  obtain ⟨t, ht⟩ := hgrows.exists ⟨s, hs⟩
  rw [SemaM.lookup_of_home hreached.framed (hgrows.exists hscope) (hhome.symm ▸ hp)
    (hdefines.find? hexists hp) ht, hdefines.isHidden hs ht, hshown]
  rfl

/-- In every reached context whose links exist, and for every existing scope and symbol: the
definition is barred exactly in enums and native functions, otherwise refused exactly if it repeats
a name, and otherwise accepted. A refusal leaves the context as it was. What is accepted becomes the
last member of its home, which owns it from then on; nothing else changes but the note of a block,
and a look-up from the scope finds the symbol unless it is hidden. -/
theorem definition_exact {ctx : Context} (h : Reached (fun _ _ => True) ctx)
    (hlinks : ∀ link ∈ ctx.links, ctx.Exists link) {scope sym : SymbolId} {o s : Symbol}
    (ho : ctx.arena.get? scope = some o) (hs : ctx.arena.get? sym = some s) :
    ((∃ place name, SemaM.failure? (SemaM.define scope sym) ctx
        = some (.defineNotAllowed place name)) ↔ ctx.Barred scope) ∧
    (¬ctx.Barred scope →
      ((∃ place name, SemaM.failure? (SemaM.define scope sym) ctx
          = some (.duplicateSymbol place name)) ↔ ctx.Repeats scope s.name)) ∧
    (∀ e ctx', SemaM.define scope sym ctx = .error e ctx' → ctx' = ctx ∧
      (e = .defineNotAllowed s.place o.name ∨ e = .duplicateSymbol s.place s.name)) ∧
    (¬ctx.Barred scope → ¬ctx.Repeats scope s.name →
      ∃ ctx', SemaM.define scope sym ctx = .ok () ctx' ∧
        ctx.Defines ctx' scope (ctx.home scope) sym s.name ∧
        (s.isHidden = false → SemaM.lookup scope s.name ctx' = .ok (some sym) ctx')) := by
  -- Each of the three outcomes settles all four statements.
  rcases SemaM.define_trichotomy h.sound h.descends h.framed hlinks ho hs with
    ⟨hbarred, herror⟩ | ⟨hopen, hrepeats, herror⟩ | ⟨hopen, hfree, ctx', hok, hdefines⟩
  · rw [SemaM.failure?, herror]
    refine ⟨⟨fun _ => hbarred, fun _ => ⟨_, _, rfl⟩⟩, fun hopen => absurd hbarred hopen, ?_,
      fun hopen => absurd hbarred hopen⟩
    rintro e ctx' heq
    cases heq
    exact ⟨rfl, Or.inl rfl⟩
  · rw [SemaM.failure?, herror]
    refine ⟨⟨?_, fun hbarred => absurd hbarred hopen⟩, fun _ => ⟨fun _ => hrepeats, fun _ => ?_⟩,
      ?_, fun _ hfree => absurd hrepeats hfree⟩
    · rintro ⟨place, name, heq⟩
      cases heq
    · exact ⟨_, _, rfl⟩
    · rintro e ctx' heq
      cases heq
      exact ⟨rfl, Or.inr rfl⟩
  · rw [SemaM.failure?, hok]
    refine ⟨⟨?_, fun hbarred => absurd hbarred hopen⟩, fun _ => ⟨?_, fun hr => absurd hr hfree⟩, ?_,
      fun _ _ => ⟨ctx', rfl, hdefines, hdefines.lookup_sym h ho hs hok⟩⟩
    · rintro ⟨place, name, heq⟩
      cases heq
    · rintro ⟨place, name, heq⟩
      cases heq
    · rintro e ctx₁ heq
      cases heq

/-- A linked module with a variable `v`, a function with a block, and a second `v` that is not
defined yet. -/
def secondNameRun : List Op :=
  let type : TypeRef := { name := "int", slot := ⟨0⟩ }
  [.addModule "m", .link ⟨85⟩, .addVariable "v" type none, .define ⟨85⟩ ⟨86⟩,
    .addScriptFunc "f" type none, .openBlock ⟨87⟩ none, .addVariable "v" type none]

/-- What `secondNameRun` leaves, by running it. -/
theorem secondNameRun_facts :
    let ctx := Op.runs .initial secondNameRun
    Op.AllAllowed (fun _ _ => True) .initial secondNameRun ∧ ctx.links = [⟨85⟩] ∧
    ([⟨85⟩, ⟨88⟩, Context.globals].all fun id => (ctx.arena.get? id).isSome) ∧
    (ctx.arena.get? ⟨89⟩).map (fun s => (s.name, s.isHidden)) = some ("v", false) ∧
    ctx.home ⟨88⟩ = ⟨87⟩ ∧ SemaM.failure? (SemaM.define ⟨88⟩ ⟨89⟩) ctx = none ∧
    SemaM.failure? (SemaM.define Context.globals ⟨89⟩) ctx
      = some (.duplicateSymbol "v(?)" "v") := by
  decide +kernel

/-- The block takes the second `v`, which the function keeps. The global scope refuses it because of
the module. -/
theorem definition_exact_secondNameRun :
    let ctx := Op.runs .initial secondNameRun
    Reached (fun _ _ => True) ctx ∧ ctx.links = [⟨85⟩] ∧
    (∀ link ∈ ctx.links, ctx.Exists link) ∧
    (¬ctx.Barred ⟨88⟩ ∧ ¬ctx.Repeats ⟨88⟩ "v" ∧
      ∃ ctx', SemaM.define ⟨88⟩ ⟨89⟩ ctx = .ok () ctx' ∧ ctx.Defines ctx' ⟨88⟩ ⟨87⟩ ⟨89⟩ "v" ∧
        SemaM.lookup ⟨88⟩ "v" ctx' = .ok (some ⟨89⟩) ctx') ∧
    ¬ctx.Barred Context.globals ∧ ctx.Repeats Context.globals "v" := by
  intro ctx
  obtain ⟨hallowed, hlinks, hexists, hsym, hhome, haccepted, hrefused⟩ := secondNameRun_facts
  have hreached : Reached (fun _ _ => True) ctx := Reached.initial.runs hallowed
  simp only [List.all_cons, List.all_nil, Bool.and_true, Bool.and_eq_true] at hexists
  obtain ⟨hmodule, hblock, hglobals⟩ := hexists
  obtain ⟨o, ho⟩ := Option.isSome_iff_exists.mp hblock
  obtain ⟨g, hg⟩ := Option.isSome_iff_exists.mp hglobals
  obtain ⟨s, hs, hv⟩ := Option.map_eq_some_iff.mp hsym
  obtain ⟨hname, hshown⟩ := Prod.mk.inj hv
  have hall : ∀ link ∈ ctx.links, ctx.Exists link := by
    intro link hlink
    rw [hlinks, List.mem_singleton] at hlink
    rw [hlink]
    exact Option.isSome_iff_exists.mp hmodule
  obtain ⟨hbarred, hrepeats, -, hdefines⟩ := definition_exact hreached hall ho hs
  obtain ⟨hbarred', hrepeats', -⟩ := definition_exact hreached hall hg hs
  -- The block accepts the symbol, so it is neither barred nor does the name repeat one.
  have hopen : ¬ctx.Barred ⟨88⟩ := by
    intro hbar
    obtain ⟨place, name, hfails⟩ := hbarred.mpr hbar
    rw [haccepted] at hfails
    cases hfails
  have hfree : ¬ctx.Repeats ⟨88⟩ s.name := by
    intro hrep
    obtain ⟨place, name, hfails⟩ := (hrepeats hopen).mpr hrep
    rw [haccepted] at hfails
    cases hfails
  have hopen' : ¬ctx.Barred Context.globals := by
    intro hbar
    obtain ⟨place, name, hfails⟩ := hbarred'.mpr hbar
    rw [hrefused] at hfails
    cases hfails
  obtain ⟨ctx', hok, hdef, hlookup⟩ := hdefines hopen hfree
  rw [hhome] at hdef
  refine ⟨hreached, hlinks, hall, ⟨hopen, hname ▸ hfree, ctx', hok, hname ▸ hdef, ?_⟩, hopen', ?_⟩
  · exact hname ▸ hlookup hshown
  · exact hname ▸ (hrepeats' hopen').mp ⟨_, _, hrefused⟩

end Sema

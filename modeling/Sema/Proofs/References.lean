import Sema.Proofs.GlobalNames
import Sema.Proofs.Registry

/-!
# `Sema.Proofs.References`: references to one name agree

A reference by name is looked up when its type is first asked for, and the outcome is kept in its
slot. Two references to one name may be looked up at different times, so they agree only if the name
means the same at both.

A simple name stands for a symbol that cannot be hidden or, if it is not declared yet, for nothing,
so it keeps what it means (`Edit.Fits.typeNamed`). What the slot of a reference holds is therefore
what its name stands for, at any time (`Context.Settled`). All references to a slot have one name,
as long as calls are only given copies of references that were made before (`Op.OnlyCopies`).
-/

set_option autoImplicit false

namespace Sema

/-! ### What a simple name stands for -/

/-- The names of array and map types cannot be looked up. -/
theorem Structural.isCompound_typeName (st : Structural) : isCompound st.typeName = true := by
  have hbracket : ∀ text : String, '[' ∈ text.toList → isCompound text = true := by
    intro text hmem
    exact List.any_eq_true.mpr ⟨'[', hmem, by decide⟩
  cases st with
  | array item => exact hbracket _ (by simp [typeName, arrayTypeName])
  | map key value => exact hbracket _ (by simp [typeName, mapTypeName])

namespace Context

variable {a b ctx : Context} {name : String} {t : Ty}

/-- No structural class is kept under a simple name. -/
theorem Kept.find?_eq_none {ok : Structural → Prop} (h : ctx.Kept ok)
    (hsimple : isCompound name = false) : ctx.structural.find? name = none := by
  refine Option.eq_none_iff_forall_ne_some.mpr fun cls hcls => ?_
  obtain ⟨st, -, rfl, -⟩ := h hcls
  rw [st.isCompound_typeName] at hsimple
  cases hsimple

/-- What type a symbol declares is read off its kind. -/
theorem typeDeclared_of_get? {id : SymbolId} {s : Symbol} (hs : ctx.arena.get? id = some s) :
    ctx.typeDeclared id = match s.kind with
      | .builtIn b => .ok (.builtIn b)
      | .classDecl _ => .ok (.classOf id)
      | .enumDecl => .ok (.enumOf id)
      | _ => .error (.notAType s.name) := by
  rw [typeDeclared, symbol_of_get? hs]
  cases hk : s.kind <;> simp only [bind, Except.bind, hk] <;> rfl

/-- What declares a type cannot be hidden. -/
theorem exists_of_typeDeclared {id : SymbolId} (h : ctx.typeDeclared id = .ok t) :
    ∃ s, ctx.arena.get? id = some s ∧ s.kind.isVariable = false := by
  obtain ⟨s, hs, -⟩ := except_bind_eq_ok h
  have hs := symbol_eq_ok_iff.mp hs
  rw [typeDeclared_of_get? hs] at h
  refine ⟨s, hs, ?_⟩
  cases hk : s.kind with
  | var | param | field =>
    rw [hk] at h
    cases h
  | _ => rfl

/-- A symbol keeps declaring the type that it declares. -/
theorem Grows.typeDeclared (h : a.Grows b) {id : SymbolId} (ht : a.typeDeclared id = .ok t) :
    b.typeDeclared id = .ok t := by
  obtain ⟨s, hs, -⟩ := exists_of_typeDeclared ht
  obtain ⟨s', hs', hss⟩ := h.symbols id s hs
  have hkind := hss.kind
  rw [typeDeclared_of_get? hs] at ht
  rw [typeDeclared_of_get? hs']
  cases hk : s.kind with
  | classDecl info =>
    obtain ⟨info', hk', -⟩ := hkind.of_classDecl hk
    rw [hk] at ht
    rw [hk']
    exact ht
  | builtIn | enumDecl =>
    rw [hk] at ht hkind
    generalize s'.kind = k' at hkind
    cases hkind
    exact ht
  | _ =>
    rw [hk] at ht
    cases ht

/-- A simple name of a type is the name of a symbol that declares it. -/
theorem Kept.typeNamed_eq_ok_iff {ok : Structural → Prop} (h : ctx.Kept ok)
    (hsimple : isCompound name = false) :
    ctx.typeNamed name = .ok t ↔ ∃ id, ctx.Means name id ∧ ctx.typeDeclared id = .ok t := by
  constructor
  · intro ht
    obtain ⟨found, hfound, hrest⟩ := except_bind_eq_ok ht
    cases found with
    | some id => exact ⟨id, ⟨hfound, exists_of_typeDeclared hrest⟩, hrest⟩
    | none =>
      -- A simple name is not among those of the structural types.
      rw [h.find?_eq_none hsimple] at hrest
      cases hrest
  · rintro ⟨id, hmeans, ht⟩
    simp only [typeNamed, hmeans.found, bind, Except.bind]
    exact ht

/-- The references in use keep to the rules. -/
def Respects (rules : Rules) (ctx : Context) : Prop :=
  ∀ ⦃slot name⦄, ctx.Mentions slot name → rules.refs ctx.slots.size slot name

/-- The bare context mentions no types. -/
theorem bare_respects {rules : Rules} : bare.Respects rules := by
  rintro slot name ⟨x, s, type, hs, -, -, huse⟩
  rw [eq_of_get?_bare hs] at huse
  rcases huse with htype | ⟨info, hk, -⟩
  · cases htype
  · cases hk

end Context

namespace Edit

variable {rules : Rules} {ctx : Context} {e : Edit}

/-- What a simple name stands for it stands for after every edit. -/
theorem Fits.typeNamed (he : Fits rules ctx e) (hmodular : ctx.Modular) (hframed : ctx.Framed)
    (hkept : ctx.Kept rules.types) {name : String} {t : Ty} (hsimple : isCompound name = false)
    (ht : ctx.typeNamed name = .ok t) : (e.write ctx).typeNamed name = .ok t := by
  obtain ⟨id, hmeans, hdecl⟩ := (hkept.typeNamed_eq_ok_iff hsimple).mp ht
  exact ((he.kept hkept).typeNamed_eq_ok_iff hsimple).mpr
    ⟨id, he.means hmodular hframed hmeans, he.grows.typeDeclared hdecl⟩

/-! ### Which references are in use -/

/-- A new symbol mentions references that were in use before or that the rules allow. -/
theorem mentions_of_born {s : Symbol} (h : s.Born rules ctx) {type : TypeRef}
    (huse : s.type? = some type ∨ ∃ info, s.kind = .func info ∧ info.signature.ret = type) :
    ctx.Mentions type.slot type.name ∨ rules.refs ctx.slots.size type.slot type.name := by
  cases h with
  | blank hb =>
    right
    rcases huse with htype | ⟨info, hk, rfl⟩
    · exact hb.type type htype
    · have hblank := hb.kind
      rw [hk] at hblank
      exact hblank.2.2
  | lambda hret =>
    rcases huse with htype | ⟨info, hk, rfl⟩
    · cases htype
    · cases hk
      exact Or.inr hret
  | @copy source s hs =>
    rcases huse with htype | ⟨info, hk, -⟩
    · exact Or.inl ⟨source, s, type, hs, rfl, rfl, Or.inl htype⟩
    · cases hk
  | heir => rcases huse with htype | ⟨info, hk, -⟩ <;> contradiction

/-- What an edit newly mentions is a reference that the rules allow. -/
theorem Fits.mentions (he : Fits rules ctx e) {slot : SlotId} {name : String}
    (h : (e.write ctx).Mentions slot name) :
    ctx.Mentions slot name ∨ rules.refs ctx.slots.size slot name := by
  obtain ⟨x, s, type, hs, rfl, rfl, huse⟩ := h
  -- An old symbol keeps its types; a new one has them from the rules, or from what it copies.
  rcases he.grown_or_born hs with ⟨t, ht, hgrows⟩ | hborn
  · refine Or.inl ⟨x, t, type, ht, rfl, rfl, ?_⟩
    rcases huse with htype | ⟨info', hk', rfl⟩
    · exact Or.inl (hgrows.type? ▸ htype)
    · have hkind := hgrows.kind
      rw [hk'] at hkind
      obtain ⟨info, hk, hret⟩ := hkind.to_func
      exact Or.inr ⟨info, hk, hret.symm⟩
  · exact mentions_of_born hborn huse

/-- Every edit keeps to the rules for references. -/
theorem Fits.respects (he : Fits rules ctx e) (h : ctx.Respects rules) :
    (e.write ctx).Respects rules := by
  intro slot name hmentions
  have hrefs : rules.refs ctx.slots.size slot name := by
    rcases he.mentions hmentions with hold | hnew
    · exact h hold
    · exact hnew
  exact rules.refs_mono (e.slots_size_le ctx) hrefs

/-- A slot is bound by being filled, or when it is made. -/
theorem slotType?_write {slot : SlotId} {t : Ty} (h : (e.write ctx).slotType? slot = some t) :
    ctx.slotType? slot = some t ∨ e = .fill slot t ∨ ctx.slots.size ≤ slot.index := by
  -- Only two kinds of edits touch the slots.
  have hsame : (e.write ctx).slots = ctx.slots → ctx.slotType? slot = some t := by
    intro hslots
    rw [Context.slotType?, hslots] at h
    exact h
  cases e with
  | newSlot content =>
    by_cases hslot : slot.index < ctx.slots.size
    · left
      simpa [write, Context.slotType?, Array.getElem?_push, Nat.ne_of_lt hslot] using h
    · exact Or.inr (Or.inr (Nat.le_of_not_lt hslot))
  | fill slot' t' =>
    simp only [write, Context.slotType?, Array.getElem?_setIfInBounds] at h
    split at h
    · rename_i hindex
      split at h
      · cases h
        exact Or.inr (Or.inl (congrArg (Edit.fill · t) (congrArg SlotId.mk hindex)))
      · cases h
    · exact Or.inl h
  | link scope =>
    refine Or.inl (hsame ?_)
    simp only [write]
    split <;> rfl
  | _ =>
    refine Or.inl (hsame ?_)
    simp only [write, Context.update_fields, Context.withMember_fields]

end Edit

/-! ### The life of a reference -/

/-- The references to the slot of `type` that the call is given are copies of it. -/
def Op.OnlyCopies (type : TypeRef) (op : Op) : Prop :=
  ∀ c ∈ op.refs, c.slot = type.slot → c.name = type.name

/-- Whether a call only copies a reference is decidable. -/
instance (type : TypeRef) (op : Op) : Decidable (op.OnlyCopies type) :=
  inferInstanceAs (Decidable (∀ c ∈ op.refs, c.slot = type.slot → c.name = type.name))

namespace Rules

variable (type : TypeRef)

/-- The rules until the reference is made: what is in use with its slot has its name. -/
def beforeMade : Rules where
  links := ofModular.links
  items := ofModular.items
  refs size slot name := slot.index < size ∨ (slot = type.slot → name = type.name)
  refs_mono hle h := h.imp_left fun hlt => Nat.lt_of_lt_of_le hlt hle
  refs_made _ := Or.inl (Nat.lt_succ_self _)

/-- The rules since the reference was made. -/
def sinceMade : Rules where
  links := ofModular.links
  items := ofModular.items
  refs _ slot name := slot = type.slot → name = type.name
  base := type.slot.index + 1
  refs_mono _ h := h
  refs_made := by
    rintro n name hle heq
    rw [← heq] at hle
    exact absurd hle (Nat.not_succ_le_self n)

/-- The rules from before a reference is made are modular. -/
theorem beforeMade_modular : (beforeMade type).Modular where
  links h := h
  items h := h

/-- The rules from after a reference is made are modular. -/
theorem sinceMade_modular : (sinceMade type).Modular where
  links h := h
  items h := h

end Rules

/-- A call that only copies a reference keeps to the rules from before it is made. -/
theorem Op.Modular.keeps_before {ctx : Context} {op : Op} {type : TypeRef} (h : op.Modular ctx)
    (hcopies : op.OnlyCopies type) : op.Keeps (.beforeMade type) ctx where
  nests _ _ := trivial
  types _ _ := trivial
  links := h.keeps.links
  items := h.keeps.items
  refs c hc := Or.inr (hcopies c hc)
  base := Nat.zero_le _

/-- A call that only copies a reference keeps to the rules from after it is made. -/
theorem Op.Modular.keeps_since {ctx : Context} {op : Op} {type : TypeRef} (h : op.Modular ctx)
    (hcopies : op.OnlyCopies type) (hmade : type.slot.index < ctx.slots.size) :
    op.Keeps (.sinceMade type) ctx where
  nests _ _ := trivial
  types _ _ := trivial
  links := h.keeps.links
  items := h.keeps.items
  refs := hcopies
  base := hmade

/-- A modular run has made the reference from a simple name, and was only given copies of it. -/
inductive Issued (type : TypeRef) : Context → Prop
  | made {ctx ctx' : Context} (name : String)
      (h : Reached (fun ctx op => op.Modular ctx ∧ op.OnlyCopies type) ctx)
      (hmade : SemaM.typeRef (.name name) ctx = .ok type ctx') : Issued type ctx'
  | step {ctx : Context} (op : Op) (h : Issued type ctx)
      (hop : op.Modular ctx ∧ op.OnlyCopies type) : Issued type (op.next ctx)

/-- The reference was made, and what its slot holds is what its name stands for. -/
structure Context.Settled (ctx : Context) (type : TypeRef) : Prop where
  made : type.slot.index < ctx.slots.size
  modular : ctx.Modular
  framed : ctx.Framed
  kept : ctx.Kept fun _ => True
  respects : ctx.Respects (.sinceMade type)
  agrees : ∀ {t}, ctx.slotType? type.slot = some t → ctx.typeNamed type.name = .ok t

namespace Edit

variable {ctx : Context} {e : Edit} {type : TypeRef}

/-- A slot is filled with what a name stands for under which it is in use. -/
theorem Fits.typeNamed_of_fill {t : Ty} (he : Fits (.sinceMade type) ctx (.fill type.slot t))
    (h : ctx.Respects (.sinceMade type)) : ctx.typeNamed type.name = .ok t := by
  cases he.quiet rfl with
  | @fill _ _ name _ ht hname =>
    have hsame : name = type.name := by
      rcases hname with hrefs | hmentions
      · exact hrefs rfl
      · exact h hmentions rfl
    rw [← hsame]
    exact ht

/-- A reference stays settled: its slot only gets the type of its name. -/
theorem Fits.settled (he : Fits (.sinceMade type) ctx e) (hsimple : isCompound type.name = false)
    (h : ctx.Settled type) : (e.write ctx).Settled type where
  made := Nat.lt_of_lt_of_le h.made (e.slots_size_le ctx)
  modular := he.modular (Rules.sinceMade_modular type) h.modular
  framed := he.framed h.framed
  kept := he.kept h.kept
  respects := he.respects h.respects
  agrees := by
    intro t ht
    refine he.typeNamed h.modular h.framed h.kept hsimple ?_
    rcases slotType?_write ht with hold | rfl | hnew
    · exact h.agrees hold
    · exact he.typeNamed_of_fill h.respects
    · exact absurd h.made (Nat.not_lt.mpr hnew)

end Edit

/-- A reference to a simple name has a new slot. -/
theorem SemaM.typeRef_name {ctx : Context} {name : String} (hne : name.isEmpty = false)
    (hsimple : isCompound name = false) :
    typeRef (.name name) ctx
      = .ok { name, slot := ⟨ctx.slots.size⟩ } ((Edit.newSlot none).write ctx) := by
  simp only [typeRef, hne, hsimple]
  rfl

/-- A reference is made to a simple name, with the next slot. -/
theorem SemaM.typeRef_name_eq_ok {ctx ctx' : Context} {name : String} {type : TypeRef}
    (h : typeRef (.name name) ctx = .ok type ctx') :
    isCompound name = false ∧ type = { name, slot := ⟨ctx.slots.size⟩ } ∧
      ctx' = (Edit.newSlot none).write ctx := by
  simp only [typeRef] at h
  split at h
  · cases h
  · rename_i hsimple
    cases h
    exact ⟨by grind, rfl, rfl⟩

/-- A reference that was just made is not bound, and its slot is in use under no other name. -/
theorem Issued.settled_of_made {ctx : Context} {type : TypeRef}
    (h : Reached (fun ctx op => op.Modular ctx ∧ op.OnlyCopies type) ctx)
    (hslot : type.slot = ⟨ctx.slots.size⟩) : ((Edit.newSlot none).write ctx).Settled type := by
  have hedits : Edits (Edit.Fits (.beforeMade type)) .bare ctx :=
    h.edits (fun _ _ hop => hop.1.keeps_before hop.2) rfl fun _ _ => trivial
  have hrespects := hedits.preserves (fun _ _ he => he.respects) Context.bare_respects
  have he : Edit.Fits (.beforeMade type) ctx (.newSlot none) := .plain (.quiet (.newSlot none))
  refine ⟨?_, ?_, he.framed h.framed, ?_, fun slot name hmentions => ?_, fun ht => ?_⟩
  · simp [hslot, Edit.write]
  · exact he.modular (Rules.beforeMade_modular type) (h.modular fun _ _ hop => hop.1)
  · exact he.kept (hedits.preserves (fun _ _ he => he.kept) Context.bare_kept)
  · -- The slot is not below the number of slots, so what is in use with it has the right name.
    rintro rfl
    have hrefs : (Rules.beforeMade type).refs ctx.slots.size type.slot name := by
      rcases he.mentions hmentions with hold | hnew
      · exact hrespects hold
      · exact hnew
    rcases hrefs with hlt | hname
    · rw [hslot] at hlt
      exact absurd hlt (Nat.lt_irrefl _)
    · exact hname rfl
  · rw [hslot, SemaM.slotType?_newSlot] at ht
    cases ht

/-- A reference that was issued is settled. -/
theorem Issued.settled {type : TypeRef} {ctx : Context} (h : Issued type ctx) :
    isCompound type.name = false ∧ ctx.Settled type := by
  induction h with
  | made name h hmade =>
    obtain ⟨hsimple, rfl, rfl⟩ := SemaM.typeRef_name_eq_ok hmade
    exact ⟨hsimple, settled_of_made h rfl⟩
  | step op _ hop ih =>
    -- The reference is there, so from here on no other is made with its slot.
    obtain ⟨hsimple, hsettled⟩ := ih
    have hedits := op.next_edits (hop.1.keeps_since hop.2 hsettled.made)
    exact ⟨hsimple, hedits.preserves (fun _ _ he => he.settled hsimple) hsettled⟩

/-- A reference that was issued stays so along runs that only copy it. -/
theorem Issued.runs {type : TypeRef} {ctx : Context} {ops : List Op} (h : Issued type ctx)
    (hops : Op.AllAllowed (fun ctx op => op.Modular ctx ∧ op.OnlyCopies type) ctx ops) :
    Issued type (Op.runs ctx ops) := by
  induction ops generalizing ctx with
  | nil => exact h
  | cons op rest ih => exact ih (.step op h hops.1) hops.2

/-- Global names never change their meaning. In a run that links only modules and adds items only to
enums, a name that stands for a symbol of a kind that cannot be hidden stands for it ever after,
whatever is defined, linked or hidden in between. So two references that were made from one simple
name, at whatever times, are bound to the same type once they are bound. -/
theorem global_names_last :
    (∀ {ctx : Context} {ops : List Op} {name : String} {id : SymbolId} {s : Symbol},
      Reached (fun ctx op => op.Modular ctx) ctx →
      Op.AllAllowed (fun ctx op => op.Modular ctx) ctx ops →
      SemaM.lookup Context.globals name ctx = .ok (some id) ctx →
      ctx.arena.get? id = some s → s.kind.isVariable = false →
      SemaM.lookup Context.globals name (Op.runs ctx ops) = .ok (some id) (Op.runs ctx ops)) ∧
    (∀ {ctx : Context} {first second : TypeRef} {t t' : Ty},
      Issued first ctx → Issued second ctx → first.name = second.name →
      ctx.slotType? first.slot = some t → ctx.slotType? second.slot = some t' → t = t') := by
  constructor
  · intro ctx ops name id s hreached hops hlook hs hv
    have hmodular := hreached.modular fun _ _ h => h
    have hlater := (hreached.runs hops).modular fun _ _ h => h
    obtain ⟨g, hg, hk⟩ := hmodular.globals
    obtain ⟨g', hg', hk'⟩ := hlater.globals
    rw [SemaM.lookup_globals hg hk] at hlook
    obtain ⟨hfound, -⟩ := SemaM.query_eq_ok hlook
    -- The name goes on to mean what it means, call by call.
    have hmeans := Op.means_runs hops hmodular hreached.framed ⟨hfound, s, hs, hv⟩
    rw [SemaM.lookup_globals hg' hk']
    exact SemaM.query_of_ok hmeans.found
  · intro ctx first second t t' hfirst hsecond hname ht ht'
    -- Each slot has what its name stands for now, and the names are the same.
    have hagree := hfirst.settled.2.agrees ht
    have hagree' := hsecond.settled.2.agrees ht'
    rw [hname, hagree'] at hagree
    exact (Except.ok.inj hagree).symm

/-- A reference that some call of a run made. -/
theorem Issued.of_run (before after : List Op) {name : String} {type : TypeRef}
    (hne : name.isEmpty = false) (hsimple : isCompound name = false)
    (htype : type = { name, slot := ⟨(Op.runs .initial before).slots.size⟩ })
    (hops : Op.AllAllowed (fun ctx op => op.Modular ctx ∧ op.OnlyCopies type) .initial
      (before ++ .typeRef (.name name) :: after)) :
    Issued type (Op.runs .initial (before ++ .typeRef (.name name) :: after)) := by
  obtain ⟨hbefore, -, hafter⟩ := hops.of_append
  have hmade : SemaM.typeRef (.name name) (Op.runs .initial before)
      = .ok type ((Edit.newSlot none).write (Op.runs .initial before)) :=
    htype ▸ SemaM.typeRef_name hne hsimple
  have hnext : (Op.typeRef (.name name)).next (Op.runs .initial before)
      = (Edit.newSlot none).write (Op.runs .initial before) :=
    (SemaM.after_forget _).trans (SemaM.after_ok hmade)
  -- The run stops at the call that makes the reference and goes on from there.
  rw [Op.runs_append, Op.runs]
  rw [hnext] at hafter ⊢
  exact (Issued.made name (Reached.initial.runs hbefore) hmade).runs hafter

/-- A class in a module, and a reference that was made before it. -/
def forwardRun : List Op :=
  [.addModule "m", .typeRef (.name "A"), .addClass "A" none .script none, .define ⟨85⟩ ⟨86⟩,
    .link ⟨85⟩]

/-- The reference is looked up. Then another module and the global scope are asked to take an enum
of the name, and the class is marked as out of scope. -/
def takeoverRun : List Op :=
  [.typeOf { name := "A", slot := ⟨30⟩ }, .addModule "n", .link ⟨87⟩, .addEnum "A" none,
    .define ⟨87⟩ ⟨88⟩, .define Context.globals ⟨88⟩, .markOutOfScope ⟨86⟩]

/-- A second reference is made and looked up. -/
def secondRun : List Op := [.typeRef (.name "A"), .typeOf { name := "A", slot := ⟨31⟩ }]

/-- What the three runs leave, by running them. -/
theorem takeoverRun_facts :
    let run := forwardRun ++ (takeoverRun ++ secondRun)
    Op.AllAllowed (fun ctx op => op.Modular ctx ∧ op.OnlyCopies { name := "A", slot := ⟨30⟩ } ∧
      op.OnlyCopies { name := "A", slot := ⟨31⟩ }) .initial run ∧
    (Op.runs .initial [.addModule "m"]).slots.size = 30 ∧
    (Op.runs .initial (forwardRun ++ takeoverRun)).slots.size = 31 ∧
    (Op.runs .initial forwardRun).lookupGlobal "A" = .ok (some ⟨86⟩) ∧
    ((Op.runs .initial forwardRun).arena.get? ⟨86⟩).map (·.kind.isVariable) = some false ∧
    ((Op.runs .initial run).slotType? ⟨30⟩).isSome = true ∧
    ((Op.runs .initial run).slotType? ⟨31⟩).isSome = true := by
  decide +kernel

/-- Both references are bound to the class, for which the name stands to the end. -/
theorem global_names_last_takeoverRun :
    let ctx := Op.runs .initial forwardRun
    let last := Op.runs ctx (takeoverRun ++ secondRun)
    SemaM.lookup Context.globals "A" ctx = .ok (some ⟨86⟩) ctx ∧
    SemaM.lookup Context.globals "A" last = .ok (some ⟨86⟩) last ∧
    Issued { name := "A", slot := ⟨30⟩ } last ∧ Issued { name := "A", slot := ⟨31⟩ } last ∧
    ∃ t, last.slotType? ⟨30⟩ = some t ∧ last.slotType? ⟨31⟩ = some t := by
  intro ctx last
  obtain ⟨hallowed, hsize, hsize', hlook, hkind, hbound, hbound'⟩ := takeoverRun_facts
  have hrun : Op.runs .initial (forwardRun ++ (takeoverRun ++ secondRun)) = last :=
    Op.runs_append _ _ _
  obtain ⟨hforward, hlater⟩ := (hallowed.mono fun _ _ h => h.1).of_append
  have hreached := Reached.initial.runs hforward
  obtain ⟨s, hs, hv⟩ := Option.map_eq_some_iff.mp hkind
  obtain ⟨g, hg, hglobal⟩ := (hreached.modular fun _ _ h => h).globals
  have hlook : SemaM.lookup Context.globals "A" ctx = .ok (some ⟨86⟩) ctx :=
    (SemaM.lookup_globals hg hglobal).trans (SemaM.query_of_ok hlook)
  have hfirst : Issued { name := "A", slot := ⟨30⟩ } last := by
    rw [← hrun]
    exact Issued.of_run [.addModule "m"] _ (by decide) (by decide) (by rw [hsize])
      (hallowed.mono fun _ _ h => ⟨h.1, h.2.1⟩)
  have hsecond : Issued { name := "A", slot := ⟨31⟩ } last := by
    rw [← hrun]
    exact Issued.of_run (forwardRun ++ takeoverRun) _ (by decide) (by decide) (by rw [hsize'])
      (hallowed.mono fun _ _ h => ⟨h.1, h.2.2⟩)
  rw [hrun] at hbound hbound'
  obtain ⟨t, ht⟩ := Option.isSome_iff_exists.mp hbound
  obtain ⟨t', ht'⟩ := Option.isSome_iff_exists.mp hbound'
  -- Both references are bound, so both to what the name means.
  have hsame := global_names_last.2 hfirst hsecond rfl ht ht'
  refine ⟨hlook, global_names_last.1 hreached hlater hlook hs hv, hfirst, hsecond, t, ht, ?_⟩
  rw [hsame]
  exact ht'

end Sema

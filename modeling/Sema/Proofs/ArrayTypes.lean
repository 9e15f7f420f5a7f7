import Sema.Proofs.BuiltTypes

/-!
# `Sema.Proofs.ArrayTypes`: one class for each array type

Two tables are involved when an array type is asked for: the classes by type name, and the storage
that was registered by item name. A class is made when its name is asked for or registered first,
and whether it is generic is decided at that moment. `Context.InStep` says that the tables agree
afterwards: storage is noted for exactly those items whose array class is not generic. A
registration notes the storage first and keeps the class last, so this is no invariant of the single
edits. It is one of the calls, because nothing can fail in between (`SemaM.returns_addArrayClass`).

`Context.Answers` is what a request does to the table of classes. `structural_classes_made_once`
puts together what follows for requests and registrations in any order.
-/

set_option autoImplicit false

namespace Sema

namespace Context

variable {a b ctx : Context} {ok : Structural → Prop} {name : String} {cls : SymbolId}
  {st : Structural}

/-- A class is kept under one name. -/
theorem Kept.name_unique (h : ctx.Kept ok) {name' : String}
    (hname : ctx.structural.find? name = some cls)
    (hname' : ctx.structural.find? name' = some cls) : name = name' := by
  obtain ⟨st, hst, htype, -⟩ := h hname
  obtain ⟨st', hst', htype', -⟩ := h hname'
  rw [← htype, ← htype', hst.unique hst']

/-- What is registered stays so while no class is added to the table. -/
theorem Kept.registered_iff (h : a.Kept ok) (hgrows : a.Grows b)
    (heq : b.structural = a.structural) : b.Registered name st ↔ a.Registered name st := by
  constructor
  · rintro ⟨cls, hfind, hst⟩
    rw [heq] at hfind
    obtain ⟨st', hst', -⟩ := h hfind
    rw [hst.unique (hgrows.synthesized hst')]
    exact ⟨cls, hfind, hst'⟩
  · rintro ⟨cls, hfind, hst⟩
    exact ⟨cls, by rw [heq]; exact hfind, hgrows.synthesized hst⟩

/-- One more class changes what is registered under its own name and nothing else. -/
theorem Kept.registered_insert (h : a.Kept ok) (hgrows : a.Grows b)
    (heq : b.structural = a.structural.insert name cls) (hst : b.Synthesized cls st)
    {name' : String} {st' : Structural} :
    b.Registered name' st' ↔ if name' = name then st' = st else a.Registered name' st' := by
  -- Under the new name there is the new class, under every other one what was there.
  by_cases hname : name' = name
  · subst hname
    rw [if_pos rfl]
    constructor
    · rintro ⟨cls', hfind, hst'⟩
      simp only [heq, Assoc.find?_insert, if_true, Option.some.injEq] at hfind
      subst hfind
      exact hst'.unique hst
    · intro hsame
      subst hsame
      exact ⟨cls, by simp [heq, Assoc.find?_insert], hst⟩
  · rw [if_neg hname]
    have hfind : b.structural.find? name' = a.structural.find? name' := by
      simp [heq, Assoc.find?_insert, hname]
    constructor
    · rintro ⟨cls', hfind', hst'⟩
      rw [hfind] at hfind'
      obtain ⟨old, hold, -⟩ := h hfind'
      rw [hst'.unique (hgrows.synthesized hold)]
      exact ⟨cls', hfind', hold⟩
    · rintro ⟨cls', hfind', hst'⟩
      exact ⟨cls', hfind.trans hfind', hgrows.synthesized hst'⟩

/-- Each class is kept under the name of its type, and storage is noted for exactly those items
whose array class is not generic. -/
structure InStep (ctx : Context) : Prop where
  kept : ctx.Kept fun _ => True
  stored : ∀ item, (ctx.storages.find? item).isSome = true ↔
    ∃ type, ctx.Registered (item ++ "[]") (.array type false)

/-- The bare context has neither structural classes nor storages. -/
theorem bare_inStep : bare.InStep where
  kept := bare_kept
  stored item := by
    constructor
    · intro h
      cases h
    · rintro ⟨type, cls, hfind, hst⟩
      cases hfind

/-- Tables that do not change stay in step. -/
theorem InStep.of_eq (h : a.InStep) (hgrows : a.Grows b) (hstructural : b.structural = a.structural)
    (hstorages : b.storages = a.storages) : b.InStep where
  kept := h.kept.of_eq hgrows hstructural
  stored item := by
    rw [hstorages, h.stored item]
    simp only [h.kept.registered_iff hgrows hstructural]

/-- Without a class there is no storage. -/
theorem InStep.find?_storages (h : ctx.InStep) {item : String}
    (hfree : ctx.structural.find? (item ++ "[]") = none) : ctx.storages.find? item = none := by
  cases hfind : ctx.storages.find? item with
  | none => rfl
  | some storage =>
    obtain ⟨type, cls, hcls, -⟩ := (h.stored item).mp (by rw [hfind]; rfl)
    rw [hfree] at hcls
    cases hcls

/-- A generic array class is one whose items have no storage of their own. -/
theorem InStep.generic_iff (h : ctx.InStep) {type : TypeRef} {generic : Bool}
    (hreg : ctx.Registered name (.array type generic)) :
    generic = true ↔ ctx.storages.find? type.name = none := by
  -- The name on record is the one of the item type with its suffix.
  have hname : name = type.name ++ "[]" := by
    obtain ⟨cls, hfind, hst⟩ := hreg
    obtain ⟨st, hst', htype, -⟩ := h.kept hfind
    rw [← htype, hst'.unique hst]
    rfl
  subst hname
  rw [← Option.not_isSome_iff_eq_none, h.stored]
  constructor
  · intro hgeneric ⟨type', hreg'⟩
    subst hgeneric
    cases hreg.unique hreg'
  · intro hnone
    cases generic with
    | true => rfl
    | false => exact absurd ⟨type, hreg⟩ hnone

/-- The tables agree after a class was added, if its storage was noted when it is not generic. -/
theorem InStep.insert (h : a.InStep) (hgrows : a.Grows b)
    (hfree : a.structural.find? name = none) (heq : b.structural = a.structural.insert name cls)
    (hst : b.Synthesized cls st) (htype : st.typeName = name)
    (hstored : ∀ item, (b.storages.find? item).isSome = true ↔
      (a.storages.find? item).isSome = true ∨ ∃ type, st = .array type false ∧ type.name = item) :
    b.InStep where
  kept := by
    intro name' cls' hfind
    -- The table has the new class and what it had before.
    simp only [heq, Assoc.find?_insert] at hfind
    split at hfind
    · rename_i hsame
      cases hfind
      exact ⟨st, hst, htype.trans hsame.symm, trivial⟩
    · obtain ⟨st', hst', hrest⟩ := h.kept hfind
      exact ⟨st', hgrows.synthesized hst', hrest⟩
  stored item := by
    rw [hstored item]
    simp only [h.kept.registered_insert hgrows heq hst]
    by_cases hname : item ++ "[]" = name
    · -- The class is the first under this name, so nothing was noted for the item before.
      have hnone : a.storages.find? item = none := h.find?_storages (hname ▸ hfree)
      simp only [hnone, hname, if_true, Option.isSome_none, Bool.false_eq_true, false_or]
      constructor
      · rintro ⟨type, hst, _⟩
        exact ⟨type, hst.symm⟩
      · rintro ⟨type, hst⟩
        subst hst
        exact ⟨type, rfl, arrayName_inj (htype.trans hname.symm)⟩
    · simp only [hname, if_false]
      -- A storage for another item comes with an array class of another name.
      rw [← h.stored item, or_iff_left]
      rintro ⟨type, hst, hitem⟩
      subst hst hitem
      exact hname htype

/-- The tables agree after a request, as long as a class that it makes is not one with storage. -/
theorem InStep.answers (h : a.InStep) (hans : a.Answers b name cls st) (htype : st.typeName = name)
    (hstorages : b.storages = a.storages)
    (hplain : a.structural.find? name = none → ∀ type, st ≠ .array type false) : b.InStep := by
  rcases hans.table with ⟨-, heq⟩ | ⟨hfree, heq, hst⟩
  · exact h.of_eq hans.grows heq hstorages
  · refine h.insert hans.grows hfree heq hst htype fun item => ?_
    rw [hstorages, or_iff_left]
    rintro ⟨type, hsame, _⟩
    exact hplain hfree type hsame

/-- Nothing is different but that there may be more references that are not bound. -/
structure Unchanged (a b : Context) : Prop where
  arena : b.arena = a.arena
  links : b.links = a.links
  structural : b.structural = a.structural
  storages : b.storages = a.storages
  slots : ∀ slot, b.slotType? slot = a.slotType? slot

/-- Doing nothing changes nothing. -/
theorem Unchanged.refl (ctx : Context) : ctx.Unchanged ctx := ⟨rfl, rfl, rfl, rfl, fun _ => rfl⟩

/-- An empty slot at the end is as good as none. -/
theorem unchanged_newSlot (ctx : Context) : ctx.Unchanged ((Edit.newSlot none).write ctx) := by
  refine ⟨rfl, rfl, rfl, rfl, fun slot => ?_⟩
  simp only [slotType?, Edit.write, Array.getElem?_push]
  split
  · rename_i hslot
    simp [hslot]
  · rfl

/-- Changing nothing is growing. -/
theorem Unchanged.grows (h : a.Unchanged b) : a.Grows b := by
  refine ⟨fun id s hs => ⟨s, by rw [h.arena]; exact hs, .refl s⟩, ?_, by rw [h.links], ?_⟩
  · intro slot t ht
    rw [h.slots]
    exact ht
  · intro name cls hfind
    rw [h.structural]
    exact hfind

/-- A reference that was made before makes no difference to the answer. -/
theorem Answers.of_unchanged {c : Context} (h : b.Answers c name cls st) (hsame : a.Unchanged b) :
    a.Answers c name cls st where
  grows := hsame.grows.trans h.grows
  table := by
    have htable := h.table
    rw [hsame.structural] at htable
    exact htable

end Context

namespace SemaM

variable {α β : Type} {ctx ctx' : Context} {P : Context → Prop}

/-- What holds after the first part of a computation, and what each later part keeps, holds at its
end, also if one part fails. -/
theorem after_bind {m : SemaM α} {f : α → SemaM β} (hm : P (after m ctx))
    (hf : ∀ a ctx', m ctx = .ok a ctx' → P ctx' → P (after (f a) ctx')) :
    P (after (m >>= f) ctx) := by
  cases hrun : m ctx with
  | ok a ctx' =>
    rw [after_ok hrun] at hm
    have hafter : after (m >>= f) ctx = after (f a) ctx' := by
      simp only [after, bind_of_ok hrun]
    rw [hafter]
    exact hf a ctx' hrun hm
  | error e ctx' =>
    -- The first part fails, so nothing follows it.
    have hafter : after (m >>= f) ctx = after m ctx := by
      simp only [after, bind_of_error hrun, hrun]
    rw [hafter]
    exact hm

/-- Quiet edits keep the tables in step. -/
theorem inStep_of_quiet {m : SemaM α} (h : ctx.InStep) (hm : Makes (Edit.Quiet {}) m ctx) :
    (after m ctx).InStep :=
  h.of_eq (hm.grows fun _ _ => Edit.Quiet.grows) (structural_eq_of_quiet hm)
    (storages_eq_of_quiet hm)

/-! ### What the requests do -/

/-- A reference that is accepted has the name that was asked for. -/
theorem typeRef_eq_ok {t : TypeName} {type : TypeRef} (h : typeRef t ctx = .ok type ctx') :
    type.name = t.text ∧ ctx.Unchanged ctx' := by
  cases t with
  | ref type =>
    cases h
    exact ⟨rfl, .refl ctx⟩
  | name name =>
    obtain ⟨-, rfl, rfl⟩ := typeRef_name_eq_ok h
    exact ⟨rfl, ctx.unchanged_newSlot⟩

/-- The answer to a request is a reference that is bound to the class. -/
def Answers (request : SemaM TypeRef) (ctx : Context) (name : String) (st : Structural) : Prop :=
  Returns request ctx fun type ctx' => ctx'.storages = ctx.storages ∧
    ∃ cls, ctx'.slotType? type.slot = some (.classOf cls) ∧ ctx.Answers ctx' name cls st

/-- A reference to a structural class answers with the class that is kept under its name. -/
theorem answers_of_class {name : String} {make : SemaM SymbolId} {st : Structural}
    (hmake : Returns make ctx fun _ _ => True) (hquiet : Makes (Edit.Quiet {}) make ctx)
    (hst : ∀ cls ctx', make ctx = .ok cls ctx' → ctx'.Synthesized cls st) :
    Answers (do resolvedRef name (.classOf (← structuralClass name make))) ctx name st := by
  obtain ⟨cls, ctx₁, hrun, hans, hstorages⟩ : Returns (structuralClass name make) ctx _ :=
    structuralClass_answers hmake hquiet hst
  have hslot := ctx₁.grows_newSlot (some (.classOf cls))
  exact ⟨_, _, (bind_of_ok hrun).trans rfl, hstorages, cls, slotType?_newSlot _,
    hans.trans_grows hslot rfl⟩

/-- An array class is made in every state. -/
theorem returns_arrayClass (name : String) (item : TypeRef) (registered : Option ArrayStorage) :
    Returns (addArrayClass name item registered) ctx fun _ _ => True := by
  obtain ⟨cls, ctx', hrun, -⟩ := returns_addArrayClass name item registered
  exact ⟨cls, ctx', hrun, trivial⟩

/-- A map class is made in every state. -/
theorem returns_mapClass (name : String) (key value : TypeRef) :
    Returns (addMapClass name key value) ctx fun _ _ => True := by
  obtain ⟨cls, ctx', hrun, -⟩ := returns_addMapClass name key value
  exact ⟨cls, ctx', hrun, trivial⟩

/-- A request for an array type. The class is generic if no storage is noted for the item. -/
theorem arrayType_answers {item : TypeName} {type : TypeRef} {ctx₁ : Context}
    (hitem : typeRef item ctx = .ok type ctx₁) :
    Answers (arrayType item) ctx (item.text ++ "[]")
      (.array type (ctx.storages.find? item.text).isNone) := by
  obtain ⟨hname, hsame⟩ := typeRef_eq_ok hitem
  -- What is left to do once the item type is there.
  have hclass : Answers (do resolvedRef (arrayTypeName type) (.classOf (← structuralClass
      (arrayTypeName type) (addArrayClass (arrayTypeName type) type
        (ctx₁.storages.find? type.name))))) ctx₁ (arrayTypeName type)
      (.array type (ctx₁.storages.find? type.name).isNone) :=
    answers_of_class (returns_arrayClass _ _ _) (makes_addArrayClass _ _ (Nat.zero_le _) trivial)
      fun _ _ => addArrayClass_eq_ok
  rw [arrayTypeName, hname] at hclass
  obtain ⟨ref, last, hrun, hstorages, cls, hslot, hans⟩ := hclass
  rw [hsame.storages] at hans
  refine ⟨ref, last, ?_, hstorages.trans hsame.storages, cls, hslot, hans.of_unchanged hsame⟩
  unfold arrayType
  rw [bind_of_ok hitem, arrayTypeName, hname]
  exact hrun

/-- `mapType` answers with the class that is kept under the name of the map type. -/
theorem mapType_answers {key value : TypeName} {k v : TypeRef} {ctx₁ ctx₂ : Context}
    (hkey : typeRef key ctx = .ok k ctx₁) (hvalue : typeRef value ctx₁ = .ok v ctx₂) :
    Answers (mapType key value) ctx (mapTypeName k v) (.map k v) := by
  have hclass : Answers (do resolvedRef (mapTypeName k v) (.classOf (← structuralClass
      (mapTypeName k v) (addMapClass (mapTypeName k v) k v)))) ctx₂ (mapTypeName k v) (.map k v) :=
    answers_of_class (returns_mapClass _ _ _) (makes_addMapClass _ (Nat.zero_le _) trivial trivial)
      fun _ _ => addMapClass_eq_ok
  have hsame₁ := (typeRef_eq_ok hkey).2
  have hsame₂ := (typeRef_eq_ok hvalue).2
  obtain ⟨ref, last, hrun, hstorages, cls, hslot, hans⟩ := hclass
  refine ⟨ref, last, (bind_of_ok hkey).trans ((bind_of_ok hvalue).trans hrun), ?_, cls, hslot,
    (hans.of_unchanged hsame₂).of_unchanged hsame₁⟩
  rw [hstorages, hsame₂.storages, hsame₁.storages]

/-- A registration under a name that is free notes the storage and makes the class. -/
theorem registerArray_of_free {item : TypeName} {type : TypeRef} {ctx₁ : Context}
    (storage : ArrayStorage) (hitem : typeRef item ctx = .ok type ctx₁)
    (hfree : ctx.structural.find? (item.text ++ "[]") = none) :
    Returns (registerArray item storage) ctx fun ref ctx' =>
      ctx'.storages = ctx.storages.insert item.text storage ∧
      ∃ cls, ctx'.slotType? ref.slot = some (.classOf cls) ∧
        ctx.Answers ctx' (item.text ++ "[]") cls (.array type false) := by
  obtain ⟨hname, hsame⟩ := typeRef_eq_ok hitem
  have hget : (get : SemaM Context) ctx₁ = .ok ctx₁ ctx₁ := rfl
  have hfree₁ : ctx₁.structural.find? (item.text ++ "[]") = none := by
    rw [hsame.structural]
    exact hfree
  -- The storage is noted first. That the class can then be made keeps the two tables together.
  obtain ⟨cls, ctx₂, hrun, -⟩ :
      Returns (addArrayClass (item.text ++ "[]") type (some storage))
        ((Edit.storage item.text storage).write ctx₁) fun _ _ => True :=
    returns_arrayClass _ _ _
  have hmakes : Makes (Edit.Quiet {}) (addArrayClass (item.text ++ "[]") type (some storage))
      ((Edit.storage item.text storage).write ctx₁) :=
    makes_addArrayClass _ _ (Nat.zero_le _) trivial
  have hedits := hmakes.of_ok hrun
  have hstructural : ctx₂.structural = ctx₁.structural :=
    (structural_eq_of_quiet hedits).trans rfl
  have hstorages : ctx₂.storages = ctx₁.storages.insert item.text storage :=
    (storages_eq_of_quiet hedits).trans rfl
  have hkeep : ctx₂.Grows ((Edit.keep (item.text ++ "[]") cls).write ctx₂) :=
    Context.grows_keep cls (by rw [hstructural]; exact hfree₁)
  have hnote : Edit.Plain {} ctx₁ (.storage item.text storage) := .storage _ _
  have hgrows : ctx₁.Grows ctx₂ := hnote.grows.trans (hedits.grows fun _ _ => Edit.Quiet.grows)
  have hans : ctx₁.Answers ((Edit.keep (item.text ++ "[]") cls).write ctx₂) (item.text ++ "[]") cls
      (.array type false) := by
    refine ⟨hgrows.trans hkeep, Or.inr ⟨hfree₁, ?_, hkeep.synthesized (addArrayClass_eq_ok hrun)⟩⟩
    simp only [Edit.write, hstructural]
  have hslot := Context.grows_newSlot ((Edit.keep (item.text ++ "[]") cls).write ctx₂)
    (some (.classOf cls))
  refine ⟨{ name := item.text ++ "[]", slot := ⟨ctx₂.slots.size⟩ },
    (Edit.newSlot (some (.classOf cls))).write ((Edit.keep (item.text ++ "[]") cls).write ctx₂),
    ?_, ?_, cls, slotType?_newSlot _, (hans.trans_grows hslot rfl).of_unchanged hsame⟩
  · unfold registerArray
    rw [bind_of_ok hitem, arrayTypeName, hname, bind_of_ok hget, if_neg ?_]
    · exact (bind_of_ok rfl).trans ((bind_of_ok hrun).trans rfl)
    · simp [Assoc.contains, hfree₁]
  · show ctx₂.storages = ctx.storages.insert item.text storage
    rw [hstorages, hsame.storages]

/-- A registration under a name that is taken is refused. -/
theorem registerArray_of_taken {item : TypeName} {type : TypeRef} {ctx₁ : Context}
    (storage : ArrayStorage) (hitem : typeRef item ctx = .ok type ctx₁)
    (htaken : ctx.structural.find? (item.text ++ "[]") ≠ none) :
    registerArray item storage ctx = .error (.duplicateSymbol
      (Location.describe none (item.text ++ "[]")) (item.text ++ "[]")) ctx₁ := by
  obtain ⟨hname, hsame⟩ := typeRef_eq_ok hitem
  have hget : (get : SemaM Context) ctx₁ = .ok ctx₁ ctx₁ := rfl
  -- Making the item type leaves the names alone.
  have hcontains : ctx₁.structural.contains (item.text ++ "[]") = true := by
    rw [Assoc.contains, hsame.structural]
    exact Option.isSome_iff_ne_none.mpr htaken
  unfold registerArray
  rw [bind_of_ok hitem, arrayTypeName, hname, bind_of_ok hget, if_pos hcontains]
  rfl

/-! ### Every call keeps the tables in step -/

/-- `arrayType` keeps the tables in step. -/
theorem inStep_arrayType (h : ctx.InStep) (item : TypeName) :
    (after (arrayType item) ctx).InStep := by
  cases hitem : typeRef item ctx with
  | error e ctx₁ =>
    have hrun : after (arrayType item) ctx = after (typeRef item) ctx := by
      simp only [after, arrayType, bind_of_error hitem, hitem]
    rw [hrun]
    exact inStep_of_quiet h (makes_typeRef item)
  | ok type ctx₁ =>
    obtain ⟨ref, last, hrun, hstorages, cls, -, hans⟩ := arrayType_answers hitem
    rw [after_ok hrun]
    have hname := (typeRef_eq_ok hitem).1
    refine h.answers hans (by rw [← hname]; rfl) hstorages ?_
    -- A class that is made now finds no storage, so it is generic.
    intro hfree type' hsame
    rw [h.find?_storages hfree] at hsame
    cases hsame

/-- `mapType` keeps the tables in step. -/
theorem inStep_mapType (h : ctx.InStep) (key value : TypeName) :
    (after (mapType key value) ctx).InStep := by
  unfold mapType
  refine after_bind (inStep_of_quiet h (makes_typeRef key)) fun k ctx₁ hkey h₁ => ?_
  refine after_bind (inStep_of_quiet h₁ (makes_typeRef value)) fun v ctx₂ hvalue h₂ => ?_
  -- From here on it is the request for the two references.
  obtain ⟨ref, last, hrun, hstorages, cls, -, hans⟩ :
      Answers (mapType (.ref k) (.ref v)) ctx₂ (mapTypeName k v) (.map k v) :=
    mapType_answers rfl rfl
  have hafter := h₂.answers hans rfl hstorages (by intro _ _ hsame; cases hsame)
  rw [← after_ok hrun] at hafter
  exact hafter

/-- `registerArray` keeps the tables in step: class and storage are noted together or not at all. -/
theorem inStep_registerArray (h : ctx.InStep) (item : TypeName) (storage : ArrayStorage) :
    (after (registerArray item storage) ctx).InStep := by
  cases hitem : typeRef item ctx with
  | error e ctx₁ =>
    have hrun : after (registerArray item storage) ctx = after (typeRef item) ctx := by
      simp only [after, registerArray, bind_of_error hitem, hitem]
    rw [hrun]
    exact inStep_of_quiet h (makes_typeRef item)
  | ok type ctx₁ =>
    obtain ⟨hname, hsame⟩ := typeRef_eq_ok hitem
    by_cases hfree : ctx.structural.find? (item.text ++ "[]") = none
    · obtain ⟨ref, last, hrun, hstorages, cls, -, hans⟩ := registerArray_of_free storage hitem hfree
      rw [after_ok hrun]
      -- The name was free, so both tables get an entry for it.
      rcases hans.table with ⟨hfind, -⟩ | ⟨-, heq, hst⟩
      · rw [hfree] at hfind
        cases hfind
      · refine h.insert hans.grows hfree heq hst (by rw [← hname]; rfl) fun other => ?_
        simp only [hstorages, Assoc.find?_insert]
        by_cases hother : other = item.text
        · simp [hother, hname]
        · simp [hother, hname, Ne.symm hother]
    · have hrun := registerArray_of_taken storage hitem hfree
      have hafter : after (registerArray item storage) ctx = ctx₁ := by simp only [after, hrun]
      rw [hafter]
      exact h.of_eq hsame.grows hsame.structural hsame.storages

/-- Parsed types keep the tables in step. -/
theorem inStep_parsedType (h : ctx.InStep) (name : String) (isArray : Bool)
    (func : Option ParsedFunc) : (after (parsedType name isArray func) ctx).InStep := by
  -- What follows the base type, with and without brackets.
  have hsuffix : ∀ (type : TypeRef) (ctx' : Context), ctx'.InStep →
      (after (if isArray then arrayType (.ref type) else pure type) ctx').InStep := by
    intro type ctx' h'
    split
    · exact inStep_arrayType h' _
    · exact h'
  unfold parsedType
  refine after_bind (inStep_of_quiet h (makes_typeRef _)) fun plain ctx₁ _ h₁ => ?_
  cases func with
  | none => exact hsuffix plain ctx₁ h₁
  | some f =>
    have hfunc : ∀ (ret : TypeRef) (ctx' : Context), ctx'.InStep → (after (do
        let params ← parsedParams f.params
        let type ← typeRefOf (.func (.of ret params))
        if isArray then arrayType (.ref type) else pure type) ctx').InStep := by
      intro ret ctx' h'
      refine after_bind (inStep_of_quiet h' (makes_parsedParams _)) fun params ctx₂ _ h₂ => ?_
      refine after_bind (inStep_of_quiet h₂ (makes_typeRefOf _)) fun type ctx₃ _ h₃ => ?_
      exact hsuffix type ctx₃ h₃
    dsimp only
    split
    · exact after_bind (inStep_arrayType h₁ _) fun ret ctx₂ _ h₂ => hfunc ret ctx₂ h₂
    · exact hfunc plain ctx₁ h₁

end SemaM

/-- Every call keeps the tables in step. -/
theorem Op.inStep_next (op : Op) {ctx : Context} (h : ctx.InStep) : (op.next ctx).InStep := by
  cases hasks : op.asksStructural with
  | false =>
    obtain ⟨hstructural, hstorages⟩ : (op.next ctx).structural = ctx.structural ∧
        (op.next ctx).storages = ctx.storages := op.tables_next hasks
    exact h.of_eq (op.grows ctx) hstructural hstorages
  | true =>
    -- The four calls that ask for structural classes, each by its own lemma.
    have hforget : ∀ {α : Type} {m : SemaM α}, (SemaM.after m ctx).InStep →
        (SemaM.after (SemaM.forget m) ctx).InStep := by
      intro α m hm
      rw [SemaM.after_forget]
      exact hm
    cases op with
    | arrayType item => exact hforget (SemaM.inStep_arrayType h item)
    | registerArray item storage => exact hforget (SemaM.inStep_registerArray h item storage)
    | mapType key value => exact hforget (SemaM.inStep_mapType h key value)
    | parsedType name isArray func => exact hforget (SemaM.inStep_parsedType h name isArray func)
    | _ => cases hasks

/-- Every run keeps the tables in step. -/
theorem Op.inStep_runs (ops : List Op) {ctx : Context} (h : ctx.InStep) :
    (Op.runs ctx ops).InStep := by
  induction ops generalizing ctx with
  | nil => exact h
  | cons op rest ih => exact ih (op.inStep_next h)

/-- The tables are in step at the start, after the typed arrays of the host were registered. -/
theorem Context.initial_inStep : Context.initial.InStep := by
  rw [Context.initial_eq]
  have hglobals := SemaM.inStep_of_quiet Context.bare_inStep
    (SemaM.makes_addGlobals (Nat.zero_le Context.bare.slots.size))
  refine SemaM.after_bind hglobals fun _ ctx _ h => ?_
  unfold SemaM.addTypedArrays
  refine SemaM.after_bind (SemaM.inStep_registerArray h _ _) fun _ _ _ h => ?_
  refine SemaM.after_bind (SemaM.inStep_registerArray h _ _) fun _ _ _ h => ?_
  refine SemaM.after_bind (SemaM.inStep_registerArray h _ _) fun _ _ _ h => ?_
  exact SemaM.after_bind (SemaM.inStep_registerArray h _ _) fun _ _ _ h => h

/-- The tables are in step in every state that is reached. -/
theorem Reached.inStep {allowed : Context → Op → Prop} {ctx : Context} (h : Reached allowed ctx) :
    ctx.InStep := by
  induction h with
  | initial => exact Context.initial_inStep
  | step op _ _ ih => exact op.inStep_next ih

/-! ### Requests and registrations in any order -/

section MadeOnce

open SemaM

variable {ctx ctx' : Context} {item : TypeName} {type : TypeRef}

/-- What an array request that succeeds has returned. -/
theorem arrayType_eq_ok (h : arrayType item ctx = .ok type ctx') :
    ∃ cls ref, ctx'.slotType? type.slot = some (.classOf cls) ∧ ref.name = item.text ∧
      ctx.Answers ctx' (item.text ++ "[]") cls
        (.array ref (ctx.storages.find? item.text).isNone) := by
  obtain ⟨ref, ctx₁, hitem, -⟩ := bind_eq_ok h
  obtain ⟨type', last, hrun, -, cls, hslot, hans⟩ := arrayType_answers hitem
  rw [h] at hrun
  cases hrun
  exact ⟨cls, ref, hslot, (typeRef_eq_ok hitem).1, hans⟩

/-- A registration that succeeds has made the first class of its name. -/
theorem registerArray_eq_ok {storage : ArrayStorage}
    (h : registerArray item storage ctx = .ok type ctx') :
    ctx.structural.find? (item.text ++ "[]") = none ∧
    ∃ cls ref, ctx'.slotType? type.slot = some (.classOf cls) ∧ ref.name = item.text ∧
      ctx.Answers ctx' (item.text ++ "[]") cls (.array ref false) := by
  obtain ⟨ref, ctx₁, hitem, -⟩ := bind_eq_ok h
  by_cases hfree : ctx.structural.find? (item.text ++ "[]") = none
  · obtain ⟨type', last, hrun, -, cls, hslot, hans⟩ := registerArray_of_free storage hitem hfree
    rw [h] at hrun
    cases hrun
    exact ⟨hfree, cls, ref, hslot, (typeRef_eq_ok hitem).1, hans⟩
  · rw [registerArray_of_taken storage hitem hfree] at h
    cases h

/-- A storage can be registered as long as there is no array class for the item. -/
theorem registerArray_eq_ok_iff (storage : ArrayStorage) {ref : TypeRef} {ctx₁ : Context}
    (hitem : typeRef item ctx = .ok ref ctx₁) :
    (∃ type ctx', registerArray item storage ctx = .ok type ctx') ↔
      ctx.structural.find? (item.text ++ "[]") = none := by
  constructor
  · rintro ⟨type, ctx', h⟩
    exact (registerArray_eq_ok h).1
  · intro hfree
    obtain ⟨type, ctx', hrun, -⟩ := registerArray_of_free storage hitem hfree
    exact ⟨type, ctx', hrun⟩

/-- Two requests with any calls in between get the same class exactly if they are for items of one
name. -/
theorem arrayType_same_iff (h : ctx.InStep) (hfirst : arrayType item ctx = .ok type ctx')
    (ops : List Op) {item' : TypeName} {type' : TypeRef} {last : Context}
    (hsecond : arrayType item' (Op.runs ctx' ops) = .ok type' last) :
    ∃ cls cls', ctx'.slotType? type.slot = some (.classOf cls) ∧
      last.slotType? type'.slot = some (.classOf cls') ∧ (cls = cls' ↔ item.text = item'.text) := by
  obtain ⟨cls, ref, hslot, -, hans⟩ := arrayType_eq_ok hfirst
  obtain ⟨cls', ref', hslot', -, hans'⟩ := arrayType_eq_ok hsecond
  refine ⟨cls, cls', hslot, hslot', ?_⟩
  -- The first class is still kept under its name when the second request has been answered.
  have hgrows : ctx'.Grows last := (Op.runs_grows ctx' ops).trans hans'.grows
  have hfind := hgrows.structural _ _ hans.find?
  have hfind' := hans'.find?
  constructor
  · intro hsame
    subst hsame
    have hctx' : ctx'.InStep := by
      rw [← after_ok hfirst]
      exact inStep_arrayType h item
    have hlast : last.InStep := by
      rw [← after_ok hsecond]
      exact inStep_arrayType (Op.inStep_runs ops hctx') item'
    exact arrayName_inj (hlast.kept.name_unique hfind hfind')
  · intro hname
    rw [hname, hfind'] at hfind
    exact (Option.some.inj hfind).symm

/-- Array and map classes are made once, whatever calls are made in whatever order.

* Two array requests at any two moments get the same class exactly if the items have one name.
* A name stays bound to its class, and no class has two names.
* Storage can be registered for an item exactly as long as its array class does not exist; after
  that a registration is refused and changes nothing.
* A class that a request makes is generic for good, and one that a registration makes never is. So
  an array class is generic exactly if no storage is noted for its item. -/
theorem structural_classes_made_once (h : Reached (fun _ _ => True) ctx) :
    (∀ ⦃item type ctx₁⦄, arrayType item ctx = .ok type ctx₁ →
      ∀ (ops : List Op) ⦃item' type' ctx₂⦄, arrayType item' (Op.runs ctx₁ ops) = .ok type' ctx₂ →
        ∃ cls cls', ctx₁.slotType? type.slot = some (.classOf cls) ∧
          ctx₂.slotType? type'.slot = some (.classOf cls') ∧
          (cls = cls' ↔ item.text = item'.text)) ∧
    (∀ ⦃name cls⦄, ctx.structural.find? name = some cls →
      (∀ ops, (Op.runs ctx ops).structural.find? name = some cls) ∧
      ∀ name', ctx.structural.find? name' = some cls → name' = name) ∧
    (∀ ⦃item ref ctx₁⦄, typeRef item ctx = .ok ref ctx₁ → ∀ storage,
      ((∃ type ctx', registerArray item storage ctx = .ok type ctx') ↔
        ctx.structural.find? (item.text ++ "[]") = none) ∧
      (ctx.structural.find? (item.text ++ "[]") ≠ none →
        ∃ ctx', registerArray item storage ctx = .error (.duplicateSymbol
          (Location.describe none (item.text ++ "[]")) (item.text ++ "[]")) ctx' ∧
          ctx.Unchanged ctx')) ∧
    (∀ ⦃item type ctx'⦄, arrayType item ctx = .ok type ctx' →
      ctx.structural.find? (item.text ++ "[]") = none →
      ∃ cls ref, ctx'.slotType? type.slot = some (.classOf cls) ∧ ref.name = item.text ∧
        ∀ ops, (Op.runs ctx' ops).Synthesized cls (.array ref true)) ∧
    (∀ ⦃item storage type ctx'⦄, registerArray item storage ctx = .ok type ctx' →
      ∃ cls ref, ctx'.slotType? type.slot = some (.classOf cls) ∧ ref.name = item.text ∧
        ∀ ops, (Op.runs ctx' ops).Synthesized cls (.array ref false)) ∧
    ∀ ⦃name type generic⦄, ctx.Registered name (.array type generic) →
      (generic = true ↔ ctx.storages.find? type.name = none) := by
  have hstep := h.inStep
  refine ⟨?_, ?_, ?_, ?_, ?_, ?_⟩
  · intro item type ctx₁ hfirst ops item' type' ctx₂ hsecond
    exact arrayType_same_iff hstep hfirst ops hsecond
  · intro name cls hfind
    refine ⟨fun ops => (Op.runs_grows ctx ops).structural name cls hfind, fun name' hfind' => ?_⟩
    exact hstep.kept.name_unique hfind' hfind
  · intro item ref ctx₁ hitem storage
    refine ⟨registerArray_eq_ok_iff storage hitem, fun htaken => ?_⟩
    exact ⟨ctx₁, registerArray_of_taken storage hitem htaken, (typeRef_eq_ok hitem).2⟩
  · intro item type ctx' hrun hfree
    -- A class that is made now finds no storage for its item, so it is generic.
    obtain ⟨cls, ref, hslot, hname, hans⟩ := arrayType_eq_ok hrun
    refine ⟨cls, ref, hslot, hname, fun ops => (Op.runs_grows ctx' ops).synthesized ?_⟩
    have hst := hans.synthesized hfree
    rw [hstep.find?_storages hfree] at hst
    exact hst
  · intro item storage type ctx' hrun
    obtain ⟨hfree, cls, ref, hslot, hname, hans⟩ := registerArray_eq_ok hrun
    refine ⟨cls, ref, hslot, hname, fun ops => (Op.runs_grows ctx' ops).synthesized ?_⟩
    exact hans.synthesized hfree
  · intro name type generic hreg
    exact hstep.generic_iff hreg

end MadeOnce

/-- Storage is registered for points, and maps from strings to integers are asked for. -/
def pointRun : List Op :=
  [.registerArray (.name "Point") (.typed .float), .mapType (.name "string") (.name "int")]

/-- Storage is offered for cells, and an enum of their name is made. -/
def cellRun : List Op := [.registerArray (.name "Cell") (.typed .int), .addEnum "Cell" none]

/-- What `pointRun` leaves, by running it. -/
theorem pointRun_facts :
    ((Op.runs .initial pointRun).structural.find? "Point[]").isSome = true ∧
    (Op.runs .initial pointRun).structural.find? "Cell[]" = none := by
  decide +kernel

/-- After the first run, arrays of cells are asked for before and after the second. Both requests
get one class, which is generic for good, and storage cannot be registered for points again. -/
theorem structural_classes_made_once_pointRun :
    let ctx := Op.runs .initial pointRun
    Reached (fun _ _ => True) ctx ∧
    ∃ type ctx₁ type' ctx₂ cls ref,
      SemaM.arrayType (.name "Cell") ctx = .ok type ctx₁ ∧
      SemaM.arrayType (.name "Cell") (Op.runs ctx₁ cellRun) = .ok type' ctx₂ ∧
      ctx₁.slotType? type.slot = some (.classOf cls) ∧
      ctx₂.slotType? type'.slot = some (.classOf cls) ∧
      (Op.runs ctx₁ cellRun).Synthesized cls (.array ref true) ∧
      ∃ ctx', SemaM.registerArray (.name "Point") .generic ctx
        = .error (.duplicateSymbol (Location.describe none "Point[]") "Point[]") ctx' ∧
        ctx.Unchanged ctx' := by
  intro ctx
  obtain ⟨hpoint, hcell⟩ := pointRun_facts
  have hreached : Reached (fun _ _ => True) ctx :=
    Reached.initial.runs ⟨trivial, trivial, trivial⟩
  have hname : ∀ (name : String) (c : Context), name.isEmpty = false → isCompound name = false →
      SemaM.typeRef (.name name) c
        = .ok { name, slot := ⟨c.slots.size⟩ } ((Edit.newSlot none).write c) :=
    fun _ _ hne hsimple => SemaM.typeRef_name hne hsimple
  obtain ⟨type, ctx₁, hfirst, -⟩ :=
    SemaM.arrayType_answers (hname "Cell" ctx (by decide) (by decide))
  obtain ⟨type', ctx₂, hsecond, -⟩ :=
    SemaM.arrayType_answers (hname "Cell" (Op.runs ctx₁ cellRun) (by decide) (by decide))
  obtain ⟨hsame, -, hregister, hgeneric, -⟩ := structural_classes_made_once hreached
  -- Both requests are for the same name, so they get the same class.
  obtain ⟨cls, cls', hslot, hslot', hiff⟩ := hsame hfirst cellRun hsecond
  have hcls : cls = cls' := hiff.mpr rfl
  subst hcls
  obtain ⟨made, ref, hmade, -, hst⟩ := hgeneric hfirst hcell
  have hmade : made = cls := by
    rw [hslot] at hmade
    cases hmade
    rfl
  subst hmade
  have htaken : ctx.structural.find? "Point[]" ≠ none := Option.isSome_iff_ne_none.mp hpoint
  refine ⟨hreached, type, ctx₁, type', ctx₂, made, ref, hfirst, hsecond, hslot, hslot',
    hst cellRun, ?_⟩
  exact (hregister (hname "Point" ctx (by decide) (by decide)) .generic).2 htaken

end Sema

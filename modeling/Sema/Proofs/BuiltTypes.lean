import Sema.Proofs.Assignability
import Sema.Proofs.Instance
import Sema.Proofs.References
import Sema.Proofs.TypeText

/-!
# `Sema.Proofs.BuiltTypes`: assigning to a function type

A `TypeExpr` is a type as it is built: from simple names, by the operations for array, map, function
and tuple types. Function types and tuples are compared by their names, and so are any two types in
the end. `assign_to_func` says what that amounts to where a function type is expected.

It rests on what the name of a built type looks like (`Ty.Formed`). For array and map types this
takes one more invariant: the class of the type is kept under its own name (`Context.Titled`).
-/

set_option autoImplicit false

namespace Sema

/-! ### Classes are kept under their own names -/

namespace Context

variable {a b ctx : Context} {id : SymbolId} {name : String}

/-- The name of an id is that of its symbol. -/
theorem nameOf_eq_ok_iff :
    ctx.nameOf id = .ok name ↔ ∃ s, ctx.arena.get? id = some s ∧ s.name = name := by
  constructor
  · intro h
    obtain ⟨s, hs, hname⟩ := except_bind_eq_ok h
    exact ⟨s, symbol_eq_ok_iff.mp hs, Except.ok.inj hname⟩
  · rintro ⟨s, hs, rfl⟩
    simp only [nameOf, symbol_of_get? hs, bind, Except.bind]
    rfl

/-- Names stay. -/
theorem Grows.nameOf (h : a.Grows b) (hname : a.nameOf id = .ok name) : b.nameOf id = .ok name := by
  obtain ⟨s, hs, rfl⟩ := nameOf_eq_ok_iff.mp hname
  obtain ⟨t, ht, hgrows⟩ := h.symbols id s hs
  exact nameOf_eq_ok_iff.mpr ⟨t, ht, hgrows.name⟩

/-- So do the names of types. -/
theorem Grows.typeName (h : a.Grows b) {t : Ty} (hname : a.typeName t = .ok name) :
    b.typeName t = .ok name := by
  cases t with
  | classOf | enumOf => exact h.nameOf hname
  | _ => exact hname

/-- Every class that is kept has the name under which it is kept. -/
def Titled (ctx : Context) : Prop :=
  ∀ ⦃name cls⦄, ctx.structural.find? name = some cls → ctx.nameOf cls = .ok name

/-- A context stays titled as long as no class is registered. -/
theorem Titled.of_eq (h : a.Titled) (hgrows : a.Grows b) (heq : b.structural = a.structural) :
    b.Titled := by
  intro name cls hfind
  rw [heq] at hfind
  exact hgrows.nameOf (h hfind)

/-- The bare context has no structural types. -/
theorem bare_titled : bare.Titled := nofun

end Context

/-- A class that the edit keeps has the name under which it is kept. -/
def Edit.Titles (ctx : Context) : Edit → Prop
  | keep name cls => ctx.nameOf cls = .ok name
  | _ => True

/-- The edits of requests for array and map types. -/
def Edit.Files (ctx : Context) (e : Edit) : Prop := Plain {} ctx e ∧ e.Titles ctx

/-- A quiet edit registers nothing. -/
theorem Edit.Quiet.files {ctx : Context} {e : Edit} (he : Quiet {} ctx e) : e.Files ctx := by
  refine ⟨.quiet he, ?_⟩
  cases he <;> trivial

/-- An edit that registers a class under its own name keeps the context titled. -/
theorem Edit.Files.titled {ctx : Context} {e : Edit} (he : e.Files ctx) (h : ctx.Titled) :
    (e.write ctx).Titled := by
  obtain ⟨hplain, htitles⟩ := he
  cases hplain with
  | quiet he => exact h.of_eq he.grows he.structural_eq
  | storage => exact h
  | @keep name cls =>
    intro name' cls' hfind
    simp only [write, Assoc.find?_insert] at hfind
    split at hfind
    · rename_i hsame
      cases hfind
      rw [hsame]
      exact htitles
    · exact h hfind

namespace SemaM

open Edit

variable {ctx : Context}

/-- Quiet computations register nothing. -/
theorem files_of_quiet {α : Type} {m : SemaM α} (h : Makes (Quiet {}) m ctx) : Makes Files m ctx :=
  h.mono fun _ _ he => he.files

/-- A new class is named as it was asked for. -/
theorem nameOf_of_alloc {s : Symbol} {ctx' : Context}
    (h : Edits (Quiet {}) ((Edit.alloc s).write ctx) ctx') : ctx'.nameOf ctx.nextId = .ok s.name :=
  (h.grows fun _ _ => Quiet.grows).nameOf
    (Context.nameOf_eq_ok_iff.mpr ⟨s, Context.get?_alloc_nextId _ _, rfl⟩)

/-- The class of an array type has the name that it was asked for under. -/
theorem nameOf_addArrayClass {name : String} {item : TypeRef} {registered : Option ArrayStorage}
    {cls : SymbolId} {ctx' : Context} (h : addArrayClass name item registered ctx = .ok cls ctx') :
    ctx'.nameOf cls = .ok name := by
  obtain ⟨id, ctx₁, halloc, hrest⟩ := bind_eq_ok h
  rw [alloc_run] at halloc
  cases halloc
  obtain ⟨u, ctx₂, hmembers, hrest⟩ := bind_eq_ok hrest
  cases hrest
  have hmakes : ∀ c,
      Makes (Quiet {}) (addArrayMembers ctx.nextId item (registered.getD .generic)) c :=
    fun _ => makes_addArrayMembers _ _ (Nat.zero_le _) trivial
  exact nameOf_of_alloc ((hmakes _).of_ok hmembers)

/-- So has the class of a map type. -/
theorem nameOf_addMapClass {name : String} {key value : TypeRef} {cls : SymbolId} {ctx' : Context}
    (h : addMapClass name key value ctx = .ok cls ctx') : ctx'.nameOf cls = .ok name := by
  obtain ⟨id, ctx₁, halloc, hrest⟩ := bind_eq_ok h
  rw [alloc_run] at halloc
  cases halloc
  obtain ⟨u, ctx₂, hmembers, hrest⟩ := bind_eq_ok hrest
  cases hrest
  have hmakes : ∀ c, Makes (Quiet {}) (addMapMembers ctx.nextId key value) c :=
    fun _ => makes_addMapMembers _ (Nat.zero_le _) trivial trivial
  exact nameOf_of_alloc ((hmakes _).of_ok hmembers)

/-- A new class is registered under its name. -/
theorem files_keepStructural {name : String} {cls : SymbolId} {st : Structural} {ctx' : Context}
    (hfree : ctx.structural.find? name = none) (hedits : Edits (Quiet {}) ctx ctx')
    (hst : ctx'.Synthesized cls st) (hname : st.typeName = name)
    (htitle : ctx'.nameOf cls = .ok name) : Makes Files (keepStructural name cls) ctx' := by
  have hfree' : ctx'.structural.find? name = none := by
    rw [structural_eq_of_quiet hedits]
    exact hfree
  exact makes_edit (.keep name cls) ⟨.keep hfree' hst hname trivial, htitle⟩ rfl

/-- A structural class is found, or made and registered under its name. -/
theorem files_structuralClass {name : String} {make : SemaM SymbolId} {st : Structural}
    (hname : st.typeName = name) (hmake : Makes (Quiet {}) make ctx)
    (hst : ∀ cls ctx', make ctx = .ok cls ctx' → ctx'.Synthesized cls st)
    (htitle : ∀ cls ctx', make ctx = .ok cls ctx' → ctx'.nameOf cls = .ok name) :
    Makes Files (structuralClass name make) ctx := by
  unfold structuralClass
  refine makes_get_bind ?_
  -- A class that is on record is handed out again.
  cases hfind : ctx.structural.find? name with
  | some cls => exact makes_pure cls
  | none =>
    refine makes_bind (files_of_quiet hmake) fun cls ctx' hrun => ?_
    refine makes_bind ?_ fun _ _ _ => makes_pure cls
    exact files_keepStructural hfind (hmake.of_ok hrun) (hst cls ctx' hrun) hname
      (htitle cls ctx' hrun)

/-- An array type. -/
theorem files_arrayType (item : TypeName) : Makes Files (arrayType item) ctx := by
  unfold arrayType
  refine makes_bind (files_of_quiet (makes_typeRef item)) fun type ctx' _ => makes_get_bind ?_
  refine makes_bind ?_ fun _ _ _ => files_of_quiet (makes_resolvedRef _ _)
  exact files_structuralClass rfl (makes_addArrayClass _ _ (Nat.zero_le _) trivial)
    (fun _ _ h => addArrayClass_eq_ok h) fun _ _ h => nameOf_addArrayClass h

/-- A map type. -/
theorem files_mapType (key value : TypeName) : Makes Files (mapType key value) ctx := by
  unfold mapType
  refine makes_bind (files_of_quiet (makes_typeRef key)) fun keyRef _ _ => ?_
  refine makes_bind (files_of_quiet (makes_typeRef value)) fun valueRef _ _ => ?_
  refine makes_bind ?_ fun _ _ _ => files_of_quiet (makes_resolvedRef _ _)
  exact files_structuralClass rfl (makes_addMapClass _ (Nat.zero_le _) trivial trivial)
    (fun _ _ h => addMapClass_eq_ok h) fun _ _ h => nameOf_addMapClass h

/-- An array type with a storage of its own. -/
theorem files_registerArray (item : TypeName) (storage : ArrayStorage) :
    Makes Files (registerArray item storage) ctx := by
  unfold registerArray
  refine makes_bind (files_of_quiet (makes_typeRef item)) fun type ctx₁ _ => makes_get_bind ?_
  dsimp only
  split
  · exact makes_throw_bind _ _
  · rename_i htaken
    have hstorage : Files ctx₁ (.storage type.name storage) := ⟨.storage _ _, trivial⟩
    refine makes_bind (makes_edit _ hstorage rfl) fun _ ctx₂ hrun => ?_
    -- The name is still free after the storage is written down.
    have hfree : ctx₂.structural.find? (arrayTypeName type) = none := by
      cases hrun
      simpa [Assoc.contains] using htaken
    have hclass : Makes (Quiet {}) (addArrayClass (arrayTypeName type) type (some storage)) ctx₂ :=
      makes_addArrayClass _ _ (Nat.zero_le _) trivial
    refine makes_bind (files_of_quiet hclass) fun cls ctx₃ hrun => ?_
    refine makes_bind ?_ fun _ _ _ => files_of_quiet (makes_resolvedRef _ _)
    exact files_keepStructural hfree (hclass.of_ok hrun) (addArrayClass_eq_ok hrun) rfl
      (nameOf_addArrayClass hrun)

/-- A parsed type. -/
theorem files_parsedType (name : String) (isArray : Bool) (func : Option ParsedFunc) :
    Makes Files (parsedType name isArray func) ctx := by
  -- All three forms of a parsed type end in the same way.
  have hsuffix : ∀ (type : TypeRef) (ctx' : Context),
      Makes Files (if isArray then arrayType (.ref type) else pure type) ctx' := by
    intro type ctx'
    split
    · exact files_arrayType _
    · exact makes_pure _
  unfold parsedType
  refine makes_bind (files_of_quiet (makes_typeRef _)) fun plain ctx₁ _ => ?_
  dsimp only
  split
  · exact makes_bind (makes_pure _) fun _ _ _ => hsuffix _ _
  · rename_i f
    have hfunc : ∀ (ret : TypeRef) (ctx' : Context), Makes Files (do
        let params ← parsedParams f.params
        let type ← typeRefOf (.func (.of ret params))
        if isArray then arrayType (.ref type) else pure type) ctx' := by
      intro ret ctx'
      refine makes_bind (files_of_quiet (makes_parsedParams _)) fun params _ _ => ?_
      exact makes_bind (files_of_quiet (makes_typeRefOf _)) fun _ _ _ => hsuffix _ _
    split
    · exact makes_bind (files_arrayType _) fun _ _ _ => hfunc _ _
    · exact makes_bind (makes_pure _) fun _ _ _ => hfunc _ _

end SemaM

namespace Op

variable {ctx : Context}

/-- Every call keeps the context titled. Four of them ask for structural types. -/
theorem titled_next (op : Op) (h : ctx.Titled) : (op.next ctx).Titled := by
  cases hasks : op.asksStructural with
  | false => exact h.of_eq (op.grows ctx) (op.tables_next hasks).1
  | true =>
    have hfiles : SemaM.Makes Edit.Files op.exec ctx := by
      cases op with
      | arrayType => exact SemaM.makes_forget (SemaM.files_arrayType _)
      | registerArray => exact SemaM.makes_forget (SemaM.files_registerArray _ _)
      | mapType => exact SemaM.makes_forget (SemaM.files_mapType _ _)
      | parsedType => exact SemaM.makes_forget (SemaM.files_parsedType _ _ _)
      | _ => cases hasks
    exact hfiles.preserves (fun _ _ he => he.titled) h

end Op

/-- The initial context is made by such edits. -/
theorem Context.initial_titled : Context.initial.Titled := by
  have hfiles :
      SemaM.Makes Edit.Files (do SemaM.addGlobals; SemaM.addTypedArrays) Context.bare := by
    refine SemaM.makes_bind (SemaM.files_of_quiet (SemaM.makes_addGlobals (Nat.zero_le _))) ?_
    intro _ _ _
    refine SemaM.makes_bind (SemaM.files_registerArray _ _) fun _ _ _ => ?_
    refine SemaM.makes_bind (SemaM.files_registerArray _ _) fun _ _ _ => ?_
    refine SemaM.makes_bind (SemaM.files_registerArray _ _) fun _ _ _ => ?_
    exact SemaM.makes_bind (SemaM.files_registerArray _ _) fun _ _ _ => SemaM.makes_pure _
  rw [Context.initial_eq]
  exact hfiles.preserves (fun _ _ he => he.titled) Context.bare_titled

/-- In every state, the registered classes have the names that they are registered under. -/
theorem Reached.titled {allowed : Context → Op → Prop} {ctx : Context} (h : Reached allowed ctx) :
    ctx.Titled := by
  induction h with
  | initial => exact Context.initial_titled
  | step op _ _ ih => exact op.titled_next ih

/-! ### Building a type -/

/-- A type as it is built from simple names. -/
inductive TypeExpr where
  | simple (name : String)
  | array (item : TypeExpr)
  | map (key value : TypeExpr)
  | func (ret : TypeExpr) (params : List TypeExpr)
  | tuple (items : List TypeExpr)
  /-- The result of a function that returns these. -/
  | returns (items : List TypeExpr)
  /-- The same type, passed by reference or not. -/
  | passed (e : TypeExpr) (byRef : Bool)

namespace TypeExpr

open SemaM

mutual

/-- A reference to the type, built from the inside out. -/
def build : TypeExpr → SemaM TypeRef
  | simple name => typeRef (.name name)
  | array item => do arrayType (.ref (← item.build))
  | map key value => do
    let key ← key.build
    let value ← value.build
    mapType (.ref key) (.ref value)
  | func ret params => do
    let ret ← ret.build
    let params ← buildAll params
    funcType (.ref ret) (params.map .ref)
  | tuple items => do tupleType ((← buildAll items).map .ref)
  | returns items => do returnsType (← buildAll items)
  | passed e byRef => do return (← e.build).withRef byRef

/-- References to several types, in order. -/
def buildAll : List TypeExpr → SemaM (List TypeRef)
  | [] => return []
  | e :: rest => do
    let type ← e.build
    return type :: (← buildAll rest)

end

/-- The type itself. -/
def type (e : TypeExpr) : SemaM Ty := do typeOf (← e.build)

end TypeExpr

/-- Some calls lead from one context to the other. -/
def Context.Leads (a b : Context) : Prop := ∃ ops, b = Op.runs a ops

namespace Context.Leads

variable {a b c : Context}

/-- No calls at all. -/
theorem refl (a : Context) : a.Leads a := ⟨[], rfl⟩

/-- Some calls, and then some more. -/
theorem trans (hab : a.Leads b) (hbc : b.Leads c) : a.Leads c := by
  obtain ⟨ops, rfl⟩ := hab
  obtain ⟨ops', rfl⟩ := hbc
  exact ⟨ops ++ ops', (Op.runs_append _ _ _).symm⟩

/-- Calls let the context grow. -/
theorem grows (h : a.Leads b) : a.Grows b := by
  obtain ⟨ops, rfl⟩ := h
  exact Op.runs_grows a ops

/-- One more call, which succeeds. -/
theorem of_ok (h : a.Leads b) {α : Type} {m : SemaM α} {result : α} (op : Op)
    (hexec : op.exec = SemaM.forget m) (hrun : m b = .ok result c) : a.Leads c := by
  refine h.trans ⟨[op], ?_⟩
  show c = op.next b
  rw [Op.next, hexec, SemaM.after_forget, SemaM.after_ok hrun]

/-- What calls lead to from a reached state is reached. -/
theorem reached (h : a.Leads b) (ha : Reached (fun _ _ => True) a) :
    Reached (fun _ _ => True) b := by
  obtain ⟨ops, rfl⟩ := h
  induction ops generalizing a with
  | nil => exact ha
  | cons op rest ih => exact ih (.step op ha trivial)

end Context.Leads

/-- The type was built from simple names in some state of the run. -/
def Context.Built (ctx : Context) (t : Ty) : Prop :=
  ∃ (e : TypeExpr) (start made : Context), Reached (fun _ _ => True) start ∧
    e.type start = .ok t made ∧ made.Leads ctx

/-- What the name of a type that was built looks like, with the names in it. -/
def Ty.Formed (name : String) : Ty → Prop
  | builtIn _ => True
  | classOf _ | enumOf _ =>
    isCompound name = false ∨ (∃ item, name = item ++ "[]") ∨
      ∃ key value, name = "[" ++ key ++ "]" ++ value
  | func s => s.Tidy
  | tuple t => ∀ p ∈ t.items, Tidy p.name

/-- A reference that was just built: it is to a simple name that was not looked up yet, or it is
bound to a type of its name. -/
structure Context.Fresh (ctx : Context) (type : TypeRef) : Prop where
  tidy : Tidy type.name
  bound : isCompound type.name = false ∧ ctx.slotType? type.slot = none ∨
    ∃ t, ctx.slotType? type.slot = some t ∧ ctx.typeName t = .ok type.name ∧ t.Formed type.name

namespace SemaM

variable {ctx ctx' : Context}

/-- A simple name has just got its slot, which is empty. -/
theorem fresh_of_simple {name : String} {type : TypeRef}
    (h : typeRef (.name name) ctx = .ok type ctx') : ctx'.Fresh type := by
  obtain ⟨hsimple, rfl, rfl⟩ := typeRef_name_eq_ok h
  exact ⟨.of_simple hsimple, Or.inl ⟨hsimple, slotType?_newSlot none⟩⟩

/-- A reference to a type that has a name already. -/
theorem fresh_resolved {name : String} {t : Ty} (htidy : Tidy name)
    (hname : ctx.typeName t = .ok name) (hformed : t.Formed name) :
    ((Edit.newSlot (some t)).write ctx).Fresh { name, slot := ⟨ctx.slots.size⟩ } where
  tidy := htidy
  bound := Or.inr ⟨t, slotType?_newSlot (some t), (ctx.grows_newSlot (some t)).typeName hname,
    hformed⟩

/-- A structural class is registered once it was asked for. -/
theorem find?_structuralClass {name : String} {make : SemaM SymbolId} {cls : SymbolId}
    (h : structuralClass name make ctx = .ok cls ctx') : ctx'.structural.find? name = some cls := by
  have hget : (get : SemaM Context) ctx = .ok ctx ctx := rfl
  unfold structuralClass at h
  rw [bind_of_ok hget] at h
  cases hfind : ctx.structural.find? name with
  | some found =>
    rw [hfind] at h
    cases h
    exact hfind
  | none =>
    rw [hfind] at h
    obtain ⟨made, ctx₁, -, hrest⟩ := bind_eq_ok h
    obtain ⟨_, ctx₂, hkeep, hrest⟩ := bind_eq_ok hrest
    cases hrest
    -- A new class is put on record under the name asked for.
    cases hkeep
    simp [Assoc.find?_insert]

/-- The last step of a request for an array or map type. -/
theorem fresh_of_structuralClass {name : String} {make : SemaM SymbolId} {type : TypeRef}
    (htitled : ctx'.Titled) (htidy : Tidy name) (hformed : ∀ id, (Ty.classOf id).Formed name)
    (h : (do resolvedRef name (.classOf (← structuralClass name make))) ctx = .ok type ctx') :
    ctx'.Fresh type := by
  obtain ⟨cls, ctx₁, hcls, hrest⟩ := bind_eq_ok h
  cases hrest
  have hkept := find?_structuralClass hcls
  exact ⟨htidy, Or.inr ⟨.classOf cls, slotType?_newSlot _, htitled hkept, hformed cls⟩⟩

/-- References are taken over as they are. -/
theorem typeRefs_refs (types : List TypeRef) : typeRefs (types.map .ref) ctx = .ok types ctx := by
  induction types with
  | nil => rfl
  | cons type rest ih =>
    have hhead : typeRef (.ref type) ctx = .ok type ctx := rfl
    rw [List.map_cons, typeRefs, bind_of_ok hhead, bind_of_ok ih]
    rfl

/-- The reference to an array type was just made. -/
theorem fresh_of_arrayType {item type : TypeRef} (htitled : ctx'.Titled) (hitem : Tidy item.name)
    (h : arrayType (.ref item) ctx = .ok type ctx') : ctx'.Fresh type :=
  fresh_of_structuralClass htitled hitem.array (fun _ => Or.inr (Or.inl ⟨item.name, rfl⟩)) h

/-- So was that to a map type. -/
theorem fresh_of_mapType {key value type : TypeRef} (htitled : ctx'.Titled) (hkey : Tidy key.name)
    (hvalue : Tidy value.name) (h : mapType (.ref key) (.ref value) ctx = .ok type ctx') :
    ctx'.Fresh type :=
  fresh_of_structuralClass htitled (hkey.map hvalue)
    (fun _ => Or.inr (Or.inr ⟨key.name, value.name, rfl⟩)) h

/-- So was that to a function type. -/
theorem fresh_of_funcType {ret type : TypeRef} {params : List TypeRef} (hret : Tidy ret.name)
    (hparams : ∀ p ∈ params, Tidy p.name)
    (h : funcType (.ref ret) (params.map .ref) ctx = .ok type ctx') : ctx'.Fresh type := by
  have hhead : typeRef (.ref ret) ctx = .ok ret ctx := rfl
  rw [funcType, bind_of_ok hhead, bind_of_ok (typeRefs_refs params)] at h
  cases h
  have htidy : (Signature.of ret params).Tidy := ⟨hret, hparams⟩
  exact fresh_resolved htidy.name rfl htidy

/-- So was that to a tuple. -/
theorem fresh_of_tuple {items : List TypeRef} {type : TypeRef} (hitems : ∀ p ∈ items, Tidy p.name)
    (h : typeRefOf (.tuple { items }) ctx = .ok type ctx') : ctx'.Fresh type := by
  cases h
  exact fresh_resolved (Tuple.tidy hitems) rfl hitems

end SemaM

namespace TypeExpr

open SemaM

/-- As many types are built as were asked for. -/
theorem length_buildAll {es : List TypeExpr} {types : List TypeRef} {ctx ctx' : Context}
    (h : buildAll es ctx = .ok types ctx') : types.length = es.length := by
  induction es generalizing ctx types with
  | nil =>
    cases h
    rfl
  | cons e rest ih =>
    rw [buildAll] at h
    obtain ⟨type, ctx₁, -, hrest⟩ := bind_eq_ok h
    obtain ⟨types', ctx₂, hall, hrest⟩ := bind_eq_ok hrest
    cases hrest
    rw [List.length_cons, List.length_cons, ih hall]

mutual

/-- Building a type leads to a state in which its reference stands for it. -/
theorem build_fresh (e : TypeExpr) {ctx ctx' : Context} {type : TypeRef}
    (hreached : Reached (fun _ _ => True) ctx) (h : e.build ctx = .ok type ctx') :
    ctx.Leads ctx' ∧ ctx'.Fresh type := by
  -- By recursion on the expression, one case for each way to build a type. The parts come first,
  -- and each part may be a sequence of calls.
  cases e with
  | simple name =>
    rw [build] at h
    exact ⟨(Context.Leads.refl ctx).of_ok (.typeRef (.name name)) rfl h, fresh_of_simple h⟩
  | array item =>
    rw [build] at h
    obtain ⟨itemRef, ctx₁, hitem, h⟩ := bind_eq_ok h
    obtain ⟨hleads, hfresh⟩ := build_fresh item hreached hitem
    have hleads := hleads.of_ok (.arrayType (.ref itemRef)) rfl h
    exact ⟨hleads, fresh_of_arrayType (hleads.reached hreached).titled hfresh.tidy h⟩
  | map key value =>
    rw [build] at h
    obtain ⟨keyRef, ctx₁, hkey, h⟩ := bind_eq_ok h
    obtain ⟨valueRef, ctx₂, hvalue, h⟩ := bind_eq_ok h
    obtain ⟨hleads₁, hfresh₁⟩ := build_fresh key hreached hkey
    obtain ⟨hleads₂, hfresh₂⟩ := build_fresh value (hleads₁.reached hreached) hvalue
    have hleads := (hleads₁.trans hleads₂).of_ok (.mapType (.ref keyRef) (.ref valueRef)) rfl h
    have htitled := (hleads.reached hreached).titled
    exact ⟨hleads, fresh_of_mapType htitled hfresh₁.tidy hfresh₂.tidy h⟩
  | func ret params =>
    rw [build] at h
    obtain ⟨retRef, ctx₁, hret, h⟩ := bind_eq_ok h
    obtain ⟨paramRefs, ctx₂, hparams, h⟩ := bind_eq_ok h
    obtain ⟨hleads₁, hfresh₁⟩ := build_fresh ret hreached hret
    obtain ⟨hleads₂, htidy, -⟩ := buildAll_fresh params (hleads₁.reached hreached) hparams
    have hleads := hleads₁.trans hleads₂
    exact ⟨hleads.of_ok (.funcType (.ref retRef) (paramRefs.map .ref)) rfl h,
      fresh_of_funcType hfresh₁.tidy htidy h⟩
  | tuple items =>
    rw [build] at h
    obtain ⟨itemRefs, ctx₁, hitems, h⟩ := bind_eq_ok h
    obtain ⟨hleads, htidy, -⟩ := buildAll_fresh items hreached hitems
    have hleads := hleads.of_ok (.tupleType (itemRefs.map .ref)) rfl h
    rw [tupleType, bind_of_ok (typeRefs_refs itemRefs)] at h
    exact ⟨hleads, fresh_of_tuple htidy h⟩
  | returns items =>
    rw [build] at h
    obtain ⟨itemRefs, ctx₁, hitems, h⟩ := bind_eq_ok h
    obtain ⟨hleads, htidy, hone⟩ := buildAll_fresh items hreached hitems
    refine ⟨hleads.of_ok (.returnsType itemRefs) rfl h, ?_⟩
    -- No result, one result, or several.
    rcases itemRefs with _ | ⟨first, _ | ⟨second, rest⟩⟩
    · have h : typeRef (.name BuiltIn.void.name) ctx₁ = .ok type ctx' := h
      exact fresh_of_simple h
    · cases h
      exact hone _ rfl
    · exact fresh_of_tuple htidy h
  | passed e byRef =>
    rw [build] at h
    obtain ⟨ref, ctx₁, href, h⟩ := bind_eq_ok h
    cases h
    obtain ⟨hleads, hfresh⟩ := build_fresh e hreached href
    exact ⟨hleads, hfresh.tidy, hfresh.bound⟩
termination_by structural e

/-- Several types are built in order. If it is one, nothing was done since it was built. -/
theorem buildAll_fresh (es : List TypeExpr) {ctx ctx' : Context} {types : List TypeRef}
    (hreached : Reached (fun _ _ => True) ctx) (h : buildAll es ctx = .ok types ctx') :
    ctx.Leads ctx' ∧ (∀ type ∈ types, Tidy type.name) ∧
      ∀ type, types = [type] → ctx'.Fresh type := by
  cases es with
  | nil =>
    cases h
    exact ⟨.refl ctx, List.forall_mem_nil _, nofun⟩
  | cons e rest =>
    rw [buildAll] at h
    obtain ⟨first, ctx₁, hfirst, h⟩ := bind_eq_ok h
    obtain ⟨others, ctx₂, hothers, h⟩ := bind_eq_ok h
    cases h
    obtain ⟨hleads₁, hfresh⟩ := build_fresh e hreached hfirst
    obtain ⟨hleads₂, htidy, -⟩ := buildAll_fresh rest (hleads₁.reached hreached) hothers
    refine ⟨hleads₁.trans hleads₂, List.forall_mem_cons.mpr ⟨hfresh.tidy, htidy⟩, ?_⟩
    intro type htypes
    obtain ⟨rfl, rfl⟩ := List.cons.inj htypes
    -- There was only one type to build.
    have hnil := length_buildAll hothers
    cases rest with
    | nil =>
      cases hothers
      exact hfresh
    | cons => cases hnil
termination_by structural es

end

end TypeExpr

/-! ### The names of built types -/

namespace Context

variable {ctx : Context} {name : String} {t : Ty}

/-- A member is shown under its own name. -/
theorem Sound.nameOf_of_shows (h : ctx.Sound) {scope id : SymbolId}
    (hshows : ctx.Shows scope name id) : ctx.nameOf id = .ok name := by
  obtain ⟨o, s, ho, hfind, -, -⟩ := hshows
  obtain ⟨i, hi⟩ := o.members.exists_position_of_find? hfind
  obtain ⟨l, hl, hname⟩ := h.named ⟨o, ho, hi⟩
  obtain ⟨s, hs, rfl⟩ := Option.map_eq_some_iff.mp hl
  exact nameOf_eq_ok_iff.mpr ⟨s, hs, hname⟩

/-- What a name stands for has that name. -/
theorem Sound.nameOf_of_lookupGlobal (h : ctx.Sound) {id : SymbolId}
    (hfound : ctx.lookupGlobal name = .ok (some id)) : ctx.nameOf id = .ok name := by
  rcases lookupGlobal_eq_some_iff.mp hfound with hshows | ⟨-, hamong⟩
  · exact h.nameOf_of_shows hshows
  · obtain ⟨before, scope, after, -, -, hshows⟩ := lookupAmong_eq_some_iff.mp hamong
    exact h.nameOf_of_shows hshows

/-- The type of a simple name. -/
theorem formed_of_typeNamed (h : Reached (fun _ _ => True) ctx) (hsimple : isCompound name = false)
    (ht : ctx.typeNamed name = .ok t) : ∃ own, ctx.typeName t = .ok own ∧ t.Formed own := by
  have hkept : ctx.Kept fun _ => True :=
    h.edits_free.preserves (fun _ _ he => he.kept) bare_kept
  obtain ⟨id, hmeans, hdecl⟩ := (hkept.typeNamed_eq_ok_iff hsimple).mp ht
  have hname := h.sound.nameOf_of_lookupGlobal hmeans.found
  obtain ⟨s, hs, -⟩ := exists_of_typeDeclared hdecl
  rw [typeDeclared_of_get? hs] at hdecl
  -- The symbols that declare types are the primitives, the classes and the enums.
  cases hk : s.kind with
  | builtIn b =>
    rw [hk] at hdecl
    cases hdecl
    exact ⟨b.name, rfl, trivial⟩
  | classDecl | enumDecl =>
    rw [hk] at hdecl
    cases hdecl
    exact ⟨name, hname, Or.inl hsimple⟩
  | _ =>
    rw [hk] at hdecl
    cases hdecl

end Context

open SemaM in
/-- What an expression builds has a name, and the name has the form that the kind of type asks for.
-/
theorem TypeExpr.type_formed (e : TypeExpr) {ctx ctx' : Context} {t : Ty}
    (hreached : Reached (fun _ _ => True) ctx) (h : e.type ctx = .ok t ctx') :
    ctx.Leads ctx' ∧ ∃ own, ctx'.typeName t = .ok own ∧ t.Formed own := by
  obtain ⟨type, ctx₁, hbuild, h⟩ := bind_eq_ok h
  obtain ⟨hleads, hfresh⟩ := e.build_fresh hreached hbuild
  have hlooks : ctx₁.Leads ctx' := (Context.Leads.refl ctx₁).of_ok (.typeOf type) rfl h
  refine ⟨hleads.trans hlooks, ?_⟩
  rcases hfresh.bound with ⟨hsimple, hfree⟩ | ⟨t', hslot, hname, hformed⟩
  · -- The name is looked up now.
    rw [typeOf_of_free hfree] at h
    obtain ⟨t', ctx₂, hnamed, hrest⟩ := bind_eq_ok h
    obtain ⟨hnamed, rfl⟩ := query_eq_ok hnamed
    cases hrest
    obtain ⟨own, hown, hformed⟩ :=
      Context.formed_of_typeNamed (hleads.reached hreached) hsimple hnamed
    exact ⟨own, hlooks.grows.typeName hown, hformed⟩
  · rw [typeOf_of_bound hslot] at h
    cases h
    exact ⟨type.name, hname, hformed⟩

namespace Context.Built

variable {ctx ctx' : Context} {t : Ty}

/-- A type is built in a reached state. -/
theorem reached (h : ctx.Built t) : Reached (fun _ _ => True) ctx := by
  obtain ⟨e, start, made, hreached, htype, hleads⟩ := h
  exact ((e.type_formed hreached htype).1.trans hleads).reached hreached

/-- A type that was built has a name of its form, for good. -/
theorem formed (h : ctx.Built t) : ∃ own, ctx.typeName t = .ok own ∧ t.Formed own := by
  obtain ⟨e, start, made, hreached, htype, hleads⟩ := h
  obtain ⟨-, own, hown, hformed⟩ := e.type_formed hreached htype
  exact ⟨own, hleads.grows.typeName hown, hformed⟩

/-- Two types that are built one after the other. -/
theorem of_run' {first second : TypeExpr} {t t' : Ty} (h : first.type.run' .initial = some t)
    (h' : second.type.run' (SemaM.after first.type .initial) = some t') :
    (SemaM.after second.type (SemaM.after first.type .initial)).Built t ∧
      (SemaM.after second.type (SemaM.after first.type .initial)).Built t' := by
  have hfirst := SemaM.eq_ok_of_run' h
  have hsecond := SemaM.eq_ok_of_run' h'
  have hreached := (first.type_formed .initial hfirst).1.reached .initial
  exact ⟨⟨first, _, _, .initial, hfirst, (second.type_formed hreached hsecond).1⟩,
    ⟨second, _, _, hreached, hsecond, .refl _⟩⟩

end Context.Built

/-! ### What is stored as a function -/

namespace Context

variable {ctx : Context} {t : Ty} {d : Signature}

/-- A value other than null is taken for a function exactly if its type has the right name. -/
theorem Descends.checkAssignTo_func_iff (h : ctx.Descends) (location : Option Location)
    (hnull : t ≠ .builtIn .null) :
    ctx.checkAssignTo (.func d) { type := t, location } = .ok () ↔ ctx.typeName t = .ok d.name := by
  have haccepts : ctx.checkAssignTo (.func d) { type := t, location } = .ok () ↔
      ctx.assignable t (.func d) = true := by
    simp only [checkAssignTo]
    split
    · simp_all
    · simp_all
  -- A function type is no class, so what remains of assignability is the comparison of names.
  rw [haccepts, h.assignable_iff]
  constructor
  · rintro (hbelow | ⟨name, hname, hd⟩)
    · cases hbelow with
      | same hsame =>
        cases t with
        | func s =>
          simp only [Ty.same, beq_iff_eq] at hsame
          exact congrArg Except.ok hsame
        | _ => cases hsame
      | null => exact absurd rfl hnull
    · cases hd
      exact hname
  · intro hname
    exact Or.inr ⟨d.name, hname, rfl⟩

end Context

/-- The parameters can be told apart, and the result exposes no comma, as a tuple does, and does not
begin as the name of a map type does. -/
def Signature.Legible (s : Signature) : Prop :=
  s.Separate ∧ ¬Exposes ',' s.ret.name.toList ∧ s.ret.name.toList.head? ≠ some '['

/-- Whether a signature is legible can be computed. -/
instance (s : Signature) : Decidable s.Legible :=
  inferInstanceAs (Decidable
    (s.Separate ∧ ¬Exposes ',' s.ret.name.toList ∧ s.ret.name.toList.head? ≠ some '['))

/-- The type is not a tuple of one item, which has the name of the item, and not a function type
whose parameters cannot be told apart. -/
def Ty.Clear : Ty → Prop
  | func s => s.Separate
  | tuple u => u.items.length ≠ 1
  | _ => True

/-- Only function types go by the name of a legible one. -/
theorem Signature.Legible.func_of_name {ctx : Context} {d : Signature} {t : Ty}
    (hlegible : d.Legible) (hd : d.Tidy) (ht : t.Formed d.name) (hclear : t.Clear)
    (hname : ctx.typeName t = .ok d.name) : ∃ s, t = .func s := by
  obtain ⟨-, hret, hmap⟩ := hlegible
  -- Every other kind of type has names of another form, or would show in the result type.
  cases t with
  | func s => exact ⟨s, rfl⟩
  | builtIn b =>
    have hb : b.name = d.name := Except.ok.inj hname
    have hsimple : isCompound b.name = false := by cases b <;> decide
    rw [hb, d.isCompound_name] at hsimple
    cases hsimple
  | classOf | enumOf =>
    rcases ht with hsimple | ⟨item, harray⟩ | ⟨key, value, hname⟩
    · rw [d.isCompound_name] at hsimple
      cases hsimple
    · exact absurd harray.symm (d.name_ne_array item)
    · exact absurd (Signature.bracket_of_name_eq_map hname.symm) hmap
  | tuple u =>
    rcases Signature.exposes_of_name_eq_tuple hd ht (Except.ok.inj hname) with hlength | hexposes
    · exact absurd hlength hclear
    · exact absurd hexposes hret

/-- Where a function type is expected, a type other than null is taken exactly if it has the same
name. For a function type this means that the results have the same name and the parameters make the
same list; if the parameters of both can be told apart in their lists, that they have the same names
and the same marks for passing by reference one by one. If moreover the expected type is legible and
the type is no tuple of one item, then it is a function type. -/
theorem assign_to_func {ctx : Context} {d : Signature} {t : Ty} (location : Option Location)
    (hd : ctx.Built (.func d)) (ht : ctx.Built t) (hnull : t ≠ .builtIn .null) :
    let accepted := ctx.checkAssignTo (.func d) { type := t, location } = .ok ()
    (accepted ↔ ctx.typeName t = .ok d.name) ∧
    (∀ s, t = .func s →
      (accepted ↔ s.ret.name = d.ret.name ∧ s.paramList = d.paramList) ∧
      (d.Separate → s.Separate →
        (accepted ↔ s.ret.name = d.ret.name ∧
          s.params.map (fun p => (p.name, p.byRef)) = d.params.map fun p => (p.name, p.byRef)))) ∧
    (accepted → d.Legible → t.Clear → ∃ s, t = .func s ∧
      s.params.length = d.params.length ∧
      ∀ (i : Nat) (p q : TypeRef), s.params[i]? = some p → d.params[i]? = some q →
        p.byRef = q.byRef ∧ p.name = q.name) := by
  intro accepted
  have hdescends : ctx.Descends := hd.reached.descends
  have hiff : accepted ↔ ctx.typeName t = .ok d.name :=
    hdescends.checkAssignTo_func_iff location hnull
  obtain ⟨name, -, hdtidy⟩ := hd.formed
  have hdtidy : d.Tidy := hdtidy
  obtain ⟨own, hown, hformed⟩ := ht.formed
  have hfunc : ∀ s, t = .func s →
      (accepted ↔ s.ret.name = d.ret.name ∧ s.paramList = d.paramList) := by
    rintro s rfl
    have hname : ctx.typeName (.func s) = .ok d.name ↔ s.name = d.name := by simp [Context.typeName]
    rw [hiff, hname, Signature.name_eq_iff hformed hdtidy]
  have hparams : ∀ s, t = .func s → d.Separate → s.Separate →
      (accepted ↔ s.ret.name = d.ret.name ∧
        s.params.map (fun p => (p.name, p.byRef)) = d.params.map fun p => (p.name, p.byRef)) := by
    intro s hs hdsep hssep
    rw [hfunc s hs]
    subst hs
    rw [Signature.paramList_eq_iff hformed hdtidy hssep hdsep]
  refine ⟨hiff, fun s hs => ⟨hfunc s hs, hparams s hs⟩, ?_⟩
  -- The name is the same. It can only be that of a function type, and the parameters can be read
  -- off it.
  intro haccepted hlegible hclear
  have hname := hiff.mp haccepted
  rw [hown] at hname
  cases hname
  obtain ⟨s, rfl⟩ := hlegible.func_of_name hdtidy hformed hclear hown
  have hlist := ((hparams s rfl hlegible.1 hclear).mp haccepted).2
  refine ⟨s, rfl, by simpa using congrArg List.length hlist, ?_⟩
  intro i p q hp hq
  have hat := congrArg (·[i]?) hlist
  simp only [List.getElem?_map, hp, hq, Option.map_some, Option.some.injEq, Prod.mk.injEq] at hat
  exact ⟨hat.2, hat.1⟩

/-- Functions that take an array of `int` and, by reference, a function. -/
def visitorType : TypeExpr :=
  .func (.simple "void")
    [.array (.simple "int"), .passed (.func (.simple "int") [.simple "string"]) true]

/-- The type as it is built if this slot is the first that is free. -/
def visitorSignature (slot : Nat) : Signature where
  ret := { name := "void", slot := ⟨slot⟩ }
  params := [{ name := "int[]", slot := ⟨slot + 2⟩ },
    { name := "int^(string)", slot := ⟨slot + 5⟩, byRef := true }]

/-- Functions of two numbers. -/
def twoType : TypeExpr := .func (.simple "void") [.simple "int", .simple "int"]

/-- Functions of one pair of numbers. -/
def pairType : TypeExpr := .func (.simple "void") [.tuple [.simple "int", .simple "int"]]

/-- A function of two numbers. -/
def twoSignature : Signature where
  ret := { name := "void", slot := ⟨30⟩ }
  params := [{ name := "int", slot := ⟨31⟩ }, { name := "int", slot := ⟨32⟩ }]

/-- A function of one pair. -/
def pairSignature : Signature where
  ret := { name := "void", slot := ⟨34⟩ }
  params := [{ name := "int,int", slot := ⟨37⟩ }]

/-- What the expressions build, one after the other. -/
theorem visitorType_facts :
    visitorType.type.run' .initial = some (.func (visitorSignature 30)) ∧
    visitorType.type.run' (SemaM.after visitorType.type .initial)
      = some (.func (visitorSignature 37)) ∧
    (visitorSignature 30).Legible ∧ (visitorSignature 37).Separate ∧
    twoType.type.run' .initial = some (.func twoSignature) ∧
    pairType.type.run' (SemaM.after twoType.type .initial) = some (.func pairSignature) ∧
    (TypeExpr.tuple [twoType]).type.run' (SemaM.after twoType.type .initial)
      = some (.tuple { items := [{ name := "void^(int,int)", slot := ⟨37⟩ }] }) := by
  decide +kernel

/-- The type is built twice, and a value of the second goes where the first is expected. -/
theorem assign_to_func_visitorType :
    ∃ ctx : Context, ctx.Built (.func (visitorSignature 30)) ∧
      ctx.Built (.func (visitorSignature 37)) ∧
      ctx.checkAssignTo (.func (visitorSignature 30)) { type := .func (visitorSignature 37) }
        = .ok () ∧
      (visitorSignature 30).Legible ∧ (Ty.func (visitorSignature 37)).Clear ∧
      ∃ s, Ty.func (visitorSignature 37) = .func s ∧
        s.params.length = (visitorSignature 30).params.length := by
  obtain ⟨hfirst, hsecond, hlegible, hclear, -⟩ := visitorType_facts
  obtain ⟨hd, hs⟩ := Context.Built.of_run' hfirst hsecond
  obtain ⟨-, hfuncs, hreads⟩ := assign_to_func none hd hs nofun
  have haccepted := ((hfuncs _ rfl).2 hlegible.1 hclear).mpr ⟨rfl, rfl⟩
  obtain ⟨s, hs', hlength, -⟩ := hreads haccepted hlegible hclear
  exact ⟨_, hd, hs, haccepted, hlegible, hclear, s, hs', hlength⟩

/-- A function with one parameter goes where one with two is expected, and so does a tuple. -/
theorem assign_to_func_of_other_arity :
    (∃ ctx : Context, ctx.Built (.func twoSignature) ∧ ctx.Built (.func pairSignature) ∧
      ctx.checkAssignTo (.func twoSignature) { type := .func pairSignature } = .ok () ∧
      twoSignature.params.length = 2 ∧ pairSignature.params.length = 1) ∧
    ∃ (ctx : Context) (items : Tuple), ctx.Built (.func twoSignature) ∧ ctx.Built (.tuple items) ∧
      ctx.checkAssignTo (.func twoSignature) { type := .tuple items } = .ok () := by
  obtain ⟨-, -, -, -, htwo, hpair, htuple⟩ := visitorType_facts
  constructor
  · -- The comma inside a tuple reads like the one between parameters.
    obtain ⟨hd, hs⟩ := Context.Built.of_run' htwo hpair
    have hnull : Ty.func pairSignature ≠ .builtIn .null := nofun
    refine ⟨_, hd, hs, ?_, rfl, rfl⟩
    exact (hd.reached.descends.checkAssignTo_func_iff none hnull).mpr rfl
  · obtain ⟨hd, ht⟩ := Context.Built.of_run' htwo htuple
    have hnull : ∀ items, Ty.tuple items ≠ .builtIn .null := nofun
    refine ⟨_, _, hd, ht, ?_⟩
    exact (hd.reached.descends.checkAssignTo_func_iff none (hnull _)).mpr rfl

end Sema

import Sema.Proofs.Run
import Sema.Proofs.Synthesis

/-!
# `Sema.Proofs.Registry`: which class answers a request for an array or map type

The classes of array and map types are kept under the rendered names of the types, both in one
table. `Context.Kept` says that a class is kept under the name of the type it was made for, which
holds in every reached state. So a request gets a class that was made for a type of the right name.

The right name is not always the right type: `[k]v[]` names the arrays of maps from `k` to `v` and
the maps from `k` to arrays of `v`. `request_faithful_iff` says that a request gets the class it
asks for unless the other type has come first, and that nothing else can go wrong.
-/

set_option autoImplicit false

namespace Sema

namespace Context

variable {a b ctx : Context} {ok : Structural → Prop} {name : String} {cls : SymbolId}
  {st : Structural}

/-- The class kept under the name was made for this type. -/
def Registered (ctx : Context) (name : String) (st : Structural) : Prop :=
  ∃ cls, ctx.structural.find? name = some cls ∧ ctx.Synthesized cls st

/-- Every class that is kept was made for a type of that name, and for one that is `ok`. -/
def Kept (ok : Structural → Prop) (ctx : Context) : Prop :=
  ∀ ⦃name cls⦄, ctx.structural.find? name = some cls →
    ∃ st, ctx.Synthesized cls st ∧ st.typeName = name ∧ ok st

/-- A class is synthesized for one type. -/
theorem Synthesized.unique {cls : SymbolId} {st st' : Structural} (h : ctx.Synthesized cls st)
    (h' : ctx.Synthesized cls st') : st = st' := by
  obtain ⟨s, info, hs, hk, hst⟩ := h
  obtain ⟨s', info', hs', hk', hst'⟩ := h'
  rw [hs] at hs'
  cases hs'
  rw [hk] at hk'
  cases hk'
  exact Option.some.inj (hst.symm.trans hst')

/-- A table that does not change stays right. -/
theorem Kept.of_eq (h : a.Kept ok) (hgrows : a.Grows b) (heq : b.structural = a.structural) :
    b.Kept ok := by
  intro name cls hfind
  rw [heq] at hfind
  obtain ⟨st, hst, hrest⟩ := h hfind
  exact ⟨st, hgrows.synthesized hst, hrest⟩

/-- The table of the bare context is empty. -/
theorem bare_kept : bare.Kept ok := nofun

/-- Whether a table is right is read off it and the symbols. -/
theorem Kept.congr (h : a.Kept ok) (harena : b.arena = a.arena)
    (heq : b.structural = a.structural) :
    b.Kept ok := by
  unfold Kept Synthesized
  rw [harena, heq]
  exact h

/-- What is registered is read off the table and the symbols. -/
theorem registered_congr (harena : b.arena = a.arena) (heq : b.structural = a.structural) :
    b.Registered = a.Registered := by
  funext name st
  unfold Registered Synthesized
  rw [harena, heq]

/-- What a request for the class under a name does. The class is there and nothing is registered, or
it is made for the type `st` and then kept. -/
structure Answers (a b : Context) (name : String) (cls : SymbolId) (st : Structural) : Prop where
  grows : a.Grows b
  table : a.structural.find? name = some cls ∧ b.structural = a.structural ∨
    a.structural.find? name = none ∧ b.structural = a.structural.insert name cls ∧
      b.Synthesized cls st

/-- The answer is kept under its name. -/
theorem Answers.find? (h : a.Answers b name cls st) : b.structural.find? name = some cls := by
  rcases h.table with ⟨hfind, heq⟩ | ⟨-, heq, -⟩
  · rw [heq]
    exact hfind
  · simp [heq, Assoc.find?_insert]

/-- An answer that is new is the class that was asked for. -/
theorem Answers.synthesized (h : a.Answers b name cls st) (hfree : a.structural.find? name = none) :
    b.Synthesized cls st := by
  rcases h.table with ⟨hfind, -⟩ | ⟨-, -, hst⟩
  · rw [hfree] at hfind
    cases hfind
  · exact hst

/-- What happens elsewhere afterwards leaves the answer right. -/
theorem Answers.trans_grows {c : Context} (h : a.Answers b name cls st) (hgrows : b.Grows c)
    (heq : c.structural = b.structural) : a.Answers c name cls st where
  grows := h.grows.trans hgrows
  table := by
    rw [heq]
    rcases h.table with hold | ⟨hfree, hnew, hst⟩
    · exact Or.inl hold
    · exact Or.inr ⟨hfree, hnew, hgrows.synthesized hst⟩

end Context

namespace Edit

variable {rules : Rules} {ctx : Context} {e : Edit}

/-- Every elementary change keeps the table in order. -/
theorem Fits.kept (he : Fits rules ctx e) (h : ctx.Kept rules.types) :
    (e.write ctx).Kept rules.types := by
  have hgrows := he.grows
  cases he with
  | inherit => exact h.of_eq hgrows rfl
  | nested he => exact h.of_eq hgrows (tables_write ctx he.isSilent).1
  | plain he =>
    cases he with
    | quiet he => exact h.of_eq hgrows he.structural_eq
    | storage => exact h.of_eq hgrows rfl
    | @keep name cls st hfree hst hname hok =>
      -- One name is added; all others have the entries they had.
      intro name' cls' hfind
      simp only [Edit.write, Assoc.find?_insert] at hfind
      split at hfind
      · rename_i hsame
        cases hfind
        exact ⟨st, hst, hname.trans hsame.symm, hok⟩
      · exact h hfind

end Edit

/-- In runs whose requests have proper names, classes are kept under the names of their types. -/
theorem Reached.kept {allowed : Context → Op → Prop} {ctx : Context}
    (hallowed : ∀ ctx op, allowed ctx op → op.ProperNames) (h : Reached allowed ctx) :
    ctx.Kept Structural.Proper := by
  have hkeeps : ∀ ctx op, allowed ctx op → op.Keeps { types := Structural.Proper } ctx :=
    fun ctx op hop => { op.keeps_free ctx with types := fun _ hst => hst (hallowed ctx op hop) }
  exact (h.edits hkeeps rfl fun _ => id).preserves (fun _ _ he => he.kept) Context.bare_kept

/-! ### Requests -/

/-- The name that a request goes by. -/
def TypeName.text : TypeName → String
  | .name s => s
  | .ref type => type.name

/-- A type that can be asked for: a simple name, or a reference with a proper name. -/
def TypeName.Valid : TypeName → Prop
  | .name s => s.isEmpty = false ∧ isCompound s = false
  | .ref type => ProperName type.name

/-- The text of a valid type name is a proper name. -/
theorem TypeName.Valid.properName {t : TypeName} (h : t.Valid) : ProperName t.text := by
  cases t with
  | name s => exact .of_simple h.1 h.2
  | ref type => exact h

namespace SemaM

variable {ctx : Context}

/-- A reference to a valid type name is made in every state and leaves symbols and table alone. -/
theorem returns_typeRef {t : TypeName} (h : t.Valid) :
    Returns (typeRef t) ctx fun type ctx' =>
      type.name = t.text ∧ ctx'.arena = ctx.arena ∧ ctx'.structural = ctx.structural := by
  cases t with
  | ref type => exact ⟨type, ctx, rfl, rfl, rfl, rfl⟩
  | name name =>
    refine ⟨{ name, slot := ⟨ctx.slots.size⟩ }, (Edit.newSlot none).write ctx, ?_, rfl, rfl, rfl⟩
    simp only [typeRef, h.1, h.2]
    rfl

/-- One look at the table, and at most one new class. -/
theorem structuralClass_answers {name : String} {make : SemaM SymbolId} {st : Structural}
    (hmake : Returns make ctx fun _ _ => True) (hquiet : Makes (Edit.Quiet {}) make ctx)
    (hst : ∀ cls ctx', make ctx = .ok cls ctx' → ctx'.Synthesized cls st) :
    Returns (structuralClass name make) ctx fun cls ctx' =>
      ctx.Answers ctx' name cls st ∧ ctx'.storages = ctx.storages := by
  have hget : (get : SemaM Context) ctx = .ok ctx ctx := rfl
  unfold structuralClass
  -- A class under the name is the answer as it is; else one is made and kept.
  cases hfind : ctx.structural.find? name with
  | some cls =>
    refine ⟨cls, ctx, ?_, ⟨.refl ctx, Or.inl ⟨hfind, rfl⟩⟩, rfl⟩
    rw [bind_of_ok hget, hfind]
    rfl
  | none =>
    obtain ⟨cls, ctx₁, hrun, -⟩ := hmake
    have hedits := hquiet.of_ok hrun
    have hstructural := structural_eq_of_quiet hedits
    have hfree : ctx₁.structural.find? name = none := by
      rw [hstructural]
      exact hfind
    have hkeep : ctx₁.Grows ((Edit.keep name cls).write ctx₁) := Context.grows_keep cls hfree
    refine ⟨cls, (Edit.keep name cls).write ctx₁, ?_, ⟨?_, Or.inr ⟨hfind, ?_, ?_⟩⟩, ?_⟩
    · rw [bind_of_ok hget, hfind]
      exact (bind_of_ok hrun).trans rfl
    · exact (hedits.grows fun _ _ => Edit.Quiet.grows).trans hkeep
    · simp only [Edit.write, hstructural]
    · exact hkeep.synthesized (hst cls ctx₁ hrun)
    · show ctx₁.storages = ctx.storages
      exact storages_eq_of_quiet hedits

/-- The request succeeds with a reference of this name that is bound to the class of this type, and
that can be used in further requests. -/
def Gives (request : SemaM TypeRef) (ctx : Context) (name : String) (st : Structural) : Prop :=
  Returns request ctx fun type ctx' => type.name = name ∧ (TypeName.ref type).Valid ∧
    ∃ cls, ctx'.slotType? type.slot = some (.classOf cls) ∧ ctx'.Synthesized cls st

/-- A new slot has the content that it is made with. -/
theorem slotType?_newSlot (content : Option Ty) :
    ((Edit.newSlot content).write ctx).slotType? ⟨ctx.slots.size⟩ = content := by
  simp [Context.slotType?, Edit.write]

/-- A request is answered by the class kept under the name, or by a new class of the type. -/
theorem gives_structuralClass {name : String} {make : SemaM SymbolId} {st : Structural}
    (hkept : ctx.Kept Structural.Proper) (hname : ProperName name)
    (hmake : Returns make ctx fun _ _ => True) (hquiet : Makes (Edit.Quiet {}) make ctx)
    (hst : ∀ cls ctx', make ctx = .ok cls ctx' → ctx'.Synthesized cls st) :
    ∃ answer, Gives (do resolvedRef name (.classOf (← structuralClass name make))) ctx name answer ∧
      (ctx.Registered name answer ∧ answer.typeName = name ∧ answer.Proper ∨
        ctx.structural.find? name = none ∧ answer = st) := by
  obtain ⟨cls, ctx₁, hrun, hans, -⟩ : Returns (structuralClass name make) ctx fun cls ctx' =>
      ctx.Answers ctx' name cls st ∧ ctx'.storages = ctx.storages :=
    structuralClass_answers hmake hquiet hst
  have hslot := ctx₁.grows_newSlot (some (.classOf cls))
  -- Whatever the class was made for, the reference leads to it.
  have hgives : ∀ {answer}, ctx₁.Synthesized cls answer →
      Gives (do resolvedRef name (.classOf (← structuralClass name make))) ctx name answer := by
    intro answer hanswer
    exact ⟨_, _, (bind_of_ok hrun).trans rfl, rfl, hname, cls, slotType?_newSlot _,
      hslot.synthesized hanswer⟩
  rcases hans.table with ⟨hold, -⟩ | ⟨hfree, -, hnew⟩
  · -- The class was there, and the table says what it was made for.
    obtain ⟨answer, hanswer, htype, hproper⟩ := hkept hold
    exact ⟨answer, hgives (hans.grows.synthesized hanswer),
      Or.inl ⟨⟨cls, hold, hanswer⟩, htype, hproper⟩⟩
  · exact ⟨st, hgives hnew, Or.inr ⟨hfree, rfl⟩⟩

/-- `arrayType` gives the class under the name of the array type, or a new array class. -/
theorem gives_arrayType (hkept : ctx.Kept Structural.Proper) {item : TypeName}
    (hitem : item.Valid) :
    ∃ st, Gives (arrayType item) ctx (item.text ++ "[]") st ∧
      (ctx.Registered (item.text ++ "[]") st ∧ st.typeName = item.text ++ "[]" ∧ st.Proper ∨
        ctx.structural.find? (item.text ++ "[]") = none ∧
          ∃ type generic, st = .array type generic ∧ type.name = item.text) := by
  obtain ⟨type, ctx₁, hrun, hname, harena, hsame⟩ : Returns (typeRef item) ctx _ :=
    returns_typeRef hitem
  have hproper : ProperName (arrayTypeName type) := by
    rw [arrayTypeName, hname]
    exact hitem.properName.array
  have hmake :
      Returns (addArrayClass (arrayTypeName type) type (ctx₁.storages.find? type.name)) ctx₁
      fun _ _ => True := by
    obtain ⟨cls, ctx₂, hmake, -⟩ := returns_addArrayClass (arrayTypeName type) type _
    exact ⟨cls, ctx₂, hmake, trivial⟩
  obtain ⟨st, ⟨answer, ctx₂, hgives, hrest⟩, hwhich⟩ := gives_structuralClass
    (hkept.congr harena hsame) hproper hmake (makes_addArrayClass _ _ (Nat.zero_le _) trivial)
    fun _ _ => addArrayClass_eq_ok
  -- The reference to the item was made first, which leaves the table as it was.
  rw [Context.registered_congr harena hsame, hsame, arrayTypeName, hname] at hwhich
  rw [arrayTypeName, hname] at hrest
  refine ⟨st, ⟨answer, ctx₂, (bind_of_ok hrun).trans hgives, hrest⟩, ?_⟩
  rcases hwhich with hold | ⟨hfree, rfl⟩
  · exact Or.inl hold
  · exact Or.inr ⟨hfree, type, _, rfl, hname⟩

/-- `mapType` gives the class under the name of the map type, or a new map class. -/
theorem gives_mapType (hkept : ctx.Kept Structural.Proper) {key value : TypeName} (hkey : key.Valid)
    (hvalue : value.Valid) :
    ∃ st, Gives (mapType key value) ctx ("[" ++ key.text ++ "]" ++ value.text) st ∧
      (ctx.Registered ("[" ++ key.text ++ "]" ++ value.text) st ∧
          st.typeName = "[" ++ key.text ++ "]" ++ value.text ∧ st.Proper ∨
        ctx.structural.find? ("[" ++ key.text ++ "]" ++ value.text) = none ∧
          ∃ k v, st = .map k v ∧ k.name = key.text ∧ v.name = value.text) := by
  obtain ⟨k, ctx₁, hk, hkname, harena₁, hsame₁⟩ : Returns (typeRef key) ctx _ :=
    returns_typeRef hkey
  obtain ⟨v, ctx₂, hv, hvname, harena₂, hsame₂⟩ : Returns (typeRef value) ctx₁ _ :=
    returns_typeRef hvalue
  have harena := harena₂.trans harena₁
  have hsame := hsame₂.trans hsame₁
  have hproper : ProperName (mapTypeName k v) := by
    rw [mapTypeName, hkname, hvname]
    exact hkey.properName.map hvalue.properName
  have hmake : Returns (addMapClass (mapTypeName k v) k v) ctx₂ fun _ _ => True := by
    obtain ⟨cls, ctx₃, hmake, -⟩ := returns_addMapClass (mapTypeName k v) k v
    exact ⟨cls, ctx₃, hmake, trivial⟩
  obtain ⟨st, ⟨answer, ctx₃, hgives, hrest⟩, hwhich⟩ := gives_structuralClass
    (hkept.congr harena hsame) hproper hmake (makes_addMapClass _ (Nat.zero_le _) trivial trivial)
    fun _ _ => addMapClass_eq_ok
  -- Both references were made first, which leaves the table as it was.
  rw [Context.registered_congr harena hsame, hsame, mapTypeName, hkname, hvname] at hwhich
  rw [mapTypeName, hkname, hvname] at hrest
  refine ⟨st, ⟨answer, ctx₃, (bind_of_ok hk).trans ((bind_of_ok hv).trans hgives), hrest⟩, ?_⟩
  rcases hwhich with hold | ⟨hfree, rfl⟩
  · exact Or.inl hold
  · exact Or.inr ⟨hfree, k, v, rfl, hkname, hvname⟩

end SemaM

open SemaM

section Faithful

variable {ctx : Context}

/-- Two types that one class is kept for are the same. -/
theorem Context.Registered.unique {name : String} {st st' : Structural} (h : ctx.Registered name st)
    (h' : ctx.Registered name st') : st = st' := by
  obtain ⟨cls, hfind, hst⟩ := h
  obtain ⟨cls', hfind', hst'⟩ := h'
  rw [hfind] at hfind'
  cases hfind'
  exact hst.unique hst'

/-- `arrayType` gives an array of the item unless a map type of the same name came first. -/
theorem arrayType_faithful_iff (hkept : ctx.Kept Structural.Proper) {item : TypeName}
    (hitem : item.Valid) :
    ∃ st, Gives (arrayType item) ctx (item.text ++ "[]") st ∧
      ((∃ type generic, st = .array type generic ∧ type.name = item.text) ↔
        ¬∃ key value, ctx.Registered (item.text ++ "[]") (.map key value)) ∧
      ∀ key value, st = .map key value →
        ∃ rest, item.text = "[" ++ key.name ++ "]" ++ rest ∧ value.name = rest ++ "[]" := by
  obtain ⟨st, hgives, ⟨hold, hname, hproper⟩ | ⟨hfree, type, generic, rfl, htype⟩⟩ :=
    gives_arrayType hkept hitem
  · refine ⟨st, hgives, ?_, ?_⟩
    · cases st with
      | array type generic =>
        -- An array name determines the item.
        have htype : type.name = item.text := arrayName_inj hname
        refine iff_of_true ⟨type, generic, rfl, htype⟩ ?_
        rintro ⟨key, value, hmap⟩
        cases hold.unique hmap
      | map key value =>
        exact iff_of_false (by simp) fun hnone => hnone ⟨key, value, hold⟩
    · rintro key value rfl
      obtain ⟨rest, hvalue, hrest⟩ := mapName_eq_arrayName hproper.1 hname
      exact ⟨rest, hrest, hvalue⟩
  · refine ⟨_, hgives, iff_of_true ⟨type, generic, rfl, htype⟩ ?_, nofun⟩
    rintro ⟨key, value, cls, hfind, -⟩
    rw [hfree] at hfind
    cases hfind

/-- `mapType` gives a map of key and value unless an array type of the same name came first. -/
theorem mapType_faithful_iff (hkept : ctx.Kept Structural.Proper) {key value : TypeName}
    (hkey : key.Valid) (hvalue : value.Valid) :
    ∃ st, Gives (mapType key value) ctx ("[" ++ key.text ++ "]" ++ value.text) st ∧
      ((∃ k v, st = .map k v ∧ k.name = key.text ∧ v.name = value.text) ↔
        ¬∃ item generic,
          ctx.Registered ("[" ++ key.text ++ "]" ++ value.text) (.array item generic)) ∧
      ∀ item generic, st = .array item generic →
        ∃ rest, item.name = "[" ++ key.text ++ "]" ++ rest ∧ value.text = rest ++ "[]" := by
  obtain ⟨st, hgives, ⟨hold, hname, hproper⟩ | ⟨hfree, k, v, rfl, hk, hv⟩⟩ :=
    gives_mapType hkept hkey hvalue
  · refine ⟨st, hgives, ?_, ?_⟩
    · cases st with
      | array item generic =>
        exact iff_of_false (by simp) fun hnone => hnone ⟨item, generic, hold⟩
      | map k v =>
        -- A map name determines the key and the value, since the key has no open bracket.
        obtain ⟨hk, hv⟩ := mapName_inj hproper.1 hkey.properName hname
        refine iff_of_true ⟨k, v, rfl, hk, hv⟩ ?_
        rintro ⟨item, generic, harray⟩
        cases hold.unique harray
    · rintro item generic rfl
      obtain ⟨rest, hvalue, hrest⟩ := mapName_eq_arrayName hkey.properName hname.symm
      exact ⟨rest, hrest, hvalue⟩
  · refine ⟨_, hgives, iff_of_true ⟨k, v, rfl, hk, hv⟩ ?_, nofun⟩
    rintro ⟨item, generic, cls, hfind, -⟩
    rw [hfree] at hfind
    cases hfind

end Faithful

/-- Which class a request gets. Requests for array and map types always succeed. The class is one
for the type that was asked for, unless a class of the other sort is kept under the same name. This
happens only between the arrays of maps `[k]r` and the maps from `k` to arrays `r[]`. -/
theorem request_faithful_iff {ctx : Context} (h : Reached (fun _ op => op.ProperNames) ctx) :
    (∀ item : TypeName, item.Valid →
      ∃ st, Gives (arrayType item) ctx (item.text ++ "[]") st ∧
        ((∃ type generic, st = .array type generic ∧ type.name = item.text) ↔
          ¬∃ key value, ctx.Registered (item.text ++ "[]") (.map key value)) ∧
        ∀ key value, st = .map key value →
          ∃ rest, item.text = "[" ++ key.name ++ "]" ++ rest ∧ value.name = rest ++ "[]") ∧
    (∀ key value : TypeName, key.Valid → value.Valid →
      ∃ st, Gives (mapType key value) ctx ("[" ++ key.text ++ "]" ++ value.text) st ∧
        ((∃ k v, st = .map k v ∧ k.name = key.text ∧ v.name = value.text) ↔
          ¬∃ item generic,
            ctx.Registered ("[" ++ key.text ++ "]" ++ value.text) (.array item generic)) ∧
        ∀ item generic, st = .array item generic →
          ∃ rest, item.name = "[" ++ key.text ++ "]" ++ rest ∧ value.text = rest ++ "[]") := by
  have hkept := h.kept fun _ _ hop => hop
  exact ⟨fun _ hitem => arrayType_faithful_iff hkept hitem,
    fun _ _ hkey hvalue => mapType_faithful_iff hkept hkey hvalue⟩

/-- The array or map type that a class was made for. -/
def Context.structuralAt? (ctx : Context) (cls : SymbolId) : Option Structural :=
  ((ctx.arena.get? cls).bind (·.kind.class?)).bind (·.structural)

/-- What a class was synthesized for can be read off it. -/
theorem Context.synthesized_of_structuralAt? {ctx : Context} {cls : SymbolId} {st : Structural}
    (h : ctx.structuralAt? cls = some st) : ctx.Synthesized cls st := by
  obtain ⟨info, hinfo, hst⟩ := Option.bind_eq_some_iff.mp h
  obtain ⟨s, hs, hk⟩ := Option.bind_eq_some_iff.mp hinfo
  refine ⟨s, info, hs, ?_, hst⟩
  cases hkind : s.kind <;> rw [hkind] at hk <;> cases hk
  rfl

/-- A run that asks for the maps from strings to integer arrays. -/
def mapsToArrays : List Op :=
  [.arrayType (.name "int"), .mapType (.name "string") (.ref { name := "int[]", slot := ⟨31⟩ })]

/-- What `mapsToArrays` leaves, by running it. -/
theorem mapsToArrays_facts :
    let ctx := Op.runs .initial mapsToArrays
    (ctx.structural.find? "[string]int[]").bind ctx.structuralAt?
      = some (.map { name := "string", slot := ⟨32⟩ } { name := "int[]", slot := ⟨31⟩ }) ∧
    ctx.structural.find? "[int]int" = none := by
  decide +kernel

/-- After that run a request for arrays of maps from strings to integers gets no array class, while
maps from integers to integers are answered as asked for. -/
theorem request_faithful_iff_mapsToArrays :
    let ctx := Op.runs .initial mapsToArrays
    Reached (fun _ op => op.ProperNames) ctx ∧
    (TypeName.ref { name := "[string]int", slot := ⟨0⟩ }).Valid ∧
    (∃ st, Gives (arrayType (.ref { name := "[string]int", slot := ⟨0⟩ })) ctx "[string]int[]" st ∧
      ¬∃ type generic, st = .array type generic ∧ type.name = "[string]int") ∧
    (TypeName.name "int").Valid ∧
    ∃ st, Gives (mapType (.name "int") (.name "int")) ctx "[int]int" st ∧
      ∃ k v, st = .map k v ∧ k.name = "int" ∧ v.name = "int" := by
  intro ctx
  obtain ⟨hmap, hfree⟩ := mapsToArrays_facts
  have hallowed : Op.AllAllowed (fun _ op => op.ProperNames) .initial mapsToArrays :=
    ⟨trivial, ⟨trivial, (by decide +kernel : ProperName "int[]")⟩, trivial⟩
  have hreached : Reached (fun _ op => op.ProperNames) ctx := Reached.initial.runs hallowed
  have hitem : (TypeName.ref { name := "[string]int", slot := ⟨0⟩ }).Valid :=
    (by decide +kernel : ProperName "[string]int")
  have hint : (TypeName.name "int").Valid := ⟨by decide, by decide⟩
  obtain ⟨harrays, hmaps⟩ := request_faithful_iff hreached
  -- The first name is taken by a map class, the second one is free.
  obtain ⟨st, hgives, hiff, -⟩ := harrays _ hitem
  obtain ⟨st', hgives', hiff', -⟩ := hmaps _ _ hint hint
  refine ⟨hreached, hitem, ⟨st, hgives, ?_⟩, hint, st', hgives', hiff'.mpr ?_⟩
  · obtain ⟨cls, hfind, hst⟩ := Option.bind_eq_some_iff.mp hmap
    exact fun hfaithful => hiff.mp hfaithful
      ⟨_, _, cls, hfind, Context.synthesized_of_structuralAt? hst⟩
  · rintro ⟨item, generic, cls, hfind, -⟩
    have hnone : ctx.structural.find? "[int]int" = none := hfree
    have hsome : ctx.structural.find? "[int]int" = some cls := hfind
    rw [hnone] at hsome
    cases hsome

/-- Maps from strings to integer arrays are asked for, and then arrays of maps from strings to
integers. -/
def mixedRequests : SemaM TypeRef := do
  let ints ← arrayType (.name "int")
  let _ ← mapType (.name "string") (.ref ints)
  let table ← mapType (.name "string") (.name "int")
  arrayType (.ref table)

/-- What `mixedRequests` gives, by running it. -/
theorem mixedRequests_facts :
    (match mixedRequests .initial with
    | .ok type ctx =>
      some (type.name, (ctx.slotType? type.slot).bind Ty.class? >>= ctx.structuralAt?)
    | .error _ _ => none)
      = some ("[string]int[]", some
          (.map { name := "string", slot := ⟨32⟩ } { name := "int[]", slot := ⟨31⟩ })) := by
  decide +kernel

/-- Not every request is answered as asked for: from the initial context, the last of these
requests, which is for arrays, gets the class of a map type. -/
theorem array_request_gives_map :
    ∃ key value, Gives mixedRequests .initial "[string]int[]" (.map key value) ∧
      key.name = "string" ∧ value.name = "int[]" := by
  have hfacts := mixedRequests_facts
  cases hrun : mixedRequests .initial with
  | error e ctx =>
    rw [hrun] at hfacts
    cases hfacts
  | ok type ctx =>
    rw [hrun] at hfacts
    obtain ⟨hname, hst⟩ := Prod.mk.inj (Option.some.inj hfacts)
    obtain ⟨cls, hcls, hst⟩ := Option.bind_eq_some_iff.mp hst
    obtain ⟨t, ht, hcls⟩ := Option.bind_eq_some_iff.mp hcls
    -- The slot holds a class, whose record tells which type it stands for.
    have ht' : t = .classOf cls := by
      cases t <;> cases hcls
      rfl
    have hproper : ProperName type.name := by
      rw [hname]
      decide +kernel
    exact ⟨_, _, ⟨type, ctx, hrun, hname, hproper, cls, by rw [ht, ht'],
      Context.synthesized_of_structuralAt? hst⟩, rfl, rfl⟩

end Sema

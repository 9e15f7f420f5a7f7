import Mathlib.Data.List.Forall2
import Sema.Proofs.CaptureChain
import Sema.Proofs.Inheritance

/-!
# `Sema.Proofs.Instance`: the fields of an instance

An instance of a script class is a list with one place per member of the class, and a field is read
and written at the slot it got when it was defined. Three layouts have to agree for this: the
positions of the members, the slots of the fields, and the list of defaults from which the instance
is made (`SemaM.template`). The first two agree by `Context.Aligned`, in the class where a field was
declared and in all below it, and `SemaM.template_eq_ok` adds the third.

Making an instance looks up the types of the fields. This binds their references and changes nothing
else (`Context.Resolves`).
-/

set_option autoImplicit false

namespace Sema

/-! ### Reading and writing at a slot -/

namespace Store

variable {s : Store} {l : ListId} {i : Nat}

/-- A new list has the items that it is made with. -/
theorem listItems_newList (s : Store) (items : Array Value) :
    (s.newList items).2.listItems ⟨s.lists.size⟩ = items := by
  simp [newList, listItems]

/-- A list that has items is in the store. -/
theorem index_lt_of_lt_size (h : i < (s.listItems l).size) : l.index < s.lists.size := by
  by_contra hout
  rw [listItems, Array.getD_eq_getD_getElem?, Array.getElem?_eq_none (Nat.le_of_not_lt hout)] at h
  exact Nat.not_lt_zero i h

/-- A list reads back the items that were last written to it. -/
theorem listItems_setList (h : l.index < s.lists.size) (items : Array Value) :
    (s.setList l items).listItems l = items := by
  simp [listItems, setList, h]

end Store

namespace Accessor

variable {s s' : Store} {l : ListId} {i : Nat} {v : Value}

/-- Reading a field is reading a place of the instance. -/
theorem get_atSlot (i : Nat) (s : Store) (l : ListId) :
    (atSlot i).get s (.list l) = match (s.listItems l)[i]? with
      | some v => .ok v
      | none => .error (.indexOutOfRange i (s.listItems l).size) := rfl

/-- Writing a field is writing a place of the instance, if there is one. -/
theorem set_atSlot (i : Nat) (s : Store) (l : ListId) (v : Value) :
    (atSlot i).set s (.list l) v = if i < (s.listItems l).size
      then .ok (s.setList l ((s.listItems l).setIfInBounds i v))
      else .error (.indexOutOfRange i (s.listItems l).size) := rfl

/-- A write that succeeds changes the items at its place and nowhere else. -/
theorem listItems_of_set (h : (atSlot i).set s (.list l) v = .ok s') :
    i < (s.listItems l).size ∧ s'.listItems l = (s.listItems l).setIfInBounds i v := by
  rw [set_atSlot] at h
  split at h
  · rename_i hi
    cases h
    exact ⟨hi, Store.listItems_setList (Store.index_lt_of_lt_size hi) _⟩
  · cases h

/-- A field reads back what was written to it. -/
theorem get_of_set (h : (atSlot i).set s (.list l) v = .ok s') :
    (atSlot i).get s' (.list l) = .ok v := by
  obtain ⟨hi, hitems⟩ := listItems_of_set h
  rw [get_atSlot, hitems, Array.getElem?_setIfInBounds_self_of_lt hi]

/-- Writing a field leaves the other places alone. -/
theorem get_of_set_of_ne {j : Nat} (h : (atSlot i).set s (.list l) v = .ok s') (hne : j ≠ i) :
    (atSlot j).get s' (.list l) = (atSlot j).get s (.list l) := by
  obtain ⟨-, hitems⟩ := listItems_of_set h
  rw [get_atSlot, get_atSlot, hitems, Array.getElem?_setIfInBounds_ne hne.symm,
    Array.size_setIfInBounds]

end Accessor

/-! ### Looking up the types of the members -/

namespace Context

variable {a b c : Context}

/-- Some references were bound between the two, and nothing else was changed. -/
structure Resolves (a b : Context) : Prop where
  arena : b.arena = a.arena
  links : b.links = a.links
  structural : b.structural = a.structural
  size : b.slots.size = a.slots.size
  slots : ∀ {slot t}, a.slotType? slot = some t → b.slotType? slot = some t

/-- Nothing has to be resolved to get from a context to itself. -/
theorem Resolves.refl (ctx : Context) : ctx.Resolves ctx := ⟨rfl, rfl, rfl, rfl, id⟩

/-- Resolving more types after some is resolving types. -/
theorem Resolves.trans (hab : a.Resolves b) (hbc : b.Resolves c) : a.Resolves c :=
  ⟨hbc.arena.trans hab.arena, hbc.links.trans hab.links, hbc.structural.trans hab.structural,
    hbc.size.trans hab.size, fun h => hbc.slots (hab.slots h)⟩

/-- Resolving types leaves the symbols alone. -/
theorem Resolves.symbol (h : a.Resolves b) : b.symbol = a.symbol := by
  funext id
  rw [Context.symbol, Context.symbol, h.arena]

/-- Resolving types leaves look-ups among given scopes alone. -/
theorem Resolves.lookupAmong (h : a.Resolves b) (name : String) (scopes : List SymbolId) :
    b.lookupAmong name scopes = a.lookupAmong name scopes := by
  induction scopes with
  | nil => rfl
  | cons scope rest ih =>
    simp only [Context.lookupAmong, lookupLocal, visible, h.symbol, ih]

/-- Names stand for the same types. -/
theorem Resolves.typeNamed (h : a.Resolves b) (name : String) :
    b.typeNamed name = a.typeNamed name := by
  simp only [Context.typeNamed, lookupGlobal, visible, typeDeclared, h.symbol, h.links,
    h.structural, h.lookupAmong]

/-- A slot that is not there cannot be bound. -/
theorem slotType?_of_le {ctx : Context} {slot : SlotId} (h : ctx.slots.size ≤ slot.index) :
    ctx.slotType? slot = none := by
  rw [slotType?, Array.getElem?_eq_none h]
  rfl

/-- Filling a free slot resolves its type. -/
theorem resolves_fill {ctx : Context} {slot : SlotId} (t : Ty) (hfree : ctx.slotType? slot = none) :
    ctx.Resolves ((Edit.fill slot t).write ctx) where
  arena := rfl
  links := rfl
  structural := rfl
  size := Array.size_setIfInBounds
  slots h := (grows_fill t hfree).slots _ _ h

end Context

namespace SemaM

variable {a b c : Context} {type : TypeRef} {t : Ty}

/-- What the first part of `typeOf` finds decides whether anything is looked up. -/
theorem typeOf_of_free (hfree : a.slotType? type.slot = none) :
    typeOf type a = (do
      let t ← query (·.typeNamed type.name)
      bindSlot type.slot t
      return t : SemaM Ty) a := by
  have hget : (get : SemaM Context) a = .ok a a := rfl
  unfold typeOf
  rw [bind_of_ok hget, hfree]

/-- A look-up binds the reference, so the next one finds the same and changes nothing. A reference
without a slot is looked up again, with the same outcome. -/
theorem typeOf_eq_ok (h : typeOf type a = .ok t b) :
    a.Resolves b ∧ ∀ {c}, b.Resolves c → typeOf type c = .ok t c := by
  cases hslot : a.slotType? type.slot with
  | some t₀ =>
    rw [typeOf_of_bound hslot] at h
    cases h
    exact ⟨.refl _, fun hbc => typeOf_of_bound (hbc.slots hslot)⟩
  | none =>
    rw [typeOf_of_free hslot] at h
    obtain ⟨t', a', ht, hrest⟩ := bind_eq_ok h
    obtain ⟨hnamed, rfl⟩ := query_eq_ok ht
    cases hrest
    have hfill := Context.resolves_fill t hslot
    refine ⟨hfill, fun {c} hbc => ?_⟩
    -- The slot is bound now, unless the reference points past all slots.
    have hac : a'.Resolves c := hfill.trans hbc
    by_cases hin : type.slot.index < a'.slots.size
    · refine typeOf_of_bound (hbc.slots ?_)
      simp [Context.slotType?, hin]
    · -- There is no such slot, and the name still stands for the same type.
      have hout : c.slots.size ≤ type.slot.index := by
        rw [hac.size]
        exact Nat.le_of_not_lt hin
      have hnamed' : c.typeNamed type.name = .ok t := (hac.typeNamed type.name).trans hnamed
      rw [typeOf_of_free (Context.slotType?_of_le hout), bind_of_ok (query_of_ok hnamed')]
      have hsame : bindSlot type.slot t c = .ok () c := by
        rw [bindSlot, Array.setIfInBounds_eq_of_size_le hout]
      rw [bind_of_ok hsame]
      rfl

end SemaM

/-- The place of an instance that belongs to the member starts with the value: the default of the
type if the member is a variable. -/
def Context.StartsAs (ctx : Context) (id : SymbolId) (v : Value) : Prop :=
  ∀ ⦃s type⦄, ctx.arena.get? id = some s → s.kind.isVariable = true → s.type? = some type →
    ∃ t, SemaM.typeOf type ctx = .ok t ctx ∧ v = t.defaultValue

/-- A start value does not change when more types are resolved. -/
theorem Context.StartsAs.resolves {a b : Context} {id : SymbolId} {v : Value}
    (h : a.StartsAs id v) (hab : a.Resolves b) : b.StartsAs id v := by
  intro s type hs hv htype
  rw [hab.arena] at hs
  obtain ⟨t, ht, rfl⟩ := h hs hv htype
  exact ⟨t, (SemaM.typeOf_eq_ok ht).2 hab, rfl⟩

namespace SemaM

variable {ctx ctx' : Context}

/-- The value with which the place of a member starts. -/
def startValue (s : Symbol) : SemaM Value :=
  match s.kind.isVariable, s.type? with
  | true, some type => do return (← typeOf type).defaultValue
  | _, _ => return .null

/-- The template is built place by place. -/
theorem template_cons (id : SymbolId) (rest : List SymbolId) :
    template (id :: rest) = (do
      let s ← symbol id
      let v ← startValue s
      return v :: (← template rest)) := by
  rw [template]
  congr 1
  funext s
  unfold startValue
  cases s.kind.isVariable <;> cases s.type? <;> simp only [bind_assoc, pure_bind]

/-- The start value of a symbol is the default of its type, which stays resolved. -/
theorem startValue_eq_ok {id : SymbolId} {s : Symbol} {v : Value}
    (hs : ctx.arena.get? id = some s) (h : startValue s ctx = .ok v ctx') :
    ctx.Resolves ctx' ∧ ctx'.StartsAs id v := by
  -- Variables with a type start with its default, all else starts as null.
  by_cases hvar : ∃ type, s.kind.isVariable = true ∧ s.type? = some type
  · obtain ⟨type, hv, htype⟩ := hvar
    have hrun : startValue s = (do return (← typeOf type).defaultValue) := by
      simp only [startValue, hv, htype]
    rw [hrun] at h
    obtain ⟨t, ctx₁, ht, hpure⟩ := bind_eq_ok h
    cases hpure
    obtain ⟨hresolves, hlater⟩ := typeOf_eq_ok ht
    refine ⟨hresolves, fun s' type' hs' _ htype' => ?_⟩
    rw [hresolves.arena, hs] at hs'
    cases hs'
    rw [htype] at htype'
    cases htype'
    exact ⟨t, hlater (.refl _), rfl⟩
  · have hrun : startValue s = pure .null := by
      unfold startValue
      split
      · exact absurd ⟨_, ‹_›, ‹_›⟩ hvar
      · rfl
    rw [hrun] at h
    cases h
    refine ⟨.refl _, fun s' type' hs' hv' htype' => ?_⟩
    rw [hs] at hs'
    cases hs'
    exact absurd ⟨type', hv', htype'⟩ hvar

/-- The template has one place per member, and each starts as it has to. -/
theorem template_eq_ok {ids : List SymbolId} {places : List Value}
    (h : template ids ctx = .ok places ctx') :
    ctx.Resolves ctx' ∧ List.Forall₂ ctx'.StartsAs ids places := by
  -- Along the members. The look-ups for later ones bind more references, which changes no type that
  -- was found before.
  induction ids generalizing ctx places with
  | nil =>
    cases h
    exact ⟨.refl _, .nil⟩
  | cons id rest ih =>
    rw [template_cons] at h
    obtain ⟨s, ctx₁, hs, hrest⟩ := bind_eq_ok h
    obtain ⟨hs, rfl⟩ := query_eq_ok hs
    obtain ⟨v, ctx₂, hv, hrest⟩ := bind_eq_ok hrest
    obtain ⟨more, ctx₃, hmore, hpure⟩ := bind_eq_ok hrest
    cases hpure
    obtain ⟨hfirst, hstarts⟩ := startValue_eq_ok (Context.symbol_eq_ok_iff.mp hs) hv
    obtain ⟨hresolves, hothers⟩ := ih hmore
    exact ⟨hfirst.trans hresolves, .cons (hstarts.resolves hresolves) hothers⟩

end SemaM

/-! ### Script classes are made from their members -/

/-- The host makes no instances of script classes. -/
def Context.Scripted (ctx : Context) : Prop :=
  ∀ ⦃x s info⦄, ctx.arena.get? x = some s → s.kind = .classDecl info → info.flavor = .script →
    info.creator = none

/-- The bare context has no class. -/
theorem Context.bare_scripted : bare.Scripted := by
  intro x s info hs hk
  rw [eq_of_get?_bare hs] at hk
  cases hk

/-- No edit gives a script class a creator. -/
theorem Edit.Fits.scripted {rules : Rules} {ctx : Context} {e : Edit} (he : Fits rules ctx e)
    (h : ctx.Scripted) : (e.write ctx).Scripted := by
  intro x s info hs hk hscript
  rcases he.grown_or_born hs with ⟨t, ht, hgrows⟩ | hborn
  · -- An old class keeps its flavour, and a script class its lack of a creator.
    have hkind := hgrows.kind
    rw [hk] at hkind
    obtain ⟨info₀, hk₀, hflavor, hcreator⟩ := hkind.to_classDecl
    have hscript₀ := hflavor.symm.trans hscript
    exact (hcreator hscript₀).trans (h ht hk₀ hscript₀)
  · cases hborn with
    | blank hb =>
      have hblank := hb.kind
      rw [hk] at hblank
      exact hblank.2 hscript
    | lambda => cases hk
    | copy => cases hk
    | heir =>
      cases hk
      rfl

/-- No script class has a creator in any state that is reached. -/
theorem Reached.scripted {allowed : Context → Op → Prop} {ctx : Context} (h : Reached allowed ctx) :
    ctx.Scripted :=
  h.edits_free.preserves (fun _ _ he => he.scripted) Context.bare_scripted

/-- An instance of a script class is a new list made from the template of its members. -/
theorem instantiate_script {ctx ctx' : Context} {frame frame' : Frame} {cls : SymbolId} {o : Symbol}
    {info : ClassInfo} {obj : Value} (ho : ctx.arena.get? cls = some o)
    (hk : o.kind = .classDecl info) (hscript : info.flavor = .script)
    (hcreator : info.creator = none)
    (h : instantiate cls (ctx, frame) = .ok obj (ctx', frame')) :
    ∃ places, SemaM.template o.members.values ctx = .ok places ctx' ∧
      obj = .list ⟨frame.store.lists.size⟩ ∧
      frame'.store = (frame.store.newList places.toArray).2 := by
  have hinfo : ctx.classInfo cls = .ok info := by
    simp only [Context.classInfo, Context.symbol_of_get? ho, bind, Except.bind, hk]
    rfl
  -- Without a creator of its own, the class is made from the template of its members.
  have hrun : SemaM.classCreator cls ctx = (do
      let places ← SemaM.template o.members.values
      return HostM.allocate (·.newList places.toArray) : SemaM Creator) ctx := by
    unfold SemaM.classCreator
    rw [SemaM.bind_of_ok (SemaM.query_of_ok hinfo)]
    simp only [hcreator]
    rw [SemaM.bind_of_ok (SemaM.symbol_run ho)]
    simp only [hscript]
  unfold instantiate at h
  cases hmade : SemaM.classCreator cls ctx with
  | error e ctx₁ =>
    simp only [hmade] at h
    cases h
  | ok creator ctx₁ =>
    simp only [hmade] at h
    rw [hrun] at hmade
    obtain ⟨places, ctx₂, hplaces, hpure⟩ := SemaM.bind_eq_ok hmade
    cases hpure
    cases h
    exact ⟨places, hplaces, rfl, rfl⟩

/-! ### Fields of instances -/

namespace Context

variable {ctx : Context} {cls f : SymbolId}

/-- The host does not say how to read the field, and a look-up in the class finds it, so it is
declared in the class or above it. -/
def ScriptField (ctx : Context) (cls f : SymbolId) : Prop :=
  ∃ name s, ctx.lookupMember cls name = .ok (some f) ∧ ctx.arena.get? f = some s ∧
    s.kind = .field none

/-- The field is the `i`-th member of a class and is read at that place. -/
structure FieldAt (ctx : Context) (o : Symbol) (f : SymbolId) (i : Nat) (type : TypeRef) :
    Prop where
  member : o.members.values[i]? = some f
  field : ∃ s, ctx.arena.get? f = some s ∧ s.kind = .field none ∧ s.slot = some i ∧
    s.type? = some type

/-- A field is accessed at its slot. -/
theorem FieldAt.fieldAccessor {o : Symbol} {i : Nat} {type : TypeRef} (h : ctx.FieldAt o f i type) :
    ctx.fieldAccessor f = .ok (.atSlot i) := by
  obtain ⟨s, hs, hk, hslot, -⟩ := h.field
  simp only [Context.fieldAccessor, symbol_of_get? hs, bind, Except.bind, hk, hslot]
  rfl

/-- The type of a field is the one that it is declared with. -/
theorem FieldAt.typeOfSymbol {o : Symbol} {i : Nat} {type : TypeRef} (h : ctx.FieldAt o f i type) :
    SemaM.typeOfSymbol f ctx = SemaM.typeOf type ctx := by
  obtain ⟨s, hs, hk, -, htype⟩ := h.field
  unfold SemaM.typeOfSymbol
  rw [SemaM.bind_of_ok (SemaM.symbol_run hs)]
  simp only [hk, htype]

/-- Fields stay where they are when more types are resolved. -/
theorem FieldAt.resolves {b : Context} {o : Symbol} {i : Nat} {type : TypeRef}
    (h : ctx.FieldAt o f i type) (hb : ctx.Resolves b) : b.FieldAt o f i type :=
  ⟨h.member, hb.arena ▸ h.field⟩

/-- In the template the place of a field has the default of its type. -/
theorem FieldAt.default {o : Symbol} {i : Nat} {type : TypeRef} (h : ctx.FieldAt o f i type)
    {places : List Value} (hstarts : List.Forall₂ ctx.StartsAs o.members.values places) :
    ∃ t, SemaM.typeOf type ctx = .ok t ctx ∧ places[i]? = some t.defaultValue := by
  obtain ⟨hi, hmember⟩ := List.getElem?_eq_some_iff.mp h.member
  have hi' : i < places.length := hstarts.length_eq ▸ hi
  have hstart : ctx.StartsAs f places[i] := hmember ▸ hstarts.get hi hi'
  obtain ⟨s, hs, hk, -, htype⟩ := h.field
  obtain ⟨t, ht, hv⟩ := hstart hs (by rw [hk]; rfl) htype
  exact ⟨t, ht, List.getElem?_eq_some_iff.mpr ⟨hi', hv⟩⟩

/-- A field that is found is read at its place among the members. -/
theorem ScriptField.fieldAt (h : ctx.ScriptField cls f) (hinherits : ctx.Inherits)
    (hdescends : ctx.Descends) (hsound : ctx.Sound) (haligned : ctx.Aligned) (htyped : ctx.Typed)
    {o : Symbol} {info : ClassInfo} (ho : ctx.arena.get? cls = some o)
    (hk : o.kind = .classDecl info) : ∃ i type, ctx.FieldAt o f i type := by
  obtain ⟨name, s, hlook, hs, hfield⟩ := h
  rw [hinherits.lookupMember hdescends ho hk] at hlook
  obtain ⟨i, hi⟩ := o.members.exists_position_of_find? (Except.ok.inj hlook)
  -- Fields are variables, so they have a slot and a type.
  have hv : s.kind.isVariable = true := by
    rw [hfield]
    rfl
  obtain ⟨-, -, -, -, hslot⟩ := haligned.variableAt hsound ⟨o, ho, hi⟩ hs hv
  obtain ⟨type, htype⟩ := Option.isSome_iff_exists.mp (htyped hs hv)
  refine ⟨i, type, ?_, s, hs, hfield, hslot, htype⟩
  simp [Assoc.values, hi]

end Context

/-- Take a run in which every symbol is defined at most once and a class with one below it gets no
more members, and an instance of a script class made in the state it leads to. The instance is a
list with one place per member of the class. A script field of the class, its own or inherited,
reads as the default of its type at first. It can be written, and a write that succeeds is read
back, leaves all other fields as they were and keeps the length of the list. -/
theorem instance_fields {ctx ctx' : Context} {frame frame' : Frame} {cls : SymbolId} {o : Symbol}
    {info : ClassInfo} {obj : Value}
    (h : Reached (fun ctx op => op.DefinesOnce ctx ∧ op.LeavesSupers ctx) ctx)
    (ho : ctx.arena.get? cls = some o) (hk : o.kind = .classDecl info)
    (hscript : info.flavor = .script)
    (hmade : instantiate cls (ctx, frame) = .ok obj (ctx', frame')) :
    ∃ l, obj = .list l ∧ (frame'.store.listItems l).size = o.members.size ∧
      ∀ f, ctx.ScriptField cls f → ∃ access t, ctx'.fieldAccessor f = .ok access ∧
        SemaM.typeOfSymbol f ctx' = .ok t ctx' ∧
        access.get frame'.store obj = .ok t.defaultValue ∧
        (∀ v, ∃ store, access.set frame'.store obj v = .ok store) ∧
        ∀ store v store', access.set store obj v = .ok store' →
          access.get store' obj = .ok v ∧
          (store'.listItems l).size = (store.listItems l).size ∧
          ∀ g other, ctx.ScriptField cls g → g ≠ f → ctx'.fieldAccessor g = .ok other →
            other.get store' obj = other.get store obj := by
  have hinherits : ctx.Inherits := h.inherits fun _ _ hop => hop.2
  have haligned : ctx.Aligned := h.aligned fun _ _ hop => hop.1
  obtain ⟨places, hplaces, rfl, hstore⟩ :=
    instantiate_script ho hk hscript (h.scripted ho hk hscript) hmade
  obtain ⟨hresolves, hstarts⟩ := SemaM.template_eq_ok hplaces
  -- Making the instance bound references only, so the fields are still where they were.
  have hfield : ∀ {f}, ctx.ScriptField cls f → ∃ i type, ctx'.FieldAt o f i type := by
    intro f hf
    obtain ⟨i, type, hat⟩ := hf.fieldAt hinherits h.descends h.sound haligned h.typed ho hk
    exact ⟨i, type, hat.resolves hresolves⟩
  have hitems : frame'.store.listItems ⟨frame.store.lists.size⟩ = places.toArray := by
    rw [hstore]
    exact Store.listItems_newList _ _
  have hlength : places.length = o.members.values.length := hstarts.length_eq.symm
  refine ⟨_, rfl, ?_, fun f hf => ?_⟩
  · rw [hitems, List.size_toArray, hlength]
    simp [Assoc.values, Assoc.size]
  obtain ⟨i, type, hat⟩ := hfield hf
  obtain ⟨t, ht, hdefault⟩ := hat.default hstarts
  refine ⟨_, t, hat.fieldAccessor, hat.typeOfSymbol.trans ht, ?_, fun v => ?_,
    fun store v store' hset => ⟨Accessor.get_of_set hset, ?_, fun g other hg hne hother => ?_⟩⟩
  · rw [Accessor.get_atSlot, hitems, List.getElem?_toArray, hdefault]
  · have hi : i < places.length := (List.getElem?_eq_some_iff.mp hdefault).1
    rw [Accessor.set_atSlot, hitems, List.size_toArray, if_pos hi]
    exact ⟨_, rfl⟩
  · rw [(Accessor.listItems_of_set hset).2, Array.size_setIfInBounds]
  · obtain ⟨j, type', hat'⟩ := hfield hg
    rw [hat'.fieldAccessor] at hother
    cases hother
    refine Accessor.get_of_set_of_ne hset ?_
    -- Two fields at one place would be one member.
    rintro rfl
    have hsame := hat'.member
    rw [hat.member] at hsame
    exact hne (Option.some.inj hsame).symm

/-- Whether a symbol is a script field is decidable. -/
instance (kind : SymbolKind) : Decidable (kind = .field none) :=
  match kind with
  | .field none => .isTrue rfl
  | .builtIn _ | .var | .param _ | .field (some _) | .classDecl _ | .func _ | .enumDecl
  | .enumItem .. | .globalScope | .moduleScope | .block _ => .isFalse nofun

/-- Only classes have class data. -/
theorem SymbolKind.eq_classDecl_of_class? {kind : SymbolKind} {info : ClassInfo}
    (h : kind.class? = some info) : kind = .classDecl info := by
  cases kind <;> cases h
  rfl

/-- The class at the bottom of `hierarchyRun`, by running it. -/
theorem hierarchyRun_leaf :
    let ctx := Op.runs .initial hierarchyRun
    (∃ o ∈ ctx.arena.get? ⟨89⟩, o.members.size = 3 ∧ ∃ info ∈ o.kind.class?,
      info.flavor = .script) ∧
    ctx.lookupMember ⟨89⟩ "a" = .ok (some ⟨86⟩) ∧ ctx.lookupMember ⟨89⟩ "c" = .ok (some ⟨90⟩) ∧
    (∃ s ∈ ctx.arena.get? ⟨86⟩, s.kind = .field none) ∧
    (∃ s ∈ ctx.arena.get? ⟨90⟩, s.kind = .field none) ∧
    (match instantiate ⟨89⟩ (ctx, {}) with
      | .ok .. => true
      | .error .. => false) = true := by
  decide +kernel

/-- In an instance of the third class, a write to the field of the first is read back, and the own
field still has its default. -/
theorem instance_fields_hierarchyRun :
    let ctx := Op.runs .initial hierarchyRun
    Reached (fun ctx op => op.DefinesOnce ctx ∧ op.LeavesSupers ctx) ctx ∧
    ctx.ScriptField ⟨89⟩ ⟨86⟩ ∧ ctx.ScriptField ⟨89⟩ ⟨90⟩ ∧
    ∃ l ctx' frame', instantiate ⟨89⟩ (ctx, {}) = .ok (.list l) (ctx', frame') ∧
      (frame'.store.listItems l).size = 3 ∧
      ∃ a c t store, ctx'.fieldAccessor ⟨86⟩ = .ok a ∧ ctx'.fieldAccessor ⟨90⟩ = .ok c ∧
        a.set frame'.store (.list l) (.bool true) = .ok store ∧
        a.get store (.list l) = .ok (.bool true) ∧
        c.get store (.list l) = .ok (Ty.defaultValue t) := by
  intro ctx
  obtain ⟨⟨o, ho, hsize, info, hinfo, hscript⟩, hlook, hlook', ⟨s, hs, hk⟩, ⟨s', hs', hk'⟩, hok⟩ :=
    hierarchyRun_leaf
  have hreached : Reached (fun ctx op => op.DefinesOnce ctx ∧ op.LeavesSupers ctx) ctx :=
    Reached.initial.runs hierarchyRun_facts.1
  have hclass : o.kind = .classDecl info := SymbolKind.eq_classDecl_of_class? hinfo
  have hfirst : ctx.ScriptField ⟨89⟩ ⟨86⟩ := ⟨"a", s, hlook, hs, hk⟩
  have hown : ctx.ScriptField ⟨89⟩ ⟨90⟩ := ⟨"c", s', hlook', hs', hk'⟩
  refine ⟨hreached, hfirst, hown, ?_⟩
  cases hmade : instantiate ⟨89⟩ (ctx, {}) with
  | error e st =>
    rw [show instantiate ⟨89⟩ (Op.runs .initial hierarchyRun, {}) = .error e st from hmade] at hok
    cases hok
  | ok obj st =>
    obtain ⟨ctx', frame'⟩ := st
    obtain ⟨l, rfl, hl, hfields⟩ := instance_fields hreached ho hclass hscript hmade
    -- The inherited field is written and the own one read afterwards.
    obtain ⟨a, -, ha, -, -, hset, hwrite⟩ := hfields ⟨86⟩ hfirst
    obtain ⟨c, t, hc, -, hdefault, -⟩ := hfields ⟨90⟩ hown
    obtain ⟨store, hstore⟩ := hset (.bool true)
    obtain ⟨hread, -, hothers⟩ := hwrite _ _ _ hstore
    refine ⟨l, ctx', frame', rfl, hl.trans hsize, a, c, t, store, ha, hc, hstore, hread, ?_⟩
    rw [hothers ⟨90⟩ c hown (by decide) hc]
    exact hdefault

end Sema

import Sema.Proofs.Registry
import Sema.Proofs.Sealing

/-!
# `Sema.Proofs.EnumItems`: the items of an enum

The members of an enum are looked after in one place only, where an item is added. `Op.itemsAdded`
reads off a run which items it adds to an enum. `enum_integrity` says that these are the members of
the enum, in this order, and that the next item is accepted exactly if it clashes with none of them.

That no other call comes to the members of an enum needs an invariant. An item can be entered into
the enum it was made for, whoever enters it, so `Context.Itemized` says that every item of an enum
is a member of it already. Then a second entry finds its name taken.
-/

set_option autoImplicit false

namespace Sema

/-- An item of an enum. -/
structure EnumItem where
  name : String
  value : Int
  id : SymbolId
  deriving DecidableEq

namespace EnumItem

/-- The item as a member. -/
def entry (i : EnumItem) : String × SymbolId := (i.name, i.id)

/-- A new item of this name and value cannot stand beside this one. -/
def clashes (name : String) (value : Int) (i : EnumItem) : Bool := i.value = value ∨ i.name = name

/-- What is said about a new item that clashes with this one. -/
def complaint (place enum name : String) (value : Int) (i : EnumItem) : CompileError :=
  if i.value = value then .duplicateEnumValue place enum value
  else .duplicateEnumKey place enum name

end EnumItem

namespace Context

variable {a b ctx : Context} {enum : SymbolId} {i : EnumItem}

/-- The symbol is an item of the enum, with this name and value, and of the type of the enum. -/
def IsItem (ctx : Context) (enum : SymbolId) (i : EnumItem) : Prop :=
  ∃ s type, ctx.arena.get? i.id = some s ∧ s.name = i.name ∧ s.kind = .enumItem enum i.value ∧
    s.type? = some type ∧ ctx.slotType? type.slot = some (.enumOf enum)

/-- An item stays an item of its enum. -/
theorem Grows.isItem (h : a.Grows b) (hi : a.IsItem enum i) : b.IsItem enum i := by
  obtain ⟨s, type, hs, hname, hk, htype, hbound⟩ := hi
  obtain ⟨t, ht, hst⟩ := h.symbols i.id s hs
  refine ⟨t, type, ht, hst.name.trans hname, ?_, hst.type?.trans htype, h.slots _ _ hbound⟩
  have hkind := hst.kind
  rw [hk] at hkind
  generalize t.kind = k at hkind
  cases hkind
  rfl

/-- The value of an item can be read. -/
theorem IsItem.itemValue (h : ctx.IsItem enum i) : ctx.itemValue i.id = .ok i.value := by
  obtain ⟨s, type, hs, -, hk, -⟩ := h
  simp only [Context.itemValue, symbol_of_get? hs, bind, Except.bind, hk]
  rfl

/-- The type of an item is its enum. -/
theorem IsItem.typeOfSymbol (h : ctx.IsItem enum i) :
    SemaM.typeOfSymbol i.id ctx = .ok (.enumOf enum) ctx := by
  obtain ⟨s, type, hs, -, hk, htype, hbound⟩ := h
  unfold SemaM.typeOfSymbol
  rw [SemaM.bind_of_ok (SemaM.symbol_run hs)]
  simp only [hk, htype]
  exact SemaM.typeOf_of_bound hbound

/-- A member that is an item is found under its name. Items are never hidden. -/
theorem IsItem.findItem {o : Symbol} (h : ctx.IsItem enum i) (ho : ctx.arena.get? enum = some o)
    (hmem : i.entry ∈ o.members.entries) : ctx.findItem enum i.name = .ok (some i.id) := by
  obtain ⟨s, type, hs, -, hk, -⟩ := h
  have hfind : o.members.find? i.name = some i.id := (Assoc.find?_eq_some_iff _ _ _).mpr hmem
  have hshown : s.isHidden = false := by
    rw [Symbol.isHidden, hk]
    rfl
  have hlocal : ctx.lookupLocal enum i.name = .ok (some i.id) :=
    lookupLocal_eq_some_iff.mpr ⟨o, s, ho, hfind, hs, hshown⟩
  simp only [Context.findItem, hlocal, bind, Except.bind, symbol_of_get? hs, hk]
  rfl

/-! ### The check of a new item -/

/-- One item is compared with the new one, its value before its name. -/
theorem checkItem_cons {item : SymbolId} {v : Int} (hv : ctx.itemValue item = .ok v)
    (place owner name itemName : String) (value : Int) (rest : List (String × SymbolId)) :
    ctx.checkItem place owner name value ((itemName, item) :: rest)
      = if v = value then .error (.duplicateEnumValue place owner value)
        else if itemName = name then .error (.duplicateEnumKey place owner name)
        else ctx.checkItem place owner name value rest := by
  simp only [checkItem, hv, bind, Except.bind]
  split
  · rfl
  · split <;> rfl

/-- What is accepted has a new name, whatever the members are. -/
theorem not_mem_of_checkItem {place owner name : String} {value : Int}
    {entries : List (String × SymbolId)}
    (h : ctx.checkItem place owner name value entries = .ok ()) :
    name ∉ entries.map Prod.fst := by
  induction entries with
  | nil => simp
  | cons entry rest ih =>
    -- The check went past the first entry, so it has another value and another name.
    obtain ⟨itemName, item⟩ := entry
    obtain ⟨v, hv, -⟩ := except_bind_eq_ok h
    rw [checkItem_cons hv] at h
    split at h
    · cases h
    · split at h
      · cases h
      · rename_i hname
        rw [List.map_cons, List.mem_cons, not_or]
        exact ⟨fun heq => hname heq.symm, ih h⟩

/-- The first item that clashes decides. -/
theorem checkItem_items (place owner name : String) (value : Int) {items : List EnumItem}
    (h : ∀ i ∈ items, ctx.IsItem enum i) :
    ctx.checkItem place owner name value (items.map EnumItem.entry)
      = match items.find? (·.clashes name value) with
        | none => .ok ()
        | some i => .error (i.complaint place owner name value) := by
  induction items with
  | nil => rfl
  | cons i rest ih =>
    have hvalue := (h i List.mem_cons_self).itemValue
    have hrest := ih fun j hj => h j (List.mem_cons_of_mem i hj)
    rw [List.map_cons, EnumItem.entry, checkItem_cons hvalue, List.find?_cons]
    -- The value of an item is compared before its name.
    by_cases hv : i.value = value
    · simp [EnumItem.clashes, EnumItem.complaint, hv]
    · by_cases hn : i.name = name
      · simp [EnumItem.clashes, EnumItem.complaint, hv, hn]
      · simp [EnumItem.clashes, hv, hn, hrest]

/-- The new item, with a reference to its enum as its type. -/
def newItem (ctx : Context) (owner : SymbolId) (title name : String) (value : Int)
    (location : Option Location) : Symbol where
  name
  kind := .enumItem owner value
  type? := some { name := title, slot := ⟨ctx.slots.size⟩ }
  location

/-- The context with the new item, before its owner has it. -/
def withFreeItem (ctx : Context) (owner : SymbolId) (title name : String) (value : Int)
    (location : Option Location) : Context :=
  (Edit.alloc (ctx.newItem owner title name value location)).write
    ((Edit.newSlot (some (.enumOf owner))).write ctx)

/-- The context with the new item as the last member of its owner. -/
def withItem (ctx : Context) (owner : SymbolId) (title name : String) (value : Int)
    (location : Option Location) : Context :=
  (Edit.enter owner ctx.nextId).write (ctx.withFreeItem owner title name value location)

section

variable (owner : SymbolId) (title name : String) (value : Int) (location : Option Location)

/-- The new item is under the next id. -/
theorem get?_withFreeItem_nextId :
    (ctx.withFreeItem owner title name value location).arena.get? ctx.nextId
      = some (ctx.newItem owner title name value location) :=
  get?_alloc_nextId _ _

/-- All other symbols are as they were. -/
theorem get?_withFreeItem {x : SymbolId} (hx : x ≠ ctx.nextId) :
    (ctx.withFreeItem owner title name value location).arena.get? x = ctx.arena.get? x :=
  (get?_alloc _ _ x).trans (if_neg hx)

/-- The symbols that were there still are. -/
theorem get?_withFreeItem_of_get? {x : SymbolId} {t : Symbol} (ht : ctx.arena.get? x = some t) :
    (ctx.withFreeItem owner title name value location).arena.get? x = some t :=
  (get?_withFreeItem owner title name value location (ne_nextId ht)).trans ht

variable {owner} {o : Symbol} {name}

/-- The owner gets the item as its last member. -/
theorem get?_withItem_owner (ho : ctx.arena.get? owner = some o) (hnew : name ∉ o.members.keys) :
    ∃ o', (ctx.withItem owner title name value location).arena.get? owner = some o' ∧
      o'.kind = o.kind ∧ o'.members.entries = o.members.entries ++ [(name, ctx.nextId)] :=
  get?_enter_scope (get?_withFreeItem_nextId owner title name value location)
    (get?_withFreeItem_of_get? owner title name value location ho) hnew

/-- The new item is one of its owner's. -/
theorem isItem_withItem (ho : ctx.arena.get? owner = some o) (hnew : name ∉ o.members.keys) :
    (ctx.withItem owner title name value location).IsItem owner ⟨name, value, ctx.nextId⟩ := by
  have hs := ctx.get?_withFreeItem_nextId owner title name value location
  have ho' := ctx.get?_withFreeItem_of_get? owner title name value location ho
  obtain ⟨s, hs', hname, hk, htype, -⟩ := get?_enter_sym hs ho' hnew
  exact ⟨s, _, hs', hname, hk, htype,
    (grows_enter hs ho' hnew).slots _ _ (SemaM.slotType?_newSlot _)⟩

/-- Every symbol but the item was there, and has its name and kind. -/
theorem exists_of_get?_withItem (ho : ctx.arena.get? owner = some o)
    (hnew : name ∉ o.members.keys) {x : SymbolId} {t : Symbol} (hx : x ≠ ctx.nextId)
    (ht : (ctx.withItem owner title name value location).arena.get? x = some t) :
    ∃ s, ctx.arena.get? x = some s ∧ t.name = s.name ∧ t.kind = s.kind := by
  obtain ⟨members, -, hget⟩ := get?_enter
    (get?_withFreeItem_nextId owner title name value location)
    (get?_withFreeItem_of_get? owner title name value location ho) hnew
  rw [withItem, hget x, get?_withFreeItem owner title name value location hx] at ht
  obtain ⟨s, hs, rfl⟩ := Option.map_eq_some_iff.mp ht
  refine ⟨s, hs, ?_⟩
  simp only [if_neg hx]
  split
  · exact ⟨rfl, rfl⟩
  · exact ⟨rfl, rfl⟩

/-- Whatever is neither the item nor its owner is as it was. -/
theorem get?_withItem_of_ne {x : SymbolId} (howner : x ≠ owner) (hx : x ≠ ctx.nextId) :
    (ctx.withItem owner title name value location).arena.get? x = ctx.arena.get? x :=
  (get?_enter_of_ne howner hx).trans (get?_withFreeItem owner title name value location hx)

end

end Context

/-- An item is refused and nothing changes, or its owner gets it as the last member. -/
theorem SemaM.addItem_outcome {ctx : Context} {owner : SymbolId} {o : Symbol} (name : String)
    (value : Int) (location : Option Location) (ho : ctx.arena.get? owner = some o) :
    (∃ e, ctx.checkItem (Location.describe location name) o.name name value o.members.entries
        = .error e ∧ addItem owner name value location ctx = .error e ctx) ∨
    (ctx.checkItem (Location.describe location name) o.name name value o.members.entries = .ok () ∧
      name ∉ o.members.keys ∧
      addItem owner name value location ctx
        = .ok ctx.nextId (ctx.withItem owner o.name name value location)) := by
  unfold addItem
  rw [bind_of_ok (symbol_run ho)]
  cases hcheck : ctx.checkItem (Location.describe location name) o.name name value
      o.members.entries with
  | error e => exact Or.inl ⟨e, rfl, bind_of_error (query_of_error hcheck)⟩
  | ok u =>
    -- Past the check nothing can fail any more: the name is free, so the item is entered.
    have hnew : name ∉ o.members.keys := Context.not_mem_of_checkItem hcheck
    have htype : resolvedRef o.name (.enumOf owner) ctx
        = .ok { name := o.name, slot := ⟨ctx.slots.size⟩ }
          ((Edit.newSlot (some (.enumOf owner))).write ctx) := rfl
    have henter := enter_of_free
      (ctx.get?_withFreeItem_nextId owner o.name name value location)
      (ctx.get?_withFreeItem_of_get? owner o.name name value location ho) hnew
    refine Or.inr ⟨rfl, hnew, ?_⟩
    rw [bind_of_ok (query_of_ok hcheck), bind_of_ok htype, bind_of_ok (alloc_run _)]
    exact bind_of_ok henter

/-! ### Who comes to the members of an enum -/

/-- Only an enum grows into an enum. -/
theorem SymbolKind.Grows.to_enumDecl {k : SymbolKind} (h : k.Grows .enumDecl) :
    k = .enumDecl := by
  cases h
  rfl

/-- An enum stays an enum. -/
theorem SymbolKind.Grows.of_enumDecl {k k' : SymbolKind} (h : k.Grows k') (hk : k = .enumDecl) :
    k' = .enumDecl := by
  subst hk
  cases h
  rfl

/-- A run that adds no items. -/
def Rules.noItems : Rules := { items := fun _ => False }

/-- A symbol that is new in such a run is no item, and an enum without members if it is one. -/
theorem Symbol.Born.of_noItems {ctx : Context} {s : Symbol} (h : s.Born .noItems ctx) :
    (∀ enum value, s.kind ≠ .enumItem enum value) ∧
      (s.kind = .enumDecl → s.members.entries = []) := by
  cases h with
  | blank hb =>
    refine ⟨fun enum value hk => ?_, fun _ => ?_⟩
    · -- An item is only born into an enum that the rules let have it.
      have hblank := hb.kind
      rw [hk] at hblank
      obtain ⟨o, -, hno⟩ := hblank
      exact hno
    · rw [hb.members]
      rfl
  | lambda | copy | heir =>
    refine ⟨fun _ _ hk => ?_, fun hk => ?_⟩
    · cases hk
    · cases hk

namespace Context

variable {ctx : Context} {enum : SymbolId} {o : Symbol}

/-- Every item belongs to something. If that is an enum, it has the name of the item. -/
def Itemized (ctx : Context) : Prop :=
  ∀ ⦃x s enum value⦄, ctx.arena.get? x = some s → s.kind = .enumItem enum value →
    ∃ o, ctx.arena.get? enum = some o ∧ (o.kind = .enumDecl → s.name ∈ o.members.keys)

/-- The members of an enum. Other symbols have none in this sense. -/
def enumEntries (ctx : Context) (id : SymbolId) : List (String × SymbolId) :=
  match ctx.arena.get? id with
  | some o => if o.kind = .enumDecl then o.members.entries else []
  | none => []

/-- The entries of an enum are its members. -/
theorem enumEntries_of_get? (ho : ctx.arena.get? enum = some o) :
    ctx.enumEntries enum = if o.kind = .enumDecl then o.members.entries else [] := by
  rw [enumEntries, ho]

/-- What is not there has no entries. -/
theorem enumEntries_of_none (hnone : ctx.arena.get? enum = none) : ctx.enumEntries enum = [] := by
  rw [enumEntries, hnone]

/-- A key of a symbol stays one. -/
theorem Grows.mem_keys {b : Context} (h : ctx.Grows b) (ho : ctx.arena.get? enum = some o)
    {o' : Symbol} (ho' : b.arena.get? enum = some o') {name : String}
    (hname : name ∈ o.members.keys) : name ∈ o'.members.keys := by
  obtain ⟨t, ht, hgrows⟩ := h.symbols enum o ho
  rw [ho'] at ht
  cases ht
  obtain ⟨x, hx⟩ := (Assoc.mem_keys_iff _ _).mp hname
  exact (Assoc.mem_keys_iff _ _).mpr ⟨x, hgrows.members.subset hx⟩

/-- What an item belongs to is still there after growth, and has its name still. -/
theorem Itemized.grows {b : Context} (h : ctx.Itemized) (hgrows : ctx.Grows b) {x : SymbolId}
    {s : Symbol} {value : Int} (hs : ctx.arena.get? x = some s)
    (hk : s.kind = .enumItem enum value) :
    ∃ o, b.arena.get? enum = some o ∧ (o.kind = .enumDecl → s.name ∈ o.members.keys) := by
  obtain ⟨o, ho, hentered⟩ := h hs hk
  obtain ⟨o', ho', hoo⟩ := hgrows.symbols enum o ho
  refine ⟨o', ho', fun hk' => hgrows.mem_keys ho ho' (hentered ?_)⟩
  exact (hk' ▸ hoo.kind).to_enumDecl

/-- An enum takes no definitions. -/
theorem ownerFor_ne_enum {via sym : SymbolId} (hframed : ctx.Framed)
    (ho : ctx.arena.get? enum = some o) (hk : o.kind = .enumDecl) :
    ctx.ownerFor via sym ≠ .ok enum := by
  intro howner
  -- The owner is the function of a block, or the scope itself, which would have been refused.
  obtain ⟨p, hp, ⟨b, hb, rfl⟩ | ⟨rfl, -⟩⟩ := ownerFor_eq_ok howner
  · have hframe : ctx.frame? via = some b.func := by
      rw [frame?_of_get? hp, hb]
      rfl
    obtain ⟨f, info, hf, hfunc⟩ := hframed.func hframe
    rw [ho] at hf
    cases hf
    rw [hk] at hfunc
    cases hfunc
  · obtain ⟨t, ht, hrest⟩ := except_bind_eq_ok howner
    rw [symbol_of_get? ho] at ht
    cases ht
    simp only [hk] at hrest
    obtain ⟨_, -, hthrow⟩ := except_bind_eq_ok hrest
    cases hthrow

end Context

namespace Edit.Fits

variable {ctx : Context} {e : Edit} {enum : SymbolId} {o : Symbol}

/-- Edits that make no items keep items entered. -/
theorem itemized (he : Fits .noItems ctx e) (h : ctx.Itemized) : (e.write ctx).Itemized := by
  intro x t enum value ht hk
  rcases he.grown_or_born ht with ⟨s, hs, hst⟩ | hborn
  · rw [hst.name]
    exact h.grows he.grows hs (hk ▸ hst.kind).to_enumItem
  · exact absurd hk (hborn.of_noItems.1 enum value)

/-- Without new items an enum gets no member: an item that is there is one already. -/
theorem host?_ne_enum {rules : Rules} (he : Fits rules ctx e) (hitems : ctx.Itemized)
    (hframed : ctx.Framed) (ho : ctx.arena.get? enum = some o) (hk : o.kind = .enumDecl) :
    e.host? ≠ some enum := by
  intro hhost
  cases e with
  | enter scope sym =>
    cases hhost
    cases he.quiet rfl with
    | @enter _ _ s p hs hp hnew hwhy =>
      rw [ho] at hp
      cases hp
      -- Nobody may define in an enum; its own items are in it; and it is no function.
      rcases hwhy with ⟨via, howner⟩ | ⟨s', value, hs', hitem⟩ | ⟨p, info, hp, hfunc, -⟩
      · exact Context.ownerFor_ne_enum hframed ho hk howner
      · rw [hs] at hs'
        cases hs'
        obtain ⟨p, hp, hentered⟩ := hitems hs hitem
        rw [ho] at hp
        cases hp
        exact hnew (hentered hk)
      · rw [ho] at hp
        cases hp
        rw [hk] at hfunc
        cases hfunc
  | capture lambda copy c =>
    cases hhost
    cases he with
    | plain h =>
      cases h with
      | quiet h => cases h
    | nested h =>
      cases h with
      | quiet h => cases h
      | capture hs hv hslot hc hl hlambda =>
        rw [ho] at hl
        cases hl
        rw [Symbol.isLambda, hk] at hlambda
        cases hlambda
  | _ => cases hhost

/-- Without new items the members of the enums stay. -/
theorem enumEntries_eq (he : Fits .noItems ctx e) (hitems : ctx.Itemized) (hframed : ctx.Framed)
    (id : SymbolId) : (e.write ctx).enumEntries id = ctx.enumEntries id := by
  cases ho : ctx.arena.get? id with
  | none =>
    rw [Context.enumEntries_of_none ho]
    cases ht : (e.write ctx).arena.get? id with
    | none => exact Context.enumEntries_of_none ht
    | some t =>
      -- hborn
      rcases he.grown_or_born ht with ⟨s, hs, -⟩ | hborn
      · rw [ho] at hs
        cases hs
      · rw [Context.enumEntries_of_get? ht]
        split
        · rename_i hk
          exact hborn.of_noItems.2 hk
        · rfl
  | some o =>
    obtain ⟨t, ht, hgrows⟩ := he.grows.symbols id o ho
    rw [Context.enumEntries_of_get? ht, Context.enumEntries_of_get? ho]
    by_cases hk : o.kind = .enumDecl
    · -- An enum that was there gets no member from such an edit.
      have hmembers := e.members?_write ⟨o, ho⟩ (he.host?_ne_enum hitems hframed ho hk)
      rw [Context.members?_of_get? ht, Context.members?_of_get? ho] at hmembers
      rw [if_pos hk, if_pos (hgrows.kind.of_enumDecl hk)]
      exact Option.some.inj hmembers
    · rw [if_neg hk, if_neg fun hk' => hk (hk' ▸ hgrows.kind).to_enumDecl]

end Edit.Fits

/-! ### Runs -/

namespace Op

variable {ctx : Context} {op : Op} {enum : SymbolId} {items : List EnumItem}

/-- A call that adds no item keeps to the rule that no items are made. -/
theorem keeps_noItems (ctx : Context) (hop : op.itemOwner? = none) : op.Keeps .noItems ctx where
  nests := (op.keeps_free ctx).nests
  types := (op.keeps_free ctx).types
  links := (op.keeps_free ctx).links
  items := by
    rintro owner name value location rfl
    cases hop
  refs := (op.keeps_free ctx).refs
  base := (op.keeps_free ctx).base

/-- A call that adds no item leaves the members of all enums. -/
theorem enumEntries_next (hop : op.itemOwner? = none) (hitems : ctx.Itemized)
    (hframed : ctx.Framed) :
    (op.next ctx).Itemized ∧ ∀ id, (op.next ctx).enumEntries id = ctx.enumEntries id := by
  have hedits := op.next_edits (keeps_noItems ctx hop)
  have hall : (op.next ctx).Itemized ∧ (op.next ctx).Framed ∧
      ∀ id, (op.next ctx).enumEntries id = ctx.enumEntries id :=
    hedits.preserves
      (I := fun c => c.Itemized ∧ c.Framed ∧ ∀ id, c.enumEntries id = ctx.enumEntries id)
      (fun c e he hc => ⟨he.itemized hc.1, he.framed hc.2.1,
        fun id => (he.enumEntries_eq hc.1 hc.2.1 id).trans (hc.2.2 id)⟩)
      ⟨hitems, hframed, fun _ => rfl⟩
  exact ⟨hall.1, hall.2.2⟩

/-- The item that a call adds to the enum. -/
def addedItem? (enum : SymbolId) (ctx : Context) : Op → Option EnumItem
  | addItem owner name value location =>
    match SemaM.addItem owner name value location ctx with
    | .ok id _ => if owner = enum then some { name, value, id } else none
    | .error _ _ => none
  | _ => none

/-- The items that a run adds to the enum, in order. -/
def itemsAdded (enum : SymbolId) (ctx : Context) : List Op → List EnumItem
  | [] => []
  | op :: rest => (op.addedItem? enum ctx).toList ++ itemsAdded enum (op.next ctx) rest

/-- What becomes of a call that adds an item. -/
theorem addItem_next_cases (ctx : Context) (owner : SymbolId) (name : String) (value : Int)
    (location : Option Location) :
    ((addItem owner name value location).next ctx = ctx ∧
      ∀ enum, (addItem owner name value location).addedItem? enum ctx = none) ∨
    ∃ o, ctx.arena.get? owner = some o ∧ name ∉ o.members.keys ∧
      ctx.checkItem (Location.describe location name) o.name name value o.members.entries
        = .ok () ∧
      (addItem owner name value location).next ctx
        = ctx.withItem owner o.name name value location ∧
      ∀ enum, (addItem owner name value location).addedItem? enum ctx
        = if owner = enum then some ⟨name, value, ctx.nextId⟩ else none := by
  -- A call that fails leaves the context as it was.
  have hfails : ∀ e, SemaM.addItem owner name value location ctx = .error e ctx →
      (addItem owner name value location).next ctx = ctx ∧
        ∀ enum, (addItem owner name value location).addedItem? enum ctx = none := by
    intro e hrun
    refine ⟨?_, fun enum => by rw [addedItem?, hrun]⟩
    rw [next, exec, SemaM.after, SemaM.forget, SemaM.bind_of_error hrun]
  cases ho : ctx.arena.get? owner with
  | none =>
    exact Or.inl (hfails _ (SemaM.bind_of_error
      (SemaM.query_of_error (Context.symbol_of_none ho))))
  | some o =>
    rcases SemaM.addItem_outcome name value location ho with ⟨e, -, hrun⟩ | ⟨hcheck, hnew, hrun⟩
    · exact Or.inl (hfails e hrun)
    · refine Or.inr ⟨o, rfl, hnew, hcheck, ?_, fun enum => by rw [addedItem?, hrun]⟩
      rw [next, exec, SemaM.after, SemaM.forget, SemaM.bind_of_ok hrun]
      rfl

/-- Every call leaves items where they belong. -/
theorem itemized_next (op : Op) (hitems : ctx.Itemized) (hframed : ctx.Framed) :
    (op.next ctx).Itemized := by
  cases hop : op.itemOwner? with
  | none => exact (enumEntries_next hop hitems hframed).1
  | some owner =>
    cases op with
    | addItem owner name value location =>
      -- The only call that makes an item enters it as well.
      rcases addItem_next_cases ctx owner name value location with
        ⟨hsame, -⟩ | ⟨o, ho, hnew, -, hnext, -⟩
      · rw [hsame]
        exact hitems
      · have hgrows := Op.grows (.addItem owner name value location) ctx
        rw [hnext] at hgrows ⊢
        intro x t enum v ht hk
        by_cases hx : x = ctx.nextId
        · -- The new item is the last member of its owner.
          obtain ⟨s, type, hs, hname, hkind, -⟩ := ctx.isItem_withItem o.name value location ho hnew
          obtain ⟨o', ho', -, hentries⟩ := ctx.get?_withItem_owner o.name value location ho hnew
          rw [hx, hs] at ht
          cases ht
          rw [hkind] at hk
          cases hk
          refine ⟨o', ho', fun _ => (Assoc.mem_keys_iff _ _).mpr ⟨ctx.nextId, ?_⟩⟩
          rw [hentries, hname]
          exact List.mem_append_right _ (List.mem_singleton.mpr rfl)
        · obtain ⟨s, hs, hname, hkind⟩ :=
            ctx.exists_of_get?_withItem o.name value location ho hnew hx ht
          rw [hname]
          exact hitems.grows hgrows hs (hkind.symm.trans hk)
    | _ => cases hop

end Op

/-- The kinds that have to do with enums. -/
def SymbolKind.ofEnum : SymbolKind → Bool
  | .enumDecl | .enumItem .. => true
  | _ => false

/-- There are no enums and no items at the start. -/
theorem Context.initial_ofEnum :
    initial.arena.symbols.toList.all (fun s => !s.kind.ofEnum) = true := by
  decide +kernel

/-- There are no enums at first. -/
theorem Context.ofEnum_of_initial {x : SymbolId} {s : Symbol} (hs : initial.arena.get? x = some s) :
    s.kind.ofEnum = false := by
  have hall := List.all_eq_true.mp initial_ofEnum s (mem_symbols_of_get? hs)
  simpa using hall

/-- Every item is a member of its enum in every state that is reached. -/
theorem Reached.itemized {allowed : Context → Op → Prop} {ctx : Context} (h : Reached allowed ctx) :
    ctx.Itemized := by
  induction h with
  | initial =>
    intro x s enum value hs hk
    have hno := Context.ofEnum_of_initial hs
    rw [hk] at hno
    cases hno
  | step op h hop ih => exact op.itemized_next ih h.framed

namespace Context

variable {ctx : Context} {enum : SymbolId} {o : Symbol} {items : List EnumItem}

/-- The enum has these items and no other members, in this order, and no two have the same value. A
symbol that is not there yet has none. -/
structure Lists (ctx : Context) (enum : SymbolId) (items : List EnumItem) : Prop where
  entries : ctx.enumEntries enum = items.map EnumItem.entry
  item : ∀ i ∈ items, ctx.IsItem enum i
  values : (items.map EnumItem.value).Nodup

/-- The items of the record are the members of the enum, in order. -/
theorem Lists.members (h : ctx.Lists enum items) (ho : ctx.arena.get? enum = some o)
    (hk : o.kind = .enumDecl) : o.members.entries = items.map EnumItem.entry := by
  rw [← h.entries, enumEntries_of_get? ho, if_pos hk]

/-- The names are distinct because they are the keys of the members. -/
theorem Lists.names (h : ctx.Lists enum items) (ho : ctx.arena.get? enum = some o)
    (hk : o.kind = .enumDecl) : (items.map EnumItem.name).Nodup := by
  have hkeys : o.members.entries.map Prod.fst = items.map EnumItem.name := by
    rw [h.members ho hk, List.map_map]
    rfl
  rw [← hkeys]
  exact o.members.nodup

/-- A new item is refused because of the first item that it clashes with. -/
theorem Lists.addItem_of_clash (h : ctx.Lists enum items) (ho : ctx.arena.get? enum = some o)
    (hk : o.kind = .enumDecl) {name : String} {value : Int} (location : Option Location)
    {i : EnumItem} (hfirst : items.find? (·.clashes name value) = some i) :
    SemaM.addItem enum name value location ctx
      = .error (i.complaint (Location.describe location name) o.name name value) ctx := by
  -- The check walks the record, so it stops at the first item of it that clashes.
  have hcheck := checkItem_items (Location.describe location name) o.name name value h.item
  rw [hfirst, ← h.members ho hk] at hcheck
  rcases SemaM.addItem_outcome name value location ho with ⟨e, hcheck', hrun⟩ | ⟨hcheck', -, -⟩
  · rw [hcheck] at hcheck'
    cases hcheck'
    exact hrun
  · rw [hcheck] at hcheck'
    cases hcheck'

/-- A new item is accepted if it clashes with none. -/
theorem Lists.addItem_of_free (h : ctx.Lists enum items) (ho : ctx.arena.get? enum = some o)
    (hk : o.kind = .enumDecl) {name : String} {value : Int} (location : Option Location)
    (hfree : items.find? (·.clashes name value) = none) :
    name ∉ o.members.keys ∧ SemaM.addItem enum name value location ctx
      = .ok ctx.nextId (ctx.withItem enum o.name name value location) := by
  have hcheck := checkItem_items (Location.describe location name) o.name name value h.item
  rw [hfree, ← h.members ho hk] at hcheck
  rcases SemaM.addItem_outcome name value location ho with ⟨e, hcheck', -⟩ | ⟨-, hnew, hrun⟩
  · rw [hcheck] at hcheck'
    cases hcheck'
  · exact ⟨hnew, hrun⟩

/-- What passes the check clashes with no item of the record. -/
theorem Lists.not_clashes (h : ctx.Lists enum items) (ho : ctx.arena.get? enum = some o)
    (hk : o.kind = .enumDecl) {place name : String} {value : Int}
    (hcheck : ctx.checkItem place o.name name value o.members.entries = .ok ()) :
    ∀ i ∈ items, i.clashes name value = false := by
  rw [h.members ho hk, checkItem_items place o.name name value h.item] at hcheck
  cases hfind : items.find? (·.clashes name value) with
  | some i =>
    rw [hfind] at hcheck
    cases hcheck
  | none => simpa using hfind

/-- The items after a new one was accepted. -/
theorem Lists.withItem (h : ctx.Lists enum items) (ho : ctx.arena.get? enum = some o)
    (hk : o.kind = .enumDecl) {name : String} {value : Int} (location : Option Location)
    (hnew : name ∉ o.members.keys)
    (hgrows : ctx.Grows (ctx.withItem enum o.name name value location))
    (hfree : ∀ i ∈ items, i.clashes name value = false) :
    (ctx.withItem enum o.name name value location).Lists enum
      (items ++ [⟨name, value, ctx.nextId⟩]) := by
  obtain ⟨o', ho', hk', hentries⟩ := ctx.get?_withItem_owner o.name value location ho hnew
  refine ⟨?_, fun i hi => ?_, ?_⟩
  · rw [enumEntries_of_get? ho', if_pos (hk'.trans hk), hentries, h.members ho hk, List.map_append]
    rfl
  · rcases List.mem_append.mp hi with hold | hnew'
    · exact hgrows.isItem (h.item i hold)
    · rw [List.mem_singleton.mp hnew']
      exact ctx.isItem_withItem o.name value location ho hnew
  · rw [List.map_append, List.nodup_append]
    refine ⟨h.values, List.nodup_singleton _, ?_⟩
    intro v hv w hw heq
    obtain ⟨i, hi, rfl⟩ := List.mem_map.mp hv
    -- An item of the same value would have been found by the check.
    have hclash : i.clashes name value = true := by
      rw [List.map_singleton, List.mem_singleton] at hw
      simp [EnumItem.clashes, heq.trans hw]
    rw [hfree i hi] at hclash
    cases hclash

/-- An item that goes to another owner leaves the enum alone. -/
theorem enumEntries_withItem_of_ne {owner : SymbolId} {title name : String} {value : Int}
    {location : Option Location} (ho : ctx.arena.get? owner = some o)
    (hnew : name ∉ o.members.keys) (hne : owner ≠ enum) :
    (ctx.withItem owner title name value location).enumEntries enum = ctx.enumEntries enum := by
  by_cases hx : enum = ctx.nextId
  · obtain ⟨s, type, hs, -, hk, -⟩ := ctx.isItem_withItem title value location ho hnew
    rw [hx, enumEntries_of_none ctx.get?_nextId, enumEntries_of_get? hs, hk]
    rfl
  · rw [enumEntries, ctx.get?_withItem_of_ne title value location hne.symm hx, enumEntries]

end Context

namespace Op

variable {ctx : Context} {enum : SymbolId} {items : List EnumItem}

/-- Only `addItem` adds items. -/
theorem addedItem?_of_none {op : Op} (hop : op.itemOwner? = none) :
    op.addedItem? enum ctx = none := by
  cases op with
  | addItem => cases hop
  | _ => rfl

/-- After a call the enum has the item that the call adds, and the ones before it. -/
theorem lists_next (op : Op) (hitems : ctx.Itemized) (hframed : ctx.Framed)
    (hkind : ∀ o, ctx.arena.get? enum = some o → o.kind = .enumDecl) (h : ctx.Lists enum items) :
    (op.next ctx).Lists enum (items ++ (op.addedItem? enum ctx).toList) := by
  have hgrows := op.grows ctx
  -- What leaves the entries alone leaves the record right.
  have hsame : ∀ {ctx'}, ctx.Grows ctx' → ctx'.enumEntries enum = ctx.enumEntries enum →
      ctx'.Lists enum (items ++ (none : Option EnumItem).toList) := by
    intro ctx' hgrows hentries
    rw [Option.toList_none, List.append_nil]
    exact ⟨hentries.trans h.entries, fun i hi => hgrows.isItem (h.item i hi), h.values⟩
  cases hop : op.itemOwner? with
  | none =>
    rw [addedItem?_of_none hop]
    exact hsame hgrows ((enumEntries_next hop hitems hframed).2 enum)
  | some owner =>
    cases op with
    | addItem owner name value location =>
      rcases addItem_next_cases ctx owner name value location with
        ⟨hstays, hnone⟩ | ⟨o, ho, hnew, hcheck, hnext, hadded⟩
      · rw [hnone, hstays]
        exact hsame (.refl ctx) rfl
      · rw [hnext] at hgrows ⊢
        rw [hadded]
        by_cases howner : owner = enum
        · subst howner
          rw [if_pos rfl]
          exact h.withItem ho (hkind o ho) location hnew hgrows
            (h.not_clashes ho (hkind o ho) hcheck)
        · rw [if_neg howner]
          exact hsame hgrows (Context.enumEntries_withItem_of_ne ho hnew howner)
    | _ => cases hop

/-- After a run the enum has the items that the run adds, and the ones before it. -/
theorem lists_runs (ops : List Op) (hreached : Reached (fun _ _ => True) ctx)
    (hkind : ∀ o, (Op.runs ctx ops).arena.get? enum = some o → o.kind = .enumDecl)
    (h : ctx.Lists enum items) :
    (Op.runs ctx ops).Lists enum (items ++ itemsAdded enum ctx ops) := by
  induction ops generalizing ctx items with
  | nil =>
    rw [itemsAdded, List.append_nil]
    exact h
  | cons op rest ih =>
    -- What is an enum in the end is one from the start.
    have hnow : ∀ o, ctx.arena.get? enum = some o → o.kind = .enumDecl := by
      intro o ho
      obtain ⟨t, ht, hgrows⟩ := (Op.runs_grows ctx (op :: rest)).symbols enum o ho
      exact (hkind t ht ▸ hgrows.kind).to_enumDecl
    have hnext := op.lists_next hreached.itemized hreached.framed hnow h
    have hrest := ih (hreached.step op trivial) hkind hnext
    rw [List.append_assoc] at hrest
    exact hrest

end Op

/-- Nothing is recorded at the start. -/
theorem Context.initial_lists (enum : SymbolId) : initial.Lists enum [] := by
  refine ⟨?_, by simp, List.nodup_nil⟩
  cases ho : initial.arena.get? enum with
  | none => exact enumEntries_of_none ho
  | some o =>
    rw [enumEntries_of_get? ho, if_neg]
    · rfl
    · intro hk
      have hno := ofEnum_of_initial ho
      rw [hk] at hno
      cases hno

/-- In a list of items without clashes nothing has the name or the value. -/
theorem EnumItem.find?_clashes_eq_none_iff {items : List EnumItem} {name : String} {value : Int} :
    items.find? (·.clashes name value) = none ↔ ∀ i ∈ items, i.name ≠ name ∧ i.value ≠ value := by
  simp only [List.find?_eq_none, clashes, decide_eq_true_eq, not_or, and_comm, ne_eq]

/-- An item is added to a recorded enum exactly if no item has its name or its value. A refused call
changes nothing and names the first item that has one of them; an item that was added is found by
its name. -/
theorem Context.Lists.addItem_exact {ctx : Context} {enum : SymbolId} {items : List EnumItem}
    {o : Symbol} (hlists : ctx.Lists enum items) (ho : ctx.arena.get? enum = some o)
    (hk : o.kind = .enumDecl) (name : String) (value : Int) (location : Option Location) :
    ((∃ item ctx', SemaM.addItem enum name value location ctx = .ok item ctx') ↔
      ∀ i ∈ items, i.name ≠ name ∧ i.value ≠ value) ∧
    (∀ e ctx', SemaM.addItem enum name value location ctx = .error e ctx' → ctx' = ctx ∧
      ∃ i, items.find? (·.clashes name value) = some i ∧
        e = i.complaint (Location.describe location name) o.name name value) ∧
    ∀ item ctx', SemaM.addItem enum name value location ctx = .ok item ctx' →
      ctx'.findItem enum name = .ok (some item) ∧ ctx'.itemValue item = .ok value := by
  rw [← EnumItem.find?_clashes_eq_none_iff]
  -- A first clash decides: with one the call fails and says which, without one it succeeds.
  cases hfind : items.find? (·.clashes name value) with
  | some i =>
    rw [hlists.addItem_of_clash ho hk location hfind]
    refine ⟨⟨?_, fun hnone => ?_⟩, ?_, ?_⟩
    · rintro ⟨item, ctx', heq⟩
      cases heq
    · cases hnone
    · rintro e ctx' heq
      cases heq
      exact ⟨rfl, i, rfl, rfl⟩
    · rintro item ctx' heq
      cases heq
  | none =>
    obtain ⟨hnew, hrun⟩ := hlists.addItem_of_free ho hk location hfind
    rw [hrun]
    refine ⟨⟨fun _ => rfl, fun _ => ⟨_, _, rfl⟩⟩, ?_, ?_⟩
    · rintro e ctx' heq
      cases heq
    · rintro item ctx' heq
      cases heq
      have hitem := ctx.isItem_withItem o.name value location ho hnew
      obtain ⟨o', ho', -, hentries⟩ := ctx.get?_withItem_owner o.name value location ho hnew
      refine ⟨hitem.findItem ho' ?_, hitem.itemValue⟩
      rw [hentries]
      exact List.mem_append_right _ (List.mem_singleton.mpr rfl)

/-- After every run, the members of every enum are the items that the run has added to it, in this
order. Names and values are distinct, and each item has the enum as its type and can be found by its
name. The enum owns the item unless the item was defined in another scope as well. A new item is
accepted exactly if no item has its name or its value. Otherwise the first item with one of them
decides what is reported, and nothing changes. -/
theorem enum_integrity (ops : List Op) {enum : SymbolId} {o : Symbol}
    (ho : (Op.runs .initial ops).arena.get? enum = some o) (hk : o.kind = .enumDecl) :
    let ctx := Op.runs .initial ops
    let items := Op.itemsAdded enum .initial ops
    o.members.entries = items.map EnumItem.entry ∧
    (items.map EnumItem.name).Nodup ∧ (items.map EnumItem.value).Nodup ∧
    (∀ i ∈ items, ctx.IsItem enum i ∧
      SemaM.typeOfSymbol i.id ctx = .ok (.enumOf enum) ctx ∧
      ctx.findItem enum i.name = .ok (some i.id) ∧ ctx.itemValue i.id = .ok i.value ∧
      (ctx.owner? i.id = some enum ∨ ∃ p, p ≠ enum ∧ ctx.Holds p i.id)) ∧
    ∀ name value location,
      ((∃ item ctx', SemaM.addItem enum name value location ctx = .ok item ctx') ↔
        ∀ i ∈ items, i.name ≠ name ∧ i.value ≠ value) ∧
      (∀ e ctx', SemaM.addItem enum name value location ctx = .error e ctx' → ctx' = ctx ∧
        ∃ i, items.find? (·.clashes name value) = some i ∧
          e = i.complaint (Location.describe location name) o.name name value) ∧
      (∀ item ctx', SemaM.addItem enum name value location ctx = .ok item ctx' →
        ctx'.findItem enum name = .ok (some item) ∧ ctx'.itemValue item = .ok value) := by
  intro ctx items
  have hreached : Reached (fun _ _ => True) ctx := Reached.initial.runs_free ops
  -- The record of the run, from which everything else is read.
  have hlists : ctx.Lists enum items := by
    refine Op.lists_runs ops .initial (fun o' ho' => ?_) (Context.initial_lists enum)
    rw [ho] at ho'
    cases ho'
    exact hk
  have hmembers := hlists.members ho hk
  refine ⟨hmembers, hlists.names ho hk, hlists.values, ?_, hlists.addItem_exact ho hk⟩
  intro i hi
  have hitem := hlists.item i hi
  have hmem : i.entry ∈ o.members.entries := by
    rw [hmembers]
    exact List.mem_map_of_mem hi
  obtain ⟨n, hn⟩ := List.mem_iff_getElem?.mp hmem
  obtain ⟨p, howner, hholds⟩ := hreached.owned.held ⟨n, i.name, o, ho, hn⟩
  refine ⟨hitem, hitem.typeOfSymbol, hitem.findItem ho hmem, hitem.itemValue, ?_⟩
  by_cases hp : p = enum
  · exact Or.inl (hp ▸ howner)
  · exact Or.inr ⟨p, hp, hholds⟩

/-- An enum with items that are added, refused and hidden, and with one that is defined in a module
as well. -/
def enumRun : List Op :=
  [.addEnum "E" none, .addItem ⟨85⟩ "a" 1 none, .addItem ⟨85⟩ "a" 2 none,
    .addItem ⟨85⟩ "b" 1 none, .addItem ⟨85⟩ "b" (-2) none, .addModule "m", .define ⟨88⟩ ⟨87⟩,
    .markOutOfScope ⟨86⟩, .define ⟨85⟩ ⟨88⟩]

/-- What `enumRun` leaves, by running it. -/
theorem enumRun_facts :
    let ctx := Op.runs .initial enumRun
    (ctx.arena.get? ⟨85⟩).map (fun o => decide (o.kind = .enumDecl)) = some true ∧
    Op.itemsAdded ⟨85⟩ .initial enumRun = [⟨"a", 1, ⟨86⟩⟩, ⟨"b", -2, ⟨87⟩⟩] := by
  decide +kernel

/-- The enum has two of the four items. A third one is refused because of the value of the first
item, although the second one has its name. -/
theorem enum_integrity_enumRun :
    let ctx := Op.runs .initial enumRun
    (∃ o, ctx.arena.get? ⟨85⟩ = some o ∧ o.kind = .enumDecl ∧
      o.members.entries = [("a", ⟨86⟩), ("b", ⟨87⟩)] ∧
      SemaM.addItem ⟨85⟩ "b" 1 none ctx
        = .error (.duplicateEnumValue (Location.describe none "b") o.name 1) ctx) ∧
    ctx.findItem ⟨85⟩ "a" = .ok (some ⟨86⟩) ∧
    ∃ item ctx', SemaM.addItem ⟨85⟩ "c" 2 none ctx = .ok item ctx' ∧
      ctx'.findItem ⟨85⟩ "c" = .ok (some item) := by
  intro ctx
  obtain ⟨hkind, hitems⟩ := enumRun_facts
  obtain ⟨o, ho, hk⟩ := Option.map_eq_some_iff.mp hkind
  have hk : o.kind = .enumDecl := of_decide_eq_true hk
  obtain ⟨hmembers, -, -, hall, hadd⟩ := enum_integrity enumRun ho hk
  -- The value 1 is that of item a, so a second item of that value is refused.
  rw [hitems] at hmembers hall hadd
  obtain ⟨hbelow, hfails, -⟩ := hadd "b" 1 none
  obtain ⟨haccepts, -, hfound⟩ := hadd "c" 2 none
  refine ⟨⟨o, ho, hk, hmembers, ?_⟩, (hall ⟨"a", 1, ⟨86⟩⟩ (by simp)).2.2.1, ?_⟩
  · cases hrun : SemaM.addItem ⟨85⟩ "b" 1 none ctx with
    | ok item ctx' => exact absurd (hbelow.mp ⟨item, ctx', hrun⟩) (by decide)
    | error e ctx' =>
      obtain ⟨hsame, i, hfirst, hcomplaint⟩ := hfails e ctx' hrun
      have hi : i = ⟨"a", 1, ⟨86⟩⟩ := (Option.some.inj hfirst).symm
      rw [hsame, hcomplaint, hi]
      rfl
  · obtain ⟨item, ctx', hrun⟩ := haccepts.mpr (by decide)
    exact ⟨item, ctx', hrun, (hfound item ctx' hrun).1⟩

end Sema

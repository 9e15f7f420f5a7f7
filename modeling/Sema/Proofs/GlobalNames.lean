import Sema.Proofs.Ownership

/-!
# `Sema.Proofs.GlobalNames`: a global name keeps its meaning

A name is looked up among the members of the global scope and then in the linked scopes, in the
order in which they were linked. The first scope that shows a symbol of the name answers, so a later
definition in a scope that is asked earlier could take the name over.

A definition in the global scope or in a module is refused if another linked scope shows the name
(`ownerFor_eq_ok`), whatever the order of the links. `Edit.Fits.means` shows that this is enough:
whatever an edit writes, a name that stands for a symbol which cannot be hidden stands for it
afterwards. It needs that only modules are linked and that items are only added to enums
(`Context.Modular`), since an item is added without that check.
-/

set_option autoImplicit false

namespace Sema

/-! ### What a look-up finds -/

/-- Only variables are ever hidden. -/
theorem Symbol.isHidden_eq_false {s : Symbol} (h : s.kind.isVariable = false) :
    s.isHidden = false := by
  simp [isHidden, h]

namespace Symbol.Grows

variable {s t : Symbol}

/-- A hidden symbol stays hidden. -/
theorem isHidden (h : s.Grows t) (hs : s.isHidden = true) : t.isHidden = true := by
  obtain ⟨hv, hout⟩ := Bool.and_eq_true_iff.mp hs
  exact Bool.and_eq_true_iff.mpr ⟨h.kind.isVariable.trans hv, h.hidden hout⟩

/-- A name keeps standing for the member that it was entered for. -/
theorem find? (h : s.Grows t) {name : String} {x : SymbolId}
    (hx : s.members.find? name = some x) : t.members.find? name = some x := by
  rw [Assoc.find?_eq_some_iff] at hx ⊢
  exact h.members.subset hx

end Symbol.Grows

namespace Context

variable {a b ctx : Context} {name : String} {scope id : SymbolId}

/-- A look-up in the scope finds the symbol. -/
def Shows (ctx : Context) (scope : SymbolId) (name : String) (id : SymbolId) : Prop :=
  ∃ o s, ctx.arena.get? scope = some o ∧ o.members.find? name = some id ∧
    ctx.arena.get? id = some s ∧ s.isHidden = false

/-- A look-up in the scope finds nothing: the scope has no member of the name, or a hidden one. -/
def Lacks (ctx : Context) (scope : SymbolId) (name : String) : Prop :=
  ∃ o, ctx.arena.get? scope = some o ∧ ∀ x, o.members.find? name = some x →
    ∃ s, ctx.arena.get? x = some s ∧ s.isHidden = true

/-- A symbol is visible unless it is hidden. -/
theorem visible_of_get? {s : Symbol} (hs : ctx.arena.get? id = some s) :
    ctx.visible id = .ok (if s.isHidden then none else some id) := by
  rw [visible, symbol_of_get? hs]
  rfl

/-- What is visible is there and not hidden. -/
theorem visible_eq_some {x : SymbolId} (h : ctx.visible x = .ok (some id)) :
    x = id ∧ ∃ s, ctx.arena.get? id = some s ∧ s.isHidden = false := by
  obtain ⟨s, hs, hrest⟩ := except_bind_eq_ok h
  have hs := symbol_eq_ok_iff.mp hs
  cases hhidden : s.isHidden with
  | true =>
    rw [hhidden] at hrest
    cases hrest
  | false =>
    rw [hhidden] at hrest
    cases hrest
    exact ⟨rfl, s, hs, hhidden⟩

/-- What is not visible is there and hidden. -/
theorem visible_eq_none {x : SymbolId} (h : ctx.visible x = .ok none) :
    ∃ s, ctx.arena.get? x = some s ∧ s.isHidden = true := by
  obtain ⟨s, hs, hrest⟩ := except_bind_eq_ok h
  have hs := symbol_eq_ok_iff.mp hs
  cases hhidden : s.isHidden with
  | true => exact ⟨s, hs, hhidden⟩
  | false =>
    rw [hhidden] at hrest
    cases hrest

/-- Looking into a scope is looking into its dictionary. -/
theorem lookupLocal_of_get? {o : Symbol} (ho : ctx.arena.get? scope = some o) :
    ctx.lookupLocal scope name = match o.members.find? name with
      | some id => ctx.visible id
      | none => .ok none := by
  rw [lookupLocal, symbol_of_get? ho]
  rfl

/-- A scope answers with what it shows. -/
theorem lookupLocal_eq_some_iff :
    ctx.lookupLocal scope name = .ok (some id) ↔ ctx.Shows scope name id := by
  constructor
  · intro h
    obtain ⟨o, ho, -⟩ := except_bind_eq_ok h
    have ho := symbol_eq_ok_iff.mp ho
    rw [lookupLocal_of_get? ho] at h
    split at h
    · rename_i x hfind
      obtain ⟨rfl, s, hs, hshown⟩ := visible_eq_some h
      exact ⟨o, s, ho, hfind, hs, hshown⟩
    · cases h
  · rintro ⟨o, s, ho, hfind, hs, hshown⟩
    rw [lookupLocal_of_get? ho, hfind]
    simp only [visible_of_get? hs, hshown]
    rfl

/-- A scope has no answer when it lacks the name. -/
theorem lookupLocal_eq_none_iff :
    ctx.lookupLocal scope name = .ok none ↔ ctx.Lacks scope name := by
  constructor
  · intro h
    obtain ⟨o, ho, -⟩ := except_bind_eq_ok h
    have ho := symbol_eq_ok_iff.mp ho
    refine ⟨o, ho, fun x hx => ?_⟩
    rw [lookupLocal_of_get? ho, hx] at h
    exact visible_eq_none h
  · rintro ⟨o, ho, hlacks⟩
    rw [lookupLocal_of_get? ho]
    split
    · rename_i x hfind
      obtain ⟨s, hs, hhidden⟩ := hlacks x hfind
      rw [visible_of_get? hs, hhidden]
      rfl
    · rfl

/-- A scope that shows a symbol does not lack the name. -/
theorem Shows.not_lacks (h : ctx.Shows scope name id) : ¬ctx.Lacks scope name := by
  intro hlacks
  have hsome := lookupLocal_eq_some_iff.mpr h
  rw [lookupLocal_eq_none_iff.mpr hlacks] at hsome
  cases hsome

/-- Among several scopes, the first answers that does not lack the name. -/
theorem lookupAmong_eq_some_iff {scopes : List SymbolId} :
    ctx.lookupAmong name scopes = .ok (some id) ↔
      ∃ before scope after, scopes = before ++ scope :: after ∧
        (∀ p ∈ before, ctx.Lacks p name) ∧ ctx.Shows scope name id := by
  -- Along the scopes: the first one answers, or it lacks the name and stands before the answer.
  induction scopes with
  | nil =>
    constructor
    · intro h
      cases h
    · rintro ⟨before, scope, after, hsplit, -⟩
      cases before <;> cases hsplit
  | cons first rest ih =>
    constructor
    · intro h
      obtain ⟨found, hfound, hrest⟩ := except_bind_eq_ok h
      cases found with
      | some x =>
        cases hrest
        exact ⟨[], first, rest, rfl, List.forall_mem_nil _, lookupLocal_eq_some_iff.mp hfound⟩
      | none =>
        obtain ⟨before, scope, after, rfl, hlacks, hshows⟩ := ih.mp hrest
        have hfirst := lookupLocal_eq_none_iff.mp hfound
        exact ⟨first :: before, scope, after, rfl, List.forall_mem_cons.mpr ⟨hfirst, hlacks⟩,
          hshows⟩
    · rintro ⟨before, scope, after, hsplit, hlacks, hshows⟩
      cases before with
      | nil =>
        cases hsplit
        simp only [lookupAmong, lookupLocal_eq_some_iff.mpr hshows, bind, Except.bind]
        rfl
      | cons p before =>
        cases hsplit
        obtain ⟨hp, hbefore⟩ := List.forall_mem_cons.mp hlacks
        simp only [lookupAmong, lookupLocal_eq_none_iff.mpr hp, bind, Except.bind]
        exact ih.mpr ⟨before, scope, after, rfl, hbefore, hshows⟩

/-- The global scope answers for itself if it has a member of the name, and else asks the links. -/
theorem lookupGlobal_eq_some_iff :
    ctx.lookupGlobal name = .ok (some id) ↔
      ctx.Shows globals name id ∨
      (∃ g, ctx.arena.get? globals = some g ∧ g.members.find? name = none) ∧
        ctx.lookupAmong name ctx.links = .ok (some id) := by
  constructor
  · intro h
    obtain ⟨g, hg, hrest⟩ := except_bind_eq_ok h
    have hg := symbol_eq_ok_iff.mp hg
    -- A name of the global scope is answered there, also when the answer is that it is hidden.
    cases hfind : g.members.find? name with
    | some x =>
      rw [hfind] at hrest
      obtain ⟨rfl, s, hs, hshown⟩ := visible_eq_some hrest
      exact Or.inl ⟨g, s, hg, hfind, hs, hshown⟩
    | none =>
      rw [hfind] at hrest
      exact Or.inr ⟨⟨g, hg, hfind⟩, hrest⟩
  · rintro (⟨g, s, hg, hfind, hs, hshown⟩ | ⟨⟨g, hg, hfind⟩, hamong⟩)
    · simp only [lookupGlobal, symbol_of_get? hg, bind, Except.bind, hfind, visible_of_get? hs,
        hshown]
      rfl
    · simp only [lookupGlobal, symbol_of_get? hg, bind, Except.bind, hfind]
      exact hamong

/-- The global name stands for the symbol, which is not of a kind that can be hidden. -/
structure Means (ctx : Context) (name : String) (id : SymbolId) : Prop where
  found : ctx.lookupGlobal name = .ok (some id)
  lasting : ∃ s, ctx.arena.get? id = some s ∧ s.kind.isVariable = false

/-- A name that is taken in none of the scopes is lacked by all but the one that asks. -/
theorem takenAmong_eq_false {scopes : List SymbolId}
    (h : ctx.takenAmong scope name scopes = .ok false) :
    ∀ p ∈ scopes, p ≠ scope → ctx.Lacks p name := by
  induction scopes with
  | nil => exact List.forall_mem_nil _
  | cons first rest ih =>
    unfold takenAmong at h
    split at h
    · rename_i hsame
      intro p hp hne
      -- The scope that asks is passed over.
      rcases List.mem_cons.mp hp with rfl | hp
      · exact absurd hsame hne
      · exact ih h p hp hne
    · obtain ⟨found, hfound, hrest⟩ := except_bind_eq_ok h
      cases found with
      | some x => cases hrest
      | none =>
        intro p hp hne
        rcases List.mem_cons.mp hp with rfl | hp
        · exact lookupLocal_eq_none_iff.mp hfound
        · exact ih hrest p hp hne

/-- A scope goes on showing a symbol that cannot be hidden. -/
theorem Grows.shows (h : a.Grows b) {s : Symbol} (hshows : a.Shows scope name id)
    (hs : a.arena.get? id = some s) (hv : s.kind.isVariable = false) :
    b.Shows scope name id := by
  obtain ⟨o, -, ho, hfind, -⟩ := hshows
  obtain ⟨o', ho', hoo⟩ := h.symbols scope o ho
  obtain ⟨t, ht, hst⟩ := h.symbols id s hs
  exact ⟨o', t, ho', hoo.find? hfind, ht,
    Symbol.isHidden_eq_false (hst.kind.isVariable.trans hv)⟩

/-- A scope goes on lacking a name unless it gets a member of the name. -/
theorem Grows.lacks (h : a.Grows b) (hlacks : a.Lacks scope name)
    (hnew : ∀ o, a.arena.get? scope = some o → o.members.find? name = none →
      ∃ o', b.arena.get? scope = some o' ∧ o'.members.find? name = none) :
    b.Lacks scope name := by
  obtain ⟨o, ho, hhidden⟩ := hlacks
  -- A name that is not there must stay away; one that is hidden stays hidden anyway.
  cases hfind : o.members.find? name with
  | none =>
    obtain ⟨o', ho', hfind'⟩ := hnew o ho hfind
    refine ⟨o', ho', fun x hx => ?_⟩
    rw [hfind'] at hx
    cases hx
  | some y =>
    obtain ⟨s, hs, hh⟩ := hhidden y hfind
    obtain ⟨o', ho', hoo⟩ := h.symbols scope o ho
    obtain ⟨t, ht, hst⟩ := h.symbols y s hs
    refine ⟨o', ho', fun x hx => ?_⟩
    rw [hoo.find? hfind] at hx
    cases hx
    exact ⟨t, ht, hst.isHidden hh⟩

/-! ### Who takes a definition -/

/-- A scope that the search for a name looks at takes a name only if every other linked scope lacks
it. -/
theorem lacks_of_checked {via sym owner : SymbolId}
    (h : (do
      let s ← ctx.symbol sym
      if ← ctx.takenAmong via s.name ctx.links then throw s.duplicate
      else return via : Except CompileError SymbolId) = .ok owner) :
    owner = via ∧ ∃ s, ctx.arena.get? sym = some s ∧
      ∀ p ∈ ctx.links, p ≠ owner → ctx.Lacks p s.name := by
  obtain ⟨s, hs, hrest⟩ := except_bind_eq_ok h
  obtain ⟨taken, htaken, hrest⟩ := except_bind_eq_ok hrest
  cases taken with
  | true => cases hrest
  | false =>
    cases hrest
    exact ⟨rfl, s, symbol_eq_ok_iff.mp hs, takenAmong_eq_false htaken⟩

/-- Where a definition goes: through a block to the function around it, and else to the scope
itself. The global scope and the modules take a name only if every other linked scope lacks it. -/
theorem ownerFor_eq_ok {via sym owner : SymbolId} (h : ctx.ownerFor via sym = .ok owner) :
    ∃ o, ctx.arena.get? via = some o ∧
      ((∃ b, o.kind = .block b ∧ owner = b.func) ∨
        owner = via ∧ ((o.kind = .globalScope ∨ o.kind = .moduleScope) →
          ∃ s, ctx.arena.get? sym = some s ∧
            ∀ p ∈ ctx.links, p ≠ owner → ctx.Lacks p s.name)) := by
  -- One case for each kind of scope; only global scope and modules ask the links.
  obtain ⟨o, ho, hrest⟩ := except_bind_eq_ok h
  refine ⟨o, symbol_eq_ok_iff.mp ho, ?_⟩
  cases hk : o.kind with
  | block b =>
    rw [hk] at hrest
    cases hrest
    exact Or.inl ⟨b, rfl, rfl⟩
  | globalScope =>
    rw [hk] at hrest
    obtain ⟨hvia, hlacks⟩ := lacks_of_checked hrest
    exact Or.inr ⟨hvia, fun _ => hlacks⟩
  | moduleScope =>
    rw [hk] at hrest
    obtain ⟨hvia, hlacks⟩ := lacks_of_checked hrest
    exact Or.inr ⟨hvia, fun _ => hlacks⟩
  | enumDecl =>
    rw [hk] at hrest
    obtain ⟨_, -, hthrow⟩ := except_bind_eq_ok hrest
    cases hthrow
  | func info =>
    simp only [hk] at hrest
    split at hrest
    · obtain ⟨_, -, hthrow⟩ := except_bind_eq_ok hrest
      cases hthrow
    · cases hrest
      exact Or.inr ⟨rfl, by rintro (h | h) <;> cases h⟩
  | classDecl info =>
    simp only [hk] at hrest
    split at hrest
    · -- Only the super class is asked about a name in a class.
      obtain ⟨s, -, hrest⟩ := except_bind_eq_ok hrest
      obtain ⟨q, -, hrest⟩ := except_bind_eq_ok hrest
      split at hrest
      · cases hrest
      · cases hrest
        exact Or.inr ⟨rfl, by rintro (h | h) <;> cases h⟩
    · cases hrest
      exact Or.inr ⟨rfl, by rintro (h | h) <;> cases h⟩
  | _ =>
    rw [hk] at hrest
    cases hrest
    exact Or.inr ⟨rfl, by rintro (h | h) <;> cases h⟩

/-- The scope is one of those that a search for a global name looks at. -/
def IsGlobal (ctx : Context) (scope : SymbolId) : Prop :=
  ∃ o, ctx.arena.get? scope = some o ∧ (o.kind = .globalScope ∨ o.kind = .moduleScope)

/-- The scopes that a search for a global name looks at are what they are taken for, and only enums
have items. -/
structure Modular (ctx : Context) : Prop where
  globals : ∃ g, ctx.arena.get? globals = some g ∧ g.kind = .globalScope
  links : ∀ {l}, l ∈ ctx.links → ∃ o, ctx.arena.get? l = some o ∧ o.kind = .moduleScope
  items : ∀ {x s owner value}, ctx.arena.get? x = some s → s.kind = .enumItem owner value →
    ∃ o, ctx.arena.get? owner = some o ∧ o.kind = .enumDecl

/-- A scope that is looked at takes a new member only if every other linked scope lacks its
name. -/
theorem Modular.lacks_of_accepts (h : ctx.Modular) (hframed : ctx.Framed) {p x : SymbolId}
    {s : Symbol} (hp : ctx.IsGlobal p) (hs : ctx.arena.get? x = some s) (hacc : ctx.Accepts p x) :
    ∀ l ∈ ctx.links, l ≠ p → ctx.Lacks l s.name := by
  obtain ⟨o, ho, hk⟩ := hp
  -- What is neither the global scope nor a module takes members in other ways as well.
  have hother : ∀ o', ctx.arena.get? p = some o' →
      (o'.kind ≠ .globalScope ∧ o'.kind ≠ .moduleScope) →
      ∀ l ∈ ctx.links, l ≠ p → ctx.Lacks l s.name := by
    rintro o' ho' ⟨hg, hm⟩
    rw [ho] at ho'
    cases ho'
    rcases hk with hk | hk
    · exact absurd hk hg
    · exact absurd hk hm
  rcases hacc with ⟨via, hvia⟩ | ⟨s', value, hs', hitem⟩ | ⟨o', info, ho', hfunc, -⟩
  · obtain ⟨v, hv, ⟨b, hb, rfl⟩ | ⟨rfl, hchecked⟩⟩ := ownerFor_eq_ok hvia
    · have hframe : ctx.frame? via = some b.func := by
        rw [frame?_of_get? hv, hb]
        rfl
      obtain ⟨f, info, hf, hfunc⟩ := hframed.func hframe
      exact hother f hf (by simp [hfunc])
    · rw [ho] at hv
      cases hv
      obtain ⟨s', hs', hlacks⟩ := hchecked hk
      rw [hs] at hs'
      cases hs'
      exact hlacks
  · rw [hs] at hs'
    cases hs'
    obtain ⟨o', ho', henum⟩ := h.items hs hitem
    exact hother o' ho' (by simp [henum])
  · exact hother o' ho' (by simp [hfunc])

/-- The bare context has no links and no items. -/
theorem bare_modular : bare.Modular := by
  refine ⟨⟨_, rfl, rfl⟩, fun hl => ?_, fun hs hk => ?_⟩
  · cases hl
  · rw [eq_of_get?_bare hs] at hk
    cases hk

end Context

/-- Only modules are linked, and only enums get items. -/
structure Rules.Modular (rules : Rules) : Prop where
  links : ∀ {ctx scope}, rules.links ctx scope →
    ∃ o, ctx.arena.get? scope = some o ∧ o.kind = .moduleScope
  items : ∀ {kind}, rules.items kind → kind = .enumDecl

namespace Edit

variable {rules : Rules} {ctx : Context} {e : Edit}

/-- A link is made by no edit but that of the link. -/
theorem mem_links_write {l : SymbolId} (h : l ∈ (e.write ctx).links) :
    l ∈ ctx.links ∨ e = .link l := by
  cases e with
  | link scope =>
    simp only [write] at h
    split at h
    · exact Or.inl h
    · rcases List.mem_append.mp h with h | h
      · exact Or.inl h
      · exact Or.inr (by rw [List.mem_singleton.mp h])
  | _ =>
    left
    simpa [write, Context.update_fields, Context.withMember_fields] using h

/-- A quiet edit adds a member only where it is accepted. -/
theorem Quiet.at_new (he : Quiet rules ctx e) {p x : SymbolId} {i : Nat} {name : String}
    (hat : (e.write ctx).At p i name x) :
    ctx.At p i name x ∨ ∃ s, ctx.arena.get? x = some s ∧ s.name = name ∧ ctx.Accepts p x := by
  -- All but two of the quiet edits leave the layouts alone.
  have hsame : (e.write ctx).layout? = ctx.layout? → ctx.At p i name x :=
    fun hlayout => (Context.at_congr hlayout).mp hat
  cases he with
  | alloc hb =>
    rcases Context.at_alloc.mp hat with ⟨-, hi⟩ | hat
    · rw [hb.members] at hi
      cases hi
    · exact Or.inl hat
  | enter hs ho hnew hwhy =>
    rcases (Context.at_enter hs ho hnew).mp hat with hat | ⟨rfl, -, rfl, rfl⟩
    · exact Or.inl hat
    · exact Or.inr ⟨_, hs, rfl, hwhy⟩
  | nest =>
    exact Or.inl (hsame ((Context.layout?_update fun s => s.layout_withBlockVar _).trans
      (Context.layout?_update fun _ => rfl)))
  | param => exact Or.inl (hsame (Context.layout?_update fun s => s.layout_withParam _ _))
  | creator => exact Or.inl (hsame (Context.layout?_update fun s => s.layout_withCreator _))
  | hide => exact Or.inl (hsame (Context.layout?_update fun _ => rfl))
  | newSlot => exact Or.inl hat
  | fill => exact Or.inl hat
  | link =>
    refine Or.inl (hsame ?_)
    simp only [write]
    split <;> rfl

/-- A symbol that is there before an edit gets a new member only if it accepts it, or if it is a
lambda. -/
theorem Fits.at_new (he : Fits rules ctx e) {p x : SymbolId} {o : Symbol} {i : Nat} {name : String}
    (ho : ctx.arena.get? p = some o) (hat : (e.write ctx).At p i name x) :
    ctx.At p i name x ∨ (∃ s, ctx.arena.get? x = some s ∧ s.name = name ∧ ctx.Accepts p x) ∨
      o.isLambda = true := by
  -- A scope that was there gains no members from new symbols.
  have hquiet : Quiet rules ctx e → ctx.At p i name x ∨
      (∃ s, ctx.arena.get? x = some s ∧ s.name = name ∧ ctx.Accepts p x) ∨ o.isLambda = true := by
    intro he
    rcases he.at_new hat with hat | hnew
    · exact Or.inl hat
    · exact Or.inr (Or.inl hnew)
  cases he with
  | inherit =>
    rcases Context.at_alloc.mp hat with ⟨hp, -⟩ | hat
    · exact absurd hp (Context.ne_nextId ho)
    · exact Or.inl hat
  | plain he =>
    cases he with
    | quiet he => exact hquiet he
    | keep => exact Or.inl hat
    | storage => exact Or.inl hat
  | nested he =>
    cases he with
    | lambda =>
      rcases Context.at_alloc.mp hat with ⟨hp, -⟩ | hat
      · exact absurd hp (Context.ne_nextId ho)
      · exact Or.inl hat
    | copy =>
      rcases Context.at_alloc.mp hat with ⟨hp, -⟩ | hat
      · exact absurd hp (Context.ne_nextId ho)
      · exact Or.inl hat
    | capture hs _ _ hc ho' hl hnew =>
      have hentered := (Context.at_congr (Context.layout?_update fun s =>
        s.layout_withCapture _)).mp hat
      rcases (Context.at_enter hc ho' hnew).mp hentered with hat | ⟨rfl, -⟩
      · exact Or.inl hat
      · rw [ho] at ho'
        cases ho'
        exact Or.inr (Or.inr hl)
    | quiet he => exact hquiet he

/-- A module, an enum and the global scope stay what they are. -/
theorem Fits.kind_stays (he : Fits rules ctx e) {id : SymbolId} {k : SymbolKind}
    (hk : ∀ k', k.Grows k' → k' = k) (h : ∃ o, ctx.arena.get? id = some o ∧ o.kind = k) :
    ∃ o, (e.write ctx).arena.get? id = some o ∧ o.kind = k := by
  obtain ⟨o, ho, rfl⟩ := h
  obtain ⟨o', ho', hoo⟩ := he.grows.symbols id o ho
  exact ⟨o', ho', hk _ hoo.kind⟩

/-- Edits keep to modules as long as the rules do. -/
theorem Fits.modular (hrules : rules.Modular) (he : Fits rules ctx e) (h : ctx.Modular) :
    (e.write ctx).Modular := by
  refine ⟨he.kind_stays (fun _ hk => by cases hk; rfl) h.globals, fun {l} hl => ?_,
    fun {x s owner value} hs hk => ?_⟩
  · refine he.kind_stays (fun _ hk => by cases hk; rfl) ?_
    rcases mem_links_write hl with hl | rfl
    · exact h.links hl
    · cases he.quiet rfl with
      | link h => exact hrules.links h
  · refine he.kind_stays (fun _ hk => by cases hk; rfl) ?_
    -- A new item is born into an enum.
    rcases he.grown_or_born hs with ⟨t, ht, hgrows⟩ | hborn
    · have hkind := hgrows.kind
      rw [hk] at hkind
      exact h.items ht hkind.to_enumItem
    · cases hborn with
      | blank hb =>
        have hblank := hb.kind
        rw [hk] at hblank
        obtain ⟨o, ho, hitems⟩ := hblank
        exact ⟨o, ho, hrules.items hitems⟩
      | lambda => cases hk
      | copy => cases hk
      | heir => cases hk

/-! ### What an edit leaves of the names -/

/-- A scope that is looked at does not get a member of a name that another linked scope shows. -/
theorem Fits.find?_none (he : Fits rules ctx e) (hmodular : ctx.Modular) (hframed : ctx.Framed)
    {p l id : SymbolId} {o : Symbol} {name : String} (hp : ctx.IsGlobal p)
    (ho : ctx.arena.get? p = some o) (hfind : o.members.find? name = none) (hl : l ∈ ctx.links)
    (hne : l ≠ p) (hshows : ctx.Shows l name id) :
    ∃ o', (e.write ctx).arena.get? p = some o' ∧ o'.members.find? name = none := by
  obtain ⟨o', ho', -⟩ := he.grows.symbols p o ho
  refine ⟨o', ho', Option.eq_none_iff_forall_ne_some.mpr fun x hx => ?_⟩
  -- A member of the name would be new, and a definition of it was checked against the link `l`.
  obtain ⟨i, hi⟩ := o'.members.exists_position_of_find? hx
  rcases he.at_new ho ⟨o', ho', hi⟩ with ⟨q, hq, hold⟩ | ⟨s, hs, rfl, hacc⟩ | hlambda
  · rw [ho] at hq
    cases hq
    rw [(o.members.find?_eq_some_iff name x).mpr (List.mem_of_getElem? hold)] at hfind
    cases hfind
  · exact hshows.not_lacks (hmodular.lacks_of_accepts hframed hp hs hacc l hl hne)
  · obtain ⟨q, hq, hk⟩ := hp
    rw [ho] at hq
    cases hq
    rcases hk with hk | hk
    all_goals
      rw [Symbol.isLambda, hk] at hlambda
      cases hlambda

/-- What a name stands for it stands for after every edit. -/
theorem Fits.means (he : Fits rules ctx e) (hmodular : ctx.Modular) (hframed : ctx.Framed)
    {name : String} {id : SymbolId} (h : ctx.Means name id) : (e.write ctx).Means name id := by
  obtain ⟨hlook, s, hs, hv⟩ := h
  obtain ⟨s', hs', hss⟩ := he.grows.symbols id s hs
  refine ⟨?_, s', hs', hss.kind.isVariable.trans hv⟩
  rw [Context.lookupGlobal_eq_some_iff] at hlook ⊢
  rcases hlook with hshows | ⟨⟨g, hg, hfind⟩, hamong⟩
  · exact Or.inl (he.grows.shows hshows hs hv)
  obtain ⟨before, l, after, hsplit, hlacks, hshows⟩ := Context.lookupAmong_eq_some_iff.mp hamong
  have hl : l ∈ ctx.links := by simp [hsplit]
  obtain ⟨o, ho, hmodule⟩ := hmodular.links hl
  obtain ⟨g', hg', hglobal⟩ := hmodular.globals
  -- The global scope and the links before the one that answers do not get the name.
  refine Or.inr ⟨he.find?_none hmodular hframed ⟨g', hg', Or.inl hglobal⟩ hg hfind hl ?_ hshows,
    Context.lookupAmong_eq_some_iff.mpr ?_⟩
  · rintro rfl
    rw [ho] at hg'
    cases hg'
    rw [hmodule] at hglobal
    cases hglobal
  · obtain ⟨more, hmore⟩ := he.grows.links
    refine ⟨before, l, after ++ more, ?_, fun p hp => ?_, he.grows.shows hshows hs hv⟩
    · rw [← hmore, hsplit]
      simp
    · refine he.grows.lacks (hlacks p hp) fun q hq hfindq => ?_
      have hplink : p ∈ ctx.links := by simp [hsplit, hp]
      obtain ⟨r, hr, hkind⟩ := hmodular.links hplink
      refine he.find?_none hmodular hframed ⟨r, hr, Or.inr hkind⟩ hq hfindq hl ?_ hshows
      rintro rfl
      exact hshows.not_lacks (hlacks _ hp)

end Edit

/-! ### Runs -/

namespace Op

/-- The scope that a call links. -/
def linked? : Op → Option SymbolId
  | link scope => some scope
  | _ => none

/-- The symbol to which a call adds an item. -/
def itemOwner? : Op → Option SymbolId
  | addItem owner .. => some owner
  | _ => none

/-- Only modules are linked, and items are only added to enums. -/
def Modular (ctx : Context) (op : Op) : Prop :=
  (∀ scope ∈ op.linked?, ∃ o ∈ ctx.arena.get? scope, o.kind = .moduleScope) ∧
    ∀ owner ∈ op.itemOwner?, ∃ o ∈ ctx.arena.get? owner, o.kind = .enumDecl

/-- Whether a symbol is a module is decidable. -/
instance (kind : SymbolKind) : Decidable (kind = .moduleScope) :=
  match kind with
  | .moduleScope => .isTrue rfl
  | .builtIn _ | .var | .param _ | .field _ | .classDecl _ | .func _ | .enumDecl | .enumItem ..
  | .globalScope | .block _ => .isFalse nofun

/-- Whether a symbol is an enum is decidable. -/
instance (kind : SymbolKind) : Decidable (kind = .enumDecl) :=
  match kind with
  | .enumDecl => .isTrue rfl
  | .builtIn _ | .var | .param _ | .field _ | .classDecl _ | .func _ | .moduleScope | .enumItem ..
  | .globalScope | .block _ => .isFalse nofun

/-- Whether a call keeps to modules is decidable. -/
instance (ctx : Context) (op : Op) : Decidable (op.Modular ctx) :=
  inferInstanceAs (Decidable (_ ∧ _))

end Op

/-- The rules of a modular run. -/
def Rules.ofModular : Rules where
  links ctx scope := ∃ o, ctx.arena.get? scope = some o ∧ o.kind = .moduleScope
  items kind := kind = .enumDecl

/-- A call that keeps to modules keeps to the rules for them. -/
theorem Op.Modular.keeps {ctx : Context} {op : Op} (h : op.Modular ctx) :
    op.Keeps .ofModular ctx where
  nests _ _ := trivial
  types _ _ := trivial
  links := by
    rintro scope rfl
    exact h.1 scope rfl
  items := by
    rintro owner name value location rfl o ho
    obtain ⟨o', ho', hk⟩ := h.2 owner rfl
    rw [Option.mem_def, ho] at ho'
    cases ho'
    exact hk
  refs _ _ := trivial
  base := Nat.zero_le _

/-- The rules for modules are modular. -/
theorem Rules.ofModular_modular : Rules.ofModular.Modular where
  links h := h
  items h := h

/-- Links lead to modules and items belong to enums when every call keeps to that. -/
theorem Reached.modular {allowed : Context → Op → Prop} {ctx : Context}
    (hallowed : ∀ ctx op, allowed ctx op → op.Modular ctx) (h : Reached allowed ctx) :
    ctx.Modular := by
  have hedits : Edits (Edit.Fits .ofModular) .bare ctx :=
    h.edits (fun ctx op hop => (hallowed ctx op hop).keeps) rfl fun _ _ => trivial
  exact hedits.preserves (fun _ _ he => he.modular Rules.ofModular_modular) Context.bare_modular

/-- What a name stands for it stands for after every modular run. -/
theorem Op.means_runs {ctx : Context} {ops : List Op}
    (hops : AllAllowed (fun ctx op => op.Modular ctx) ctx ops) (hmodular : ctx.Modular)
    (hframed : ctx.Framed) {name : String} {id : SymbolId} (h : ctx.Means name id) :
    (runs ctx ops).Means name id := by
  have hedits : Edits (Edit.Fits .ofModular) ctx (runs ctx ops) :=
    Op.runs_edits (fun _ _ hop => hop.keeps) hops
  have hall : (runs ctx ops).Modular ∧ (runs ctx ops).Framed ∧ (runs ctx ops).Means name id :=
    hedits.preserves (I := fun c => c.Modular ∧ c.Framed ∧ c.Means name id)
      (fun _ _ he hc => ⟨he.modular Rules.ofModular_modular hc.1, he.framed hc.2.1,
        he.means hc.1 hc.2.1 hc.2.2⟩) ⟨hmodular, hframed, h⟩
  exact hall.2.2

namespace SemaM

variable {ctx : Context} {name : String}

/-- A look-up that its first scope settles is the reading which settles it. -/
theorem lookup_of_settled {scope : SymbolId}
    {read : Context → Except CompileError (Option SymbolId)}
    (h : answer scope name ctx = (do return .settled (← query read) : SemaM Answer) ctx) :
    lookup scope name ctx = query read ctx := by
  -- The bound leaves room for at least one step.
  have hrun : lookup scope name ctx = lookupWithin (ctx.arena.size + 1) scope name ctx := rfl
  rw [hrun, lookupWithin]
  cases hread : read ctx with
  | ok result =>
    rw [bind_of_ok (query_of_ok hread)] at h
    rw [bind_of_ok h, query_of_ok hread]
    rfl
  | error err =>
    have herror := query_of_error hread
    rw [bind_of_error herror] at h
    rw [bind_of_error h, herror]

/-- A look-up from the global scope asks the linked scopes and no other. -/
theorem lookup_globals {g : Symbol} (hg : ctx.arena.get? Context.globals = some g)
    (hk : g.kind = .globalScope) :
    lookup Context.globals name ctx = query (·.lookupGlobal name) ctx := by
  cases hfind : g.members.find? name with
  | some id =>
    rw [lookup_of_settled (answer_of_member hg (by simp [hk]) hfind)]
    simp only [query, Context.lookupGlobal, Context.symbol_of_get? hg, bind, Except.bind, hfind]
  | none =>
    rw [lookup_of_settled (answer_of_global hg hk hfind)]
    simp only [query, Context.lookupGlobal, Context.symbol_of_get? hg, bind, Except.bind, hfind]

end SemaM

end Sema

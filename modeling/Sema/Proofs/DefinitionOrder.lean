import Sema.Proofs.GlobalNames
import Sema.Proofs.LookupFailure

/-!
# `Sema.Proofs.DefinitionOrder`: two definitions of one name in either order

A definition in the global scope or in a module is refused if another linked scope shows the name,
or if the scope itself has a member of the name, hidden or not. `Context.Refuses` says so, and
`define_cases` that nothing else matters.

`refusedSecond_iff` gives the exact condition under which the second of two definitions of one
name is refused: on its own account, or because the scope of the first is linked and shows the
name since.

`ordersAgree_iff` compares the two orders. If a linked scope shows the name already, the second
definition is refused in both. Otherwise they agree exactly if both scopes have the name or neither
does, and in the latter case both symbols or none would be shown by a link. That holds of two linked
modules and of the global scope and a module alike; the global scope is no link, so what it gets is
never shown by one. `definition_order_irrelevant` is the statement for the scopes that a search for
a global name looks at, and `definition_order_matters` shows what can happen without the condition.
-/

set_option autoImplicit false

namespace Sema

namespace Context

variable {ctx : Context} {scope p x : SymbolId} {name : String}

/-- A linked scope other than this one shows the name. -/
def ShownBeside (ctx : Context) (scope : SymbolId) (name : String) : Prop :=
  ∃ link ∈ ctx.links, link ≠ scope ∧ ∃ x, ctx.Shows link name x

/-- The global scope or a module takes no definition of the name. -/
def Refuses (ctx : Context) (scope : SymbolId) (name : String) : Prop :=
  ctx.ShownBeside scope name ∨ ctx.Taken scope name

/-- After one definition the other is refused for its name. -/
def RefusedSecond (ctx : Context) (first x second y : SymbolId) : Prop :=
  ∃ place name, SemaM.failure? (SemaM.define second y) (SemaM.after (SemaM.define first x) ctx)
    = some (.duplicateSymbol place name)

/-- A second definition that is accepted is not refused. -/
theorem not_refusedSecond {first x second y : SymbolId}
    (hnone : SemaM.failure? (SemaM.define second y) (SemaM.after (SemaM.define first x) ctx)
      = none) :
    ¬ctx.RefusedSecond first x second y := by
  rintro ⟨place, name, hsome⟩
  rw [hnone] at hsome
  cases hsome

/-! ### Members by position -/

/-- A name is taken where a member stands under it. -/
theorem taken_iff_at : ctx.Taken scope name ↔ ∃ i x, ctx.At scope i name x := by
  constructor
  · rintro ⟨o, ho, hkey⟩
    obtain ⟨x, hx⟩ := (Assoc.mem_keys_iff _ _).mp hkey
    obtain ⟨i, hi⟩ := List.mem_iff_getElem?.mp hx
    exact ⟨i, x, o, ho, hi⟩
  · rintro ⟨i, x, o, ho, hi⟩
    exact ⟨o, ho, (Assoc.mem_keys_iff _ _).mpr ⟨x, List.mem_of_getElem? hi⟩⟩

/-- A scope shows a member that is not hidden. -/
theorem shows_iff_at :
    ctx.Shows scope name x ↔ (∃ i, ctx.At scope i name x) ∧
      (ctx.arena.get? x).map Symbol.isHidden = some false := by
  constructor
  · rintro ⟨o, s, ho, hfind, hs, hshown⟩
    obtain ⟨i, hi⟩ := o.members.exists_position_of_find? hfind
    exact ⟨⟨i, o, ho, hi⟩, by simp [hs, hshown]⟩
  · rintro ⟨⟨i, o, ho, hi⟩, hshown⟩
    obtain ⟨s, hs, hshown⟩ := Option.map_eq_some_iff.mp hshown
    exact ⟨o, s, ho, (Assoc.find?_eq_some_iff _ _ _).mpr (List.mem_of_getElem? hi), hs, hshown⟩

/-- A name that a scope shows is taken in it. -/
theorem Shows.taken (h : ctx.Shows scope name x) : ctx.Taken scope name := by
  obtain ⟨⟨i, hat⟩, -⟩ := shows_iff_at.mp h
  exact taken_iff_at.mpr ⟨i, x, hat⟩

section Enter

variable {sym : SymbolId} {s o : Symbol}

/-- Entering a symbol hides none and shows none that was hidden. -/
theorem isHidden_enter (hs : ctx.arena.get? sym = some s) (ho : ctx.arena.get? scope = some o)
    (hnew : s.name ∉ o.members.keys) :
    (((Edit.enter scope sym).write ctx).arena.get? x).map Symbol.isHidden
      = (ctx.arena.get? x).map Symbol.isHidden := by
  obtain ⟨members, -, hget⟩ := get?_enter hs ho hnew
  rw [hget x, Option.map_map]
  congr 1
  funext t
  simp only [Function.comp_apply]
  split <;> split <;> rfl

/-- Entering a symbol takes its name in one scope only. -/
theorem taken_enter (hs : ctx.arena.get? sym = some s) (ho : ctx.arena.get? scope = some o)
    (hnew : s.name ∉ o.members.keys) (hp : p ≠ scope) :
    ((Edit.enter scope sym).write ctx).Taken p name ↔ ctx.Taken p name := by
  simp only [taken_iff_at, at_enter hs ho hnew, hp, false_and, or_false]

/-- Entering a symbol makes its scope show it, unless it is hidden. -/
theorem shows_enter (hs : ctx.arena.get? sym = some s) (ho : ctx.arena.get? scope = some o)
    (hnew : s.name ∉ o.members.keys) :
    ((Edit.enter scope sym).write ctx).Shows p name x ↔
      ctx.Shows p name x ∨ (p = scope ∧ name = s.name ∧ x = sym ∧ s.isHidden = false) := by
  simp only [shows_iff_at, at_enter hs ho hnew, isHidden_enter hs ho hnew, exists_or, or_and_right]
  refine or_congr_right ?_
  constructor
  · rintro ⟨⟨i, rfl, -, rfl, rfl⟩, hshown⟩
    rw [hs] at hshown
    exact ⟨rfl, rfl, rfl, by simpa using hshown⟩
  · rintro ⟨rfl, rfl, rfl, hshown⟩
    exact ⟨⟨_, rfl, rfl, rfl, rfl⟩, by simp [hs, hshown]⟩

/-- What a definition that succeeds leaves for one of the same name in another scope. -/
theorem refuses_enter (hs : ctx.arena.get? sym = some s) (ho : ctx.arena.get? scope = some o)
    (hnew : s.name ∉ o.members.keys) (hp : p ≠ scope) :
    ((Edit.enter scope sym).write ctx).Refuses p s.name ↔
      ctx.Refuses p s.name ∨ (scope ∈ ctx.links ∧ s.isHidden = false) := by
  -- An entry makes no links, so the only new refusal is that of the name which is now shown.
  have hlinks : ((Edit.enter scope sym).write ctx).links = ctx.links := by
    simp [Edit.write, withMember_fields]
  unfold Refuses ShownBeside
  rw [hlinks, taken_enter hs ho hnew hp]
  constructor
  · rintro (⟨link, hlink, hne, x, hshows⟩ | htaken)
    · rcases (shows_enter hs ho hnew).mp hshows with hshows | ⟨rfl, -, -, hshown⟩
      · exact Or.inl (Or.inl ⟨link, hlink, hne, x, hshows⟩)
      · exact Or.inr ⟨hlink, hshown⟩
    · exact Or.inl (Or.inr htaken)
  · rintro ((⟨link, hlink, hne, x, hshows⟩ | htaken) | ⟨hlink, hshown⟩)
    · exact Or.inl ⟨link, hlink, hne, x, (shows_enter hs ho hnew).mpr (Or.inl hshows)⟩
    · exact Or.inr htaken
    · exact Or.inl ⟨scope, hlink, hp.symm, sym,
        (shows_enter hs ho hnew).mpr (Or.inr ⟨rfl, rfl, rfl, hshown⟩)⟩

end Enter

/-! ### When a definition is refused -/

/-- Whether a name is shown by one of several scopes, the asking one apart, is always answered. -/
theorem Sound.takenAmong (h : ctx.Sound) {scopes : List SymbolId}
    (hscopes : ∀ p ∈ scopes, ctx.Exists p) :
    ∃ taken, ctx.takenAmong scope name scopes = .ok taken ∧
      (taken = true ↔ ∃ p ∈ scopes, p ≠ scope ∧ ∃ x, ctx.Shows p name x) := by
  induction scopes with
  | nil => exact ⟨false, rfl, by simp⟩
  | cons p rest ih =>
    obtain ⟨hp, hrest⟩ := List.forall_mem_cons.mp hscopes
    obtain ⟨taken, htaken, hiff⟩ := ih hrest
    obtain ⟨found, hfound⟩ : ∃ result, ctx.lookupLocal p name = .ok result := h.lookupLocal hp
    by_cases hself : p = scope
    · refine ⟨taken, by rw [Context.takenAmong, if_pos hself, htaken], ?_⟩
      simp [hiff, hself]
    cases found with
    | some x =>
      refine ⟨true, ?_, ?_⟩
      · simp only [Context.takenAmong, if_neg hself, hfound, bind, Except.bind]
        rfl
      · have hshows := lookupLocal_eq_some_iff.mp hfound
        simpa using Or.inl ⟨hself, x, hshows⟩
    | none =>
      refine ⟨taken, ?_, ?_⟩
      · simp only [Context.takenAmong, if_neg hself, hfound, bind, Except.bind]
        exact htaken
      · -- A scope that lacks the name does not show it.
        have hlacks : ¬∃ x, ctx.Shows p name x := by
          rintro ⟨x, hshows⟩
          exact hshows.not_lacks (lookupLocal_eq_none_iff.mp hfound)
        simp [hiff, hlacks]

/-- Global scopes own what is defined in them unless a link beside them shows the name. -/
theorem Sound.ownerFor_cases (h : ctx.Sound) (hlinks : ∀ link ∈ ctx.links, ctx.Exists link)
    (hscope : ctx.IsGlobal scope) {sym : SymbolId} {s : Symbol} (hs : ctx.arena.get? sym = some s) :
    (ctx.ShownBeside scope s.name ∧ ctx.ownerFor scope sym = .error s.duplicate) ∨
      (¬ctx.ShownBeside scope s.name ∧ ctx.ownerFor scope sym = .ok scope) := by
  obtain ⟨o, ho, hk⟩ := hscope
  obtain ⟨taken, htaken, hiff⟩ : ∃ taken, ctx.takenAmong scope s.name ctx.links = .ok taken ∧
      (taken = true ↔ ctx.ShownBeside scope s.name) := h.takenAmong hlinks
  -- The global scope and modules are treated alike.
  have howner : ctx.ownerFor scope sym
      = if taken then .error s.duplicate else .ok scope := by
    rcases hk with hk | hk
    all_goals
      simp only [ownerFor, symbol_of_get? ho, symbol_of_get? hs, htaken, hk, bind, Except.bind]
      cases taken <;> rfl
  cases taken with
  | true => exact Or.inl ⟨hiff.mp rfl, howner⟩
  | false => exact Or.inr ⟨fun hshown => Bool.false_ne_true (hiff.mpr hshown), howner⟩

end Context

namespace SemaM

variable {ctx : Context} {scope sym : SymbolId} {s : Symbol}

/-- A definition in the global scope or in a module is refused and changes nothing, or the symbol is
entered. -/
theorem define_cases (hsound : ctx.Sound) (hlinks : ∀ link ∈ ctx.links, ctx.Exists link)
    (hscope : ctx.IsGlobal scope) (hs : ctx.arena.get? sym = some s) :
    (ctx.Refuses scope s.name ∧ define scope sym ctx = .error s.duplicate ctx) ∨
      (¬ctx.Refuses scope s.name ∧
        define scope sym ctx = .ok () ((Edit.enter scope sym).write ctx)) := by
  obtain ⟨o, ho, hk⟩ := id hscope
  unfold define
  -- The links are asked first, then the dictionary of the scope.
  rcases hsound.ownerFor_cases hlinks hscope hs with ⟨hshown, herror⟩ | ⟨hfree, hok⟩
  · exact Or.inl ⟨Or.inl hshown, bind_of_error (query_of_error herror)⟩
  rw [bind_of_ok (query_of_ok hok)]
  by_cases htaken : s.name ∈ o.members.keys
  · exact Or.inl ⟨Or.inr ⟨o, ho, htaken⟩, bind_of_error (enter_of_taken hs ho htaken)⟩
  · refine Or.inr ⟨?_, ?_⟩
    · rintro (hshown | ⟨o', ho', hkey⟩)
      · exact hfree hshown
      · rw [ho] at ho'
        cases ho'
        exact htaken hkey
    · -- The scope is no block, so there is nothing to write besides the entry.
      obtain ⟨o', ho', hk', -⟩ := Context.get?_enter_scope hs ho htaken
      rw [bind_of_ok (enter_of_free hs ho htaken), bind_of_ok (symbol_run ho'), hk']
      rcases hk with hk | hk
      · rw [hk]
        rfl
      · rw [hk]
        rfl

/-- A definition fails with a duplicate exactly where the scope refuses the name. -/
theorem failure?_define_iff (hsound : ctx.Sound) (hlinks : ∀ link ∈ ctx.links, ctx.Exists link)
    (hscope : ctx.IsGlobal scope) (hs : ctx.arena.get? sym = some s) :
    (∃ place name, failure? (define scope sym) ctx = some (.duplicateSymbol place name)) ↔
      ctx.Refuses scope s.name := by
  unfold failure?
  rcases define_cases hsound hlinks hscope hs with ⟨hrefuses, herror⟩ | ⟨hfree, hok⟩
  · rw [herror]
    exact ⟨fun _ => hrefuses, fun _ => ⟨_, _, rfl⟩⟩
  · rw [hok]
    simp [hfree]

end SemaM

namespace Context

variable {ctx : Context} {first second x y : SymbolId} {s t : Symbol}

/-- Global scopes stay global. -/
theorem Grows.isGlobal {before after : Context} (h : before.Grows after) {scope : SymbolId}
    (hscope : before.IsGlobal scope) : after.IsGlobal scope := by
  obtain ⟨o, ho, hk⟩ := hscope
  obtain ⟨o', ho', hoo⟩ := h.symbols scope o ho
  have hkind := hoo.kind
  refine ⟨o', ho', ?_⟩
  rcases hk with hk | hk
  all_goals
    rw [hk] at hkind
    generalize o'.kind = k at hkind
    cases hkind
    simp

/-- In every reached context the global scope is what it is taken for. -/
theorem isGlobal_globals {allowed : Context → Op → Prop} (h : Reached allowed ctx) :
    ctx.IsGlobal globals := by
  have hgrows : Context.bare.Grows ctx := h.edits_free.grows fun _ _ he => he.grows
  exact hgrows.isGlobal ⟨_, rfl, Or.inl rfl⟩

/-- The second of two definitions is refused if it would be so without the first one, or if the
first one is accepted by a linked scope that then shows the name. -/
theorem refusedSecond_iff (h : Reached (fun _ _ => True) ctx)
    (hlinks : ∀ link ∈ ctx.links, ctx.Exists link) (hfirst : ctx.IsGlobal first)
    (hsecond : ctx.IsGlobal second) (hne : second ≠ first) (hs : ctx.arena.get? x = some s)
    (ht : ctx.arena.get? y = some t) (hname : s.name = t.name) :
    ctx.RefusedSecond first x second y ↔ ctx.Refuses second s.name ∨
      (¬ctx.Refuses first s.name ∧ first ∈ ctx.links ∧ s.isHidden = false) := by
  unfold RefusedSecond
  rcases SemaM.define_cases h.sound hlinks hfirst hs with ⟨hrefuses, herror⟩ | ⟨hfree, hok⟩
  · have hafter : SemaM.after (SemaM.define first x) ctx = ctx := by
      simp only [SemaM.after, herror]
    rw [hafter, SemaM.failure?_define_iff h.sound hlinks hsecond ht, hname]
    simp [← hname, hrefuses]
  · -- What holds of the context still holds after the first definition, which is a call as well.
    have hgrows : ctx.Grows ((Op.define first x).next ctx) := Op.grows _ ctx
    have hreached : Reached (fun _ _ => True) ((Op.define first x).next ctx) := h.step _ trivial
    have hafter : (Op.define first x).next ctx = (Edit.enter first x).write ctx :=
      SemaM.after_ok hok
    rw [hafter] at hgrows hreached
    rw [SemaM.after_ok hok]
    have hlinks' : ∀ link ∈ ((Edit.enter first x).write ctx).links,
        ((Edit.enter first x).write ctx).Exists link := by
      intro link hlink
      have hsame : ((Edit.enter first x).write ctx).links = ctx.links := by
        simp [Edit.write, withMember_fields]
      rw [hsame] at hlink
      obtain ⟨o, ho⟩ := hlinks link hlink
      obtain ⟨o', ho', -⟩ := hgrows.symbols link o ho
      exact ⟨o', ho'⟩
    obtain ⟨t', ht', htt⟩ := hgrows.symbols y t ht
    rw [SemaM.failure?_define_iff hreached.sound hlinks' (hgrows.isGlobal hsecond) ht', htt.name,
      ← hname]
    obtain ⟨o, ho, -⟩ := hfirst
    have hnew : s.name ∉ o.members.keys := fun hkey => hfree (Or.inr ⟨o, ho, hkey⟩)
    rw [refuses_enter hs ho hnew hne]
    simp [hfree]

/-- Some linked scope shows the name. -/
def Shown (ctx : Context) (name : String) : Prop :=
  ∃ link ∈ ctx.links, ∃ x, ctx.Shows link name x

/-- A name that a link shows is refused everywhere. -/
theorem Shown.refuses {name : String} (h : ctx.Shown name) (scope : SymbolId) :
    ctx.Refuses scope name := by
  obtain ⟨link, hlink, x, hshows⟩ := h
  by_cases hself : link = scope
  · rw [hself] at hshows
    exact Or.inr hshows.taken
  · exact Or.inl ⟨link, hlink, hself, x, hshows⟩

/-- If no linked scope shows the name, a scope refuses it only for a member of its own. -/
theorem refuses_iff_taken {name : String} {scope : SymbolId} (hnone : ¬ctx.Shown name) :
    ctx.Refuses scope name ↔ ctx.Taken scope name := by
  constructor
  · rintro (⟨other, hother, -, hshows⟩ | htaken)
    · exact absurd ⟨other, hother, hshows⟩ hnone
    · exact htaken
  · intro htaken
    exact Or.inr htaken

/-- A link shows the symbol once it is defined in this scope. -/
def WouldShow (ctx : Context) (scope : SymbolId) (s : Symbol) : Prop :=
  scope ∈ ctx.links ∧ s.isHidden = false

/-- What two scopes and the symbols of one name that they are to get have to agree on for the order
of the definitions not to matter: whether they have the name, and if not, whether a link will show
it. -/
def OrderFree (ctx : Context) (a b : SymbolId) (s t : Symbol) : Prop :=
  (ctx.Taken a s.name ↔ ctx.Taken b s.name) ∧
    (¬ctx.Taken a s.name → (ctx.WouldShow a s ↔ ctx.WouldShow b t))

/-- The exact condition under which the two orders of two definitions end alike. -/
theorem ordersAgree_iff (h : Reached (fun _ _ => True) ctx)
    (hlinks : ∀ link ∈ ctx.links, ctx.Exists link) (hfirst : ctx.IsGlobal first)
    (hsecond : ctx.IsGlobal second) (hne : first ≠ second) (hs : ctx.arena.get? x = some s)
    (ht : ctx.arena.get? y = some t) (hname : s.name = t.name) :
    (ctx.RefusedSecond first x second y ↔ ctx.RefusedSecond second y first x) ↔
      ctx.Shown s.name ∨ ctx.OrderFree first second s t := by
  rw [refusedSecond_iff h hlinks hfirst hsecond hne.symm hs ht hname,
    refusedSecond_iff h hlinks hsecond hfirst hne ht hs hname.symm, ← hname]
  by_cases hshown : ctx.Shown s.name
  · -- Whoever comes second finds the name shown.
    simp [hshown, hshown.refuses]
  · -- Each scope goes by its own members, and by what the other one shows since.
    rw [refuses_iff_taken hshown, refuses_iff_taken hshown]
    unfold OrderFree WouldShow
    by_cases hfirstHas : ctx.Taken first s.name
    · simp [hshown, hfirstHas, iff_comm]
    · by_cases hsecondHas : ctx.Taken second s.name
      · simp [hshown, hfirstHas, hsecondHas]
      · simp [hshown, hfirstHas, hsecondHas]

end Context

/-- Two definitions of one name in two of the scopes that a search for a global name looks at. The
second is refused in one order exactly if it is in the other, if a linked scope shows the name
already, or if both scopes have the name, or if neither does and either both symbols would be shown
by a link or none would. -/
theorem definition_order_irrelevant {ctx : Context} (h : Reached (fun _ _ => True) ctx)
    (hlinks : ∀ link ∈ ctx.links, ∃ o, ctx.arena.get? link = some o ∧ o.kind = .moduleScope)
    {a b x y : SymbolId} {s t : Symbol} (hne : a ≠ b) (ha : a = Context.globals ∨ a ∈ ctx.links)
    (hb : b = Context.globals ∨ b ∈ ctx.links) (hs : ctx.arena.get? x = some s)
    (ht : ctx.arena.get? y = some t) (hname : s.name = t.name)
    (hagree : ctx.Shown s.name ∨ ctx.OrderFree a b s t) :
    ctx.RefusedSecond a x b y ↔ ctx.RefusedSecond b y a x := by
  have hexists : ∀ link ∈ ctx.links, ctx.Exists link := by
    intro link hlink
    obtain ⟨o, ho, -⟩ := hlinks link hlink
    exact ⟨o, ho⟩
  -- Both scopes are global scopes, so the exact comparison applies.
  have hglobal : ∀ scope, scope = Context.globals ∨ scope ∈ ctx.links → ctx.IsGlobal scope := by
    rintro scope (rfl | hlink)
    · exact Context.isGlobal_globals h
    · obtain ⟨o, ho, hk⟩ := hlinks scope hlink
      exact ⟨o, ho, Or.inr hk⟩
  exact (Context.ordersAgree_iff h hexists (hglobal a ha) (hglobal b hb) hne hs ht hname).mpr hagree

/-- Two linked modules, the first of which hides a variable `v`. Of the six symbols after that none
is defined, and the first `w` is hidden. -/
def moduleRun : List Op :=
  let type : TypeRef := { name := "int", slot := ⟨0⟩ }
  [.addModule "a", .addModule "b", .link ⟨85⟩, .link ⟨86⟩, .addVariable "v" type none,
    .define ⟨85⟩ ⟨87⟩, .markOutOfScope ⟨87⟩, .addVariable "v" type none, .addVariable "v" type none,
    .addVariable "w" type none, .markOutOfScope ⟨90⟩, .addVariable "w" type none,
    .addVariable "u" type none, .addVariable "u" type none]

/-- What the run leaves: the links, the names in the three scopes and the symbols that are free. -/
theorem moduleRun_state :
    let ctx := Op.runs .initial moduleRun
    Op.AllAllowed (fun _ _ => True) .initial moduleRun ∧ ctx.links = [⟨85⟩, ⟨86⟩] ∧
    (∀ link ∈ ctx.links, ∃ o ∈ ctx.arena.get? link, o.kind = .moduleScope) ∧
    (ctx.arena.get? Context.globals).map (·.members.keys) = some ["int", "float", "bool", "string",
      "void", "any", "[]", "suspend", "yield", "fail", "start", "stop"] ∧
    (ctx.arena.get? ⟨85⟩).map (·.members.keys) = some ["v"] ∧
    (ctx.arena.get? ⟨86⟩).map (·.members.keys) = some [] ∧
    ([⟨88⟩, ⟨89⟩, ⟨90⟩, ⟨91⟩, ⟨92⟩, ⟨93⟩].map fun id => (ctx.arena.get? id).map fun s =>
        (s.name, s.scope, s.isHidden))
      = [some ("v", none, false), some ("v", none, false), some ("w", none, true),
        some ("w", none, false), some ("u", none, false), some ("u", none, false)] := by
  decide +kernel

/-- How the second of two definitions ends, for each pair that is looked at below. -/
theorem moduleRun_refusals :
    let ctx := Op.runs .initial moduleRun
    let second := fun first x second y =>
      SemaM.failure? (SemaM.define second y) (SemaM.after (SemaM.define first x) ctx)
    second ⟨85⟩ ⟨92⟩ ⟨86⟩ ⟨93⟩ = some (.duplicateSymbol "u(?)" "u") ∧
    second Context.globals ⟨91⟩ ⟨85⟩ ⟨90⟩ = none ∧
    second ⟨85⟩ ⟨88⟩ ⟨86⟩ ⟨89⟩ = none ∧
    second ⟨86⟩ ⟨89⟩ ⟨85⟩ ⟨88⟩ = some (.duplicateSymbol "v(?)" "v") ∧
    second ⟨85⟩ ⟨90⟩ ⟨86⟩ ⟨91⟩ = none ∧
    second ⟨86⟩ ⟨91⟩ ⟨85⟩ ⟨90⟩ = some (.duplicateSymbol "w(?)" "w") ∧
    second Context.globals ⟨92⟩ ⟨85⟩ ⟨93⟩ = none ∧
    second ⟨85⟩ ⟨93⟩ Context.globals ⟨92⟩ = some (.duplicateSymbol "u(?)" "u") ∧
    second Context.globals ⟨88⟩ ⟨85⟩ ⟨89⟩ = some (.duplicateSymbol "v(?)" "v") ∧
    second ⟨85⟩ ⟨89⟩ Context.globals ⟨88⟩ = none := by
  decide +kernel

/-- Two definitions of `u` in the two modules: the second is refused in either order. Two
definitions of `w` in the global scope and in a module, where it is already out of scope: both are
accepted in either order. -/
theorem definition_order_irrelevant_moduleRun :
    let ctx := Op.runs .initial moduleRun
    Reached (fun _ _ => True) ctx ∧ ctx.links = [⟨85⟩, ⟨86⟩] ∧
    (∀ link ∈ ctx.links, ∃ o, ctx.arena.get? link = some o ∧ o.kind = .moduleScope) ∧
    (∃ s t, ctx.arena.get? ⟨92⟩ = some s ∧ ctx.arena.get? ⟨93⟩ = some t ∧ s.name = "u" ∧
      s.name = t.name ∧ ctx.OrderFree ⟨85⟩ ⟨86⟩ s t) ∧
    (ctx.RefusedSecond ⟨85⟩ ⟨92⟩ ⟨86⟩ ⟨93⟩ ∧ ctx.RefusedSecond ⟨86⟩ ⟨93⟩ ⟨85⟩ ⟨92⟩) ∧
    (∃ s t, ctx.arena.get? ⟨91⟩ = some s ∧ ctx.arena.get? ⟨90⟩ = some t ∧ s.name = "w" ∧
      s.name = t.name ∧ ctx.OrderFree Context.globals ⟨85⟩ s t) ∧
    ¬ctx.RefusedSecond Context.globals ⟨91⟩ ⟨85⟩ ⟨90⟩ ∧
      ¬ctx.RefusedSecond ⟨85⟩ ⟨90⟩ Context.globals ⟨91⟩ := by
  intro ctx
  obtain ⟨hallowed, hlinks, hmodules, hglobals, hfirst, hsecond, hsyms⟩ := moduleRun_state
  obtain ⟨hrefused, haccepted, -⟩ := moduleRun_refusals
  have hreached : Reached (fun _ _ => True) ctx := Reached.initial.runs hallowed
  simp only [List.map_cons, List.map_nil, List.cons.injEq, and_true,
    Option.map_eq_some_iff, Prod.mk.injEq] at hsyms
  obtain ⟨-, -, ⟨wy, hwy, hwyName, -, hwyHidden⟩, ⟨wx, hwx, hwxName, -, hwxHidden⟩,
    ⟨ux, hux, huxName, -, huxHidden⟩, ⟨uy, huy, huyName, -, huyHidden⟩⟩ := hsyms
  have hla : ⟨85⟩ ∈ ctx.links := by
    rw [hlinks]
    decide
  have hlb : ⟨86⟩ ∈ ctx.links := by
    rw [hlinks]
    decide
  -- Neither module has a `u`, and a link would show both of the new ones.
  have hu : ctx.OrderFree ⟨85⟩ ⟨86⟩ ux uy := by
    have hfreea : ¬ctx.Taken ⟨85⟩ ux.name :=
      Context.not_taken_of_keys hfirst (by rw [huxName]; decide)
    have hfreeb : ¬ctx.Taken ⟨86⟩ ux.name :=
      Context.not_taken_of_keys hsecond (by rw [huxName]; decide)
    exact ⟨iff_of_false hfreea hfreeb, fun _ => iff_of_true ⟨hla, huxHidden⟩ ⟨hlb, huyHidden⟩⟩
  -- No link shows a `w`: the global scope is none, and the one for the module is hidden.
  have hw : ctx.OrderFree Context.globals ⟨85⟩ wx wy := by
    have hfreea : ¬ctx.Taken Context.globals wx.name :=
      Context.not_taken_of_keys hglobals (by rw [hwxName]; decide)
    have hfreeb : ¬ctx.Taken ⟨85⟩ wx.name :=
      Context.not_taken_of_keys hfirst (by rw [hwxName]; decide)
    have hnoLink : ¬ctx.WouldShow Context.globals wx := by
      rintro ⟨hlink, -⟩
      rw [hlinks] at hlink
      revert hlink
      decide
    have hhidden : ¬ctx.WouldShow ⟨85⟩ wy := by
      rintro ⟨-, hshown⟩
      rw [hwyHidden] at hshown
      cases hshown
    exact ⟨iff_of_false hfreea hfreeb, fun _ => iff_of_false hnoLink hhidden⟩
  have huName : ux.name = uy.name := huxName.trans huyName.symm
  have hwName : wx.name = wy.name := hwxName.trans hwyName.symm
  have huOne : ctx.RefusedSecond ⟨85⟩ ⟨92⟩ ⟨86⟩ ⟨93⟩ := ⟨_, _, hrefused⟩
  have hwOne : ¬ctx.RefusedSecond Context.globals ⟨91⟩ ⟨85⟩ ⟨90⟩ :=
    Context.not_refusedSecond haccepted
  have huOrder := definition_order_irrelevant hreached hmodules (by decide) (Or.inr hla)
    (Or.inr hlb) hux huy huName (Or.inr hu)
  have hwOrder := definition_order_irrelevant hreached hmodules (by decide) (Or.inl rfl)
    (Or.inr hla) hwx hwy hwName (Or.inr hw)
  exact ⟨hreached, hlinks, hmodules, ⟨ux, uy, hux, huy, huxName, huName, hu⟩,
    ⟨huOne, huOrder.mp huOne⟩, ⟨wx, wy, hwx, hwy, hwxName, hwName, hw⟩, hwOne,
    mt hwOrder.mpr hwOne⟩

/-- In general the order matters: with a hidden member in one of the modules, with a hidden symbol,
and with the global scope, whose members no definition in a module is checked against. -/
theorem definition_order_matters :
    let ctx := Op.runs .initial moduleRun
    Reached (fun _ _ => True) ctx ∧ ctx.links = [⟨85⟩, ⟨86⟩] ∧
    (∀ link ∈ ctx.links, ∃ o, ctx.arena.get? link = some o ∧ o.kind = .moduleScope) ∧
    ([⟨88⟩, ⟨89⟩, ⟨90⟩, ⟨91⟩, ⟨92⟩, ⟨93⟩].map fun id => (ctx.arena.get? id).map fun s =>
        (s.name, s.scope, s.isHidden))
      = [some ("v", none, false), some ("v", none, false), some ("w", none, true),
        some ("w", none, false), some ("u", none, false), some ("u", none, false)] ∧
    (¬ctx.RefusedSecond ⟨85⟩ ⟨88⟩ ⟨86⟩ ⟨89⟩ ∧ ctx.RefusedSecond ⟨86⟩ ⟨89⟩ ⟨85⟩ ⟨88⟩) ∧
    (¬ctx.RefusedSecond ⟨85⟩ ⟨90⟩ ⟨86⟩ ⟨91⟩ ∧ ctx.RefusedSecond ⟨86⟩ ⟨91⟩ ⟨85⟩ ⟨90⟩) ∧
    (¬ctx.RefusedSecond Context.globals ⟨92⟩ ⟨85⟩ ⟨93⟩ ∧
      ctx.RefusedSecond ⟨85⟩ ⟨93⟩ Context.globals ⟨92⟩) ∧
    ctx.RefusedSecond Context.globals ⟨88⟩ ⟨85⟩ ⟨89⟩ ∧
      ¬ctx.RefusedSecond ⟨85⟩ ⟨89⟩ Context.globals ⟨88⟩ := by
  intro ctx
  obtain ⟨hallowed, hlinks, hmodules, -, -, -, hsyms⟩ := moduleRun_state
  obtain ⟨-, -, hv, hv', hw, hw', hu, hu', hg, hg'⟩ := moduleRun_refusals
  exact ⟨Reached.initial.runs hallowed, hlinks, hmodules, hsyms,
    ⟨Context.not_refusedSecond hv, _, _, hv'⟩, ⟨Context.not_refusedSecond hw, _, _, hw'⟩,
    ⟨Context.not_refusedSecond hu, _, _, hu'⟩, ⟨_, _, hg⟩, Context.not_refusedSecond hg'⟩

end Sema

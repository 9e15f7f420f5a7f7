import Sema.Proofs.CaptureEffect

/-!
# `Sema.Proofs.StableLookup`: a look-up can be repeated

A look-up that captures a variable changes the context, and the same look-up takes another way
then: the lambda that had to ask the functions around it has a member of the name now.
`lookup_stable` says that it gives the same answer and changes nothing more.

The answer of one scope is one of three things (`SemaM.answered`): it passes the search on, it
settles the search and writes nothing, or it is a lambda that captures. Only in the last case is
there something to show. A scope that was passed before has no live variable of the name around
it, so it is none of the lambdas that capture and has none of them around it
(`Chain.subset_of_mem`). It passes the search on after the capture as before (`Captures.passes`),
and so the search comes to the lambda, which has the copy.
-/

set_option autoImplicit false

namespace Sema

/-! ### Where a search goes on -/

/-- What a symbol gets does not change where a search goes on after it, as long as it keeps its
owner. -/
theorem Symbol.Grows.onward {s t : Symbol} (h : s.Grows t) (hscope : t.scope = s.scope)
    (id : SymbolId) : t.onward id = s.onward id := by
  have hkind := h.kind
  simp only [Symbol.onward, hscope]
  -- What a symbol leads to depends on fields that growing keeps.
  generalize s.kind = k at hkind
  generalize t.kind = k' at hkind
  cases hkind with
  | same => rfl
  | classDecl superClass => simp only [superClass]
  | block func => simp only [func]
  | @func a b flavor =>
    cases a
    cases b
    cases flavor with
    | same => rfl
    | lambda stack => simp only [stack]

namespace Context

variable {ctx ctx' : Context} {name : String}

/-- Symbols that keep their owners keep their outer scopes, and more hops do no harm. -/
theorem Grows.outerWithin {a b : Context} (h : a.Grows b)
    (howner : ∀ x s, a.arena.get? x = some s → b.owner? x = s.scope) {fuel more : Nat}
    (hle : fuel ≤ more) {scope : SymbolId} {next : Option SymbolId}
    (hok : a.outerWithin fuel scope = .ok next) : b.outerWithin more scope = .ok next := by
  induction fuel generalizing more scope with
  | zero => cases hok
  | succ fuel ih =>
    obtain ⟨more, rfl⟩ := Nat.exists_eq_add_of_le' (Nat.le_trans (Nat.le_add_left 1 fuel) hle)
    obtain ⟨s, hs, hrest⟩ := except_bind_eq_ok hok
    have hs := symbol_eq_ok_iff.mp hs
    obtain ⟨t, ht, hst⟩ := h.symbols scope s hs
    have hscope : t.scope = s.scope := by rw [← owner?_of_get? ht, howner scope s hs]
    rw [Context.outerWithin, symbol_of_get? ht]
    dsimp only [bind, Except.bind]
    rw [hst.onward hscope]
    -- Every symbol on the way leads on to where it led before.
    cases honward : s.onward scope with
    | scope next =>
      rw [honward] at hrest
      exact hrest
    | sameAs func =>
      rw [honward] at hrest
      exact ih (by omega) hrest
    | past owner =>
      rw [honward] at hrest
      obtain ⟨o, ho, hrest⟩ := except_bind_eq_ok hrest
      have ho := symbol_eq_ok_iff.mp ho
      obtain ⟨o', ho', hoo⟩ := h.symbols owner o ho
      have hscope' : o'.scope = o.scope := by rw [← owner?_of_get? ho', howner owner o ho]
      simp only [symbol_of_get? ho', hscope']
      rw [← hrest]
      have hkind := hoo.kind
      generalize o.kind = k at hkind
      generalize o'.kind = k' at hkind
      cases hkind <;> rfl

/-- A search goes on from a block in its function, and from every other scope in its outer scope. -/
inductive LeadsOutward (ctx : Context) (scope : SymbolId) : SymbolId → Prop
  | block {s : Symbol} {b : BlockInfo} (hs : ctx.arena.get? scope = some s)
      (hk : s.kind = .block b) : LeadsOutward ctx scope b.func
  | outer {s : Symbol} {next : SymbolId} (hs : ctx.arena.get? scope = some s)
      (hb : ∀ b, s.kind ≠ .block b) (houter : ctx.outer scope = .ok (some next)) :
      LeadsOutward ctx scope next

/-- A search that is passed on leads outwards. -/
theorem Passes.leadsOutward {scope next : SymbolId} (h : ctx.Passes name scope next) :
    ctx.LeadsOutward scope next := by
  cases h with
  | block hs hk => exact .block hs hk
  | outer hs hb hg hfree haround houter => exact .outer hs hb houter

/-! ### What a capture leaves as it was -/

/-- What stands around a lambda on a chain stands on the chain. -/
theorem Chain.subset_of_mem {stack inner : List SymbolId} {f : SymbolId} (h : ctx.Chain stack)
    (hf : f ∈ stack) (hinner : ctx.stack? f = some inner) : inner ⊆ stack := by
  obtain ⟨before, after, rfl⟩ := List.append_of_mem hf
  -- The outermost function has no stack; the stack of any other is a front part of this one.
  cases before with
  | nil =>
    rw [h.stack?_head rfl] at hinner
    cases hinner
  | cons g before =>
    rw [h.stack?_of_append rfl (List.cons_ne_nil g before), Option.some.injEq] at hinner
    subst hinner
    intro x hx
    rcases List.mem_append.mp hx with hx | hx
    · exact List.mem_append_left _ hx
    · exact List.mem_append_right _ (by simp [List.mem_singleton.mp hx])

namespace Captures

variable {v : Symbol} {source : SymbolId} {chain : List SymbolId}

/-- What captures is a lambda, stays one and stays where it is. -/
theorem isLambda (h : ctx.Captures ctx' v source chain) {f : SymbolId} (hf : f ∈ chain) :
    ∃ o o', ctx.arena.get? f = some o ∧ ctx'.arena.get? f = some o' ∧ o.isLambda = true ∧
      o'.isLambda = true ∧ o'.scope = o.scope := by
  obtain ⟨j, hj⟩ := List.mem_iff_getElem?.mp hf
  obtain ⟨o, o', ho, ho', hl, hl', hscope, -⟩ := (h.each j f hj).exists_lambda
  exact ⟨o, o', ho, ho', hl, hl', hscope⟩

/-- Captures change no owner. -/
theorem owner? (h : ctx.Captures ctx' v source chain) (x : SymbolId) (s : Symbol)
    (hs : ctx.arena.get? x = some s) : ctx'.owner? x = s.scope := by
  by_cases hx : x ∈ chain
  · obtain ⟨o, o', ho, ho', -, -, hscope⟩ := h.isLambda hx
    rw [hs] at ho
    cases ho
    rw [owner?_of_get? ho', hscope]
  · exact owner?_of_get? (h.others x s hs hx)

/-- Outside the lambdas that capture there are no new live variables. -/
theorem liveMember (h : ctx.Captures ctx' v source chain) (hsound : ctx.Sound) {f x : SymbolId}
    (hf : f ∉ chain) (hexists : ctx.Exists f) (hlive : ctx'.LiveMember f name x) :
    ctx.LiveMember f name x := by
  obtain ⟨o, ho⟩ := hexists
  obtain ⟨o', t, ho', hfind, ht, hislive⟩ := hlive
  rw [h.others f o ho hf] at ho'
  cases ho'
  obtain ⟨s, hs, -⟩ := hsound.get?_of_find? ho hfind
  by_cases hx : x ∈ chain
  · -- A lambda is no variable.
    obtain ⟨-, t', -, ht', -, hlt, -⟩ := h.isLambda hx
    rw [ht] at ht'
    cases ht'
    obtain ⟨info, l, hk, -⟩ := t.exists_of_isLambda hlt
    simp [Symbol.isLive, SymbolKind.isVariable, hk] at hislive
  · have hsame : s = t := Option.some.inj ((h.others x s hs hx).symm.trans ht)
    exact ⟨o, s, ho, hfind, hs, hsame ▸ hislive⟩

end Captures

section Passed

variable {lambda owner found : SymbolId} {outer between : List SymbolId} {v : Symbol}

/-- A stack with one of the lambdas that capture has the owner of the variable as well. -/
theorem Chained.owner_around (hchained : ctx.Chained)
    (hstack : ctx.stack? lambda = some (outer ++ owner :: between ++ [lambda])) {f p : SymbolId}
    {stack : List SymbolId} (hf : f ∈ between ++ [lambda]) (hp : ctx.stack? p = some stack)
    (hmem : f ∈ stack) : owner ∈ stack := by
  obtain ⟨before, after, hsplit⟩ := List.append_of_mem hf
  have hchain := (hchained.nested hstack).1
  have hwhole :
      outer ++ owner :: between ++ [lambda] = (outer ++ owner :: before) ++ f :: after := by
    rw [List.append_assoc, List.cons_append, hsplit]
    simp
  have hinner := hchain.stack?_of_append hwhole (by simp)
  exact (hchained.nested hp).1.subset_of_mem hmem hinner (by simp)

/-- A scope that passed the search on before a capture does so after it. -/
theorem Captures.passes (h : ctx.Captures ctx' v found (between ++ [lambda])) (hsound : ctx.Sound)
    (hchained : ctx.Chained) (hgrows : ctx.Grows ctx')
    (hstack : ctx.stack? lambda = some (outer ++ owner :: between ++ [lambda]))
    (hlive : ctx.LiveMember owner name found) {p next : SymbolId} (hpass : ctx.Passes name p next) :
    ctx'.Passes name p next := by
  cases hpass with
  | @block s b hs hk =>
    refine .block (h.others p s hs fun hmem => ?_) hk
    obtain ⟨o, -, ho, -, hl, -⟩ := h.isLambda hmem
    rw [hs] at ho
    cases ho
    obtain ⟨info, l, hk', -⟩ := s.exists_of_isLambda hl
    rw [hk] at hk'
    cases hk'
  | @outer s next hs hb hg hfree haround houter =>
    -- None of the functions around the scope captures: the variable would be around it too.
    have hnone : ∀ stack, ctx.stack? p = some stack → ∀ f ∈ stack, f ∉ between ++ [lambda] := by
      intro stack hp f hf hmem
      exact haround stack hp owner (hchained.owner_around hstack hmem hp hf) found hlive
    have hp : p ∉ between ++ [lambda] := by
      intro hmem
      obtain ⟨o, -, ho, -, hl, -⟩ := h.isLambda hmem
      obtain ⟨l, hl⟩ := Option.isSome_iff_exists.mp hl
      have hown : ctx.stack? p = some l.stack := by
        rw [stack?, lambda?_of_get? ho, hl, Option.map_some]
      obtain ⟨before, hbefore⟩ := hchained.exists_before hown
      exact hnone l.stack hown p (by simp [hbefore]) hmem
    have hs' := h.others p s hs hp
    have hsame : ctx'.stack? p = ctx.stack? p := by
      rw [stack?, stack?, lambda?_of_get? hs, lambda?_of_get? hs']
    refine .outer hs' hb hg ?_ ?_ ?_
    · rwa [not_taken_iff hs', ← not_taken_iff hs]
    · intro stack hstack' f hf x hx
      rw [hsame] at hstack'
      have hexists := (hchained.nested hstack').1.exists hf
      exact haround stack hstack' f hf x (h.liveMember hsound (hnone stack hstack' f hf) hexists hx)
    · have hle : ctx.searchBound ≤ ctx'.searchBound := by
        simp only [searchBound, h.size]
        omega
      exact hgrows.outerWithin h.owner? hle houter

end Passed

end Context

namespace SemaM

variable {ctx ctx' : Context} {name : String} {scope : SymbolId}

/-- Passing a search on changes nothing and ends it or names the next scope. -/
theorem passOutward_eq_ok {reply : Answer} (h : passOutward scope ctx = .ok reply ctx') :
    ctx' = ctx ∧ ((∃ next, ctx.outer scope = .ok (some next) ∧ reply = .passed next) ∨
      reply = .settled none) := by
  obtain ⟨found, ctx₁, hfound, hrest⟩ := bind_eq_ok h
  obtain ⟨houter, rfl⟩ := query_eq_ok hfound
  cases found with
  | none =>
    cases hrest
    exact ⟨rfl, Or.inr rfl⟩
  | some next =>
    cases hrest
    exact ⟨rfl, Or.inl ⟨next, houter, rfl⟩⟩

/-- What a scope can answer, and what the context is then. -/
inductive Answered (ctx : Context) (name : String) (scope : SymbolId) : Answer → Context → Prop
  | passed {next : SymbolId} (h : ctx.Passes name scope next) :
      Answered ctx name scope (.passed next) ctx
  | settled (result : Option SymbolId) : Answered ctx name scope (.settled result) ctx
  /-- The scope is a lambda that captures a variable from around it. -/
  | captured {outer between : List SymbolId} {owner found : SymbolId} {v : Symbol} {ctx' : Context}
      (hstack : ctx.stack? scope = some (outer ++ owner :: between ++ [scope]))
      (hlive : ctx.LiveMember owner name found) (hv : ctx.arena.get? found = some v)
      (h : ctx.Captures ctx' v found (between ++ [scope])) :
      Answered ctx name scope
        (.settled (some (ctx.copyId found (between ++ [scope]).length))) ctx'

/-- A scope with no live variable around it can only pass the search on or end it. -/
theorem answered_of_passOutward {reply : Answer} {s : Symbol} (hs : ctx.arena.get? scope = some s)
    (hb : ∀ b, s.kind ≠ .block b) (hg : s.kind ≠ .globalScope) (hfree : ¬ctx.Taken scope name)
    (haround : ∀ stack, ctx.stack? scope = some stack → ∀ f ∈ stack, ∀ x, ¬ctx.LiveMember f name x)
    (h : passOutward scope ctx = .ok reply ctx') : Answered ctx name scope reply ctx' := by
  obtain ⟨rfl, ⟨next, houter, rfl⟩ | rfl⟩ := passOutward_eq_ok h
  · exact .passed (.outer hs hb hg hfree haround houter)
  · exact .settled none

/-- What a lambda answers when it does not have the name itself. -/
theorem answered_of_lambda (hsound : ctx.Sound) (hchained : ctx.Chained) {reply : Answer}
    {s : Symbol} {stack : List SymbolId} (hs : ctx.arena.get? scope = some s)
    (hstack : ctx.stack? scope = some stack) (hfind : s.members.find? name = none)
    (h : answer scope name ctx = .ok reply ctx') : Answered ctx name scope reply ctx' := by
  have hfree := (Context.not_taken_iff hs).mpr hfind
  have hrun := answer_of_lambda hs hstack hfind
  obtain ⟨before, rfl⟩ := hchained.exists_before hstack
  rcases ctx.exists_innermost_live name before with
    hdead | ⟨outer, owner, between, found, rfl, hlive, hbetween⟩
  · have hdead := Context.dead_concat hdead hfree
    rw [bind_of_ok (lookupAround_of_dead hsound hchained hstack hdead)] at hrun
    obtain ⟨info, hk⟩ := Context.isFunc_of_stack? hs hstack
    refine answered_of_passOutward hs (by simp [hk]) (by simp [hk]) hfree ?_ (hrun.symm.trans h)
    intro stack hsome
    rw [hstack] at hsome
    cases hsome
    exact hdead
  · rcases lookupAround_of_live hsound hchained hstack hlive hbetween hfree with
      ⟨hnone, -⟩ | ⟨-, place, ctx₁, herror⟩
    · obtain ⟨v, slot, hv, -⟩ := hsound.variable_of_live hlive
      have hall : ∀ f ∈ between ++ [scope], ¬ctx.Taken f name := by
        intro f hf
        rcases List.mem_append.mp hf with hf | hf
        · exact hnone f hf
        · rw [List.mem_singleton.mp hf]
          exact hfree
      obtain ⟨ctx₁, hanswer, hcaptures⟩ := answer_captures hsound hchained hstack hlive hv hall
      rw [hanswer] at h
      cases h
      exact .captured hstack hlive hv hcaptures
    · -- A lambda between has the name, and the answer is an error.
      rw [hrun, bind_of_error herror] at h
      cases h

/-- A scope passes the search on, settles it without a change, or captures. -/
theorem answered (hsound : ctx.Sound) (hchained : ctx.Chained) {reply : Answer}
    (h : answer scope name ctx = .ok reply ctx') : Answered ctx name scope reply ctx' := by
  obtain ⟨s, ctx₁, hs, -⟩ := bind_eq_ok h
  have hs := Context.symbol_eq_ok_iff.mp (query_eq_ok hs).1
  by_cases hblock : ∃ b, s.kind = .block b
  · obtain ⟨b, hk⟩ := hblock
    rw [answer_of_block hs hk] at h
    cases h
    exact .passed (.block hs hk)
  have hb := not_exists.mp hblock
  -- Its own members, and for the global scope the links, are only read.
  have hread : ∀ {read : Context → Except CompileError (Option SymbolId)},
      (do return .settled (← query read) : SemaM Answer) ctx = .ok reply ctx' →
      Answered ctx name scope reply ctx' := by
    intro read hrun
    obtain ⟨result, ctx₁, hresult, hrest⟩ := bind_eq_ok hrun
    obtain ⟨-, rfl⟩ := query_eq_ok hresult
    cases hrest
    exact .settled result
  cases hfind : s.members.find? name with
  | some id => exact hread ((answer_of_member hs hb hfind).symm.trans h)
  | none =>
    by_cases hg : s.kind = .globalScope
    · exact hread ((answer_of_global hs hg hfind).symm.trans h)
    cases hstack : ctx.stack? scope with
    | some stack => exact answered_of_lambda hsound hchained hs hstack hfind h
    | none =>
      rw [answer_of_plain hs hb hg hstack hfind] at h
      refine answered_of_passOutward hs hb hg ((Context.not_taken_iff hs).mpr hfind) ?_ h
      intro stack hsome
      rw [hstack] at hsome
      cases hsome

/-- A search that ends has gone along a path to a scope that settled it. -/
theorem path_of_lookupWithin (hsound : ctx.Sound) (hchained : ctx.Chained) {fuel : Nat}
    {result : Option SymbolId} (h : lookupWithin fuel scope name ctx = .ok result ctx') :
    ∃ path last, (scope :: path).IsChain (ctx.Passes name) ∧
      (scope :: path).getLast? = some last ∧ path.length < fuel ∧
      answer last name ctx = .ok (.settled result) ctx' := by
  induction fuel generalizing scope with
  | zero => cases h
  | succ fuel ih =>
    obtain ⟨reply, ctx₁, hreply, hrest⟩ := bind_eq_ok h
    cases reply with
    | settled found =>
      cases hrest
      exact ⟨[], scope, List.isChain_singleton scope, rfl, Nat.succ_pos fuel, hreply⟩
    | passed next =>
      -- Passing on leaves the context as it was, so the path goes on in it.
      cases answered hsound hchained hreply with
      | passed hpass =>
        obtain ⟨path, last, hpath, hlast, hlength, hanswer⟩ := ih hrest
        refine ⟨next :: path, last, List.isChain_cons_cons.mpr ⟨hpass, hpath⟩, ?_, ?_, hanswer⟩
        · rwa [List.getLast?_cons_cons]
        · exact Nat.succ_lt_succ hlength

/-- After a capture the lambda answers with its copy. -/
theorem answer_of_captured {between : List SymbolId} {found : SymbolId} {v : Symbol}
    (h : ctx.Captures ctx' v found (between ++ [scope])) (hname : v.name = name) :
    answer scope name ctx'
      = .ok (.settled (some (ctx.copyId found (between ++ [scope]).length))) ctx' := by
  -- The last copy of the chain is a member of the lambda that asked.
  have hlast := h.each between.length scope (by simp)
  have hlength : between.length + 1 = (between ++ [scope]).length := by simp
  rw [hlength] at hlast
  obtain ⟨-, o, -, ho, -, hl, -, hfind⟩ := hlast.exists_lambda
  obtain ⟨slot, hcopy⟩ := hlast.exists_copy
  rw [hname] at hfind
  have hvisible : ctx'.visible (ctx.copyId found (between ++ [scope]).length)
      = .ok (some (ctx.copyId found (between ++ [scope]).length)) := by
    rw [Context.visible, Context.symbol_of_get? hcopy]
    rfl
  obtain ⟨info, l, hk, -⟩ := o.exists_of_isLambda hl
  rw [answer_of_member ho (by simp [hk]) hfind, bind_of_ok (query_of_ok hvisible)]
  rfl

end SemaM

/-- A look-up leads from reached states to reached ones. -/
theorem Reached.after_lookup {ctx ctx' : Context}
    (h : Reached (fun ctx op => op.Nests Context.WellNested ctx) ctx) {scope : SymbolId}
    {name : String} {result : Option SymbolId}
    (hrun : SemaM.lookup scope name ctx = .ok result ctx') :
    Reached (fun ctx op => op.Nests Context.WellNested ctx) ctx' := by
  have hnext : (Op.lookup scope name).next ctx = ctx' := by
    show SemaM.after (SemaM.forget (SemaM.lookup scope name)) ctx = ctx'
    rw [SemaM.after_forget, SemaM.after_ok hrun]
  rw [← hnext]
  refine h.step _ ?_
  intro enclosing hnone
  cases hnone

open SemaM

/-- A look-up that succeeds gives the same answer again, and the second time it changes nothing. It
changes nothing the first time either if it finds nothing, or if no lambda is on the way from the
scope outward. -/
theorem lookup_stable {ctx ctx' : Context}
    (h : Reached (fun ctx op => op.Nests Context.WellNested ctx) ctx) {scope : SymbolId}
    {name : String} {result : Option SymbolId} (hrun : lookup scope name ctx = .ok result ctx') :
    lookup scope name ctx' = .ok result ctx' ∧
      ((result = none ∨ ∀ f, Relation.ReflTransGen ctx.LeadsOutward scope f → ctx.stack? f = none) →
        ctx' = ctx) := by
  have hsound := h.sound
  have hchained := h.chained fun _ _ hop => hop
  obtain ⟨path, last, hpath, hlast, hlength, hanswer⟩ :=
    path_of_lookupWithin hsound hchained hrun
  cases answered hsound hchained hanswer with
  | settled => exact ⟨hrun, fun _ => rfl⟩
  | @captured outer between owner found v _ hstack hlive hv hcaptures =>
    constructor
    · have hreached := h.after_lookup hrun
      have hgrows : ctx.Grows ctx' :=
        ((makes_lookup scope name : Makes (Edit.Nested {}) _ ctx).of_ok hrun).grows
          fun _ _ => Edit.Nested.grows
      have hpath' : (scope :: path).IsChain (ctx'.Passes name) :=
        hpath.imp fun a b hpass => hcaptures.passes hsound hchained hgrows hstack hlive hpass
      obtain ⟨s, slot, hs, hname, -⟩ := hsound.variable_of_live hlive
      rw [hv] at hs
      cases hs
      -- The context has grown, so the search is long enough to come to the lambda again.
      obtain ⟨more, hmore⟩ : ∃ more, ctx'.searchBound = path.length + (more + 1) := by
        refine ⟨ctx'.arena.size - path.length, ?_⟩
        have hsize := hcaptures.size
        simp only [Context.searchBound] at hlength ⊢
        omega
      have hchained' := hreached.chained fun _ _ hop => hop
      show lookupWithin ctx'.searchBound scope name ctx' = _
      rw [lookupWithin_along hreached.sound hchained' hpath' hlast hmore]
      exact bind_of_ok (answer_of_captured hcaptures hname)
    · rintro (hnone | hplain)
      · cases hnone
      · -- The lambda that captured is on the way.
        have hleads : Relation.ReflTransGen ctx.LeadsOutward scope last := by
          refine List.relationReflTransGen_of_exists_isChain_cons path
            (hpath.imp fun a b hpass => hpass.leadsOutward) ?_
          rw [List.getLast?_eq_some_getLast (List.cons_ne_nil scope path)] at hlast
          exact Option.some.inj hlast
        rw [hplain last hleads] at hstack
        cases hstack

/-- The lambdas of `deepRun`, with a block in the innermost one. -/
def deepBlockRun : List Op := deepRun ++ [.openBlock ⟨91⟩ none]

/-- What `deepBlockRun` leaves, by running it. -/
theorem deepBlockRun_facts :
    let ctx := Op.runs .initial deepBlockRun
    Op.AllAllowed (fun ctx op => op.Nests Context.WellNested ctx) .initial deepBlockRun ∧
    (lookup ⟨92⟩ "v").run' ctx = some (some ⟨94⟩) ∧ ctx.arena.size = 92 ∧
    (after (lookup ⟨92⟩ "v") ctx).arena.size = 94 ∧
    (lookup ⟨92⟩ "missing").run' ctx = some none := by
  decide +kernel

/-- From the block the first look-up allocates two copies and the second none. A look-up that finds
nothing changes nothing. -/
theorem lookup_stable_deepBlockRun :
    let ctx := Op.runs .initial deepBlockRun
    Reached (fun ctx op => op.Nests Context.WellNested ctx) ctx ∧ ctx.arena.size = 92 ∧
    (∃ ctx', lookup ⟨92⟩ "v" ctx = .ok (some ⟨94⟩) ctx' ∧ ctx'.arena.size = 94 ∧
      lookup ⟨92⟩ "v" ctx' = .ok (some ⟨94⟩) ctx') ∧
    lookup ⟨92⟩ "missing" ctx = .ok none ctx := by
  intro ctx
  obtain ⟨hallowed, hfound, hsize, hsize', hmissing⟩ := deepBlockRun_facts
  have hreached : Reached (fun ctx op => op.Nests Context.WellNested ctx) ctx :=
    Reached.initial.runs hallowed
  have hfound := eq_ok_of_run' hfound
  have hmissing := eq_ok_of_run' hmissing
  have hsame := (lookup_stable hreached hmissing).2 (Or.inl rfl)
  rw [hsame] at hmissing
  exact ⟨hreached, hsize, ⟨_, hfound, hsize', (lookup_stable hreached hfound).1⟩, hmissing⟩

end Sema

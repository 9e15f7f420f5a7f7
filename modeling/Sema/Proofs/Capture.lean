import Sema.Proofs.Operations

/-!
# `Sema.Proofs.Capture`: what a look-up writes

A look-up reads until a lambda finds a live variable in a function around it. Then every lambda from
there inward gets a copy, each made from the one before. `capturable?_eq_some` says where the search
stops, `capture_of_free` and `capture_of_taken` what one lambda does, and `makes_lookup` that a
look-up is a sequence of edits like every other operation.

A lambda that already has a member of the name refuses its copy, and the copies made before stay.
-/

set_option autoImplicit false

namespace Sema

namespace Context

variable {ctx : Context} {name : String}

/-- The function has a live variable of the name. -/
def LiveMember (ctx : Context) (func : SymbolId) (name : String) (x : SymbolId) : Prop :=
  ∃ o s, ctx.arena.get? func = some o ∧ o.members.find? name = some x ∧
    ctx.arena.get? x = some s ∧ s.isLive = true

/-- The search outward stops at the first function with a live variable of the name. -/
theorem capturable?_eq_some {inward around chain : List SymbolId} {found : SymbolId}
    (h : ctx.capturable? name inward around = .ok (some (found, chain))) :
    ∃ passed owner rest, around = passed ++ owner :: rest ∧ chain = passed.reverse ++ inward ∧
      ctx.LiveMember owner name found ∧ ∀ f ∈ passed, ∀ x, ¬ctx.LiveMember f name x := by
  -- Along the functions around the lambda, the innermost first; `inward` collects those passed.
  induction around generalizing inward with
  | nil => cases h
  | cons func rest ih =>
    obtain ⟨o, ho, hrest⟩ := except_bind_eq_ok h
    have ho := symbol_eq_ok_iff.mp ho
    -- Either this function has the variable, or it joins the functions that were passed.
    have hpass : (∀ x, ¬ctx.LiveMember func name x) →
        ctx.capturable? name (func :: inward) rest = .ok (some (found, chain)) →
        ∃ passed owner rest', func :: rest = passed ++ owner :: rest' ∧
          chain = passed.reverse ++ inward ∧ ctx.LiveMember owner name found ∧
          ∀ f ∈ passed, ∀ x, ¬ctx.LiveMember f name x := by
      intro hno hgo
      obtain ⟨passed, owner, rest', hsplit, hchain, hlive, hpassed⟩ := ih hgo
      refine ⟨func :: passed, owner, rest', by rw [hsplit]; rfl, by simp [hchain], hlive, ?_⟩
      intro f hf
      rcases List.mem_cons.mp hf with rfl | hf
      · exact hno
      · exact hpassed f hf
    cases hfind : o.members.find? name with
    | none =>
      simp only [hfind] at hrest
      refine hpass ?_ hrest
      rintro x ⟨o', s, ho', hx, -⟩
      rw [ho] at ho'
      cases ho'
      rw [hfind] at hx
      cases hx
    | some y =>
      simp only [hfind] at hrest
      obtain ⟨s, hs, hif⟩ := except_bind_eq_ok hrest
      have hs := symbol_eq_ok_iff.mp hs
      by_cases hlive : s.isLive = true
      · rw [if_pos hlive] at hif
        cases hif
        exact ⟨[], func, rest, rfl, rfl, ⟨o, s, ho, hfind, hs, hlive⟩, by simp⟩
      · rw [if_neg hlive] at hif
        refine hpass ?_ hif
        rintro x ⟨o', s', ho', hx, hs', hlive'⟩
        rw [ho] at ho'
        cases ho'
        rw [hfind] at hx
        cases hx
        rw [hs] at hs'
        cases hs'
        exact hlive hlive'

/-- What stands before a lambda on its stack. -/
theorem around_eq_ok {lambda : SymbolId} {stack before : List SymbolId}
    (h : around lambda stack = .ok before) : ∃ inner, stack = before ++ lambda :: inner := by
  unfold around at h
  split at h
  · rename_i hmem
    cases h
    obtain ⟨front, inner, hsplit, hfront⟩ := List.eq_append_cons_of_mem hmem
    -- The part before the first occurrence does not have the lambda in it.
    have htake : stack.takeWhile (· ≠ lambda) = front := by
      have hne : ∀ f ∈ front, decide (f ≠ lambda) = true := by
        intro f hf
        simpa using fun he : f = lambda => hfront (he ▸ hf)
      rw [hsplit, List.takeWhile_append_of_pos hne]
      simp
    exact ⟨inner, by rw [htake, hsplit]⟩
  · cases h

end Context

/-- Only lambdas have a stack. -/
theorem Context.stack?_eq_none {ctx : Context} {id : SymbolId} {s : Symbol}
    (hs : ctx.arena.get? id = some s) (hl : ¬s.isLambda = true) : ctx.stack? id = none := by
  have hnone : s.kind.lambda? = none := by simpa [Symbol.isLambda] using hl
  rw [Context.stack?, Context.lambda?_of_get? hs, hnone, Option.map_none]

/-- A new copy stands on no stack yet and has none. -/
theorem Context.NextInward.of_copied {ctx : Context} {source lambda : SymbolId}
    (h : ctx.NextInward source lambda) (s : Symbol) :
    ((Edit.alloc s.captured).write ctx).NextInward source lambda := by
  obtain ⟨asker, outer, owner, between, inner, o, name, hstack, hbetween, ho, hmem⟩ := h
  refine ⟨asker, outer, owner, between, inner, o, name, (ctx.grows_alloc _).stack? hstack, ?_, ?_,
    hmem⟩
  · intro f hf
    have hnone := hbetween f hf
    -- The new symbol is a plain copy, so it is no lambda between the two.
    by_cases he : f = ctx.nextId
    · have hnew : ((Edit.alloc s.captured).write ctx).arena.get? f = some s.captured := by
        rw [Context.get?_alloc, if_pos he]
      exact Context.stack?_eq_none hnew nofun
    · unfold Context.stack? Context.lambda? at hnone ⊢
      rw [Context.get?_alloc, if_neg he]
      exact hnone
  · exact Context.get?_alloc_of_get? _ ho

/-- A lambda is a function with a stack, and no native one. -/
theorem Symbol.exists_of_isLambda {s : Symbol} (h : s.isLambda = true) :
    ∃ info l, s.kind = .func info ∧ info.flavor = .lambda l := by
  obtain ⟨l, hl⟩ := Option.isSome_iff_exists.mp h
  obtain ⟨info, hk, hf⟩ := Option.bind_eq_some_iff.mp hl
  refine ⟨info, l, ?_, ?_⟩
  · cases hkind : s.kind <;> rw [hkind] at hk <;> cases hk
    rfl
  · cases hflavor : info.flavor <;> rw [hflavor] at hf <;> cases hf
    rfl

namespace SemaM

open Edit

variable {rules : Rules} {ctx : Context}

section OneLambda

variable {lambda source : SymbolId} {s o : Symbol} {slot : Nat}

/-- A lambda without a member of the name gets the copy as its last member. -/
theorem capture_of_free (hs : ctx.arena.get? source = some s) (hslot : s.slot = some slot)
    (ho : ctx.arena.get? lambda = some o) (hl : o.isLambda = true)
    (hnew : s.name ∉ o.members.keys) :
    capture lambda source ctx = .ok ctx.nextId
      ((Edit.capture lambda ctx.nextId
        { name := s.name, target := o.members.size, source := slot }).write
          ((Edit.alloc s.captured).write ctx)) := by
  obtain ⟨info, l, hi, hf⟩ := o.exists_of_isLambda hl
  have hscript : info.flavor.isNative = false := by rw [hf]; rfl
  -- The copy is allocated first, so both symbols are read after that.
  have ho₁ := Context.get?_alloc_of_get? s.captured ho
  have hc₁ := ctx.get?_alloc_nextId s.captured
  obtain ⟨c, hc, -, -, -, -, hcslot⟩ := Context.get?_enter_sym hc₁ ho₁ hnew
  obtain ⟨o', ho', -⟩ := Context.get?_enter_scope hc₁ ho₁ hnew
  unfold capture
  rw [bind_of_ok (symbol_run hs)]
  simp only [hslot]
  have halloc : alloc { name := s.name, kind := .var, type? := s.type?, location := s.location } ctx
      = .ok ctx.nextId ((Edit.alloc s.captured).write ctx) := rfl
  rw [bind_of_ok halloc, bind_of_ok (define_of_free ho₁ hi hscript hc₁ hnew),
    bind_of_ok (symbol_run hc)]
  -- The copy has no slot of its own, so it gets the next position of the lambda.
  have hcslot : c.slot = some o.members.size := hcslot
  simp only [hcslot]
  rw [bind_of_ok (modifySymbol_run _ ho')]
  rfl

/-- A lambda with a member of the name refuses the copy. -/
theorem capture_of_taken (hs : ctx.arena.get? source = some s) (hslot : s.slot = some slot)
    (ho : ctx.arena.get? lambda = some o) (hl : o.isLambda = true)
    (htaken : s.name ∈ o.members.keys) :
    capture lambda source ctx
      = .error s.captured.duplicate ((Edit.alloc s.captured).write ctx) := by
  obtain ⟨info, l, hi, hf⟩ := o.exists_of_isLambda hl
  have hscript : info.flavor.isNative = false := by rw [hf]; rfl
  have ho₁ := Context.get?_alloc_of_get? s.captured ho
  have hc₁ := ctx.get?_alloc_nextId s.captured
  unfold capture
  rw [bind_of_ok (symbol_run hs)]
  simp only [hslot]
  have halloc : alloc { name := s.name, kind := .var, type? := s.type?, location := s.location } ctx
      = .ok ctx.nextId ((Edit.alloc s.captured).write ctx) := rfl
  -- The copy is there already when the lambda refuses it.
  rw [bind_of_ok halloc, bind_of_error (define_of_taken ho₁ hi hscript hc₁ htaken)]

/-- What a successful capture found and wrote. -/
theorem capture_eq_ok {copy : SymbolId} {ctx' : Context} (hs : ctx.arena.get? source = some s)
    (ho : ctx.arena.get? lambda = some o) (hl : o.isLambda = true)
    (h : capture lambda source ctx = .ok copy ctx') :
    ∃ slot, s.slot = some slot ∧ s.name ∉ o.members.keys ∧ copy = ctx.nextId ∧
      ctx' = (Edit.capture lambda ctx.nextId
        { name := s.name, target := o.members.size, source := slot }).write
          ((Edit.alloc s.captured).write ctx) := by
  cases hslot : s.slot with
  | none =>
    obtain ⟨t, ctx₁, ht, hrest⟩ := bind_eq_ok h
    rw [symbol_run hs] at ht
    cases ht
    simp only [hslot] at hrest
    cases hrest
  | some slot =>
    by_cases htaken : s.name ∈ o.members.keys
    · rw [capture_of_taken hs hslot ho hl htaken] at h
      cases h
    · rw [capture_of_free hs hslot ho hl htaken] at h
      cases h
      exact ⟨slot, rfl, htaken, rfl, rfl⟩

/-- The copy becomes a member of the lambda. -/
theorem mem_of_capture {copy : SymbolId} {ctx' : Context} (hs : ctx.arena.get? source = some s)
    (ho : ctx.arena.get? lambda = some o) (hl : o.isLambda = true)
    (h : capture lambda source ctx = .ok copy ctx') :
    ∃ o', (s.name, copy) ∈ o'.members.entries ∧ ctx'.arena.get? lambda = some o' := by
  obtain ⟨slot, -, hnew, rfl, rfl⟩ := capture_eq_ok hs ho hl h
  have ho₁ := Context.get?_alloc_of_get? s.captured ho
  have hc₁ := ctx.get?_alloc_nextId s.captured
  obtain ⟨o', ho', -, hm'⟩ := Context.get?_enter_scope hc₁ ho₁ hnew
  obtain ⟨o'', ho'', hgrows⟩ :=
    (Context.grows_update _ lambda fun t => t.grows_withCapture _).symbols lambda o' ho'
  refine ⟨o'', hgrows.members.subset ?_, ho''⟩
  rw [hm']
  exact List.mem_append_right _ (List.mem_singleton.mpr rfl)

/-- The copy is a variable of the same name and has a slot. -/
theorem copy_of_capture {copy : SymbolId} {ctx' : Context} (hs : ctx.arena.get? source = some s)
    (ho : ctx.arena.get? lambda = some o) (hl : o.isLambda = true)
    (h : capture lambda source ctx = .ok copy ctx') :
    ∃ c, ctx'.arena.get? copy = some c ∧ c.kind.isVariable = true ∧ c.name = s.name ∧
      c.slot = some o.members.size := by
  obtain ⟨slot, -, hnew, rfl, rfl⟩ := capture_eq_ok hs ho hl h
  have ho₁ := Context.get?_alloc_of_get? s.captured ho
  have hc₁ := ctx.get?_alloc_nextId s.captured
  obtain ⟨c₁, hc₁, hname, hkind, -, -, hslot⟩ := Context.get?_enter_sym hc₁ ho₁ hnew
  -- What is noted last is noted in the lambda and not in the copy.
  obtain ⟨c, hc, hgrows⟩ :=
    (Context.grows_update _ lambda fun t => t.grows_withCapture _).symbols ctx.nextId c₁ hc₁
  refine ⟨c, hc, ?_, hgrows.name.trans hname, hgrows.slot _ hslot⟩
  rw [hgrows.kind.isVariable, hkind]
  rfl

/-- A capture changes nothing that exists but the lambda. -/
theorem get?_of_capture {copy f : SymbolId} {t : Symbol} {ctx' : Context}
    (hs : ctx.arena.get? source = some s) (ho : ctx.arena.get? lambda = some o)
    (hl : o.isLambda = true) (h : capture lambda source ctx = .ok copy ctx') (hne : f ≠ lambda)
    (hf : ctx.arena.get? f = some t) : ctx'.arena.get? f = some t := by
  obtain ⟨slot, -, -, rfl, rfl⟩ := capture_eq_ok hs ho hl h
  refine (Context.get?_update _ lambda f _).trans ?_
  rw [if_neg hne]
  refine (Context.get?_enter_of_ne hne (Context.ne_nextId hf)).trans ?_
  exact Context.get?_alloc_of_get? _ hf

/-- A capture copies the variable and enters the copy, or leaves a stray copy behind. -/
theorem makes_capture (hs : ctx.arena.get? source = some s) (hv : s.kind.isVariable = true)
    (ho : ctx.arena.get? lambda = some o) (hl : o.isLambda = true)
    (hnext : ctx.NextInward source lambda) : Makes (Nested rules) (capture lambda source) ctx := by
  cases hslot : s.slot with
  | none =>
    -- A variable without a slot is refused before anything is written.
    have hsame : after (capture lambda source) ctx = ctx := by
      unfold capture after
      rw [bind_of_ok (symbol_run hs)]
      simp only [hslot]
      rfl
    rw [Makes, hsame]
    exact .refl ctx
  | some slot =>
    by_cases htaken : s.name ∈ o.members.keys
    · -- The copy was allocated before the lambda refused it, so it stays behind.
      have hcopied : after (capture lambda source) ctx = (Edit.alloc s.captured).write ctx := by
        rw [after, capture_of_taken hs hslot ho hl htaken]
      rw [Makes, hcopied]
      exact .single (.copy hs hv)
    · rw [Makes, after_ok (capture_of_free hs hslot ho hl htaken)]
      have hs₁ := Context.get?_alloc_of_get? s.captured hs
      have hc₁ := ctx.get?_alloc_nextId s.captured
      have ho₁ := Context.get?_alloc_of_get? s.captured ho
      have hnext₁ := Context.NextInward.of_copied hnext s
      exact .step (.copy hs hv) (.single (.capture hs₁ hv hslot hc₁ ho₁ hl htaken hnext₁))

end OneLambda

/-- A capture that has come to the functions in `chain`, where `owner` has the variable that the
next lambda copies. -/
theorem makes_captureThrough {asker source owner : SymbolId} {s o : Symbol} {name : String}
    {outer between chain inner : List SymbolId}
    (hstack : ctx.stack? asker = some (outer ++ owner :: between ++ (chain ++ inner)))
    (hbetween : ∀ f ∈ between, ctx.stack? f = none) (ho : ctx.arena.get? owner = some o)
    (hmem : (name, source) ∈ o.members.entries) (hs : ctx.arena.get? source = some s)
    (hv : s.kind.isVariable = true) : Makes (Nested rules) (captureThrough source chain) ctx := by
  induction chain generalizing ctx source owner s o name outer between with
  | nil => exact makes_pure _
  | cons func rest ih =>
    unfold captureThrough
    refine makes_symbol_bind fun f hf => ?_
    by_cases hl : f.isLambda = true
    · -- A lambda: its copy is what the next one copies.
      rw [if_pos hl]
      have hnext : ctx.NextInward source func :=
        ⟨asker, outer, owner, between, rest ++ inner, o, name, hstack, hbetween, ho, hmem⟩
      have hmakes : Makes (Nested rules) (capture func source) ctx :=
        makes_capture hs hv hf hl hnext
      refine makes_bind hmakes fun copy ctx' hrun => ?_
      have hgrows := (hmakes.of_ok hrun).grows fun _ _ => Nested.grows
      have hstack' : ctx'.stack? asker
          = some ((outer ++ owner :: between) ++ func :: [] ++ (rest ++ inner)) := by
        simpa using hgrows.stack? hstack
      obtain ⟨o', hmem', ho'⟩ := mem_of_capture hs hf hl hrun
      obtain ⟨c, hc, hcv, -⟩ := copy_of_capture hs hf hl hrun
      exact ih hstack' (by simp) ho' hmem' hc hcv
    · -- Any other function is passed over.
      rw [if_neg hl]
      have hstack' : ctx.stack? asker
          = some (outer ++ owner :: (between ++ [func]) ++ (rest ++ inner)) := by
        simpa using hstack
      refine ih hstack' ?_ ho hmem hs hv
      intro g hg
      rcases List.mem_append.mp hg with hg | hg
      · exact hbetween g hg
      · rw [List.mem_singleton.mp hg]
        exact Context.stack?_eq_none hf hl

/-- Looking a name up in the functions around a lambda makes captures and nothing else. -/
theorem makes_lookupAround {lambda : SymbolId} {stack : List SymbolId} (name : String)
    (hstack : ctx.stack? lambda = some stack) :
    Makes (Nested rules) (lookupAround lambda stack name) ctx := by
  unfold lookupAround
  refine makes_query_bind fun before hbefore => makes_query_bind fun found hfound => ?_
  obtain ⟨inner, hsplit⟩ := Context.around_eq_ok hbefore
  split
  · rename_i source chain
    obtain ⟨passed, owner, rest, hrev, hchain, ⟨o, s, ho, hfind, hs, hlive⟩, -⟩ :=
      Context.capturable?_eq_some hfound
    have hv : s.kind.isVariable = true := (Bool.and_eq_true_iff.mp hlive).1
    -- Read outermost first, the stack is the rest, the owner, the chain and what is further inward.
    have hbefore : before = rest.reverse ++ owner :: passed.reverse := by
      rw [← List.reverse_reverse before, hrev]
      simp
    have hstack' : ctx.stack? lambda
        = some (rest.reverse ++ owner :: [] ++ (chain ++ inner)) := by
      rw [hstack, hsplit, hbefore, hchain]
      simp
    have hmem := (Assoc.find?_eq_some_iff _ _ _).mp hfind
    exact makes_bind (makes_captureThrough hstack' (by simp) ho hmem hs hv)
      fun _ _ _ => makes_pure _
  · exact makes_pure _

/-- A search around a lambda that finds nothing writes nothing. -/
theorem lookupAround_eq_none {lambda : SymbolId} {stack : List SymbolId} {name : String}
    {ctx' : Context} (h : lookupAround lambda stack name ctx = .ok none ctx') : ctx' = ctx := by
  obtain ⟨before, ctx₁, hbefore, hrest⟩ := bind_eq_ok h
  obtain ⟨-, rfl⟩ := query_eq_ok hbefore
  obtain ⟨found, ctx₂, hfound, hrest⟩ := bind_eq_ok hrest
  obtain ⟨-, rfl⟩ := query_eq_ok hfound
  cases found with
  | none =>
    cases hrest
    rfl
  | some p =>
    -- A variable that is found is captured, and the answer is its copy.
    obtain ⟨copy, ctx₃, -, hpure⟩ := bind_eq_ok hrest
    cases hpure

/-- Passing a search on makes no edits. -/
theorem makes_passOutward (scope : SymbolId) : Makes (Nested rules) (passOutward scope) ctx := by
  unfold passOutward
  refine makes_query_bind fun next _ => ?_
  split
  · exact makes_pure _
  · exact makes_pure _

/-- One step of a search makes captures and nothing else. -/
theorem makes_answer (scope : SymbolId) (name : String) :
    Makes (Nested rules) (answer scope name) ctx := by
  unfold answer
  refine makes_symbol_bind fun s hs => ?_
  split
  · exact makes_pure _
  · split
    · exact makes_query_bind fun _ _ => makes_pure _
    · split
      · exact makes_query_bind fun _ _ => makes_pure _
      · rename_i l _ _ hk
        -- Of all scopes only a lambda looks around itself.
        have hstack : ctx.stack? scope = some l.stack := by
          rw [Context.stack?, Context.lambda?_of_get? hs, hk]
          rfl
        refine makes_bind (makes_lookupAround name hstack) fun found ctx' _ => ?_
        split
        · exact makes_pure _
        · exact makes_passOutward scope
      · exact makes_passOutward scope

section Answer

variable {scope : SymbolId} {s : Symbol} {name : String}

/-- A block has its function answer. -/
theorem answer_of_block {b : BlockInfo} (hs : ctx.arena.get? scope = some s)
    (hk : s.kind = .block b) : answer scope name ctx = .ok (.passed b.func) ctx := by
  unfold answer
  rw [bind_of_ok (symbol_run hs)]
  simp only [hk]
  rfl

/-- A member of the name settles the search, hidden or not. -/
theorem answer_of_member {id : SymbolId} (hs : ctx.arena.get? scope = some s)
    (hb : ∀ b, s.kind ≠ .block b) (hfind : s.members.find? name = some id) :
    answer scope name ctx = (do return .settled (← query (·.visible id)) : SemaM Answer) ctx := by
  unfold answer
  rw [bind_of_ok (symbol_run hs)]
  cases hk : s.kind with
  | block b => exact absurd hk (hb b)
  | _ => simp only [hfind]

/-- The global scope asks the linked scopes. -/
theorem answer_of_global (hs : ctx.arena.get? scope = some s) (hk : s.kind = .globalScope)
    (hfind : s.members.find? name = none) :
    answer scope name ctx
      = (do return .settled (← query fun ctx => ctx.lookupAmong name ctx.links) : SemaM Answer)
          ctx := by
  unfold answer
  rw [bind_of_ok (symbol_run hs)]
  simp only [hk, hfind]

/-- A lambda asks the functions around it, and passes on if they have nothing. -/
theorem answer_of_lambda {stack : List SymbolId} (hs : ctx.arena.get? scope = some s)
    (hl : ctx.stack? scope = some stack) (hfind : s.members.find? name = none) :
    answer scope name ctx = (do
      match ← lookupAround scope stack name with
      | some id => return .settled (some id)
      | none => passOutward scope : SemaM Answer) ctx := by
  obtain ⟨l, hlam, rfl⟩ := Context.stack?_eq_some_iff.mp hl
  rw [Context.lambda?_of_get? hs] at hlam
  have hisl : s.isLambda = true := by simp [Symbol.isLambda, hlam]
  obtain ⟨⟨flavor, signature, defaults⟩, l', hk, hf⟩ := s.exists_of_isLambda hisl
  cases hf
  -- The symbol is that lambda and no other.
  have hsame : l' = l := by
    rw [hk] at hlam
    cases hlam
    rfl
  subst hsame
  unfold answer
  rewrite [bind_of_ok (symbol_run hs), hk, hfind]
  rfl

/-- Every other scope passes on. -/
theorem answer_of_plain (hs : ctx.arena.get? scope = some s) (hb : ∀ b, s.kind ≠ .block b)
    (hg : s.kind ≠ .globalScope) (hl : ctx.stack? scope = none)
    (hfind : s.members.find? name = none) :
    answer scope name ctx = passOutward scope ctx := by
  have hlam : s.kind.lambda? = none := by
    rw [← Context.lambda?_of_get? hs]
    exact Option.map_eq_none_iff.mp hl
  unfold answer
  rw [bind_of_ok (symbol_run hs)]
  cases hk : s.kind with
  | block b => exact absurd hk (hb b)
  | globalScope => exact absurd hk hg
  | func info =>
    obtain ⟨flavor, signature, defaults⟩ := info
    cases flavor with
    | lambda l =>
      rw [hk] at hlam
      cases hlam
    | _ => simp only [hfind]
  | _ => simp only [hfind]

/-- A scope that passes the search on has written nothing. -/
theorem answer_eq_passed {next : SymbolId} {ctx' : Context}
    (h : answer scope name ctx = .ok (.passed next) ctx') : ctx' = ctx := by
  have hpass : passOutward scope ctx = .ok (.passed next) ctx' → ctx' = ctx := by
    intro hrun
    obtain ⟨found, ctx₁, hfound, hrest⟩ := bind_eq_ok hrun
    obtain ⟨-, rfl⟩ := query_eq_ok hfound
    cases found <;> cases hrest
    rfl
  obtain ⟨s, ctx₁, hs, -⟩ := bind_eq_ok h
  obtain ⟨hs, rfl⟩ := query_eq_ok hs
  have hs := Context.symbol_eq_ok_iff.mp hs
  by_cases hb : ∃ b, s.kind = .block b
  · obtain ⟨b, hk⟩ := hb
    rw [answer_of_block hs hk] at h
    cases h
    rfl
  have hb := not_exists.mp hb
  cases hfind : s.members.find? name with
  | some id =>
    rw [answer_of_member hs hb hfind] at h
    obtain ⟨_, _, _, hpure⟩ := bind_eq_ok h
    cases hpure
  | none =>
    by_cases hg : s.kind = .globalScope
    · rw [answer_of_global hs hg hfind] at h
      obtain ⟨_, _, _, hpure⟩ := bind_eq_ok h
      cases hpure
    cases hl : ctx₁.stack? scope with
    | none =>
      rw [answer_of_plain hs hb hg hl hfind] at h
      exact hpass h
    | some stack =>
      rw [answer_of_lambda hs hl hfind] at h
      obtain ⟨found, ctx₂, hfound, hrest⟩ := bind_eq_ok h
      cases found with
      | some id => cases hrest
      | none =>
        -- Nothing was found around the lambda, so nothing was captured either.
        obtain rfl := lookupAround_eq_none hfound
        exact hpass hrest

end Answer

/-- A search makes captures and nothing else. -/
theorem makes_lookupWithin (fuel : Nat) (scope : SymbolId) (name : String) :
    Makes (Nested rules) (lookupWithin fuel scope name) ctx := by
  induction fuel generalizing scope with
  | zero => exact makes_throw _
  | succ fuel ih =>
    unfold lookupWithin
    refine makes_bind (makes_answer scope name) fun reply ctx' hreply => ?_
    cases reply with
    | settled result => exact makes_pure _
    | passed next =>
      obtain rfl := answer_eq_passed hreply
      exact ih next

/-- A look-up makes captures and nothing else. -/
theorem makes_lookup (scope : SymbolId) (name : String) :
    Makes (Nested rules) (lookup scope name) ctx :=
  makes_get_bind (makes_lookupWithin _ scope name)

/-- A look-up that has to succeed makes captures and nothing else. -/
theorem makes_require (scope : SymbolId) (name : String) (location : Option Location) :
    Makes (Nested rules) (require scope name location) ctx := by
  unfold require
  refine makes_bind (makes_lookup scope name) fun found _ _ => ?_
  split
  · exact makes_pure _
  · exact makes_throw _

/-- A new lambda, put into functions that the run allows. -/
theorem makes_addLambda {ret : TypeRef} {enclosing : List SymbolId} (name : String)
    (location : Option Location) (hnests : rules.nests ctx enclosing)
    (hret : rules.Allows ctx.slots.size ret) :
    Makes (Nested rules) (addLambda name ret enclosing location) ctx := by
  unfold addLambda
  cases hlast : enclosing.getLast? with
  | none => exact makes_throw _
  | some innermost =>
    -- There is an innermost function, so the stack is not empty.
    have hne : enclosing ≠ [] := by
      rintro rfl
      cases hlast
    have hfits : Nested rules ctx (.alloc
        { name
          kind := .func
            { flavor := .lambda { stack := enclosing ++ [ctx.nextId] }, signature := { ret } }
          scope := some innermost
          location }) := by
      rw [← hlast]
      exact .lambda hne hnests hret
    exact makes_get_bind (makes_alloc hfits)

end SemaM

end Sema

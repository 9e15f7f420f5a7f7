import Sema.Proofs.LookupFailure

/-!
# `Sema.Proofs.CaptureEffect`: what a capture changes

A variable that a lambda finds in a function around it is copied inward, one lambda after the
other. `Context.CapturedBy` says what one of the lambdas gets: the copy as its last member, and a
note of the slots that the value is taken from and put into. `Context.Captures` says it of all
lambdas on the way, and that nothing else changes. One lambda is `captures_of_free`, and
`Captures.cons` puts a lambda in front of those further inward.

`lookup_captures` is the result for a look-up from a lambda. Its copies are the next symbols that
are allocated, the outermost first, and the last of them is the answer.
-/

set_option autoImplicit false

namespace Sema

/-- Two variables have the same copies if they agree on what a copy takes over. -/
theorem Symbol.captured_eq_iff {s v : Symbol} :
    s.captured = v.captured ↔ s.name = v.name ∧ s.type? = v.type? ∧ s.location = v.location := by
  simp only [Symbol.captured, Symbol.mk.injEq, true_and, and_true]

/-- What a further capture makes of a lambda. -/
theorem Symbol.withCapture_of_lambda {o : Symbol} {info : FuncInfo} {l : LambdaInfo}
    {members : Members} {c : Capture} (hk : o.kind = .func info) (hf : info.flavor = .lambda l) :
    { o with members }.withCapture c
      = { o with
          members
          kind := .func
            { info with flavor := .lambda { l with captures := l.captures ++ [c] } } } := by
  simp [Symbol.withCapture, hk, hf]

namespace Context

/-- What is handed inward by a capture: the variable, and then the copies in the order in which they
are allocated. -/
def copyId (ctx : Context) (found : SymbolId) : Nat → SymbolId
  | 0 => found
  | j + 1 => ⟨ctx.arena.size + 1 + j⟩

/-- The lambda captures the variable `v` from `source`. It gets `copy` as its last member and notes
the slot that the value comes from and the one that it goes to. The rest of it stays as it was. -/
def CapturedBy (ctx ctx' : Context) (v : Symbol) (source copy lambda : SymbolId) : Prop :=
  ∃ (o : Symbol) (info : FuncInfo) (l : LambdaInfo) (members : Members) (src : Symbol) (slot : Nat),
    ctx.arena.get? lambda = some o ∧ o.kind = .func info ∧ info.flavor = .lambda l ∧
    ctx'.arena.get? source = some src ∧ src.slot = some slot ∧
    members.entries = o.members.entries ++ [(v.name, copy)] ∧
    -- The lambda gets a member and a note of the capture.
    ctx'.arena.get? lambda = some
      { o with
        members
        kind := .func
          { info with
            flavor := .lambda
              { l with
                captures := l.captures ++
                  [{ name := v.name, target := o.members.size, source := slot }] } } } ∧
    -- The copy takes the slot of its position in the lambda.
    ctx'.arena.get? copy = some
      { name := v.name
        kind := .var
        type? := v.type?
        location := v.location
        slot := some o.members.size
        scope := some lambda }

/-- The lambdas of a chain, outermost first, capture the variable `v` each from the one before, and
nothing else happens. -/
structure Captures (ctx ctx' : Context) (v : Symbol) (source : SymbolId) (chain : List SymbolId) :
    Prop where
  size : ctx'.arena.size = ctx.arena.size + chain.length
  each : ∀ j lambda, chain[j]? = some lambda →
    ctx.CapturedBy ctx' v (ctx.copyId source j) (ctx.copyId source (j + 1)) lambda
  others : ∀ x t, ctx.arena.get? x = some t → x ∉ chain → ctx'.arena.get? x = some t
  slots : ctx'.slots = ctx.slots
  links : ctx'.links = ctx.links
  structural : ctx'.structural = ctx.structural
  storages : ctx'.storages = ctx.storages

variable {ctx ctx₁ ctx₂ : Context} {source lambda : SymbolId} {v : Symbol}

/-- The lambda is one before and after, and finds the copy under the name. -/
theorem CapturedBy.exists_lambda {ctx' : Context} {copy : SymbolId}
    (h : ctx.CapturedBy ctx' v source copy lambda) :
    ∃ o o', ctx.arena.get? lambda = some o ∧ ctx'.arena.get? lambda = some o' ∧
      o.isLambda = true ∧ o'.isLambda = true ∧ o'.scope = o.scope ∧
      o'.members.find? v.name = some copy := by
  obtain ⟨o, info, l, members, src, slot, ho, hk, hl, -, -, hmembers, ho', -⟩ := h
  refine ⟨o, _, ho, ho', ?_, rfl, rfl, ?_⟩
  · simp [Symbol.isLambda, SymbolKind.lambda?, hk, SymbolKind.func?, hl, FuncFlavor.lambda?]
  · rw [Assoc.find?_eq_some_iff, hmembers]
    simp

/-- The copy takes over what a copy takes over, and belongs to the lambda. -/
theorem CapturedBy.exists_copy {ctx' : Context} {copy : SymbolId}
    (h : ctx.CapturedBy ctx' v source copy lambda) :
    ∃ slot, ctx'.arena.get? copy
      = some { v.captured with slot := some slot, scope := some lambda } := by
  obtain ⟨o, info, l, members, src, slot, -, -, -, -, -, -, -, hcopy⟩ := h
  exact ⟨_, hcopy⟩

/-- A copy is a new symbol. -/
theorem get?_copyId_succ (ctx : Context) (source : SymbolId) (j : Nat) :
    ctx.arena.get? (ctx.copyId source (j + 1)) = none := by
  rw [get?_eq_none_iff]
  right
  show ctx.arena.size < ctx.arena.size + 1 + j
  omega

/-- After one copy the numbering goes on from it. -/
theorem copyId_nextId (hsize : ctx₁.arena.size = ctx.arena.size + 1) (j : Nat) :
    ctx₁.copyId ctx.nextId j = ctx.copyId source (j + 1) := by
  cases j with
  | zero => rfl
  | succ j =>
    show (⟨ctx₁.arena.size + 1 + j⟩ : SymbolId) = ⟨ctx.arena.size + 1 + (j + 1)⟩
    rw [hsize]
    congr 1
    omega

/-- Nothing is captured through no lambdas. -/
theorem Captures.nil (ctx : Context) (v : Symbol) (source : SymbolId) :
    ctx.Captures ctx v source [] where
  size := rfl
  each j lambda h := by simp at h
  others x t ht _ := ht
  slots := rfl
  links := rfl
  structural := rfl
  storages := rfl

section Composition

variable {copy : SymbolId} {chain : List SymbolId}

/-- What a lambda got it keeps if the lambdas that follow are others. -/
theorem CapturedBy.followed (h : ctx.CapturedBy ctx₁ v source copy lambda)
    (hothers : ∀ x t, ctx₁.arena.get? x = some t → x ∉ chain → ctx₂.arena.get? x = some t)
    (hsource : source ∉ chain) (hcopy : copy ∉ chain) (hlambda : lambda ∉ chain) :
    ctx.CapturedBy ctx₂ v source copy lambda := by
  obtain ⟨o, info, l, members, src, slot, ho, hk, hl, hsrc, hslot, hmembers, hgets, hnew⟩ := h
  exact ⟨o, info, l, members, src, slot, ho, hk, hl, hothers _ _ hsrc hsource, hslot, hmembers,
    hothers _ _ hgets hlambda, hothers _ _ hnew hcopy⟩

/-- What a lambda got is the same seen from before another one was changed. -/
theorem CapturedBy.preceded (h : ctx₁.CapturedBy ctx₂ v source copy lambda)
    (hsame : ctx₁.arena.get? lambda = ctx.arena.get? lambda) :
    ctx.CapturedBy ctx₂ v source copy lambda := by
  obtain ⟨o, info, l, members, src, slot, ho, hrest⟩ := h
  exact ⟨o, info, l, members, src, slot, hsame ▸ ho, hrest⟩

/-- The lambdas further inward capture the copy that the first one got. -/
theorem Captures.cons (hfirst : ctx.Captures ctx₁ v source [lambda])
    (hrest : ctx₁.Captures ctx₂ v ctx.nextId chain) (hsource : source ∉ chain)
    (hlambda : lambda ∉ chain) (hexists : ∀ f ∈ chain, ctx.Exists f) :
    ctx.Captures ctx₂ v source (lambda :: chain) where
  size := by
    rw [hrest.size, hfirst.size, List.length_singleton, List.length_cons]
    omega
  each := by
    intro j f hf
    cases j with
    | zero =>
      cases hf
      -- The first copy is new, so it is none of the lambdas that follow.
      have hfresh : ctx.nextId ∉ chain := by
        intro hmem
        obtain ⟨t, ht⟩ := hexists _ hmem
        exact ne_nextId ht rfl
      exact (hfirst.each 0 lambda rfl).followed hrest.others hsource hfresh hlambda
    | succ j =>
      have hmem : f ∈ chain := List.mem_of_getElem? hf
      obtain ⟨t, ht⟩ := hexists f hmem
      -- The other lambdas are as they were when their turn comes.
      have hne : f ∉ [lambda] := fun heq => hlambda (List.mem_singleton.mp heq ▸ hmem)
      have hstep := hrest.each j f hf
      rw [copyId_nextId hfirst.size, copyId_nextId hfirst.size] at hstep
      exact hstep.preceded ((hfirst.others f t ht hne).trans ht.symm)
  others := by
    intro x t ht hx
    have hfirst' := hfirst.others x t ht fun heq => hx (by simp [List.mem_singleton.mp heq])
    exact hrest.others x t hfirst' fun hmem => hx (List.mem_cons_of_mem _ hmem)
  slots := hrest.slots.trans hfirst.slots
  links := hrest.links.trans hfirst.links
  structural := hrest.structural.trans hfirst.structural
  storages := hrest.storages.trans hfirst.storages

end Composition

end Context

namespace SemaM

variable {ctx : Context} {source : SymbolId} {s v : Symbol} {slot : Nat}

section OneLambda

variable {lambda : SymbolId} {o : Symbol} (hs : ctx.arena.get? source = some s)
  (hslot : s.slot = some slot) (ho : ctx.arena.get? lambda = some o) (hl : o.isLambda = true)
  (hnew : s.name ∉ o.members.keys)

include hs hslot ho hl hnew

/-- A lambda without a member of the name and the copy that it gets. -/
theorem capture_symbols :
    ∃ ctx', capture lambda source ctx = .ok ctx.nextId ctx' ∧
      ∃ members, members.entries = o.members.entries ++ [(s.name, ctx.nextId)] ∧
        ctx'.arena.get? lambda = some
          ({ o with members }.withCapture
            { name := s.name, target := o.members.size, source := slot }) ∧
        ctx'.arena.get? ctx.nextId = some
          { s.captured with slot := some o.members.size, scope := some lambda } := by
  have hne : ctx.nextId ≠ lambda := (Context.ne_nextId ho).symm
  obtain ⟨members, hentries, hget⟩ := Context.get?_enter (ctx.get?_alloc_nextId s.captured)
    (Context.get?_alloc_of_get? s.captured ho) hnew
  refine ⟨_, capture_of_free hs hslot ho hl hnew, members, hentries, ?_, ?_⟩
  · -- The lambda gets its member first and its note after that.
    refine (Context.get?_update _ lambda lambda _).trans ?_
    rw [if_pos rfl]
    refine (congrArg (Option.map _) (hget lambda)).trans ?_
    rw [Context.get?_alloc_of_get? _ ho]
    simp [hne.symm]
  · -- The copy is only touched when it becomes a member.
    refine (Context.get?_update _ lambda ctx.nextId _).trans ?_
    rw [if_neg hne]
    refine (hget ctx.nextId).trans ?_
    rw [ctx.get?_alloc_nextId]
    simp [hne, Symbol.enteredAt, Symbol.captured, SymbolKind.isSlotted]

/-- A capture allocates one symbol and writes nothing but symbols. -/
theorem capture_fields {copy : SymbolId} {ctx' : Context}
    (h : capture lambda source ctx = .ok copy ctx') :
    ctx'.arena.size = ctx.arena.size + 1 ∧ ctx'.slots = ctx.slots ∧ ctx'.links = ctx.links ∧
      ctx'.structural = ctx.structural ∧ ctx'.storages = ctx.storages := by
  rw [capture_of_free hs hslot ho hl hnew] at h
  cases h
  refine ⟨?_, ?_, ?_, ?_, ?_⟩
  · refine (Context.size_update _ _ _).trans ((Context.size_withMember _ _ _).trans ?_)
    simp [Edit.write, Arena.alloc, Arena.size]
  all_goals
    simp [Edit.write, Context.update_fields, Context.withMember_fields, Context.storages_update,
      Context.storages_withMember]

/-- One lambda captures a variable, which may be a copy of `v` itself. -/
theorem captures_of_free (hv : s.captured = v.captured) (hne : source ≠ lambda) :
    ∃ ctx', capture lambda source ctx = .ok ctx.nextId ctx' ∧
      ctx.Captures ctx' v source [lambda] := by
  obtain ⟨ctx', hrun, members, hentries, hlambda, hcopy⟩ := capture_symbols hs hslot ho hl hnew
  obtain ⟨hsize, hslots, hlinks, hstructural, hstorages⟩ :=
    capture_fields hs hslot ho hl hnew hrun
  have hothers : ∀ x t, ctx.arena.get? x = some t → x ∉ [lambda] → ctx'.arena.get? x = some t := by
    intro x t ht hx
    exact get?_of_capture hs ho hl hrun (fun heq => hx (by simp [heq])) ht
  obtain ⟨info, l, hk, hf⟩ := o.exists_of_isLambda hl
  obtain ⟨hname, htype, hlocation⟩ := Symbol.captured_eq_iff.mp hv
  refine ⟨ctx', hrun, hsize, ?_, hothers, hslots, hlinks, hstructural, hstorages⟩
  intro j f hf'
  cases j with
  | succ j => simp at hf'
  | zero =>
    cases hf'
    rw [Symbol.captured, hname, htype, hlocation] at hcopy
    rw [Symbol.withCapture_of_lambda hk hf, hname] at hlambda
    rw [hname] at hentries
    -- The variable itself stays as it is.
    have hsource := hothers source s hs (by simpa using hne)
    exact ⟨o, info, l, members, s, slot, ho, hk, hf, hsource, hslot, hentries, hlambda, hcopy⟩

end OneLambda

/-- A variable is copied through lambdas in which its name is free. -/
theorem captureThrough_captures {chain : List SymbolId} (hs : ctx.arena.get? source = some s)
    (hslot : ∃ slot, s.slot = some slot) (hvariable : s.kind.isVariable = true)
    (hv : s.captured = v.captured)
    (hlambda : ∀ f ∈ chain, ∃ o, ctx.arena.get? f = some o ∧ o.isLambda = true)
    (hnodup : chain.Nodup) (hfree : ∀ f ∈ chain, ¬ctx.Taken f v.name) :
    ∃ ctx', captureThrough source chain ctx = .ok (ctx.copyId source chain.length) ctx' ∧
      ctx.Captures ctx' v source chain := by
  -- Along the chain. The copy in one lambda is the source for the next.
  induction chain generalizing ctx source s with
  | nil => exact ⟨ctx, rfl, .nil ctx v source⟩
  | cons func rest ih =>
    obtain ⟨slot, hslot⟩ := hslot
    obtain ⟨hfunc, hnodup⟩ := List.nodup_cons.mp hnodup
    obtain ⟨o, ho, hl⟩ := hlambda func List.mem_cons_self
    have hlambda := fun f hf => hlambda f (List.mem_cons_of_mem _ hf)
    have hname := (Symbol.captured_eq_iff.mp hv).1
    have hnew : s.name ∉ o.members.keys := by
      intro hkey
      exact hfree func List.mem_cons_self ⟨o, ho, hname ▸ hkey⟩
    have hfree := fun f hf => hfree f (List.mem_cons_of_mem _ hf)
    -- A variable is no lambda.
    have hsource : ∀ f t, ctx.arena.get? f = some t → t.isLambda = true → source ≠ f := by
      rintro f t ht hlt rfl
      rw [hs] at ht
      cases ht
      obtain ⟨info, l, hk, -⟩ := s.exists_of_isLambda hlt
      rw [hk] at hvariable
      cases hvariable
    obtain ⟨ctx₁, hrun, hfirst⟩ := captures_of_free hs hslot ho hl hnew hv (hsource func o ho hl)
    have hsame : ∀ f ∈ rest, ctx₁.arena.get? f = ctx.arena.get? f := by
      intro f hf
      obtain ⟨t, ht, -⟩ := hlambda f hf
      rw [ht]
      exact hfirst.others f t ht fun heq => hfunc (List.mem_singleton.mp heq ▸ hf)
    obtain ⟨target, hcopy⟩ := (hfirst.each 0 func rfl).exists_copy
    obtain ⟨ctx₂, hrest, hcaptures⟩ := ih hcopy ⟨_, rfl⟩ rfl rfl
      (fun f hf => by rw [hsame f hf]; exact hlambda f hf) hnodup
      (fun f hf => by rw [Context.Taken, hsame f hf]; exact hfree f hf)
    refine ⟨ctx₂, ?_, hfirst.cons hcaptures ?_ hfunc ?_⟩
    · unfold captureThrough
      rw [bind_of_ok (symbol_run ho), if_pos hl, bind_of_ok hrun]
      rw [List.length_cons, ← Context.copyId_nextId hfirst.size]
      exact hrest
    · intro hmem
      obtain ⟨t, ht, hlt⟩ := hlambda source hmem
      exact hsource source t ht hlt rfl
    · intro f hf
      obtain ⟨t, ht, -⟩ := hlambda f hf
      exact ⟨t, ht⟩

section Lookup

variable {lambda owner found : SymbolId} {outer between : List SymbolId} {name : String}

/-- A lambda answers with its copy of the innermost live variable. -/
theorem answer_captures (hsound : ctx.Sound) (hchained : ctx.Chained)
    (hstack : ctx.stack? lambda = some (outer ++ owner :: between ++ [lambda]))
    (hlive : ctx.LiveMember owner name found) (hv : ctx.arena.get? found = some v)
    (hfree : ∀ f ∈ between ++ [lambda], ¬ctx.Taken f name) :
    ∃ ctx', answer lambda name ctx
        = .ok (.settled (some (ctx.copyId found (between ++ [lambda]).length))) ctx' ∧
      ctx.Captures ctx' v found (between ++ [lambda]) := by
  obtain ⟨s, slot, hs, hname, hslot, hvariable⟩ := hsound.variable_of_live hlive
  rw [hv] at hs
  cases hs
  have hchain := (hchained.nested hstack).1
  rw [show outer ++ owner :: between ++ [lambda] = outer ++ owner :: (between ++ [lambda]) by simp]
    at hchain
  obtain ⟨ctx', hrun, hcaptures⟩ := captureThrough_captures hv ⟨slot, hslot⟩ hvariable rfl
    (fun f hf => hchain.isLambda hf) hchain.nodup_inner (by rwa [hname])
  refine ⟨ctx', ?_, hcaptures⟩
  -- No lambda between has a member of the name, so none has a live one.
  have hbetween : ∀ f ∈ between, ∀ x, ¬ctx.LiveMember f name x := by
    intro f hf x hx
    exact hfree f (List.mem_append_left _ hf) hx.taken
  have haround := lookupAround_of_innermost hsound hchained hstack hlive hbetween
  rw [bind_of_ok hrun] at haround
  obtain ⟨o, ho⟩ := Context.exists_of_stack? hstack
  have hnone := (Context.not_taken_iff ho).mp (hfree lambda (by simp))
  rw [answer_of_lambda ho hstack hnone, bind_of_ok haround]
  rfl

end Lookup

end SemaM

/-- A lambda stands last among the functions inward of another one on its stack. -/
theorem Context.Chained.exists_between {ctx : Context} (h : ctx.Chained) {lambda owner : SymbolId}
    {outer inner : List SymbolId} (hstack : ctx.stack? lambda = some (outer ++ owner :: inner))
    (hinner : inner ≠ []) : ∃ between, inner = between ++ [lambda] := by
  obtain ⟨before, hbefore⟩ := h.exists_before hstack
  refine ⟨inner.dropLast, ?_⟩
  have hlast : inner.getLast hinner = lambda := by
    have hends := congrArg List.getLast? hbefore
    rw [List.getLast?_concat, List.getLast?_append_cons, List.getLast?_cons,
      List.getLast?_eq_some_getLast hinner] at hends
    simpa using hends
  rw [← hlast, List.dropLast_append_getLast]

open SemaM

/-- A look-up of a variable from a lambda. On the stack of the lambda `owner` has a live variable of
the name, and the lambdas `inner` after it have no member of the name. Then the look-up captures the
variable in all of these, from the outermost to the lambda itself, changes nothing else, and answers
with the lambda's own copy, which is new. -/
theorem lookup_captures {ctx : Context}
    (h : Reached (fun ctx op => op.Nests Context.WellNested ctx) ctx)
    {lambda owner found : SymbolId} {outer inner : List SymbolId} {name : String} {v : Symbol}
    (hstack : ctx.stack? lambda = some (outer ++ owner :: inner)) (hinner : inner ≠ [])
    (hlive : ctx.LiveMember owner name found) (hv : ctx.arena.get? found = some v)
    (hfree : ∀ f ∈ inner, ¬ctx.Taken f name) :
    ∃ copy c ctx', lookup lambda name ctx = .ok (some copy) ctx' ∧
      copy = ctx.copyId found inner.length ∧ v.name = name ∧ ctx.Captures ctx' v found inner ∧
      ctx.arena.get? copy = none ∧ ctx'.arena.get? copy = some c ∧ c.kind = .var ∧
      c.scope = some lambda := by
  have hsound := h.sound
  have hchained := h.chained fun _ _ hop => hop
  obtain ⟨between, rfl⟩ := hchained.exists_between hstack hinner
  rw [show outer ++ owner :: (between ++ [lambda]) = outer ++ owner :: between ++ [lambda] by simp]
    at hstack
  obtain ⟨ctx', hrun, hcaptures⟩ := answer_captures hsound hchained hstack hlive hv hfree
  obtain ⟨s, slot, hs, hname, -⟩ := hsound.variable_of_live hlive
  rw [hv] at hs
  cases hs
  -- The last lambda of the chain is the one that asks.
  obtain ⟨target, hcopy⟩ := (hcaptures.each between.length lambda (by simp)).exists_copy
  have hlength : between.length + 1 = (between ++ [lambda]).length := by simp
  have hnew := ctx.get?_copyId_succ found between.length
  rw [hlength] at hcopy hnew
  exact ⟨_, _, ctx', bind_of_ok hrun, rfl, hname, hcaptures, hnew, hcopy, rfl, rfl⟩

/-- Three lambdas in each other in a function. The function and the first lambda have a variable
`v`, and the second has one of another name. -/
def deepRun : List Op :=
  let type : TypeRef := { name := "int", slot := ⟨0⟩ }
  [.addScriptFunc "f" type none, .addVariable "v" type none, .define ⟨85⟩ ⟨86⟩,
    .addLambda "l1" type [⟨85⟩] none, .addVariable "v" type none, .define ⟨87⟩ ⟨88⟩,
    .addLambda "l2" type [⟨85⟩, ⟨87⟩] none, .addVariable "w" type none, .define ⟨89⟩ ⟨90⟩,
    .addLambda "l3" type [⟨85⟩, ⟨87⟩, ⟨89⟩] none]

/-- What `deepRun` leaves, by running it. -/
theorem deepRun_facts :
    let ctx := Op.runs .initial deepRun
    Op.AllAllowed (fun ctx op => op.Nests Context.WellNested ctx) .initial deepRun ∧
    ctx.arena.size = 91 ∧ ctx.stack? ⟨91⟩ = some [⟨85⟩, ⟨87⟩, ⟨89⟩, ⟨91⟩] ∧
    (ctx.arena.get? ⟨87⟩).bind (·.members.find? "v") = some ⟨88⟩ ∧
    (ctx.arena.get? ⟨88⟩).map Symbol.isLive = some true ∧
    (ctx.arena.get? ⟨89⟩).map (·.members.keys) = some ["w"] ∧
    (ctx.arena.get? ⟨91⟩).map (·.members.keys) = some [] := by
  decide +kernel

/-- The innermost lambda gets the variable of the outermost one, through the lambda between. -/
theorem lookup_captures_deepRun :
    let ctx := Op.runs .initial deepRun
    Reached (fun ctx op => op.Nests Context.WellNested ctx) ctx ∧
    ctx.stack? ⟨91⟩ = some ([⟨85⟩] ++ ⟨87⟩ :: [⟨89⟩, ⟨91⟩]) ∧
    ctx.LiveMember ⟨87⟩ "v" ⟨88⟩ ∧ (∀ f ∈ [⟨89⟩, ⟨91⟩], ¬ctx.Taken f "v") ∧
    ∃ v ctx', ctx.arena.get? ⟨88⟩ = some v ∧ lookup ⟨91⟩ "v" ctx = .ok (some ⟨93⟩) ctx' ∧
      ctx.Captures ctx' v ⟨88⟩ [⟨89⟩, ⟨91⟩] := by
  intro ctx
  obtain ⟨hallowed, hsize, hstack, hfind, hlive, hsecond, hthird⟩ := deepRun_facts
  have hreached : Reached (fun ctx op => op.Nests Context.WellNested ctx) ctx :=
    Reached.initial.runs hallowed
  obtain ⟨o, ho, hfind⟩ := Option.bind_eq_some_iff.mp hfind
  obtain ⟨v, hv, hlive⟩ := Option.map_eq_some_iff.mp hlive
  have hlive : ctx.LiveMember ⟨87⟩ "v" ⟨88⟩ := ⟨o, v, ho, hfind, hv, hlive⟩
  have hstack : ctx.stack? ⟨91⟩ = some ([⟨85⟩] ++ ⟨87⟩ :: [⟨89⟩, ⟨91⟩]) := hstack
  -- Neither of the two lambdas has the name.
  have hfree : ∀ f ∈ [⟨89⟩, ⟨91⟩], ¬ctx.Taken f "v" := by
    intro f hf
    rcases List.mem_pair.mp hf with rfl | rfl
    · exact Context.not_taken_of_keys hsecond (by decide)
    · exact Context.not_taken_of_keys hthird (by decide)
  obtain ⟨copy, -, ctx', hrun, hcopy, -, hcaptures, -⟩ :=
    lookup_captures hreached hstack (by simp) hlive hv hfree
  have hcopy : copy = ⟨93⟩ := by
    rw [hcopy]
    show (⟨ctx.arena.size + 1 + 1⟩ : SymbolId) = ⟨93⟩
    rw [hsize]
  rw [hcopy] at hrun
  exact ⟨hreached, hstack, hlive, hfree, v, ctx', hv, hrun, hcaptures⟩

end Sema

import Sema.Proofs.Slots

/-!
# `Sema.Proofs.CaptureChain`: captures fit together

A lambda notes for each captured variable which slot of its own it is kept in and from which slot of
the function around it that slot is filled. The machine relies on these numbers. `captures_chained`
says that they are right in every state that a well-nested run reaches which defines every symbol
once: the own slot is a variable of the name, the other slot is a variable of the same name and type
in the function before the lambda on its stack, and no name and no slot is noted twice.

Captures are made through many lambdas at once, from any of them, between other definitions, and
they may fail half way. None of this matters to the proof, because each capture is one edit. Its
guard says that the source stands in a function further out with no lambda between
(`Context.NextInward`). On a stack of a well-nested run, which is a `Context.Chain`, this is the
function just before.

A call that fails may have defined a symbol by then, and this counts: the symbol keeps the slot that
it got there when another call defines it for good. `refused_parameter_misleads_capture` shows a
capture that then points at the wrong variable, in a run whose successful calls define every symbol
once.
-/

set_option autoImplicit false

namespace Sema

namespace Context

variable {a b ctx : Context}

/-- A stack that a well-nested run builds: a plain function, and then lambdas that each have
everything before them on their own stack. -/
inductive Chain (ctx : Context) : List SymbolId → Prop
  | plain {func : SymbolId} {s : Symbol} {info : FuncInfo} (hs : ctx.arena.get? func = some s)
      (hk : s.kind = .func info) (hl : ctx.lambda? func = none) : Chain ctx [func]
  | lambda {outer : List SymbolId} {lambda : SymbolId} (h : Chain ctx outer)
      (hl : ctx.stack? lambda = some (outer ++ [lambda])) : Chain ctx (outer ++ [lambda])

/-- A chain stays a chain. -/
theorem Chain.grows (hgrows : a.Grows b) {stack : List SymbolId} (h : a.Chain stack) :
    b.Chain stack := by
  induction h with
  | plain hs hk hl =>
    obtain ⟨t, ht, hst⟩ := hgrows.symbols _ _ hs
    obtain ⟨info', hk', -⟩ := hst.kind.of_func hk
    exact .plain ht hk' (hgrows.lambda?_eq_none hs hl)
  | lambda _ hl ih => exact .lambda ih (hgrows.stack? hl)

/-- Whatever has something before it on such a stack is a lambda, and that is what stands before it
on its own stack. -/
theorem Chain.stack?_of_append {stack before after : List SymbolId} {x : SymbolId}
    (h : ctx.Chain stack) (hsplit : stack = before ++ x :: after) (hne : before ≠ []) :
    ctx.stack? x = some (before ++ [x]) := by
  induction h generalizing after with
  | plain =>
    -- One function has nothing before it.
    cases before with
    | nil => exact absurd rfl hne
    | cons f rest => simp at hsplit
  | @lambda outer lambda _ hl ih =>
    rcases List.eq_nil_or_concat after with rfl | ⟨front, last, rfl⟩
    · obtain ⟨rfl, hx⟩ := List.append_inj' hsplit rfl
      cases hx
      exact hl
    · have hsplit' : outer ++ [lambda] = (before ++ x :: front) ++ [last] := by
        simpa using hsplit
      exact ih (List.append_inj' hsplit' rfl).1

/-- The next lambda inward from a function is the one just after it. -/
theorem Chain.next_inward {outer between inner : List SymbolId} {owner lambda : SymbolId}
    (h : ctx.Chain (outer ++ owner :: between ++ lambda :: inner))
    (hbetween : ∀ f ∈ between, ctx.stack? f = none) :
    ctx.stack? lambda = some (outer ++ [owner, lambda]) := by
  -- In a chain all functions but the first are lambdas, so none can stand between.
  have hnil : between = [] := by
    cases between with
    | nil => rfl
    | cons f rest =>
      have hsplit : outer ++ owner :: (f :: rest) ++ lambda :: inner
          = (outer ++ [owner]) ++ f :: (rest ++ lambda :: inner) := by simp
      have hf := h.stack?_of_append hsplit (by simp)
      rw [hbetween f List.mem_cons_self] at hf
      cases hf
  subst hnil
  simpa using h.stack?_of_append rfl (by simp)

/-! ### What edits do to lambdas -/

/-- An update that keeps the lambda of every symbol keeps all lambdas. -/
theorem lambda?_update {changed : SymbolId} {f : Symbol → Symbol}
    (h : ∀ s : Symbol, (f s).kind.lambda? = s.kind.lambda?) :
    (ctx.update changed f).lambda? = ctx.lambda? := by
  funext x
  have hmap := ctx.map_get?_update (v := fun s => s.kind.lambda?) changed h x
  simpa [lambda?, Option.bind_map, Function.comp_def] using congrArg (Option.bind · id) hmap

/-- A new member is no capture. -/
theorem lambda?_withMember (scope sym : SymbolId) :
    (ctx.withMember scope sym).lambda? = ctx.lambda? := by
  unfold withMember
  split
  · split
    · rw [lambda?_update, lambda?_update]
      · intro s
        rfl
      · intro s
        rfl
    · rfl
  · rfl

/-- A new symbol comes with its lambda and changes no other. -/
theorem lambda?_alloc (s : Symbol) (x : SymbolId) :
    ((Edit.alloc s).write ctx).lambda? x
      = if x = ctx.nextId then s.kind.lambda? else ctx.lambda? x := by
  unfold lambda?
  rw [get?_alloc]
  split <;> rfl

end Context

namespace Symbol

/-- A parameter of the signature is no capture. -/
theorem lambda?_withParam (s : Symbol) (type : TypeRef) (hasDefault : Bool) :
    (s.withParam type hasDefault).kind.lambda? = s.kind.lambda? := by
  unfold withParam
  split
  · rename_i info hk
    rw [hk]
    rfl
  · rfl

/-- A class is no lambda, with and without a creator. -/
theorem lambda?_withCreator (s : Symbol) (make : Option Creator) :
    (s.withCreator make).kind.lambda? = s.kind.lambda? := by
  unfold withCreator
  split
  · rename_i info hk
    rw [hk]
    rfl
  · rfl

/-- A block is no lambda, whatever it notes. -/
theorem lambda?_withBlockVar (s : Symbol) (var : SymbolId) :
    (s.withBlockVar var).kind.lambda? = s.kind.lambda? := by
  unfold withBlockVar
  split
  · rename_i b hk
    rw [hk]
    rfl
  · rfl

/-- A capture is noted last in its lambda. -/
theorem lambda?_withCapture (s : Symbol) (c : Capture) :
    (s.withCapture c).kind.lambda?
      = s.kind.lambda?.map fun l => { l with captures := l.captures ++ [c] } := by
  unfold withCapture
  split
  · rename_i info hk
    split
    · rename_i l hl
      rw [hk]
      simp only [SymbolKind.lambda?, SymbolKind.func?, Option.bind_some, hl]
      rfl
    · rename_i hl
      rw [hk]
      -- A function that is no lambda notes nothing.
      cases hf : info.flavor with
      | lambda l => exact absurd hf (hl l)
      | _ => simp [SymbolKind.lambda?, SymbolKind.func?, hf, FuncFlavor.lambda?]
  · rename_i hk
    cases hkind : s.kind with
    | func info => exact absurd hkind (hk info)
    | _ => rfl

end Symbol

namespace Edit

variable {rules : Rules} {ctx : Context} {e : Edit}

/-- Quiet edits make no lambdas and no captures. -/
theorem Quiet.lambda?_write (he : Quiet rules ctx e) {x : SymbolId} {l : LambdaInfo}
    (h : (e.write ctx).lambda? x = some l) : ctx.lambda? x = some l := by
  cases he with
  | @alloc s hb =>
    rw [Context.lambda?_alloc] at h
    split at h
    · -- A function that is new after a quiet edit is no lambda.
      have hkind := hb.kind
      obtain ⟨info, hk, hf⟩ := Option.bind_eq_some_iff.mp h
      cases hs : s.kind with
      | func i =>
        rw [hs] at hk hkind
        cases hk
        rw [hkind.1] at hf
        cases hf
      | _ =>
        rw [hs] at hk
        cases hk
    · exact h
  | enter => rwa [Edit.write, Context.lambda?_withMember] at h
  | nest =>
    rw [Edit.write, Context.lambda?_update, Context.lambda?_update] at h
    · exact h
    · exact fun _ => rfl
    · exact fun s => s.lambda?_withBlockVar _
  | param => rwa [Edit.write, Context.lambda?_update fun s => s.lambda?_withParam _ _] at h
  | creator => rwa [Edit.write, Context.lambda?_update fun s => s.lambda?_withCreator _] at h
  | hide =>
    rw [Edit.write, Context.lambda?_update] at h
    · exact h
    · exact fun _ => rfl
  | newSlot => exact h
  | fill => exact h
  | link =>
    simp only [Edit.write] at h
    split at h
    · exact h
    · exact h

/-- A lambda after an edit is as it was, or is new, or has noted one capture more. -/
theorem Fits.lambda?_write (he : Fits rules ctx e) {x : SymbolId} {l : LambdaInfo}
    (h : (e.write ctx).lambda? x = some l) :
    ctx.lambda? x = some l ∨
    (∃ enclosing, enclosing ≠ [] ∧ rules.nests ctx enclosing ∧ x = ctx.nextId ∧
      l = { stack := enclosing ++ [ctx.nextId] }) ∨
    ∃ copy c l₀, e = .capture x copy c ∧ ctx.lambda? x = some l₀ ∧
      l = { l₀ with captures := l₀.captures ++ [c] } := by
  cases he with
  | plain he =>
    cases he with
    | quiet he => exact Or.inl (he.lambda?_write h)
    | keep => exact Or.inl h
    | storage => exact Or.inl h
  | inherit =>
    rw [Context.lambda?_alloc] at h
    split at h
    · cases h
    · exact Or.inl h
  | nested he =>
    cases he with
    -- The one edit that makes a lambda.
    | @lambda name ret enclosing location hne hnests =>
      rw [Context.lambda?_alloc] at h
      split at h
      · rename_i hx
        cases h
        exact Or.inr (Or.inl ⟨enclosing, hne, hnests, hx, rfl⟩)
      · exact Or.inl h
    | copy =>
      rw [Context.lambda?_alloc] at h
      split at h
      · cases h
      · exact Or.inl h
    | @capture lambda copy source s o slot =>
      rw [Edit.write, Context.lambda?, Context.get?_update] at h
      rw [← Context.lambda?_withMember lambda copy, Context.lambda?]
      by_cases hx : x = lambda
      · -- The copy enters as a member, which leaves the captures alone; then the capture is noted.
        subst hx
        rw [if_pos rfl] at h
        obtain ⟨t, ht, hl⟩ := Option.bind_eq_some_iff.mp h
        obtain ⟨t₀, ht₀, rfl⟩ := Option.map_eq_some_iff.mp ht
        rw [Symbol.lambda?_withCapture] at hl
        obtain ⟨l₀, hl₀, rfl⟩ := Option.map_eq_some_iff.mp hl
        exact Or.inr (Or.inr ⟨copy, _, l₀, rfl, by rw [ht₀]; exact hl₀, rfl⟩)
      · rw [if_neg hx] at h
        exact Or.inl h
    | quiet he => exact Or.inl (he.lambda?_write h)

end Edit

/-! ### The invariant -/

namespace Context

variable {a b ctx : Context}

/-- A capture of a lambda is in order: the lambda has a variable in slot `target`, and the function
before it on its stack has one of the same name and type with slot `source`. -/
def Fills (ctx : Context) (lambda : SymbolId) (c : Capture) : Prop :=
  ∃ outer owner source copy u t,
    ctx.stack? lambda = some (outer ++ [owner, lambda]) ∧
    (∃ i, ctx.At owner i c.name source) ∧ ctx.arena.get? source = some u ∧
    u.kind.isVariable = true ∧ u.slot = some c.source ∧
    ctx.At lambda c.target c.name copy ∧ ctx.arena.get? copy = some t ∧
    t.kind = .var ∧ t.slot = some c.target ∧ t.type? = u.type?

/-- A capture keeps its source and its copy. -/
theorem Fills.grows (hgrows : a.Grows b) {lambda : SymbolId} {c : Capture} (h : a.Fills lambda c) :
    b.Fills lambda c := by
  obtain ⟨outer, owner, source, copy, u, t, hstack, ⟨i, hi⟩, hu, huv, hus, hc, ht, htv, hts,
    htype⟩ := h
  obtain ⟨u', hu', hgu⟩ := hgrows.symbols source u hu
  obtain ⟨t', ht', hgt⟩ := hgrows.symbols copy t ht
  refine ⟨outer, owner, source, copy, u', t', hgrows.stack? hstack, ⟨i, hgrows.at hi⟩, hu', ?_,
    hgu.slot _ hus, hgrows.at hc, ht', hgt.kind.of_var htv, hgt.slot _ hts, ?_⟩
  · rw [hgu.kind.isVariable]
    exact huv
  · rw [hgt.type?, hgu.type?, htype]

/-- Every variable has a type reference. -/
def Typed (ctx : Context) : Prop :=
  ∀ ⦃x s⦄, ctx.arena.get? x = some s → s.kind.isVariable = true → s.type?.isSome = true

/-- The bare context has no variables. -/
theorem bare_typed : bare.Typed := by
  intro x s hs hv
  rw [eq_of_get?_bare hs] at hv
  cases hv

/-- Lambdas stand on chains and their captures are in order. -/
structure Chained (ctx : Context) : Prop where
  nested : ∀ {id stack}, ctx.stack? id = some stack →
    ctx.Chain stack ∧ ∃ outer owner, stack = outer ++ [owner, id]
  typed : ∀ {x s}, ctx.arena.get? x = some s → s.kind.isVariable = true → s.type?.isSome = true
  fills : ∀ {lambda l c}, ctx.lambda? lambda = some l → c ∈ l.captures → ctx.Fills lambda c
  names : ∀ {lambda l}, ctx.lambda? lambda = some l → (l.captures.map Capture.name).Nodup
  targets : ∀ {lambda l}, ctx.lambda? lambda = some l → (l.captures.map Capture.target).Nodup

/-- A new lambda of a well-nested run stands on a chain. -/
theorem Chained.chain_of_wellNested (h : ctx.Chained) {enclosing : List SymbolId}
    (hnests : ctx.WellNested enclosing) :
    ctx.Chain enclosing ∧ ∃ outer owner, enclosing = outer ++ [owner] := by
  rcases hnests with ⟨func, s, info, rfl, hs, hk, hl⟩ | ⟨lambda, hl⟩
  · exact ⟨.plain hs hk (Option.map_eq_none_iff.mp hl), [], func, rfl⟩
  · obtain ⟨hchain, outer, owner, rfl⟩ := h.nested hl
    exact ⟨hchain, outer ++ [owner], lambda, by simp⟩

/-- The bare context has no lambdas. -/
theorem bare_chained : bare.Chained := by
  have hno : ∀ {x l}, bare.lambda? x ≠ some l := by
    intro x l hl
    obtain ⟨s, hs, hl⟩ := Option.bind_eq_some_iff.mp hl
    rw [eq_of_get?_bare hs] at hl
    cases hl
  refine ⟨fun hs => ?_, @bare_typed, fun hl => absurd hl hno, fun hl => absurd hl hno,
    fun hl => absurd hl hno⟩
  obtain ⟨l, hl, -⟩ := stack?_eq_some_iff.mp hs
  exact absurd hl hno

end Context

namespace Edit

variable {rules : Rules} {ctx : Context} {e : Edit}

/-- A capture that a lambda notes is in order from then on. -/
theorem fills_of_capture {lambda copy source : SymbolId} {s o : Symbol} {slot : Nat}
    (hsound : ctx.Sound) (h : ctx.Chained) (hs : ctx.arena.get? source = some s)
    (hv : s.kind.isVariable = true) (hslot : s.slot = some slot)
    (hc : ctx.arena.get? copy = some s.captured) (ho : ctx.arena.get? lambda = some o)
    (hnew : s.name ∉ o.members.keys) (hnext : ctx.NextInward source lambda) :
    ((Edit.capture lambda copy { name := s.name, target := o.members.size, source := slot }).write
      ctx).Fills lambda { name := s.name, target := o.members.size, source := slot } := by
  have henter := Context.grows_enter hc ho hnew
  have hnote := Context.grows_update ((Edit.enter lambda copy).write ctx) lambda fun t =>
    t.grows_withCapture { name := s.name, target := o.members.size, source := slot }
  have hgrows := henter.trans hnote
  obtain ⟨asker, outer, owner, between, inner, p, name, hstack, hbetween, hp, hmem⟩ := hnext
  -- The source stands in the function just before the lambda, under its own name.
  have hlambda := (h.nested hstack).1.next_inward hbetween
  obtain ⟨i, hi⟩ := List.mem_iff_getElem?.mp hmem
  have hat : ctx.At owner i name source := ⟨p, hp, hi⟩
  obtain ⟨l, hl, rfl⟩ := hsound.named hat
  have hname : l.name = s.name := by
    rw [Context.layout?, hs] at hl
    cases hl
    rfl
  rw [hname] at hat
  obtain ⟨u, hu, hsu⟩ := hgrows.symbols source s hs
  -- The copy is the last member of the lambda.
  have hcopy : ((Edit.enter lambda copy).write ctx).At lambda o.members.size s.name copy :=
    (Context.at_enter hc ho hnew).mpr (Or.inr ⟨rfl, rfl, rfl, rfl⟩)
  obtain ⟨t₁, ht₁, -, hkind, htype, -, hslot₁⟩ := Context.get?_enter_sym hc ho hnew
  obtain ⟨t, ht, htt⟩ := hnote.symbols copy t₁ ht₁
  refine ⟨outer, owner, source, copy, u, t, hgrows.stack? hlambda, ⟨i, hgrows.at hat⟩, hu, ?_,
    hsu.slot slot hslot, hnote.at hcopy, ht, htt.kind.of_var hkind, htt.slot _ hslot₁, ?_⟩
  · rw [hsu.kind.isVariable]
    exact hv
  · rw [htt.type?, htype, hsu.type?]
    rfl

/-- After an edit every stack is a chain that ends in its lambda. -/
theorem Fits.chain_of_stack (he : Fits { nests := Context.WellNested } ctx e) (h : ctx.Chained)
    {x : SymbolId} {stack : List SymbolId} (hx : (e.write ctx).stack? x = some stack) :
    (e.write ctx).Chain stack ∧ ∃ outer owner, stack = outer ++ [owner, x] := by
  -- A stack that was there is a chain still.
  have hold : ctx.stack? x = some stack →
      (e.write ctx).Chain stack ∧ ∃ outer owner, stack = outer ++ [owner, x] := by
    intro hx
    obtain ⟨hchain, hends⟩ := h.nested hx
    exact ⟨hchain.grows he.grows, hends⟩
  obtain ⟨l, hl, rfl⟩ := Context.stack?_eq_some_iff.mp hx
  rcases he.lambda?_write hl with
    hsame | ⟨enclosing, -, hnests, rfl, rfl⟩ | ⟨copy, c, l₀, -, hl₀, rfl⟩
  · exact hold (Context.stack?_eq_some_iff.mpr ⟨l, hsame, rfl⟩)
  · -- A new lambda is put on top of a chain.
    obtain ⟨hchain, outer, owner, rfl⟩ := h.chain_of_wellNested hnests
    exact ⟨.lambda (hchain.grows he.grows) hx, outer, owner, by simp⟩
  · exact hold (Context.stack?_eq_some_iff.mpr ⟨l₀, hl₀, rfl⟩)

/-- Every elementary change leaves all variables with a type reference. -/
theorem Fits.typed (he : Fits rules ctx e) (h : ctx.Typed) : (e.write ctx).Typed := by
  intro x s hs hv
  rcases he.grown_or_born hs with ⟨s₀, hs₀, hgrows⟩ | hborn
  · rw [hgrows.type?]
    exact h hs₀ (hgrows.kind.isVariable ▸ hv)
  · cases hborn with
    | blank hb => exact hb.typed hv
    | lambda => cases hv
    | copy hsrc hsv =>
      -- The copy of a variable has the type reference of the variable.
      have htyped := h hsrc hsv
      exact htyped
    | heir => cases hv

/-- Every elementary change of a well-nested run keeps the captures in order. -/
theorem Fits.chained (he : Fits { nests := Context.WellNested } ctx e) (hsound : ctx.Sound)
    (h : ctx.Chained) : (e.write ctx).Chained := by
  -- A capture that is noted has a new name and a new slot: the name was free in the lambda.
  have hnoted : ∀ {x copy c l₀}, e = .capture x copy c → ctx.lambda? x = some l₀ →
      (e.write ctx).Fills x c ∧ c.name ∉ l₀.captures.map Capture.name ∧
        c.target ∉ l₀.captures.map Capture.target := by
    intro x copy c l₀ hcapture hl₀
    subst hcapture
    cases he with
    | plain he =>
      cases he with
      | quiet he => cases he
    | nested he =>
      cases he with
      | quiet he => cases he
      | @capture _ _ source s o slot hs hv hslot hc ho hlam hnew hnext =>
        -- Each earlier capture has a member of its name at its target.
        have hearlier : ∀ c' ∈ l₀.captures, ∃ copy',
            o.members.entries[c'.target]? = some (c'.name, copy') := by
          intro c' hc'
          obtain ⟨-, -, -, copy', -, -, -, -, -, -, -, ⟨o', ho', hat⟩, -⟩ := h.fills hl₀ hc'
          rw [ho] at ho'
          cases ho'
          exact ⟨copy', hat⟩
        refine ⟨fills_of_capture hsound h hs hv hslot hc ho hnew hnext, ?_, ?_⟩
        · intro hmem
          obtain ⟨c', hc', hname⟩ := List.mem_map.mp hmem
          obtain ⟨copy', hat⟩ := hearlier c' hc'
          have hname : c'.name = s.name := hname
          rw [hname] at hat
          exact hnew ((Assoc.mem_keys_iff _ _).mpr ⟨copy', List.mem_of_getElem? hat⟩)
        · intro hmem
          obtain ⟨c', hc', htarget⟩ := List.mem_map.mp hmem
          obtain ⟨copy', hat⟩ := hearlier c' hc'
          have hlt := (List.getElem?_eq_some_iff.mp hat).1
          have hsize : c'.target = o.members.entries.length := htarget
          omega
  have htyped : (e.write ctx).Typed := he.typed fun _ _ => h.typed
  refine ⟨he.chain_of_stack h, @htyped, fun {x l c} hl hc => ?_, fun {x l} hl => ?_,
    fun {x l} hl => ?_⟩
  · rcases he.lambda?_write hl with hsame | ⟨_, -, -, -, rfl⟩ | ⟨copy, c', l₀, heq, hl₀, rfl⟩
    · exact (h.fills hsame hc).grows he.grows
    · cases hc
    · rcases List.mem_append.mp hc with hc | hc
      · exact (h.fills hl₀ hc).grows he.grows
      · rw [List.mem_singleton.mp hc]
        exact (hnoted heq hl₀).1
  · rcases he.lambda?_write hl with hsame | ⟨_, -, -, -, rfl⟩ | ⟨copy, c, l₀, heq, hl₀, rfl⟩
    · exact h.names hsame
    · exact List.nodup_nil
    · simpa using (h.names hl₀).concat (hnoted heq hl₀).2.1
  · rcases he.lambda?_write hl with hsame | ⟨_, -, -, -, rfl⟩ | ⟨copy, c, l₀, heq, hl₀, rfl⟩
    · exact h.targets hsame
    · exact List.nodup_nil
    · simpa using (h.targets hl₀).concat (hnoted heq hl₀).2.2

end Edit

/-- A variable of the name stands at a position of the scope, which is also its slot. -/
def Context.VariableAt (ctx : Context) (scope : SymbolId) (i : Nat) (name : String) (x : SymbolId)
    (s : Symbol) : Prop :=
  ctx.At scope i name x ∧ ctx.arena.get? x = some s ∧ s.name = name ∧
    s.kind.isVariable = true ∧ s.slot = some i

/-- Variables need slots. -/
theorem SymbolKind.isSlotted_of_isVariable {k : SymbolKind} (h : k.isVariable = true) :
    k.isSlotted = true := by
  cases k with
  | var | param | field => rfl
  | _ => cases h

/-- In runs that define every symbol once, a member that is a variable stands at its slot. -/
theorem Context.Aligned.variableAt {ctx : Context} (h : ctx.Aligned) (hsound : ctx.Sound)
    {scope x : SymbolId} {i : Nat} {name : String} {s : Symbol} (hat : ctx.At scope i name x)
    (hs : ctx.arena.get? x = some s) (hv : s.kind.isVariable = true) :
    ctx.VariableAt scope i name x s := by
  have hl : ctx.layout? x = some s.layout := by
    unfold Context.layout?
    rw [hs]
    rfl
  obtain ⟨l, hl', hname⟩ := hsound.named hat
  rw [hl] at hl'
  cases hl'
  exact ⟨hat, hs, hname, hv, h hat hl (SymbolKind.isSlotted_of_isVariable hv)⟩

/-- Variables have types in every state that is reached. -/
theorem Reached.typed {allowed : Context → Op → Prop} {ctx : Context} (h : Reached allowed ctx) :
    ctx.Typed :=
  h.edits_free.preserves (fun _ _ he => he.typed) Context.bare_typed

/-- Captures are chained in every state that is reached with well-nested lambdas. -/
theorem Reached.chained {allowed : Context → Op → Prop} {ctx : Context}
    (hallowed : ∀ ctx op, allowed ctx op → op.Nests Context.WellNested ctx)
    (h : Reached allowed ctx) : ctx.Chained := by
  have hboth : ctx.Sound ∧ ctx.Chained :=
    (h.edits_nested hallowed).preserves (I := fun c => c.Sound ∧ c.Chained)
      (fun _ _ he hc => ⟨he.sound hc.1, he.chained hc.1 hc.2⟩)
      ⟨Context.bare_sound, Context.bare_chained⟩
  exact hboth.2

/-- The captures of a lambda fit together. Slot `target` of the lambda is a variable of its own,
slot `source` of the function before it on its stack is a variable, both have the name of the
capture and one type reference, and no two captures have the same name or the same target. -/
theorem captures_chained {ctx : Context}
    (h : Reached (fun ctx op => op.DefinesOnce ctx ∧ op.Nests Context.WellNested ctx) ctx)
    {lambda : SymbolId} {l : LambdaInfo} (hl : ctx.lambda? lambda = some l) :
    ∃ outer owner, l.stack = outer ++ [owner, lambda] ∧
      (∀ c ∈ l.captures, ∃ copy source t u type,
        ctx.VariableAt lambda c.target c.name copy t ∧ t.kind = .var ∧
        ctx.VariableAt owner c.source c.name source u ∧
        t.type? = some type ∧ u.type? = some type) ∧
      (l.captures.map Capture.name).Nodup ∧ (l.captures.map Capture.target).Nodup := by
  have hsound := h.sound
  have haligned := h.aligned fun _ _ hop => hop.1
  have hchained := h.chained fun _ _ hop => hop.2
  have hstack : ctx.stack? lambda = some l.stack := Context.stack?_eq_some_iff.mpr ⟨l, hl, rfl⟩
  obtain ⟨-, outer, owner, hends⟩ := hchained.nested hstack
  refine ⟨outer, owner, hends, fun c hc => ?_, hchained.names hl, hchained.targets hl⟩
  obtain ⟨outer', owner', source, copy, u, t, hstack', ⟨i, hi⟩, hu, huv, hus, hcopy, ht, htv, hts,
    htype⟩ := hchained.fills hl hc
  -- The function before the lambda is one and the same.
  have howner : owner' = owner := by
    rw [hstack, hends, Option.some.injEq] at hstack'
    have hlast := (List.append_inj' hstack' rfl).2
    simpa using hlast.symm
  subst howner
  -- The source stands at its slot, since it was defined once.
  have hsource := haligned.variableAt hsound hi hu huv
  have hi : i = c.source := by
    have hslot := hsource.2.2.2.2
    rw [hus] at hslot
    cases hslot
    rfl
  subst hi
  obtain ⟨type, htype'⟩ := Option.isSome_iff_exists.mp (hchained.typed hu huv)
  have hvar : t.kind.isVariable = true := by rw [htv]; rfl
  exact ⟨copy, source, t, u, type, haligned.variableAt hsound hcopy ht hvar, htv, hsource,
    htype.trans htype', htype'⟩

/-- A script function with two variables, a lambda in it with one of its own, and a lambda in that
one which asks for the second variable of the function. -/
def captureRun : List Op :=
  let type : TypeRef := { name := "int", slot := ⟨0⟩ }
  [.addScriptFunc "f" type none, .addVariable "u" type none, .define ⟨85⟩ ⟨86⟩,
    .addVariable "v" type none, .define ⟨85⟩ ⟨87⟩, .addLambda "outer" type [⟨85⟩] none,
    .addVariable "w" type none, .define ⟨88⟩ ⟨89⟩, .addLambda "inner" type [⟨85⟩, ⟨88⟩] none,
    .lookup ⟨90⟩ "v"]

/-- What `captureRun` leaves, by running it. -/
theorem captureRun_facts :
    Op.AllAllowed (fun ctx op => op.DefinesOnce ctx ∧ op.Nests Context.WellNested ctx) .initial
      captureRun ∧
    ((Op.runs .initial captureRun).lambda? ⟨88⟩).map LambdaInfo.captures
      = some [{ name := "v", target := 1, source := 1 }] := by
  decide +kernel

/-- The lambda between got its copy in slot 1, behind its own variable. -/
theorem captures_chained_captureRun :
    Reached (fun ctx op => op.DefinesOnce ctx ∧ op.Nests Context.WellNested ctx)
      (Op.runs .initial captureRun) ∧
    ∃ l, (Op.runs .initial captureRun).lambda? ⟨88⟩ = some l ∧
      l.captures = [{ name := "v", target := 1, source := 1 }] ∧
      ∃ outer owner, l.stack = outer ++ [owner, ⟨88⟩] ∧
        (∀ c ∈ l.captures, ∃ copy source t u type,
          (Op.runs .initial captureRun).VariableAt ⟨88⟩ c.target c.name copy t ∧ t.kind = .var ∧
          (Op.runs .initial captureRun).VariableAt owner c.source c.name source u ∧
          t.type? = some type ∧ u.type? = some type) ∧
        (l.captures.map Capture.name).Nodup ∧ (l.captures.map Capture.target).Nodup := by
  obtain ⟨hallowed, hcaptures⟩ := captureRun_facts
  obtain ⟨l, hl, hc⟩ := Option.map_eq_some_iff.mp hcaptures
  have hreached := Reached.initial.runs hallowed
  exact ⟨hreached, l, hl, hc, captures_chained hreached hl⟩

/-- The symbols that the calls of a run define, those of the calls that fail left out. -/
def Op.definedBySuccess (ctx : Context) : List Op → List SymbolId
  | [] => []
  | op :: rest =>
    (if SemaM.failure? op.exec ctx = none then (op.definitions ctx).map Prod.snd else []) ++
      definedBySuccess (op.next ctx) rest

/-- The variable `v` is refused as a parameter of `f`, and is then defined in `g` after `u`. A
lambda in `g` asks for it. -/
def strayCaptureRun : List Op :=
  let type : TypeRef := { name := "int", slot := ⟨0⟩ }
  [.addScriptFunc "f" type none, .addVariable "v" type none, .defineArg ⟨85⟩ ⟨86⟩ false,
    .addScriptFunc "g" type none, .addVariable "u" type none, .define ⟨87⟩ ⟨88⟩,
    .define ⟨87⟩ ⟨86⟩, .addLambda "l" type [⟨87⟩] none, .lookup ⟨89⟩ "v"]

/-- What the run defines, and what it leaves in `g`, in `v` and in the lambda. -/
theorem strayCaptureRun_facts :
    let ctx := Op.runs .initial strayCaptureRun
    Op.AllAllowed (fun ctx op => op.Nests Context.WellNested ctx) .initial strayCaptureRun ∧
    Op.definedBySuccess .initial strayCaptureRun = [⟨88⟩, ⟨86⟩, ⟨90⟩] ∧
    (ctx.lambda? ⟨89⟩).map (fun l => (l.stack, l.captures))
      = some ([⟨87⟩, ⟨89⟩], [{ name := "v", target := 0, source := 0 }]) ∧
    (ctx.arena.get? ⟨87⟩).map (·.members.entries) = some [("u", ⟨88⟩), ("v", ⟨86⟩)] ∧
    (ctx.arena.get? ⟨86⟩).map Symbol.slot = some (some 0) := by
  decide +kernel

/-- That the calls which succeed define every symbol once is not enough. The call that refuses `v`
as a parameter of `f` has given it slot 0 there, and `v` keeps that slot in second place in `g`. So
the lambda notes slot 0 of `g` as its source, and there stands `u`. -/
theorem refused_parameter_misleads_capture :
    let ctx := Op.runs .initial strayCaptureRun
    Reached (fun ctx op => op.Nests Context.WellNested ctx) ctx ∧
    (Op.definedBySuccess .initial strayCaptureRun).Nodup ∧
    ∃ l, ctx.lambda? ⟨89⟩ = some l ∧ l.stack = [⟨87⟩, ⟨89⟩] ∧
      l.captures = [{ name := "v", target := 0, source := 0 }] ∧
      ctx.At ⟨87⟩ 0 "u" ⟨88⟩ ∧ ctx.At ⟨87⟩ 1 "v" ⟨86⟩ ∧
      (∃ s, ctx.arena.get? ⟨86⟩ = some s ∧ s.slot = some 0) ∧
      ∀ source u, ¬ctx.VariableAt ⟨87⟩ 0 "v" source u := by
  intro ctx
  obtain ⟨hallowed, hdefined, hlambda, hmembers, hslot⟩ := strayCaptureRun_facts
  obtain ⟨l, hl, hlambda⟩ := Option.map_eq_some_iff.mp hlambda
  obtain ⟨o, ho, hmembers⟩ := Option.map_eq_some_iff.mp hmembers
  obtain ⟨hstack, hcaptures⟩ := Prod.mk.inj hlambda
  have hnodup : (Op.definedBySuccess .initial strayCaptureRun).Nodup := by
    rw [hdefined]
    decide
  have hu : ctx.At ⟨87⟩ 0 "u" ⟨88⟩ := ⟨o, ho, by rw [hmembers]; rfl⟩
  have hv : ctx.At ⟨87⟩ 1 "v" ⟨86⟩ := ⟨o, ho, by rw [hmembers]; rfl⟩
  refine ⟨Reached.initial.runs hallowed, hnodup, l, hl, hstack, hcaptures, hu, hv,
    Option.map_eq_some_iff.mp hslot, ?_⟩
  -- A member has one name, and the one in first place is called `u`.
  rintro source u ⟨⟨o', ho', hat⟩, -⟩
  rw [ho] at ho'
  cases ho'
  rw [hmembers] at hat
  simp at hat

end Sema

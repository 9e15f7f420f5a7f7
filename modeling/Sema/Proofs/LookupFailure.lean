import Mathlib.Data.List.Chain
import Mathlib.Data.List.Perm.Subperm
import Mathlib.Logic.Relation
import Sema.Proofs.Outward

/-!
# `Sema.Proofs.LookupFailure`: when a look-up fails

The search for a variable around a lambda passes over functions whose member of the name is hidden
or no variable. The copies that follow do not: each lambda from the owner of the variable inward
gets a member of the name, and one that has such a member refuses. `Context.Clash` says when this
happens to a lambda, and `Context.Blocked` that a search comes to such a lambda.

`lookup_fails_iff_blocked` says that in a well-nested run this is the only way to fail, apart from a
search that comes back to where it was. `lookup_of_live_variable_fails` is a run in which it
happens: the member in the way belongs to a block that is closed.

One direction is an induction on the steps of the search, of which `SemaM.replies` describes one.
For the other the search must be long enough to come to the clash. It is, because a path that does
not come back has at most as many scopes as there are symbols.
-/

set_option autoImplicit false

namespace Sema

namespace Context

variable {ctx : Context} {name : String}

/-- A member exists, has the name that it is found under, and has a slot if it needs one. -/
theorem Sound.get?_of_find? (h : ctx.Sound) {scope x : SymbolId} {o : Symbol}
    (ho : ctx.arena.get? scope = some o) (hfind : o.members.find? name = some x) :
    ∃ s, ctx.arena.get? x = some s ∧ s.name = name ∧
      (s.kind.isSlotted = true → ∃ slot, s.slot = some slot) := by
  obtain ⟨i, hi⟩ := o.members.exists_position_of_find? hfind
  have hat : ctx.At scope i name x := ⟨o, ho, hi⟩
  obtain ⟨l, hl, hname⟩ := h.named hat
  obtain ⟨s, hs, rfl⟩ := Option.map_eq_some_iff.mp hl
  exact ⟨s, hs, hname, fun hslotted => h.slotted hat hl hslotted⟩

/-- A live variable has a slot. -/
theorem Sound.variable_of_live (h : ctx.Sound) {func x : SymbolId}
    (hlive : ctx.LiveMember func name x) :
    ∃ s slot, ctx.arena.get? x = some s ∧ s.name = name ∧ s.slot = some slot ∧
      s.kind.isVariable = true := by
  obtain ⟨o, s, ho, hfind, hs, hislive⟩ := hlive
  obtain ⟨s', hs', hname, hslot⟩ := h.get?_of_find? ho hfind
  rw [hs] at hs'
  cases hs'
  have hvariable := (Bool.and_eq_true_iff.mp hislive).1
  obtain ⟨slot, hslot⟩ := hslot (SymbolKind.isSlotted_of_isVariable hvariable)
  exact ⟨s, slot, hs, hname, hslot, hvariable⟩

section Search

variable {func owner found : SymbolId} {inward passed rest : List SymbolId}

/-- The search stops at a live member and keeps the functions that it has passed. -/
theorem capturable?_cons_of_live (h : ctx.LiveMember func name found) :
    ctx.capturable? name inward (func :: rest) = .ok (some (found, inward)) := by
  obtain ⟨o, s, ho, hfind, hs, hlive⟩ := h
  simp only [Context.capturable?, symbol_of_get? ho, symbol_of_get? hs, bind, Except.bind, hfind,
    hlive, if_true]
  rfl

/-- The search passes a function that has no live member of the name. -/
theorem Sound.capturable?_cons_of_dead (h : ctx.Sound) (hexists : ctx.Exists func)
    (hdead : ∀ x, ¬ctx.LiveMember func name x) :
    ctx.capturable? name inward (func :: rest) = ctx.capturable? name (func :: inward) rest := by
  obtain ⟨o, ho⟩ := hexists
  cases hfind : o.members.find? name with
  | none => simp only [Context.capturable?, symbol_of_get? ho, bind, Except.bind, hfind]
  | some x =>
    obtain ⟨s, hs, -⟩ := h.get?_of_find? ho hfind
    -- There is a member of the name, but it is not live.
    have hlive : s.isLive = false := by
      cases hl : s.isLive with
      | false => rfl
      | true => exact absurd ⟨o, s, ho, hfind, hs, hl⟩ (hdead x)
    simp only [Context.capturable?, symbol_of_get? ho, symbol_of_get? hs, bind, Except.bind, hfind,
      hlive]
    rfl

/-- The search outward finds the variable of the first function that has a live one. -/
theorem Sound.capturable?_of_live (h : ctx.Sound) (hexists : ∀ f ∈ passed, ctx.Exists f)
    (hdead : ∀ f ∈ passed, ∀ x, ¬ctx.LiveMember f name x)
    (hlive : ctx.LiveMember owner name found) :
    ctx.capturable? name inward (passed ++ owner :: rest)
      = .ok (some (found, passed.reverse ++ inward)) := by
  induction passed generalizing inward with
  | nil => exact capturable?_cons_of_live hlive
  | cons func passed ih =>
    rw [List.cons_append, h.capturable?_cons_of_dead (hexists func List.mem_cons_self)
      (hdead func List.mem_cons_self), ih fun f hf => hexists f (List.mem_cons_of_mem _ hf)]
    · simp
    · exact fun f hf => hdead f (List.mem_cons_of_mem _ hf)

/-- The search finds nothing where no function has a live member of the name. -/
theorem Sound.capturable?_of_dead (h : ctx.Sound) (hexists : ∀ f ∈ passed, ctx.Exists f)
    (hdead : ∀ f ∈ passed, ∀ x, ¬ctx.LiveMember f name x) :
    ctx.capturable? name inward passed = .ok none := by
  induction passed generalizing inward with
  | nil => rfl
  | cons func passed ih =>
    rw [h.capturable?_cons_of_dead (hexists func List.mem_cons_self)
      (hdead func List.mem_cons_self), ih fun f hf => hexists f (List.mem_cons_of_mem _ hf)]
    exact fun f hf => hdead f (List.mem_cons_of_mem _ hf)

end Search

/-- The innermost function with a live variable of the name, if there is one. -/
theorem exists_innermost_live (ctx : Context) (name : String) (around : List SymbolId) :
    (∀ f ∈ around, ∀ x, ¬ctx.LiveMember f name x) ∨
      ∃ outer owner between found, around = outer ++ owner :: between ∧
        ctx.LiveMember owner name found ∧ ∀ f ∈ between, ∀ x, ¬ctx.LiveMember f name x := by
  -- From the outermost function inward, so the function that is added last is the innermost.
  induction around using List.reverseRecOn with
  | nil => exact Or.inl (by simp)
  | append_singleton outer func ih =>
    by_cases hfunc : ∃ x, ctx.LiveMember func name x
    · obtain ⟨found, hfound⟩ := hfunc
      exact Or.inr ⟨outer, func, [], found, rfl, hfound, by simp⟩
    · have hfunc := not_exists.mp hfunc
      rcases ih with hnone | ⟨outer', owner, between, found, rfl, hfound, hbetween⟩
      · left
        intro f hf
        rcases List.mem_append.mp hf with hf | hf
        · exact hnone f hf
        · rw [List.mem_singleton.mp hf]
          exact hfunc
      · refine Or.inr ⟨outer', owner, between ++ [func], found, by simp, hfound, ?_⟩
        intro f hf
        rcases List.mem_append.mp hf with hf | hf
        · exact hbetween f hf
        · rw [List.mem_singleton.mp hf]
          exact hfunc

/-- A chain has at least its outermost function. -/
theorem Chain.ne_nil {stack : List SymbolId} (h : ctx.Chain stack) : stack ≠ [] := by
  cases h with
  | plain => simp
  | lambda => simp

/-- A chain starts with a function that is no lambda. -/
theorem Chain.stack?_head {stack after : List SymbolId} {x : SymbolId} (h : ctx.Chain stack)
    (hsplit : stack = x :: after) : ctx.stack? x = none := by
  induction h generalizing after with
  | plain hs hk hl =>
    cases hsplit
    rw [stack?, hl, Option.map_none]
  | @lambda outer lambda hchain _ ih =>
    cases outer with
    | nil => exact absurd rfl hchain.ne_nil
    | cons y rest =>
      cases hsplit
      exact ih rfl

/-- Nothing stands twice on a chain. -/
theorem Chain.nodup {stack : List SymbolId} (h : ctx.Chain stack) : stack.Nodup := by
  induction h with
  | plain => exact List.nodup_singleton _
  | @lambda outer lambda hchain hl ih =>
    rw [List.nodup_append_comm]
    refine List.nodup_cons.mpr ⟨fun hmem => ?_, ih⟩
    obtain ⟨before, after, rfl⟩ := List.append_of_mem hmem
    cases before with
    | nil =>
      rw [hchain.stack?_head rfl] at hl
      cases hl
    | cons f before =>
      -- Before itself the lambda would have a shorter stack than its own.
      have hshort := hchain.stack?_of_append rfl (List.cons_ne_nil f before)
      rw [hl, Option.some.injEq] at hshort
      have hlength := congrArg List.length hshort
      simp at hlength

/-- The lambdas inside a function of a chain are all different. -/
theorem Chain.nodup_inner {outer inner : List SymbolId} {owner : SymbolId}
    (h : ctx.Chain (outer ++ owner :: inner)) : inner.Nodup :=
  (List.nodup_cons.mp (List.Nodup.of_append_right h.nodup)).2

/-- The scope has a member of the name, of whatever kind and hidden or not. -/
def Taken (ctx : Context) (scope : SymbolId) (name : String) : Prop :=
  ∃ o, ctx.arena.get? scope = some o ∧ name ∈ o.members.keys

end Context

namespace SemaM

variable {ctx : Context}

/-- A variable is copied through lambdas if the name is free in all of them. Otherwise the first
lambda with the name refuses. -/
theorem captureThrough_cases {source : SymbolId} {s : Symbol} {chain : List SymbolId}
    (hs : ctx.arena.get? source = some s) (hslot : ∃ slot, s.slot = some slot)
    (hlambda : ∀ f ∈ chain, ∃ o, ctx.arena.get? f = some o ∧ o.isLambda = true)
    (hnodup : chain.Nodup) :
    ((∀ f ∈ chain, ¬ctx.Taken f s.name) ∧
        ∃ copy ctx', captureThrough source chain ctx = .ok copy ctx') ∨
      ((∃ f ∈ chain, ctx.Taken f s.name) ∧
        ∃ place ctx',
          captureThrough source chain ctx = .error (.duplicateSymbol place s.name) ctx') := by
  -- Along the chain. The copy in one lambda is the source for the next, so the context and the
  -- source change on the way, while the name stays.
  induction chain generalizing ctx source s with
  | nil => exact Or.inl ⟨by simp, source, ctx, rfl⟩
  | cons func rest ih =>
    obtain ⟨hfunc, hnodup⟩ := List.nodup_cons.mp hnodup
    obtain ⟨slot, hslot⟩ := hslot
    obtain ⟨o, ho, hl⟩ := hlambda func List.mem_cons_self
    have hlambda := fun f hf => hlambda f (List.mem_cons_of_mem _ hf)
    unfold captureThrough
    rw [bind_of_ok (symbol_run ho), if_pos hl]
    by_cases htaken : s.name ∈ o.members.keys
    · right
      refine ⟨⟨func, List.mem_cons_self, o, ho, htaken⟩, s.captured.place,
        (Edit.alloc s.captured).write ctx, ?_⟩
      exact bind_of_error (capture_of_taken hs hslot ho hl htaken)
    · have hrun := capture_of_free hs hslot ho hl htaken
      obtain ⟨c, hc, -, hname, hcslot⟩ := copy_of_capture hs ho hl hrun
      rw [bind_of_ok hrun]
      generalize (Edit.write _ _) = ctx' at hrun hc
      -- The lambdas further inward are as they were.
      have hsame : ∀ f ∈ rest, ctx'.arena.get? f = ctx.arena.get? f := by
        intro f hf
        obtain ⟨t, ht, -⟩ := hlambda f hf
        have hne : f ≠ func := fun he => hfunc (he ▸ hf)
        rw [get?_of_capture hs ho hl hrun hne ht, ht]
      have htaken_iff : ∀ f ∈ rest, (ctx'.Taken f s.name ↔ ctx.Taken f s.name) := by
        intro f hf
        rw [Context.Taken, Context.Taken, hsame f hf]
      have hlambda' : ∀ f ∈ rest, ∃ o, ctx'.arena.get? f = some o ∧ o.isLambda = true := by
        intro f hf
        rw [hsame f hf]
        exact hlambda f hf
      rw [← hname] at htaken htaken_iff ⊢
      rcases ih hc ⟨_, hcslot⟩ hlambda' hnodup with ⟨hfree, hok⟩ | ⟨⟨f, hf, hf'⟩, herror⟩
      · refine Or.inl ⟨fun f hf => ?_, hok⟩
        rcases List.mem_cons.mp hf with rfl | hf
        · rintro ⟨o', ho', hkey⟩
          rw [ho] at ho'
          cases ho'
          exact htaken hkey
        · exact fun h => hfree f hf ((htaken_iff f hf).mpr h)
      · exact Or.inr ⟨⟨f, List.mem_cons_of_mem _ hf, (htaken_iff f hf).mp hf'⟩, herror⟩

end SemaM

namespace Context

variable {ctx : Context} {name : String}

/-- The functions around the last lambda of a chain are all the others. -/
theorem Chain.around {before : List SymbolId} {lambda : SymbolId}
    (h : ctx.Chain (before ++ [lambda])) :
    Context.around lambda (before ++ [lambda]) = .ok before := by
  have hnot : lambda ∉ before := by
    have hnodup := h.nodup
    rw [List.nodup_append_comm] at hnodup
    exact (List.nodup_cons.mp hnodup).1
  have hbefore : ∀ f ∈ before, decide (f ≠ lambda) = true := by
    intro f hf
    simpa using fun he : f = lambda => hnot (he ▸ hf)
  rw [Context.around, if_pos (by simp), List.takeWhile_append_of_pos hbefore]
  simp

/-- A lambda stands last on its stack. -/
theorem Chained.exists_before (h : ctx.Chained) {lambda : SymbolId} {stack : List SymbolId}
    (hstack : ctx.stack? lambda = some stack) : ∃ before, stack = before ++ [lambda] := by
  obtain ⟨-, outer, owner, rfl⟩ := h.nested hstack
  exact ⟨outer ++ [owner], by simp⟩

/-- Everything inward of a function on a chain is a lambda. -/
theorem Chain.isLambda {outer inner : List SymbolId} {owner f : SymbolId}
    (h : ctx.Chain (outer ++ owner :: inner)) (hf : f ∈ inner) :
    ∃ o, ctx.arena.get? f = some o ∧ o.isLambda = true := by
  obtain ⟨before, after, rfl⟩ := List.append_of_mem hf
  have hsplit :
      outer ++ owner :: (before ++ f :: after) = (outer ++ owner :: before) ++ f :: after := by
    simp
  have hstack := h.stack?_of_append hsplit (by simp)
  obtain ⟨l, hl, -⟩ := stack?_eq_some_iff.mp hstack
  obtain ⟨o, ho, hl⟩ := Option.bind_eq_some_iff.mp hl
  exact ⟨o, ho, by simp [Symbol.isLambda, hl]⟩

end Context

namespace SemaM

variable {ctx : Context} {name : String}

section Around

variable {lambda : SymbolId}

/-- Where no function has a live variable of the name, nothing is found and nothing is written. -/
theorem lookupAround_of_dead (hsound : ctx.Sound) (hchained : ctx.Chained) {stack : List SymbolId}
    (hstack : ctx.stack? lambda = some stack) (hdead : ∀ f ∈ stack, ∀ x, ¬ctx.LiveMember f name x) :
    lookupAround lambda stack name ctx = .ok none ctx := by
  have hchain := (hchained.nested hstack).1
  obtain ⟨before, rfl⟩ := hchained.exists_before hstack
  -- The functions exist, so that looking into them cannot fail.
  have hexists : ∀ f ∈ before.reverse, ctx.Exists f := by
    intro f hf
    exact hchain.exists (List.mem_append_left _ (List.mem_reverse.mp hf))
  have hnone : ∀ f ∈ before.reverse, ∀ x, ¬ctx.LiveMember f name x := by
    intro f hf
    exact hdead f (List.mem_append_left _ (List.mem_reverse.mp hf))
  unfold lookupAround
  rw [bind_of_ok (query_of_ok hchain.around),
    bind_of_ok (query_of_ok (hsound.capturable?_of_dead hexists hnone))]
  rfl

/-- What is found in the innermost function with a live variable is copied inward. -/
theorem lookupAround_of_innermost (hsound : ctx.Sound) (hchained : ctx.Chained)
    {outer between : List SymbolId} {owner found : SymbolId}
    (hstack : ctx.stack? lambda = some (outer ++ owner :: between ++ [lambda]))
    (hlive : ctx.LiveMember owner name found)
    (hbetween : ∀ f ∈ between, ∀ x, ¬ctx.LiveMember f name x) :
    lookupAround lambda (outer ++ owner :: between ++ [lambda]) name ctx
      = (do return some (← captureThrough found (between ++ [lambda])) : SemaM (Option SymbolId))
          ctx := by
  have hchain := (hchained.nested hstack).1
  have hexists : ∀ f ∈ between.reverse, ctx.Exists f := by
    intro f hf
    exact hchain.exists (by simp [List.mem_reverse.mp hf])
  -- The search runs outwards, so it meets the functions in reverse order.
  have hsearch : ctx.capturable? name [lambda] (outer ++ owner :: between).reverse
      = .ok (some (found, between ++ [lambda])) := by
    have hreverse : (outer ++ owner :: between).reverse
        = between.reverse ++ owner :: outer.reverse := by simp
    rw [hreverse, hsound.capturable?_of_live hexists ?_ hlive, List.reverse_reverse]
    exact fun f hf => hbetween f (List.mem_reverse.mp hf)
  unfold lookupAround
  rw [bind_of_ok (query_of_ok hchain.around), bind_of_ok (query_of_ok hsearch)]

/-- The variable of the innermost function that has a live one is copied inward if the name is free
in all lambdas between. -/
theorem lookupAround_of_live (hsound : ctx.Sound) (hchained : ctx.Chained)
    {outer between : List SymbolId} {owner found : SymbolId}
    (hstack : ctx.stack? lambda = some (outer ++ owner :: between ++ [lambda]))
    (hlive : ctx.LiveMember owner name found)
    (hbetween : ∀ f ∈ between, ∀ x, ¬ctx.LiveMember f name x) (hfree : ¬ctx.Taken lambda name) :
    ((∀ f ∈ between, ¬ctx.Taken f name) ∧ ∃ copy ctx',
        lookupAround lambda (outer ++ owner :: between ++ [lambda]) name ctx
          = .ok (some copy) ctx') ∨
      ((∃ f ∈ between, ctx.Taken f name) ∧ ∃ place ctx',
        lookupAround lambda (outer ++ owner :: between ++ [lambda]) name ctx
          = .error (.duplicateSymbol place name) ctx') := by
  have hrun := lookupAround_of_innermost hsound hchained hstack hlive hbetween
  obtain ⟨s, slot, hs, hname, hslot, -⟩ := hsound.variable_of_live hlive
  have hsplit :
      outer ++ owner :: between ++ [lambda] = outer ++ owner :: (between ++ [lambda]) := by
    simp
  have hchain := (hchained.nested hstack).1
  rw [hsplit] at hchain
  rw [hrun]
  rcases captureThrough_cases hs ⟨slot, hslot⟩ (fun f hf => hchain.isLambda hf)
    hchain.nodup_inner with ⟨hnone, copy, ctx', hok⟩ | ⟨⟨f, hf, htaken⟩, place, ctx', herror⟩
  · rw [hname] at hnone
    exact Or.inl ⟨fun f hf => hnone f (List.mem_append_left _ hf), copy, ctx', bind_of_ok hok⟩
  · -- The name is free in the lambda that asks, so one of those between has refused.
    rw [hname] at htaken herror
    rcases List.mem_append.mp hf with hf | hf
    · exact Or.inr ⟨⟨f, hf, htaken⟩, place, ctx', bind_of_error herror⟩
    · rw [List.mem_singleton.mp hf] at htaken
      exact absurd htaken hfree

end Around

end SemaM

namespace Context

variable {ctx : Context} {name : String}

/-- A search for the name goes on from one scope in another. -/
inductive Passes (ctx : Context) (name : String) (scope : SymbolId) : SymbolId → Prop
  | block {s : Symbol} {b : BlockInfo} (hs : ctx.arena.get? scope = some s)
      (hk : s.kind = .block b) :
      Passes ctx name scope b.func
  /-- Neither the scope nor a function around it settles the search. -/
  | outer {s : Symbol} {next : SymbolId} (hs : ctx.arena.get? scope = some s)
      (hb : ∀ b, s.kind ≠ .block b) (hg : s.kind ≠ .globalScope) (hfree : ¬ctx.Taken scope name)
      (haround : ∀ stack, ctx.stack? scope = some stack →
        ∀ f ∈ stack, ∀ x, ¬ctx.LiveMember f name x)
      (houter : ctx.outer scope = .ok (some next)) : Passes ctx name scope next

/-- The lambda would capture a variable through another lambda that has a member of the name. That
member is hidden or no variable, since the innermost live variable stands further out. -/
def Clash (ctx : Context) (name : String) (lambda : SymbolId) : Prop :=
  ¬ctx.Taken lambda name ∧ ∃ outer owner between found,
    ctx.stack? lambda = some (outer ++ owner :: between ++ [lambda]) ∧
    ctx.LiveMember owner name found ∧ (∀ f ∈ between, ∀ x, ¬ctx.LiveMember f name x) ∧
    ∃ f ∈ between, ctx.Taken f name

/-- The search for the name comes to a lambda that would capture through one which has the name. -/
def Blocked (ctx : Context) (name : String) (scope : SymbolId) : Prop :=
  ∃ lambda, Relation.ReflTransGen (ctx.Passes name) scope lambda ∧ ctx.Clash name lambda

/-- A name is free in a scope when its dictionary does not have it. -/
theorem not_taken_iff {scope : SymbolId} {s : Symbol} (hs : ctx.arena.get? scope = some s) :
    ¬ctx.Taken scope name ↔ s.members.find? name = none := by
  rw [Assoc.find?_eq_none_iff]
  refine not_congr ⟨?_, fun h => ⟨s, hs, h⟩⟩
  rintro ⟨s', hs', h⟩
  rw [hs] at hs'
  cases hs'
  exact h

/-- A name that is not among the keys of a scope is free in it. -/
theorem not_taken_of_keys {scope : SymbolId} {keys : List String}
    (h : (ctx.arena.get? scope).map (·.members.keys) = some keys) (hname : name ∉ keys) :
    ¬ctx.Taken scope name := by
  rintro ⟨o, ho, hkey⟩
  rw [ho, Option.map_some, Option.some.injEq] at h
  exact hname (h ▸ hkey)

/-- A live member takes its name. -/
theorem LiveMember.taken {func x : SymbolId} (h : ctx.LiveMember func name x) :
    ctx.Taken func name := by
  obtain ⟨o, -, ho, hfind, -⟩ := h
  exact ⟨o, ho, (Assoc.mem_keys_iff _ _).mpr ⟨x, (Assoc.find?_eq_some_iff _ _ _).mp hfind⟩⟩

/-- A scope without a member of the name has no live one either. -/
theorem dead_concat {before : List SymbolId} {scope : SymbolId}
    (h : ∀ f ∈ before, ∀ x, ¬ctx.LiveMember f name x) (hfree : ¬ctx.Taken scope name) :
    ∀ f ∈ before ++ [scope], ∀ x, ¬ctx.LiveMember f name x := by
  intro f hf x hx
  rcases List.mem_append.mp hf with hf | hf
  · exact h f hf x hx
  · rw [List.mem_singleton.mp hf] at hx
    exact hfree hx.taken

/-- Whether a member can be seen is always answered. -/
theorem Sound.visible (h : ctx.Sound) {scope x : SymbolId} {o : Symbol}
    (ho : ctx.arena.get? scope = some o) (hfind : o.members.find? name = some x) :
    ∃ result, ctx.visible x = .ok result := by
  obtain ⟨s, hs, -⟩ := h.get?_of_find? ho hfind
  rw [Context.visible, symbol_of_get? hs]
  exact ⟨_, rfl⟩

/-- Looking into an existing scope never fails. -/
theorem Sound.lookupLocal (h : ctx.Sound) {scope : SymbolId} (hscope : ctx.Exists scope) :
    ∃ result, ctx.lookupLocal scope name = .ok result := by
  obtain ⟨o, ho⟩ := hscope
  cases hfind : o.members.find? name with
  | none =>
    simp only [Context.lookupLocal, symbol_of_get? ho, bind, Except.bind, hfind]
    exact ⟨none, rfl⟩
  | some x =>
    simp only [Context.lookupLocal, symbol_of_get? ho, bind, Except.bind, hfind]
    exact h.visible ho hfind

/-- Looking into existing scopes one after the other never fails. -/
theorem Sound.lookupAmong (h : ctx.Sound) {scopes : List SymbolId}
    (hscopes : ∀ scope ∈ scopes, ctx.Exists scope) :
    ∃ result, ctx.lookupAmong name scopes = .ok result := by
  induction scopes with
  | nil => exact ⟨none, rfl⟩
  | cons scope rest ih =>
    obtain ⟨hscope, hrest⟩ := List.forall_mem_cons.mp hscopes
    obtain ⟨found, hfound⟩ : ∃ result, ctx.lookupLocal scope name = .ok result :=
      h.lookupLocal hscope
    simp only [Context.lookupAmong, hfound, bind, Except.bind]
    cases found with
    | none => exact ih hrest
    | some x => exact ⟨some x, rfl⟩

/-- Only functions have a stack. -/
theorem isFunc_of_stack? {scope : SymbolId} {s : Symbol} {stack : List SymbolId}
    (hs : ctx.arena.get? scope = some s) (hstack : ctx.stack? scope = some stack) :
    ∃ info, s.kind = .func info := by
  obtain ⟨l, hl, -⟩ := stack?_eq_some_iff.mp hstack
  rw [lambda?_of_get? hs] at hl
  obtain ⟨info, -, hk, -⟩ := s.exists_of_isLambda (by simp [Symbol.isLambda, hl])
  exact ⟨info, hk⟩

end Context

namespace SemaM

variable {ctx : Context} {name : String} {scope : SymbolId}

/-- A scope with an outer one passes the search on to it. -/
theorem passOutward_of_ok {next : SymbolId} (h : ctx.outer scope = .ok (some next)) :
    passOutward scope ctx = .ok (.passed next) ctx := by
  unfold passOutward
  rw [bind_of_ok (query_of_ok h)]
  rfl

/-- A scope without an outer one ends the search. -/
theorem passOutward_of_end (h : ctx.outer scope = .ok none) :
    passOutward scope ctx = .ok (.settled none) ctx := by
  unfold passOutward
  rw [bind_of_ok (query_of_ok h)]
  rfl

/-- Where the outer scope cannot be told, the search fails. -/
theorem passOutward_of_error {e : CompileError} (h : ctx.outer scope = .error e) :
    passOutward scope ctx = .error e ctx :=
  bind_of_error (query_of_error h)

/-- A scope with no member of the name and no live variable around it leaves the search to its outer
scope. -/
theorem answer_of_dead (hsound : ctx.Sound) (hchained : ctx.Chained) {s : Symbol}
    (hs : ctx.arena.get? scope = some s) (hb : ∀ b, s.kind ≠ .block b) (hg : s.kind ≠ .globalScope)
    (hfree : ¬ctx.Taken scope name)
    (haround : ∀ stack, ctx.stack? scope = some stack →
      ∀ f ∈ stack, ∀ x, ¬ctx.LiveMember f name x) :
    answer scope name ctx = passOutward scope ctx := by
  have hfind := (Context.not_taken_iff hs).mp hfree
  cases hstack : ctx.stack? scope with
  | none => exact answer_of_plain hs hb hg hstack hfind
  | some stack =>
    rw [answer_of_lambda hs hstack hfind,
      bind_of_ok (lookupAround_of_dead hsound hchained hstack (haround stack hstack))]

/-- The search goes on where `Passes` says that it does. -/
theorem answer_of_passes (hsound : ctx.Sound) (hchained : ctx.Chained) {next : SymbolId}
    (h : ctx.Passes name scope next) : answer scope name ctx = .ok (.passed next) ctx := by
  cases h with
  | block hs hk => exact answer_of_block hs hk
  | outer hs hb hg hfree haround houter =>
    rw [answer_of_dead hsound hchained hs hb hg hfree haround]
    exact passOutward_of_ok houter

/-- A clash makes the search fail with a duplicate. -/
theorem answer_of_clash (hsound : ctx.Sound) (hchained : ctx.Chained) (h : ctx.Clash name scope) :
    ∃ place ctx', answer scope name ctx = .error (.duplicateSymbol place name) ctx' := by
  obtain ⟨hfree, outer, owner, between, found, hstack, hlive, hbetween, htaken⟩ := h
  obtain ⟨s, hs⟩ := Context.exists_of_stack? hstack
  rw [answer_of_lambda hs hstack ((Context.not_taken_iff hs).mp hfree)]
  rcases lookupAround_of_live hsound hchained hstack hlive hbetween hfree with
    ⟨hnone, -⟩ | ⟨-, place, ctx', herror⟩
  · obtain ⟨f, hf, htaken⟩ := htaken
    exact absurd htaken (hnone f hf)
  · exact ⟨place, ctx', bind_of_error herror⟩

/-- What a scope can make of a name. -/
inductive Replies (ctx : Context) (name : String) (scope : SymbolId) : Prop
  | passed {next : SymbolId} (h : ctx.Passes name scope next) (hexists : ctx.Exists next)
      (hrun : answer scope name ctx = .ok (.passed next) ctx)
  | settled {result : Option SymbolId} {ctx' : Context}
      (hrun : answer scope name ctx = .ok (.settled result) ctx')
  | endless {inside : SymbolId} (hrun : answer scope name ctx = .error (.endless inside) ctx)
  | clash (h : ctx.Clash name scope)

/-- What such a scope replies is up to its outer scope. -/
theorem replies_of_passOutward (hclosed : ctx.Closed) {s : Symbol}
    (hs : ctx.arena.get? scope = some s) (hb : ∀ b, s.kind ≠ .block b) (hg : s.kind ≠ .globalScope)
    (hfree : ¬ctx.Taken scope name)
    (haround : ∀ stack, ctx.stack? scope = some stack → ∀ f ∈ stack, ∀ x, ¬ctx.LiveMember f name x)
    (hrun : answer scope name ctx = passOutward scope ctx) : Replies ctx name scope := by
  rcases hclosed.outer ⟨s, hs⟩ with ⟨next, hok, hnext⟩ | ⟨inside, herror⟩
  · cases next with
    | none => exact .settled (hrun.trans (passOutward_of_end hok))
    | some next =>
      exact .passed (.outer hs hb hg hfree haround hok) (hnext next rfl)
        (hrun.trans (passOutward_of_ok hok))
  · exact .endless (hrun.trans (passOutward_of_error herror))

/-- A lambda that does not have the name settles the search, passes it on or clashes. -/
theorem replies_of_lambda (hsound : ctx.Sound) (hchained : ctx.Chained) (hclosed : ctx.Closed)
    {s : Symbol} {stack : List SymbolId} (hs : ctx.arena.get? scope = some s)
    (hstack : ctx.stack? scope = some stack) (hfind : s.members.find? name = none) :
    Replies ctx name scope := by
  have hfree := (Context.not_taken_iff hs).mpr hfind
  have hrun := answer_of_lambda hs hstack hfind
  obtain ⟨before, rfl⟩ := hchained.exists_before hstack
  -- What counts is whether a function around it has a live member, and the innermost such.
  rcases ctx.exists_innermost_live name before with
    hdead | ⟨outer, owner, between, found, rfl, hlive, hbetween⟩
  · have hdead := Context.dead_concat hdead hfree
    rw [bind_of_ok (lookupAround_of_dead hsound hchained hstack hdead)] at hrun
    obtain ⟨info, hk⟩ := Context.isFunc_of_stack? hs hstack
    refine replies_of_passOutward hclosed hs (by simp [hk]) (by simp [hk]) hfree ?_ hrun
    intro stack hsome
    rw [hstack] at hsome
    cases hsome
    exact hdead
  · rcases lookupAround_of_live hsound hchained hstack hlive hbetween hfree with
      ⟨-, copy, ctx', hok⟩ | ⟨htaken, -⟩
    · rw [bind_of_ok hok] at hrun
      exact .settled hrun
    · exact .clash ⟨hfree, outer, owner, between, found, hstack, hlive, hbetween, htaken⟩

/-- What a scope makes of a name, if it and the linked scopes exist. -/
theorem replies (hsound : ctx.Sound) (hchained : ctx.Chained) (hclosed : ctx.Closed)
    (hlinks : ∀ link ∈ ctx.links, ctx.Exists link) (hscope : ctx.Exists scope) :
    Replies ctx name scope := by
  obtain ⟨s, hs⟩ := hscope
  by_cases hblock : ∃ b, s.kind = .block b
  · obtain ⟨b, hk⟩ := hblock
    have hframe : ctx.frame? scope = some b.func := by
      rw [Context.frame?_of_get? hs, hk]
      rfl
    exact .passed (.block hs hk) (hclosed.frame hframe) (answer_of_block hs hk)
  have hb := not_exists.mp hblock
  cases hfind : s.members.find? name with
  | some x =>
    -- A member settles the search, also if it is hidden.
    obtain ⟨result, hvisible⟩ := hsound.visible hs hfind
    have hrun := answer_of_member hs hb hfind
    rw [bind_of_ok (query_of_ok hvisible)] at hrun
    exact .settled hrun
  | none =>
    by_cases hg : s.kind = .globalScope
    · obtain ⟨result, hamong⟩ : ∃ result, ctx.lookupAmong name ctx.links = .ok result :=
        hsound.lookupAmong hlinks
      have hrun := answer_of_global hs hg hfind
      rw [bind_of_ok (query_of_ok hamong)] at hrun
      exact .settled hrun
    cases hstack : ctx.stack? scope with
    | some stack => exact replies_of_lambda hsound hchained hclosed hs hstack hfind
    | none =>
      refine replies_of_passOutward hclosed hs hb hg ((Context.not_taken_iff hs).mpr hfind)
        ?_ (answer_of_plain hs hb hg hstack hfind)
      intro stack hsome
      rw [hstack] at hsome
      cases hsome

/-- A search that fails has come back to where it was or has come to a clash. -/
theorem lookupWithin_cases (hsound : ctx.Sound) (hchained : ctx.Chained) (hclosed : ctx.Closed)
    (hlinks : ∀ link ∈ ctx.links, ctx.Exists link) (hscope : ctx.Exists scope) (fuel : Nat) :
    (∃ result ctx', lookupWithin fuel scope name ctx = .ok result ctx') ∨
      (∃ inside ctx', lookupWithin fuel scope name ctx = .error (.endless inside) ctx') ∨
      ctx.Blocked name scope := by
  induction fuel generalizing scope with
  | zero => exact Or.inr (Or.inl ⟨scope, ctx, rfl⟩)
  | succ fuel ih =>
    unfold lookupWithin
    -- One step of the search, and the induction hypothesis for the scope that it passes on to.
    have hreplies : Replies ctx name scope := replies hsound hchained hclosed hlinks hscope
    cases hreplies with
    | settled hrun => exact Or.inl ⟨_, _, bind_of_ok hrun⟩
    | endless hrun => exact Or.inr (Or.inl ⟨_, _, bind_of_error hrun⟩)
    | clash h => exact Or.inr (Or.inr ⟨scope, .refl, h⟩)
    | passed h hexists hrun =>
      rw [bind_of_ok hrun]
      rcases ih hexists with hok | hendless | ⟨lambda, hpath, hclash⟩
      · exact Or.inl hok
      · exact Or.inr (Or.inl hendless)
      · exact Or.inr (Or.inr ⟨lambda, .head h hpath, hclash⟩)

end SemaM

/-! ### A clash is always found -/

/-- What can be reached can be reached without coming back. -/
theorem exists_nodup_path {R : SymbolId → SymbolId → Prop} {a b : SymbolId}
    (h : Relation.ReflTransGen R a b) :
    ∃ path, (a :: path).IsChain R ∧ (a :: path).getLast? = some b ∧ (a :: path).Nodup := by
  induction h using Relation.ReflTransGen.head_induction_on with
  | refl => exact ⟨[], by simp, rfl, List.nodup_singleton b⟩
  | @head a c hac _ ih =>
    obtain ⟨path, hchain, hlast, hnodup⟩ := ih
    by_cases hmem : a ∈ c :: path
    · -- The path comes back to its start: leave out the way round.
      obtain ⟨front, rest, hsplit⟩ := List.append_of_mem hmem
      rw [hsplit] at hchain hlast hnodup
      refine ⟨rest, hchain.right_of_append, ?_, hnodup.of_append_right⟩
      rwa [List.getLast?_append_cons] at hlast
    · refine ⟨c :: path, List.isChain_cons_cons.mpr ⟨hac, hchain⟩, ?_,
        List.nodup_cons.mpr ⟨hmem, hnodup⟩⟩
      rwa [List.getLast?_cons_cons]

namespace Context

variable {ctx : Context} {name : String}

/-- The search only passes on from scopes that exist. -/
theorem Passes.exists {scope next : SymbolId} (h : ctx.Passes name scope next) :
    ctx.Exists scope := by
  cases h with
  | block hs => exact ⟨_, hs⟩
  | outer hs => exact ⟨_, hs⟩

/-- There are not more distinct symbols than symbols. -/
theorem length_le_size {ids : List SymbolId} (hnodup : ids.Nodup)
    (hexists : ∀ id ∈ ids, ctx.Exists id) : ids.length ≤ ctx.arena.size := by
  -- The ids of symbols are the numbers from 1 to the size of the arena.
  have hnums : (ids.map SymbolId.num).Nodup := hnodup.map fun a b hab => by
    cases a
    cases b
    cases hab
    rfl
  have hsubset : ids.map SymbolId.num ⊆ List.range' 1 ctx.arena.size := by
    intro n hn
    obtain ⟨id, hid, rfl⟩ := List.mem_map.mp hn
    obtain ⟨s, hs⟩ := hexists id hid
    have hle := num_le_size hs
    have hpos : id.num ≠ 0 := by
      intro hzero
      rw [get?_eq_none_iff.mpr (Or.inl hzero)] at hs
      cases hs
    exact List.mem_range'_1.mpr (by omega)
  have hlength := (hnums.subperm hsubset).length_le
  simpa using hlength

end Context

namespace SemaM

variable {ctx : Context} {name : String} {scope : SymbolId}

/-- A search goes along a path with one step for each scope that it leaves. -/
theorem lookupWithin_along (hsound : ctx.Sound) (hchained : ctx.Chained) {path : List SymbolId}
    {last : SymbolId} (hpath : (scope :: path).IsChain (ctx.Passes name))
    (hlast : (scope :: path).getLast? = some last) {fuel more : Nat}
    (hfuel : fuel = path.length + more) :
    lookupWithin fuel scope name ctx = lookupWithin more last name ctx := by
  subst hfuel
  induction path generalizing scope with
  | nil =>
    cases hlast
    simp
  | cons next path ih =>
    -- One step of the search for every scope on the path.
    obtain ⟨hpass, hpath⟩ := List.isChain_cons_cons.mp hpath
    rw [List.getLast?_cons_cons] at hlast
    rw [List.length_cons, Nat.add_right_comm, lookupWithin,
      bind_of_ok (answer_of_passes hsound hchained hpass)]
    exact ih hpath hlast

/-- A search comes to every scope on its way: it takes at most as many steps as there are
symbols. -/
theorem lookup_of_reaches (hsound : ctx.Sound) (hchained : ctx.Chained) {last : SymbolId}
    (hreach : Relation.ReflTransGen (ctx.Passes name) scope last) :
    ∃ more, lookup scope name ctx = lookupWithin (more + 1) last name ctx := by
  obtain ⟨path, hpath, hlast, hnodup⟩ := exists_nodup_path hreach
  -- Every scope on the path hands the search on, but the last one, which may not even exist.
  have hexists : ∀ x ∈ (scope :: path).dropLast, ctx.Exists x := by
    intro x hx
    obtain ⟨front, rest, hsplit⟩ := List.append_of_mem hx
    have hwhole : scope :: path = front ++ x :: (rest ++ [last]) := by
      rw [← List.dropLast_append_getLast? last hlast, hsplit, List.append_assoc, List.cons_append]
    cases rest with
    | nil => exact (List.isChain_iff_forall_rel_of_append_cons_cons.mp hpath hwhole).exists
    | cons y rest => exact (List.isChain_iff_forall_rel_of_append_cons_cons.mp hpath hwhole).exists
  have hlength := Context.length_le_size (hnodup.sublist (List.dropLast_sublist _)) hexists
  have hfuel : ctx.searchBound = path.length + (ctx.arena.size - path.length + 1) := by
    simp only [List.length_dropLast, List.length_cons] at hlength
    simp only [Context.searchBound]
    omega
  exact ⟨_, lookupWithin_along hsound hchained hpath hlast hfuel⟩

/-- A blocked search fails. -/
theorem lookup_of_blocked (hsound : ctx.Sound) (hchained : ctx.Chained)
    (h : ctx.Blocked name scope) :
    ∃ place ctx', lookup scope name ctx = .error (.duplicateSymbol place name) ctx' := by
  obtain ⟨lambda, hreach, hclash⟩ := h
  obtain ⟨more, hrun⟩ := lookup_of_reaches hsound hchained hreach
  obtain ⟨place, ctx', hanswer⟩ := answer_of_clash hsound hchained hclash
  rw [hrun]
  exact ⟨place, ctx', bind_of_error hanswer⟩

/-- A lambda gets a variable from around it unless it clashes. -/
theorem lookup_of_live (hsound : ctx.Sound) (hchained : ctx.Chained) {stack : List SymbolId}
    {f x : SymbolId} (hstack : ctx.stack? scope = some stack) (hfree : ¬ctx.Taken scope name)
    (hf : f ∈ stack) (hx : ctx.LiveMember f name x) (hclash : ¬ctx.Clash name scope) :
    ∃ copy ctx', lookup scope name ctx = .ok (some copy) ctx' := by
  obtain ⟨s, hs⟩ := Context.exists_of_stack? hstack
  obtain ⟨before, rfl⟩ := hchained.exists_before hstack
  rcases ctx.exists_innermost_live name before with
    hdead | ⟨outer, owner, between, found, rfl, hlive, hbetween⟩
  · -- Some function has a live member, and the lambda itself has none of the name.
    rcases List.mem_append.mp hf with hf | hf
    · exact absurd hx (hdead f hf x)
    · rw [List.mem_singleton.mp hf] at hx
      exact absurd hx.taken hfree
  · rcases lookupAround_of_live hsound hchained hstack hlive hbetween hfree with
      ⟨-, copy, ctx', hok⟩ | ⟨htaken, -⟩
    · have hrun := answer_of_lambda hs hstack ((Context.not_taken_iff hs).mp hfree)
      rw [bind_of_ok hok] at hrun
      exact ⟨copy, ctx', bind_of_ok hrun⟩
    · exact absurd ⟨hfree, outer, owner, between, found, hstack, hlive, hbetween, htaken⟩ hclash

end SemaM

open SemaM

/-- When a look-up fails. In a well-nested run it fails for the reason that a name is taken exactly
if it is blocked. Every other look-up that comes to an end succeeds, and it succeeds with a copy if
it starts in a lambda that has no member of the name while a function around it has a live variable
of the name. -/
theorem lookup_fails_iff_blocked {ctx : Context}
    (h : Reached (fun ctx op => op.Nests Context.WellNested ctx) ctx)
    (hlinks : ∀ link ∈ ctx.links, ctx.Exists link) {scope : SymbolId} (hscope : ctx.Exists scope)
    (name : String) :
    ((∃ place, failure? (lookup scope name) ctx = some (.duplicateSymbol place name)) ↔
      ctx.Blocked name scope) ∧
    (¬ctx.Blocked name scope →
      (∃ result ctx', lookup scope name ctx = .ok result ctx') ∨
        ∃ inside, failure? (lookup scope name) ctx = some (.endless inside)) ∧
    (∀ stack, ctx.stack? scope = some stack → ¬ctx.Taken scope name →
      (∃ f ∈ stack, ∃ x, ctx.LiveMember f name x) → ¬ctx.Blocked name scope →
      ∃ copy ctx', lookup scope name ctx = .ok (some copy) ctx') := by
  have hsound := h.sound
  have hchained := h.chained fun _ _ hop => hop
  have hclosed := h.closed fun _ _ hop => hop
  have hcases : (∃ result ctx', lookup scope name ctx = .ok result ctx') ∨
      (∃ inside ctx', lookup scope name ctx = .error (.endless inside) ctx') ∨
      ctx.Blocked name scope :=
    lookupWithin_cases hsound hchained hclosed hlinks hscope ctx.searchBound
  refine ⟨⟨?_, fun hblocked => ?_⟩, fun hfree => ?_, fun stack hstack hfree hlive hblocked => ?_⟩
  · -- Of the three ways in which a search can end, only the third leaves this error.
    rintro ⟨place, hplace⟩
    obtain ⟨ctx', herror⟩ := failure?_eq_some_iff.mp hplace
    rcases hcases with ⟨_, _, hok⟩ | ⟨_, _, hendless⟩ | hblocked
    · rw [hok] at herror
      cases herror
    · rw [hendless] at herror
      cases herror
    · exact hblocked
  · obtain ⟨place, herror⟩ := lookup_of_blocked hsound hchained hblocked
    exact ⟨place, failure?_eq_some_iff.mpr herror⟩
  · rcases hcases with hok | ⟨inside, hendless⟩ | hblocked
    · exact Or.inl hok
    · exact Or.inr ⟨inside, failure?_eq_some_iff.mpr hendless⟩
    · exact absurd hblocked hfree
  · obtain ⟨f, hf, x, hx⟩ := hlive
    -- A scope that is not blocked does not clash itself.
    exact lookup_of_live hsound hchained hstack hfree hf hx fun hclash =>
      hblocked ⟨scope, .refl, hclash⟩

/-- A script function with a variable, a lambda in it with a closed block that had a variable of the
same name, and a lambda in that one. -/
def hiddenRun : List Op :=
  let type : TypeRef := { name := "int", slot := ⟨0⟩ }
  [.addScriptFunc "f" type none, .addVariable "v" type none, .define ⟨85⟩ ⟨86⟩,
    .addLambda "l1" type [⟨85⟩] none, .openBlock ⟨87⟩ none, .addVariable "v" type none,
    .define ⟨88⟩ ⟨89⟩, .closeBlock ⟨88⟩, .addLambda "l2" type [⟨85⟩, ⟨87⟩] none]

/-- The same with a linked module. -/
def linkedRun : List Op := hiddenRun ++ [.addModule "m", .link ⟨91⟩]

/-- What `linkedRun` leaves, by running it. -/
theorem linkedRun_facts :
    let ctx := Op.runs .initial linkedRun
    Op.AllAllowed (fun ctx op => op.Nests Context.WellNested ctx) .initial linkedRun ∧
    ctx.links = [⟨91⟩] ∧ (∀ link ∈ ctx.links, (ctx.arena.get? link).isSome = true) ∧
    (ctx.arena.get? ⟨87⟩).isSome = true ∧ (ctx.arena.get? ⟨90⟩).isSome = true ∧
    failure? (lookup ⟨90⟩ "v") ctx = some (.duplicateSymbol "v(?)" "v") ∧
    failure? (lookup ⟨87⟩ "v") ctx = none := by
  decide +kernel

/-- From the inner lambda the look-up is blocked by the hidden variable of the outer one. The outer
lambda itself has it for its answer. -/
theorem lookup_fails_iff_blocked_linkedRun :
    let ctx := Op.runs .initial linkedRun
    Reached (fun ctx op => op.Nests Context.WellNested ctx) ctx ∧
    ⟨91⟩ ∈ ctx.links ∧ (∀ link ∈ ctx.links, ctx.Exists link) ∧ ctx.Exists ⟨90⟩ ∧
    ctx.Blocked "v" ⟨90⟩ ∧ ctx.Exists ⟨87⟩ ∧ ¬ctx.Blocked "v" ⟨87⟩ ∧
    ((∃ result ctx', lookup ⟨87⟩ "v" ctx = .ok result ctx') ∨
      ∃ inside, failure? (lookup ⟨87⟩ "v") ctx = some (.endless inside)) := by
  intro ctx
  obtain ⟨hallowed, hlinks, hexists, houter, hinner, hfails, hsucceeds⟩ := linkedRun_facts
  have hreached : Reached (fun ctx op => op.Nests Context.WellNested ctx) ctx :=
    Reached.initial.runs hallowed
  have hexists : ∀ link ∈ ctx.links, ctx.Exists link := fun link hlink =>
    Option.isSome_iff_exists.mp (hexists link hlink)
  have houter : ctx.Exists ⟨87⟩ := Option.isSome_iff_exists.mp houter
  have hinner : ctx.Exists ⟨90⟩ := Option.isSome_iff_exists.mp hinner
  -- The inner lambda fails and so is blocked; the outer one does not fail and so is not.
  have hblocked := (lookup_fails_iff_blocked hreached hexists hinner "v").1.mp ⟨_, hfails⟩
  obtain ⟨hiff, hok, -⟩ := lookup_fails_iff_blocked hreached hexists houter "v"
  have hfree : ¬ctx.Blocked "v" ⟨87⟩ := by
    intro hblocked
    obtain ⟨place, hplace⟩ := hiff.mpr hblocked
    have hnone : failure? (lookup ⟨87⟩ "v") ctx = none := hsucceeds
    rw [hnone] at hplace
    cases hplace
  have hlink : ⟨91⟩ ∈ ctx.links := by
    have hlinks : ctx.links = [⟨91⟩] := hlinks
    rw [hlinks]
    exact List.mem_singleton.mpr rfl
  exact ⟨hreached, hlink, hexists, hinner, hblocked, houter, hfree, hok hfree⟩

/-- What `hiddenRun` leaves, by running it. -/
theorem hiddenRun_facts :
    let ctx := Op.runs .initial hiddenRun
    Op.AllAllowed (fun ctx op => op.DefinesOnce ctx ∧ op.Nests Context.WellNested ctx) .initial
      hiddenRun ∧
    ctx.links = [] ∧ ctx.stack? ⟨90⟩ = some [⟨85⟩, ⟨87⟩, ⟨90⟩] ∧
    (ctx.arena.get? ⟨85⟩).bind (·.members.find? "v") = some ⟨86⟩ ∧
    (ctx.arena.get? ⟨86⟩).map Symbol.isLive = some true ∧
    failure? (lookup ⟨90⟩ "v") ctx = some (.duplicateSymbol "v(?)" "v") := by
  decide +kernel

/-- Not every look-up succeeds. Here the function has a live variable of the name and every symbol
was defined once, but the lambda between still has the member of its closed block. -/
theorem lookup_of_live_variable_fails :
    let ctx := Op.runs .initial hiddenRun
    Reached (fun ctx op => op.DefinesOnce ctx ∧ op.Nests Context.WellNested ctx) ctx ∧
    ctx.links = [] ∧ ctx.stack? ⟨90⟩ = some [⟨85⟩, ⟨87⟩, ⟨90⟩] ∧ ctx.LiveMember ⟨85⟩ "v" ⟨86⟩ ∧
    failure? (lookup ⟨90⟩ "v") ctx = some (.duplicateSymbol "v(?)" "v") := by
  intro ctx
  obtain ⟨hallowed, hlinks, hstack, hfind, hlive, hfails⟩ := hiddenRun_facts
  obtain ⟨o, ho, hfind⟩ := Option.bind_eq_some_iff.mp hfind
  obtain ⟨s, hs, hlive⟩ := Option.map_eq_some_iff.mp hlive
  exact ⟨Reached.initial.runs hallowed, hlinks, hstack, ⟨o, s, ho, hfind, hs, hlive⟩, hfails⟩

end Sema

import Sema.Proofs.DefinitionEffect
import Sema.Proofs.StableLookup

/-!
# `Sema.Proofs.MethodBodies`: what a method sees of its class

A method belongs to a class, but its body does not see the members of the class: a search that
leaves the method goes on outside the class. The body has scopes of four kinds, which
`Context.InBody` lists: the method, the lambdas in it, and the blocks of both. From each of them a
search for a name that no function around the scope has comes to the scope around the class.

`method_body_skips_class` states this as an equation between two searches. They start at different
distances from where they end, and a search is bounded. `SemaM.searches_alike` says that this makes
no difference: a search that ends does so within the bound wherever on its way it starts.
-/

set_option autoImplicit false

namespace Sema

open Relation (ReflTransGen)

namespace Context

variable {ctx : Context} {cls m scope : SymbolId} {name : String}

/-- The search for the name from this scope goes round without end. -/
def Endless (ctx : Context) (name : String) (scope : SymbolId) : Prop :=
  ∃ inside, SemaM.lookup scope name ctx = .error (.endless inside) ctx

/-- The search for the name has the same result and effect from both scopes, or ends from
neither. -/
def Alike (ctx : Context) (name : String) (a b : SymbolId) : Prop :=
  SemaM.lookup a name ctx = SemaM.lookup b name ctx ∨ (ctx.Endless name a ∧ ctx.Endless name b)

/-- A function of the class that is no lambda. -/
structure IsMethod (ctx : Context) (m cls : SymbolId) : Prop where
  func : ∃ s info, ctx.arena.get? m = some s ∧ s.kind = .func info
  plain : ctx.stack? m = none
  owner : ctx.owner? m = some cls

/-- The scope is in the body of the method, with these functions on its stack. A block belongs to
the function that it was opened in, however many blocks are between them. -/
inductive InBody (ctx : Context) (m : SymbolId) : List SymbolId → SymbolId → Prop
  | method : InBody ctx m [m] m
  | lambda {lambda : SymbolId} {inner : List SymbolId}
      (hstack : ctx.stack? lambda = some (m :: inner)) : InBody ctx m (m :: inner) lambda
  | block {block func : SymbolId} {stack : List SymbolId} (hframe : ctx.frame? block = some func)
      (h : InBody ctx m stack func) : InBody ctx m stack block

end Context

namespace SemaM

variable {ctx : Context} {name : String} {scope : SymbolId}

/-- A search is not long enough, or it comes to a scope that ends it, however long it is. -/
theorem lookupWithin_ends (hsound : ctx.Sound) (hchained : ctx.Chained) (fuel : Nat)
    (scope : SymbolId) (name : String) :
    (∃ inside, lookupWithin fuel scope name ctx = .error (.endless inside) ctx) ∨
      ∃ last, ReflTransGen (ctx.Passes name) scope last ∧
        ∀ more, lookupWithin (more + 1) last name ctx = lookupWithin fuel scope name ctx := by
  induction fuel generalizing scope with
  | zero => exact Or.inl ⟨scope, rfl⟩
  | succ fuel ih =>
    -- The search ends here, or it goes on from the next scope in the same context.
    cases hanswer : answer scope name ctx with
    | error e ctx' =>
      refine Or.inr ⟨scope, .refl, fun more => ?_⟩
      rw [lookupWithin, lookupWithin, bind_of_error hanswer, bind_of_error hanswer]
    | ok reply ctx' =>
      cases reply with
      | settled result =>
        refine Or.inr ⟨scope, .refl, fun more => ?_⟩
        rw [lookupWithin, lookupWithin, bind_of_ok hanswer, bind_of_ok hanswer]
      | passed next =>
        have hstep : lookupWithin (fuel + 1) scope name ctx = lookupWithin fuel next name ctx' := by
          rw [lookupWithin, bind_of_ok hanswer]
        cases answered hsound hchained hanswer with
        | passed hpass =>
          rw [hstep]
          rcases ih next with hendless | ⟨last, hreach, hends⟩
          · exact Or.inl hendless
          · exact Or.inr ⟨last, .head hpass hreach, hends⟩

/-- A search that comes by a scope does what a search from there does. -/
theorem searches_alike (hsound : ctx.Sound) (hchained : ctx.Chained) {next : SymbolId}
    (hreach : ReflTransGen (ctx.Passes name) scope next) : ctx.Alike name scope next := by
  obtain ⟨fuel, hrun⟩ := lookup_of_reaches hsound hchained hreach
  rcases lookupWithin_ends hsound hchained (fuel + 1) next name with
    ⟨inside, hendless⟩ | ⟨last, hlast, hends⟩
  · -- The search from `next` is allowed more steps, but if these help it, the first has them too.
    rcases lookupWithin_ends hsound hchained ctx.searchBound next name with
      ⟨inside', hendless'⟩ | ⟨last, hlast, hends⟩
    · exact Or.inr ⟨⟨inside, hrun.trans hendless⟩, inside', hendless'⟩
    · obtain ⟨more, hrun'⟩ := lookup_of_reaches hsound hchained (hreach.trans hlast)
      exact Or.inl (hrun'.trans (hends more))
  · obtain ⟨more, hrun'⟩ := lookup_of_reaches hsound hchained hlast
    exact Or.inl (hrun.trans ((hends more).symm.trans hrun'.symm))

end SemaM

namespace Context

variable {ctx : Context} {cls m scope : SymbolId} {name : String}

/-- A search leaves a method past its class. -/
theorem IsMethod.outerWithin (hm : ctx.IsMethod m cls) (hcls : ctx.IsClass cls) (fuel : Nat) :
    ctx.outerWithin (fuel + 1) m = .ok (ctx.owner? cls) := by
  obtain ⟨⟨s, info, hs, hk⟩, hplain, howner⟩ := hm
  obtain ⟨c, cinfo, hc, hck⟩ := hcls
  rw [owner?_of_get? hs] at howner
  -- A method is no lambda, so the way out passes its class.
  have honward : s.onward m = .past cls := by
    have hl : info.flavor.lambda? = none := by
      have hnone := Option.map_eq_none_iff.mp hplain
      rw [lambda?_of_get? hs, hk] at hnone
      exact hnone
    cases hf : info.flavor with
    | lambda l =>
      rw [hf] at hl
      cases hl
    | _ => simp only [Symbol.onward, hk, hf, howner]
  simp only [Context.outerWithin, symbol_of_get? hs, symbol_of_get? hc, bind, Except.bind, honward,
    hck, owner?_of_get? hc]
  rfl

/-- It leaves a lambda in the method in the same place. -/
theorem IsMethod.outerWithin_lambda (hm : ctx.IsMethod m cls) (hcls : ctx.IsClass cls)
    {lambda : SymbolId} {inner : List SymbolId} (hstack : ctx.stack? lambda = some (m :: inner))
    (fuel : Nat) : ctx.outerWithin (fuel + 2) lambda = .ok (ctx.owner? cls) := by
  obtain ⟨s, hs⟩ := exists_of_stack? hstack
  obtain ⟨l, hl, hstack'⟩ := stack?_eq_some_iff.mp hstack
  have hne : m ≠ lambda := by
    rintro rfl
    rw [hm.plain] at hstack
    cases hstack
  -- A lambda goes out from where its outermost function does.
  have honward : s.onward lambda = .sameAs m := by
    rw [lambda?_of_get? hs] at hl
    obtain ⟨info, l', hk, hf⟩ := s.exists_of_isLambda (by simp [Symbol.isLambda, hl])
    rw [hk] at hl
    obtain rfl : l' = l := by
      simpa [SymbolKind.lambda?, SymbolKind.func?, FuncFlavor.lambda?, hf] using hl
    simp only [Symbol.onward, hk, hf, hstack', List.head?_cons, if_neg hne]
  rw [Context.outerWithin, symbol_of_get? hs]
  simp only [bind, Except.bind, honward]
  exact hm.outerWithin hcls fuel

/-- From every scope of the body a search for a free name comes to a function that leaves it to the
scope around the class. -/
theorem InBody.reaches (hsound : ctx.Sound) (hchained : ctx.Chained) (hm : ctx.IsMethod m cls)
    (hcls : ctx.IsClass cls) {stack : List SymbolId} (hbody : ctx.InBody m stack scope)
    (hfree : ∀ f ∈ stack, ¬ctx.Taken f name) :
    ∃ func, ReflTransGen (ctx.Passes name) scope func ∧
      SemaM.answer func name ctx = SemaM.passOutward func ctx ∧
      ctx.outer func = .ok (ctx.owner? cls) := by
  induction hbody with
  | method =>
    obtain ⟨s, info, hs, hk⟩ := hm.func
    refine ⟨m, .refl, SemaM.answer_of_dead hsound hchained hs (by simp [hk]) (by simp [hk])
      (hfree m List.mem_cons_self) ?_, hm.outerWithin hcls _⟩
    intro stack hstack
    rw [hm.plain] at hstack
    cases hstack
  | @lambda lambda inner hstack =>
    obtain ⟨s, hs⟩ := exists_of_stack? hstack
    obtain ⟨info, hk⟩ := isFunc_of_stack? hs hstack
    obtain ⟨-, front, owner, hsplit⟩ := hchained.nested hstack
    have hself : lambda ∈ m :: inner := by
      rw [hsplit]
      simp
    refine ⟨lambda, .refl, SemaM.answer_of_dead hsound hchained hs (by simp [hk]) (by simp [hk])
      (hfree lambda hself) ?_, ?_⟩
    · intro stack hstack' f hf x hx
      rw [hstack] at hstack'
      cases hstack'
      exact hfree f hf hx.taken
    · -- The lambda exists, so the bound leaves a second hop.
      have hsize : [lambda].length ≤ ctx.arena.size :=
        length_le_size (List.nodup_singleton lambda) (by simpa using ⟨s, hs⟩)
      obtain ⟨n, hn⟩ := Nat.exists_eq_add_of_le' hsize
      rw [outer, searchBound, hn]
      exact hm.outerWithin_lambda hcls hstack n
  | @block block func stack hframe hbody ih =>
    obtain ⟨last, hreach, hrest⟩ := ih hfree
    obtain ⟨o, b, ho, hk, rfl⟩ := exists_block_of_frame? hframe
    exact ⟨last, .head (.block ho hk) hreach, hrest⟩

end Context

/-- In every context of a well-nested run: a method of a class, the lambdas in it and the blocks of
both see nothing of the class. The search for a name that no function on the stack of the scope has
does what the search from the owner of the class does, and finds nothing if the class has no
owner. -/
theorem method_body_skips_class {ctx : Context}
    (h : Reached (fun ctx op => op.Nests Context.WellNested ctx) ctx) {cls m scope : SymbolId}
    {stack : List SymbolId} {name : String} (hcls : ctx.IsClass cls) (hm : ctx.IsMethod m cls)
    (hbody : ctx.InBody m stack scope) (hfree : ∀ f ∈ stack, ¬ctx.Taken f name) :
    (ctx.owner? cls = none → SemaM.lookup scope name ctx = .ok none ctx) ∧
      ∀ outer, ctx.owner? cls = some outer → ctx.Alike name scope outer := by
  have hsound := h.sound
  have hchained := h.chained fun _ _ hop => hop
  obtain ⟨func, hreach, hanswer, houter⟩ := hbody.reaches hsound hchained hm hcls hfree
  refine ⟨fun hnone => ?_, fun outer hsome => ?_⟩
  · -- Nothing is around the class, so the search ends.
    rw [hnone] at houter
    obtain ⟨more, hrun⟩ := SemaM.lookup_of_reaches hsound hchained hreach
    have hpass := hanswer.trans (SemaM.passOutward_of_end houter)
    rw [hrun, SemaM.lookupWithin, SemaM.bind_of_ok hpass]
    rfl
  · rw [hsome] at houter
    cases SemaM.answered hsound hchained (hanswer.trans (SemaM.passOutward_of_ok houter)) with
    | passed hpass => exact SemaM.searches_alike hsound hchained (hreach.tail hpass)

/-- A module with a variable `x`, a class with a field `x`, a class below it in the module, and a
method of that one with two blocks in each other and two lambdas in each other, the inner one with a
block. -/
def methodBodyRun : List Op :=
  let int : TypeRef := { name := "int", slot := ⟨0⟩ }
  [.addModule "m", .addVariable "x" int none, .define ⟨85⟩ ⟨86⟩, .addClass "A" none .script none,
    .addField "x" int none, .define ⟨87⟩ ⟨88⟩, .addClass "B" (some ⟨87⟩) .script none,
    .define ⟨85⟩ ⟨89⟩, .addScriptFunc "f" int none, .define ⟨89⟩ ⟨90⟩, .openBlock ⟨90⟩ none,
    .openBlock ⟨91⟩ none, .addLambda "l" int [⟨90⟩] none, .addLambda "k" int [⟨90⟩, ⟨93⟩] none,
    .openBlock ⟨94⟩ none]

/-- What `methodBodyRun` leaves, by running it. -/
theorem methodBodyRun_facts :
    let ctx := Op.runs .initial methodBodyRun
    Op.AllAllowed (fun ctx op => op.Nests Context.WellNested ctx) .initial methodBodyRun ∧
    ctx.superClass? ⟨89⟩ = some ⟨87⟩ ∧ ctx.members? ⟨89⟩ = some [("x", ⟨88⟩), ("f", ⟨90⟩)] ∧
    ctx.owner? ⟨89⟩ = some ⟨85⟩ ∧ ctx.owner? ⟨90⟩ = some ⟨89⟩ ∧ ctx.stack? ⟨90⟩ = none ∧
    ctx.frame? ⟨92⟩ = some ⟨90⟩ ∧ ctx.frame? ⟨95⟩ = some ⟨94⟩ ∧
    ctx.stack? ⟨94⟩ = some [⟨90⟩, ⟨93⟩, ⟨94⟩] ∧
    (∀ f ∈ [⟨90⟩, ⟨93⟩, ⟨94⟩], (ctx.arena.get? f).map (·.members.keys) = some []) ∧
    (SemaM.lookup ⟨85⟩ "x").run' ctx = some (some ⟨86⟩) := by
  decide +kernel

/-- From the inner block of the method and from the block of the inner lambda, the variable of the
module is found and not the field of the class. -/
theorem method_body_skips_class_methodBodyRun :
    let ctx := Op.runs .initial methodBodyRun
    Reached (fun ctx op => op.Nests Context.WellNested ctx) ctx ∧ ctx.IsClass ⟨89⟩ ∧
    ctx.IsMethod ⟨90⟩ ⟨89⟩ ∧ ctx.Taken ⟨89⟩ "x" ∧ ctx.InBody ⟨90⟩ [⟨90⟩] ⟨92⟩ ∧
    ctx.InBody ⟨90⟩ [⟨90⟩, ⟨93⟩, ⟨94⟩] ⟨95⟩ ∧
    ∀ scope ∈ [⟨92⟩, ⟨95⟩], ∃ ctx', SemaM.lookup scope "x" ctx = .ok (some ⟨86⟩) ctx' := by
  intro ctx
  obtain ⟨hallowed, hsuper, hmembers, houter, howner, hplain, hblock, hinner, hstack, hkeys,
    hfound⟩ := methodBodyRun_facts
  have hreached : Reached (fun ctx op => op.Nests Context.WellNested ctx) ctx :=
    Reached.initial.runs hallowed
  obtain ⟨c, hc, hentries⟩ := Option.map_eq_some_iff.mp hmembers
  obtain ⟨info, hck⟩ := Context.exists_class_of_superClass? hsuper hc
  have hcls : ctx.IsClass ⟨89⟩ := ⟨c, info, hc, hck⟩
  have htaken : ctx.Taken ⟨89⟩ "x" := by
    refine ⟨c, hc, (Assoc.mem_keys_iff _ _).mpr ⟨⟨88⟩, ?_⟩⟩
    rw [hentries]
    exact List.mem_cons_self
  have hm : ctx.IsMethod ⟨90⟩ ⟨89⟩ := ⟨hreached.framed.func hblock, hplain, howner⟩
  have hbody : ctx.InBody ⟨90⟩ [⟨90⟩] ⟨92⟩ := .block hblock .method
  have hbody' : ctx.InBody ⟨90⟩ [⟨90⟩, ⟨93⟩, ⟨94⟩] ⟨95⟩ := .block hinner (.lambda hstack)
  have hfree : ∀ f ∈ [⟨90⟩, ⟨93⟩, ⟨94⟩], ¬ctx.Taken f "x" :=
    fun f hf => Context.not_taken_of_keys (hkeys f hf) (by simp)
  have hrun := SemaM.eq_ok_of_run' hfound
  -- The search from the module ends, so the other ones do as well.
  have hsame : ∀ {scope}, ctx.Alike "x" scope ⟨85⟩ →
      ∃ ctx', SemaM.lookup scope "x" ctx = .ok (some ⟨86⟩) ctx' := by
    rintro scope (heq | ⟨-, inside, hendless⟩)
    · exact ⟨_, heq.trans hrun⟩
    · rw [hrun] at hendless
      cases hendless
  refine ⟨hreached, hcls, hm, htaken, hbody, hbody', fun scope hscope => ?_⟩
  rcases List.mem_pair.mp hscope with rfl | rfl
  · refine hsame ((method_body_skips_class hreached hcls hm hbody ?_).2 ⟨85⟩ houter)
    intro f hf
    exact hfree f (List.mem_cons.mpr (Or.inl (List.mem_singleton.mp hf)))
  · exact hsame ((method_body_skips_class hreached hcls hm hbody' hfree).2 ⟨85⟩ houter)

end Sema

import Sema.Proofs.Assignability
import Sema.Proofs.InheritedNames

/-!
# `Sema.Proofs.ClassHierarchy`: going from class to super class comes to an end

A class is put below a super class when it is made and stays there, and the super class has to exist
by then. So the super class is older, whatever a run calls and whichever calls fail
(`Reached.madeAfter`), and no class is among its own ancestors.

Two searches go upward without a measure of their own. `Context.reachesWithin` looks for an
ancestor, and `Context.memberWithin` for a member. Both end from every id within the bound they are
given, and a larger bound makes no difference. `Context.MemberAnswer` lists what the search for a
member may answer; that the bound was met is not among it.

`inheritance_well_founded` puts this together with what follows for inheritance as an order and for
conversions between classes.
-/

set_option autoImplicit false

namespace Sema

/-! ### Super classes are made first -/

/-- On the way to a context there was a call that made the class, and the other class was there
before that call. -/
def MadeAfter (allowed : Context → Op → Prop) (ctx : Context) (cls p : SymbolId) : Prop :=
  ∃ (before : Context) (op : Op) (rest : List Op),
    Reached allowed before ∧ Op.runs (op.next before) rest = ctx ∧
    before.IsClass p ∧ ¬before.Exists cls ∧ (op.next before).IsClass cls

/-- A class stays one that was made after its super class. -/
theorem MadeAfter.next {allowed : Context → Op → Prop} {ctx : Context} {cls p : SymbolId}
    (h : MadeAfter allowed ctx cls p) (op : Op) : MadeAfter allowed (op.next ctx) cls p := by
  obtain ⟨before, made, rest, hreached, rfl, hmade⟩ := h
  exact ⟨before, made, rest ++ [op], hreached, Op.runs_append _ _ _, hmade⟩

/-- Every class was made after its super class. -/
theorem Reached.madeAfter {allowed : Context → Op → Prop} {ctx : Context} {cls p : SymbolId}
    (h : Reached allowed ctx) (hp : ctx.superClass? cls = some p) :
    MadeAfter allowed ctx cls p := by
  induction h with
  | initial =>
    rw [Context.initial_superClass?] at hp
    cases hp
  | @step ctx op h hop ih =>
    cases hold : ctx.arena.get? cls with
    | some s =>
      rw [(op.grows ctx).superClass?_eq hold] at hp
      exact (ih hp).next op
    | none =>
      -- The call makes the class. It finds the super class there and leaves it as it is.
      obtain ⟨q, o, hq, hq', ho, -⟩ := Op.startsFrom hold hp
      obtain ⟨-, q'', info, hq'', hk⟩ := (h.step op hop).descends hp
      rw [hq'] at hq''
      cases hq''
      obtain ⟨info', hk'⟩ := Context.exists_class_of_superClass? hp ho
      refine ⟨ctx, op, [], h, rfl, ⟨q, info, hq, hk⟩, ?_, ⟨o, info', ho, hk'⟩⟩
      rintro ⟨s, hs⟩
      rw [hold] at hs
      cases hs

namespace Context

variable {ctx : Context} {x p : SymbolId} {name : String}

/-- A class has the same super class later, or none as before. -/
theorem Grows.superClass {a b : Context} (h : a.Grows b) {o : Symbol} {info : ClassInfo}
    (ho : a.arena.get? x = some o) (hk : o.kind = .classDecl info) :
    b.superClass x = .ok info.superClass := by
  obtain ⟨o', ho', hoo⟩ := h.symbols x o ho
  obtain ⟨info', hk', hsuper, -⟩ := hoo.kind.of_classDecl hk
  rw [superClass_of_class ho' hk', hsuper]

/-! ### The two searches end -/

/-- Going up from class to super class ends. -/
theorem Descends.wellFounded (h : ctx.Descends) :
    WellFounded fun p x => ctx.superClass? x = some p :=
  Subrelation.wf (fun hp => (h hp).1) (measure SymbolId.num).wf

/-- The search for an ancestor has its answer within the bound. -/
theorem Descends.reachesWithin_of_le (h : ctx.Descends) {fuel : Nat}
    (hfuel : ctx.searchBound ≤ fuel) : ctx.reachesWithin p fuel x = some (ctx.isSubclass x p) := by
  have hpos : 0 < fuel := Nat.lt_of_lt_of_le (Nat.succ_pos _) hfuel
  obtain ⟨answer, hanswer, hiff⟩ :=
    h.reachesWithin_eq (p := p) hpos fun _ hq => num_lt_of_superClass? hfuel hq
  rw [hanswer, Option.some.injEq, Bool.eq_iff_iff, hiff, h.isSubclass_iff]

/-- What the search for a member may answer, from any id. -/
inductive MemberAnswer (ctx : Context) (name : String) (x : SymbolId) :
    Except CompileError (Option SymbolId) → Prop
  /-- The member of the nearest one that has the name. -/
  | found {p id : SymbolId} {o : Symbol} (hp : ctx.Ancestor x p) (ho : ctx.arena.get? p = some o)
      (hfind : o.members.find? name = some id)
      (hnearest : ∀ m, ctx.Ancestor x m → ctx.Ancestor m p → m ≠ p → ¬ctx.Taken m name) :
      MemberAnswer ctx name x (.ok (some id))
  /-- Neither the class nor any above it has the name. -/
  | nowhere (hx : ctx.IsClass x) (hnone : ∀ p, ctx.Ancestor x p → ¬ctx.Taken p name) :
      MemberAnswer ctx name x (.ok none)
  /-- The symbol has not got the name itself and is no class, so there is nothing above it. -/
  | notAClass {o : Symbol} (ho : ctx.arena.get? x = some o) (hx : ¬ctx.IsClass x)
      (hnone : ¬ctx.Taken x name) : MemberAnswer ctx name x (.error (.notAType o.name))
  /-- There is no such symbol. -/
  | missing (hx : ctx.arena.get? x = none) : MemberAnswer ctx name x (.error (.danglingSymbol x))

/-- A name that is not found is free. -/
theorem not_taken_of_find? {o : Symbol} (ho : ctx.arena.get? x = some o)
    (hfind : o.members.find? name = none) : ¬ctx.Taken x name := by
  rintro ⟨o', ho', hkey⟩
  rw [ho] at ho'
  cases ho'
  exact (Assoc.find?_eq_none_iff _ _).mp hfind hkey

/-- The ancestors of a class are itself and those of its super class. -/
theorem ancestor_cases (hp : ctx.superClass? x = some p) {m : SymbolId} (hm : ctx.Ancestor x m) :
    m = x ∨ ctx.Ancestor p m := by
  rcases Relation.ReflTransGen.cases_head hm with rfl | ⟨q, hq, hrest⟩
  · exact Or.inl rfl
  · rw [hp] at hq
    cases hq
    exact Or.inr hrest

/-- A class without the name answers what its super class answers. -/
theorem MemberAnswer.below {r : Except CompileError (Option SymbolId)}
    (h : ctx.MemberAnswer name p r) (hsuper : ctx.superClass? x = some p) (hx : ctx.IsClass x)
    (hp : ctx.IsClass p) (hnot : ¬ctx.Taken x name) : ctx.MemberAnswer name x r := by
  cases h with
  | @found q id o hq ho hfind hnearest =>
    -- Between the class and where the member was found there is now the class itself as well.
    refine .found (.head hsuper hq) ho hfind fun m hm hmq hne => ?_
    rcases ancestor_cases hsuper hm with rfl | habove
    · exact hnot
    · exact hnearest m habove hmq hne
  | nowhere _ hnone =>
    refine .nowhere hx fun m hm => ?_
    rcases ancestor_cases hsuper hm with rfl | habove
    · exact hnot
    · exact hnone m habove
  | notAClass _ hnotClass => exact absurd hp hnotClass
  | missing hmissing =>
    obtain ⟨q, -, hq, -⟩ := hp
    rw [hmissing] at hq
    cases hq

/-- Only classes can be asked for a super class. -/
theorem superClass_of_not_class {o : Symbol} (ho : ctx.arena.get? x = some o)
    (hx : ¬ctx.IsClass x) : ctx.superClass x = .error (.notAType o.name) := by
  simp only [superClass, classInfo, symbol_of_get? ho, bind, Except.bind]
  cases hk : o.kind with
  | classDecl info => exact absurd ⟨o, info, ho, hk⟩ hx
  | _ => rfl

/-- One step of the search: it has an answer that does not depend on the bound, or it goes on in the
super class. -/
theorem Descends.memberWithin_step (h : ctx.Descends) (name : String) (x : SymbolId) :
    (∃ r, ctx.MemberAnswer name x r ∧ ∀ fuel, ctx.memberWithin name (fuel + 1) x = r) ∨
    ∃ p, ctx.superClass? x = some p ∧ ctx.IsClass x ∧ ¬ctx.Taken x name ∧
      ∀ fuel, ctx.memberWithin name (fuel + 1) x = ctx.memberWithin name fuel p := by
  cases ho : ctx.arena.get? x with
  | none =>
    refine Or.inl ⟨_, .missing ho, fun fuel => ?_⟩
    simp only [memberWithin, symbol_of_none ho, bind, Except.bind]
  | some o =>
    cases hfind : o.members.find? name with
    | some id =>
      -- The symbol has the name itself, and nothing else lies between it and itself.
      refine Or.inl ⟨_, .found .refl ho hfind fun m hm hmx hne => ?_, fun fuel => ?_⟩
      · exact absurd (h.ancestor_antisymm hmx hm) hne
      · simp only [memberWithin, symbol_of_get? ho, bind, Except.bind, hfind]
        rfl
    | none =>
      have hnot := not_taken_of_find? ho hfind
      -- Only a class sends the search on, and only if it has a super class.
      by_cases hx : ctx.IsClass x
      · obtain ⟨o', info, ho', hk⟩ := hx
        rw [ho] at ho'
        cases ho'
        have hx : ctx.IsClass x := ⟨o, info, ho, hk⟩
        have hstep := superClass?_of_class ho hk
        cases hsuper : info.superClass with
        | none =>
          rw [hsuper] at hstep
          refine Or.inl ⟨_, .nowhere hx fun m hm => ?_, fun fuel => ?_⟩
          · rcases Relation.ReflTransGen.cases_head hm with rfl | ⟨q, hq, -⟩
            · exact hnot
            · rw [hstep] at hq
              cases hq
          · simp only [memberWithin, symbol_of_get? ho, bind, Except.bind, hfind,
              superClass_of_class ho hk, hsuper]
            rfl
        | some p =>
          refine Or.inr ⟨p, hstep.trans hsuper, hx, hnot, fun fuel => ?_⟩
          simp only [memberWithin, symbol_of_get? ho, bind, Except.bind, hfind,
            superClass_of_class ho hk, hsuper]
      · refine Or.inl ⟨_, .notAClass ho hx hnot, fun fuel => ?_⟩
        simp only [memberWithin, symbol_of_get? ho, bind, Except.bind, hfind,
          superClass_of_not_class ho hx]

/-- The search for a member has one answer, for every bound that is large enough. -/
theorem Descends.exists_memberAnswer (h : ctx.Descends) (name : String) (x : SymbolId) :
    ∃ r, ctx.MemberAnswer name x r ∧ ∀ fuel, 0 < fuel →
      (∀ q, ctx.superClass? x = some q → x.num < fuel) → ctx.memberWithin name fuel x = r := by
  -- Upward: what holds of the super class holds of the class, with one step more.
  induction x using h.wellFounded.induction with
  | _ x ih =>
    rcases h.memberWithin_step name x with ⟨r, hr, hstep⟩ | ⟨p, hp, hx, hnot, hstep⟩
    · refine ⟨r, hr, fun fuel hpos _ => ?_⟩
      obtain ⟨n, rfl⟩ := Nat.exists_eq_add_one.mpr hpos
      exact hstep n
    · obtain ⟨r, hr, hwithin⟩ := ih p hp
      obtain ⟨hlt, hclass⟩ := h hp
      refine ⟨r, hr.below hp hx hclass hnot, fun fuel hpos hfuel => ?_⟩
      obtain ⟨n, rfl⟩ := Nat.exists_eq_add_one.mpr hpos
      have hn := hfuel p hp
      rw [hstep n]
      exact hwithin n (by omega) fun _ _ => by omega

/-- The bound of a look-up is large enough. -/
theorem Descends.lookupMember_answer (h : ctx.Descends) (name : String) (x : SymbolId) :
    ctx.MemberAnswer name x (ctx.lookupMember x name) ∧
    ∀ fuel, ctx.searchBound ≤ fuel → ctx.memberWithin name fuel x = ctx.lookupMember x name := by
  obtain ⟨r, hr, hwithin⟩ := h.exists_memberAnswer name x
  have henough : ∀ fuel, ctx.searchBound ≤ fuel → ctx.memberWithin name fuel x = r := by
    intro fuel hfuel
    have hpos : 0 < fuel := Nat.lt_of_lt_of_le (Nat.succ_pos _) hfuel
    exact hwithin fuel hpos fun _ hq => num_lt_of_superClass? hfuel hq
  have hlookup : ctx.lookupMember x name = r := henough _ (Nat.le_refl _)
  rw [hlookup]
  exact ⟨hr, henough⟩

/-! ### Conversions between classes -/

/-- A cast is accepted where it is possible. -/
theorem checkCast_eq_ok_iff {target source : TypedExpr} :
    ctx.checkCast target source = .ok () ↔ ctx.canCast target.type source.type = true := by
  unfold checkCast
  cases ctx.canCast target.type source.type with
  | true => exact ⟨fun _ => rfl, fun _ => rfl⟩
  | false =>
    -- Past the test there is no way to succeed.
    refine ⟨fun hok => ?_, fun hcan => Bool.noConfusion hcan⟩
    obtain ⟨_, -, hrest⟩ := except_bind_eq_ok hok
    obtain ⟨_, -, hthrow⟩ := except_bind_eq_ok hrest
    cases hthrow

/-- Being in one hierarchy is symmetric. -/
theorem inSameHierarchy_comm (ctx : Context) (a b : Ty) :
    ctx.inSameHierarchy a b = ctx.inSameHierarchy b a :=
  Bool.or_comm _ _

/-- No rule but inheritance converts one class to another, and a class inherits from itself. -/
theorem Descends.canCast_classOf_iff (h : ctx.Descends) {a b : SymbolId} :
    ctx.canCast (.classOf a) (.classOf b) = true ↔
      ctx.isSubclass b a = true ∨ ctx.isSubclass a b = true := by
  have hrules : ctx.canCast (.classOf a) (.classOf b)
      = (a == b || (ctx.isSubclass b a || ctx.isSubclass a b)) := by
    simp [canCast, inSameHierarchy, isChildClass, CompatTable.resultTy?, Ty.isSame?, Ty.same, Ty.is,
      Ty.isNumeric, Ty.isEnum, Ty.builtIn?, Ty.class?]
  rw [hrules, Bool.or_eq_true, Bool.or_eq_true, beq_iff_eq]
  refine or_iff_right_of_imp ?_
  rintro rfl
  exact Or.inl (h.isSubclass_iff.mpr .refl)

end Context

/-- Take any run, whichever of its calls fail. The super class of a class is a class, has a smaller
id, was there before the class was made, and stays the super class whatever is called later. So no
chain of super classes goes on for ever: from every id the two searches upward answer, and the
answer is the same for every bound from `searchBound` on. The first search decides whether an id is
reached by going to the super class any number of times. That is an order, and one class converts to
another exactly if they are related by it one way or the other. -/
theorem inheritance_well_founded {allowed : Context → Op → Prop} {ctx : Context}
    (h : Reached allowed ctx) :
    (∀ cls o info, ctx.arena.get? cls = some o → o.kind = .classDecl info →
      (∀ p, info.superClass = some p →
        ctx.IsClass p ∧ p.num < cls.num ∧ MadeAfter allowed ctx cls p) ∧
      ∀ ops, (Op.runs ctx ops).superClass cls = .ok info.superClass) ∧
    (WellFounded fun p cls => ctx.superClass? cls = some p) ∧
    (∀ cls p fuel, ctx.searchBound ≤ fuel →
      ctx.reachesWithin p fuel cls = some (ctx.isSubclass cls p)) ∧
    (∀ cls name, ctx.MemberAnswer name cls (ctx.lookupMember cls name) ∧
      ∀ fuel, ctx.searchBound ≤ fuel →
        ctx.memberWithin name fuel cls = ctx.lookupMember cls name) ∧
    (∀ cls p, ctx.isSubclass cls p = true ↔ ctx.Ancestor cls p) ∧
    (∀ a, ctx.isSubclass a a = true) ∧
    (∀ a b c, ctx.isSubclass a b = true → ctx.isSubclass b c = true →
      ctx.isSubclass a c = true) ∧
    (∀ a b, ctx.isSubclass a b = true → ctx.isSubclass b a = true → a = b) ∧
    (∀ s t, ctx.inSameHierarchy s t = ctx.inSameHierarchy t s) ∧
    ∀ target source a b, target.type = .classOf a → source.type = .classOf b →
      (ctx.checkCast target source = .ok () ↔
        ctx.isSubclass b a = true ∨ ctx.isSubclass a b = true) := by
  have hdescends := h.descends
  refine ⟨?_, hdescends.wellFounded, fun cls p fuel => hdescends.reachesWithin_of_le,
    fun cls name => hdescends.lookupMember_answer name cls, fun cls p => hdescends.isSubclass_iff,
    ?_, ?_, ?_, ctx.inSameHierarchy_comm, ?_⟩
  · intro cls o info ho hk
    refine ⟨fun p hp => ?_, fun ops => (Op.runs_grows ctx ops).superClass ho hk⟩
    -- The super class of a class has a smaller number, and everything else follows from that.
    have hsuper : ctx.superClass? cls = some p := (Context.superClass?_of_class ho hk).trans hp
    obtain ⟨hlt, hclass⟩ := hdescends hsuper
    exact ⟨hclass, hlt, h.madeAfter hsuper⟩
  · intro a
    exact hdescends.isSubclass_iff.mpr .refl
  · intro a b c hab hbc
    rw [hdescends.isSubclass_iff] at hab hbc ⊢
    exact Relation.ReflTransGen.trans hab hbc
  · intro a b hab hba
    rw [hdescends.isSubclass_iff] at hab hba
    exact hdescends.ancestor_antisymm hab hba
  · intro target source a b htarget hsource
    rw [Context.checkCast_eq_ok_iff, htarget, hsource]
    exact hdescends.canCast_classOf_iff

/-- Three classes, one below the other, and a second class below the first, which gets a field at
the end. Before the second class comes a call that would make it its own super class, and before
the field one that would put a class below the global scope; both fail. -/
def ownSuperRun : List Op :=
  [.addClass "Base" none .script none, .addClass "Loop" (some ⟨86⟩) .script none,
    .addNativeClass "Middle" (some ⟨85⟩) none, .addClass "Leaf" (some ⟨86⟩) .script none,
    .addClass "Other" (some ⟨85⟩) .script none,
    .addClass "Stray" (some Context.globals) .script none,
    .addField "a" { name := "int", slot := ⟨0⟩ } none, .define ⟨85⟩ ⟨89⟩]

/-- What `ownSuperRun` leaves, by running it. -/
theorem ownSuperRun_facts :
    let ctx := Op.runs .initial ownSuperRun
    ctx.superClass? ⟨86⟩ = some ⟨85⟩ ∧ ctx.superClass? ⟨87⟩ = some ⟨86⟩ ∧
    ctx.isSubclass ⟨87⟩ ⟨88⟩ = false ∧ ctx.isSubclass ⟨88⟩ ⟨87⟩ = false ∧
    ctx.lookupMember ⟨87⟩ "a" = .ok (some ⟨89⟩) := by
  decide +kernel

/-- The third class converts to the first and back, and not to the one beside it. -/
theorem inheritance_well_founded_ownSuperRun :
    let ctx := Op.runs .initial ownSuperRun
    Reached (fun _ _ => True) ctx ∧ MadeAfter (fun _ _ => True) ctx ⟨87⟩ ⟨86⟩ ∧
    ctx.MemberAnswer "a" ⟨87⟩ (.ok (some ⟨89⟩)) ∧
    ctx.isSubclass ⟨87⟩ ⟨85⟩ = true ∧ ctx.isSubclass ⟨85⟩ ⟨87⟩ = false ∧
    ctx.checkCast { type := .classOf ⟨87⟩ } { type := .classOf ⟨85⟩ } = .ok () ∧
    ctx.checkCast { type := .classOf ⟨85⟩ } { type := .classOf ⟨87⟩ } = .ok () ∧
    ctx.checkCast { type := .classOf ⟨87⟩ } { type := .classOf ⟨88⟩ } ≠ .ok () := by
  intro ctx
  obtain ⟨hmiddle, hleaf, hno, hno', hfound⟩ := ownSuperRun_facts
  have hreached : Reached (fun _ _ => True) ctx := Reached.initial.runs_free ownSuperRun
  obtain ⟨hsupers, -, -, hanswers, hiff, -, -, hantisymm, -, hcast⟩ :=
    inheritance_well_founded hreached
  have hsub : ctx.isSubclass ⟨87⟩ ⟨85⟩ = true :=
    (hiff _ _).mpr (.above (.above .refl hleaf) hmiddle)
  -- Else the two classes would be the same.
  have hnotSub : ctx.isSubclass ⟨85⟩ ⟨87⟩ = false := by
    refine Bool.eq_false_iff.mpr fun hback => ?_
    cases hantisymm _ _ hsub hback
  have hmade : MadeAfter (fun _ _ => True) ctx ⟨87⟩ ⟨86⟩ := by
    have hbound := hleaf
    rw [Context.superClass?_eq] at hbound
    obtain ⟨o, ho, -⟩ := Option.bind_eq_some_iff.mp hbound
    obtain ⟨info, hk⟩ := Context.exists_class_of_superClass? hleaf ho
    have hinfo : info.superClass = some ⟨86⟩ :=
      (Context.superClass?_of_class ho hk).symm.trans hleaf
    exact ((hsupers _ o info ho hk).1 _ hinfo).2.2
  refine ⟨hreached, hmade, hfound ▸ (hanswers ⟨87⟩ "a").1, hsub, hnotSub, ?_, ?_, ?_⟩
  · exact (hcast _ _ _ _ rfl rfl).mpr (Or.inr hsub)
  · exact (hcast _ _ _ _ rfl rfl).mpr (Or.inl hsub)
  · rw [Ne, hcast _ _ _ _ rfl rfl, hno, hno']
    simp

end Sema

import Sema.Proofs.DefinitionEffect

/-!
# `Sema.Proofs.InheritedNames`: which names of its ancestors a class refuses

A definition in a class looks at the members of the class and at those of its super class
(`Context.repeats_class_iff`). A look-up of a member goes through all the ancestors. The two differ
by what was added to an ancestor too late: a class has the members that its super class had when it
was made, so a name is handed on to every class made below, and from there further down
(`Op.runs_taken`), but nothing tells the classes that are there already.

`inherited_names_refused` says which definitions are refused, and that what is not refused hides the
member of the ancestor. `late_name_redeclared` is the smallest case of it.
-/

set_option autoImplicit false

namespace Sema

namespace Context

variable {ctx : Context} {cls : SymbolId} {o : Symbol} {info : ClassInfo} {name : String}

/-- A class repeats a name that it has itself, and one that its super class has. -/
theorem repeats_class_iff (ho : ctx.arena.get? cls = some o) (hk : o.kind = .classDecl info) :
    ctx.Repeats cls name ↔
      ctx.Taken cls name ∨ ∃ parent, ctx.superClass? cls = some parent ∧ ctx.Taken parent name := by
  have hhome : ctx.home cls = cls := home_of_none (frame?_of_class ⟨o, info, ho, hk⟩)
  rw [Repeats, hhome, repeatsOther_class_iff ho hk, superClass?_of_class ho hk]

/-- A member of the class itself ends the look-up. -/
theorem lookupMember_of_find? {x : SymbolId} (ho : ctx.arena.get? cls = some o)
    (hfind : o.members.find? name = some x) : ctx.lookupMember cls name = .ok (some x) := by
  rw [lookupMember, searchBound, memberWithin]
  simp only [symbol_of_get? ho, bind, Except.bind, hfind]
  rfl

/-- A name that is taken stays taken. -/
theorem Grows.taken {a b : Context} (h : a.Grows b) {scope : SymbolId}
    (htaken : a.Taken scope name) : b.Taken scope name := by
  obtain ⟨o, ho, hkey⟩ := htaken
  obtain ⟨o', ho', hoo⟩ := h.symbols scope o ho
  exact ⟨o', ho', (hoo.members.map Prod.fst).subset hkey⟩

/-- The ancestors of a class that exists already are the same later. -/
theorem Grows.ancestor {a b : Context} (h : a.Grows b) (hdescends : a.Descends) {x y : SymbolId}
    (hx : a.Exists x) (hxy : b.Ancestor x y) : a.Ancestor x y := by
  induction hxy using Relation.ReflTransGen.head_induction_on with
  | refl => exact .refl
  | head hstep _ ih =>
    obtain ⟨s, hs⟩ := hx
    rw [h.superClass?_eq hs] at hstep
    obtain ⟨-, q, -, hq, -⟩ := hdescends hstep
    exact .head hstep (ih ⟨q, hq⟩)

end Context

namespace Op

variable {ctx : Context} {name : String} {below p : SymbolId}

/-- Every existing class at or below this one has the name, or will have it since the super class
has it. -/
def HandsDown (ctx : Context) (below p : SymbolId) (name : String) : Prop :=
  ctx.Taken p name ∧ ∀ y, ctx.Exists y → ctx.Ancestor y below → ctx.superClass? below = some p →
    ctx.Taken y name

/-- A call keeps this up: a class that it makes starts with the members of its super class. -/
theorem HandsDown.next (h : HandsDown ctx below p name) (hdescends : ctx.Descends) (op : Op) :
    HandsDown (op.next ctx) below p name := by
  obtain ⟨hp, hbelow⟩ := h
  have hgrows := op.grows ctx
  -- What the classes from before have they keep, and they have the ancestors they had.
  have hold : ∀ y, ctx.Exists y → (op.next ctx).Ancestor y below →
      (op.next ctx).superClass? below = some p → ctx.Taken y name := by
    intro y hy hyb hsuper
    have hyb := hgrows.ancestor hdescends hy hyb
    have hexists : ctx.Exists below := by
      obtain rfl | ⟨m, -, hm⟩ := Relation.ReflTransGen.cases_tail hyb
      · exact hy
      · obtain ⟨-, q, -, hq, -⟩ := hdescends hm
        exact ⟨q, hq⟩
    obtain ⟨b, hb⟩ := hexists
    rw [hgrows.superClass?_eq hb] at hsuper
    exact hbelow y hy hyb hsuper
  -- A new class has what its super class has.
  have hstart : ∀ y parent, ctx.arena.get? y = none → (op.next ctx).superClass? y = some parent →
      (ctx.Exists parent → ctx.Taken parent name) → (op.next ctx).Taken y name := by
    intro y parent hy hsuper htaken
    obtain ⟨q, o, hq, -, ho, hm⟩ := startsFrom hy hsuper
    obtain ⟨q', hq', hkey⟩ := htaken ⟨q, hq⟩
    rw [hq] at hq'
    cases hq'
    exact ⟨o, ho, hm ▸ hkey⟩
  refine ⟨hgrows.taken hp, fun y _ hyb hsuper => ?_⟩
  cases hy : ctx.arena.get? y with
  | some s => exact hgrows.taken (hold y ⟨s, hy⟩ hyb hsuper)
  | none =>
    obtain rfl | ⟨m, hm, hmb⟩ := Relation.ReflTransGen.cases_head hyb
    · exact hstart y p hy hsuper fun _ => hp
    · exact hstart y m hy hm fun hexists => hold m hexists hmb hsuper

/-- A name that a super class has when a class is made below it comes to every class at or below
that one, however the run goes on. -/
theorem runs_taken {y : SymbolId} (h : Reached (fun _ _ => True) ctx) (ops : List Op)
    (hnew : ctx.arena.get? below = none) (hp : ctx.Taken p name)
    (hsuper : (runs ctx ops).superClass? below = some p)
    (hy : (runs ctx ops).Ancestor y below) (hexists : (runs ctx ops).Exists y) :
    (runs ctx ops).Taken y name := by
  -- At the start the class does not exist, and nothing has an ancestor that does not exist.
  have hstart : HandsDown ctx below p name := by
    refine ⟨hp, fun y _ _ hsuper => ?_⟩
    rw [Context.superClass?_eq, hnew] at hsuper
    cases hsuper
  have hrun : ∀ (ops : List Op) (ctx : Context), Reached (fun _ _ => True) ctx →
      HandsDown ctx below p name → HandsDown (runs ctx ops) below p name := by
    intro ops
    induction ops with
    | nil => exact fun _ _ h => h
    | cons op rest ih =>
      intro ctx hreached h
      exact ih (op.next ctx) (hreached.step op trivial) (h.next hreached.descends op)
  exact (hrun ops ctx h hstart).2 y hexists hy hsuper

end Op

/-- A definition in a class is refused for its name or accepted, whatever the links are. -/
theorem SemaM.define_class_cases {ctx : Context} {cls sym : SymbolId} {o s : Symbol}
    {info : ClassInfo} (hdescends : ctx.Descends) (hframed : ctx.Framed)
    (ho : ctx.arena.get? cls = some o) (hk : o.kind = .classDecl info)
    (hs : ctx.arena.get? sym = some s) :
    (ctx.Repeats cls s.name ∧ define cls sym ctx = .error s.duplicate ctx) ∨
    (¬ctx.Repeats cls s.name ∧ ∃ ctx', define cls sym ctx = .ok () ctx' ∧
      ctx.Defines ctx' cls cls sym s.name) := by
  have hhome : ctx.home cls = cls :=
    Context.home_of_none (Context.frame?_of_class ⟨o, info, ho, hk⟩)
  rcases hdescends.ownerFor_class ho hk hs with ⟨hother, herror⟩ | ⟨hfree, hok⟩
  · exact Or.inl ⟨Or.inr hother, bind_of_error (query_of_error herror)⟩
  · have howner : ctx.ownerFor cls sym = .ok (ctx.home cls) := by rw [hhome, hok]
    -- The super class does not have the name; the class itself still can.
    rcases define_of_ownerFor hframed ho hs howner with ⟨htaken, herror⟩ | ⟨hnew, hdefines⟩
    · exact Or.inl ⟨Or.inl htaken, herror⟩
    · rw [hhome] at hdefines
      exact Or.inr ⟨not_or.mpr ⟨hnew, hfree⟩, hdefines⟩

/-- A class refuses a name that it or its super class has, and the refusal changes nothing. It takes
every other name, and from then on a look-up of the member finds the new one.

So a name of any ancestor is refused if the ancestor had it when the next class below was made. In a
context where every class starts with the members of its super class, each name is refused for which
a look-up of the member finds one. -/
theorem inherited_names_refused {before ctx : Context} (h : Reached (fun _ _ => True) before)
    {ops : List Op} (hctx : Op.runs before ops = ctx) {cls sym : SymbolId} {o s : Symbol}
    {info : ClassInfo} (ho : ctx.arena.get? cls = some o) (hk : o.kind = .classDecl info)
    (hs : ctx.arena.get? sym = some s) :
    (SemaM.define cls sym ctx = .error (.duplicateSymbol s.place s.name) ctx ↔
      ctx.Taken cls s.name ∨
        ∃ parent, ctx.superClass? cls = some parent ∧ ctx.Taken parent s.name) ∧
    (SemaM.define cls sym ctx ≠ .error (.duplicateSymbol s.place s.name) ctx →
      ∃ ctx', SemaM.define cls sym ctx = .ok () ctx' ∧
        ctx'.lookupMember cls s.name = .ok (some sym)) ∧
    (∀ below p, ctx.Ancestor cls below → ctx.superClass? below = some p →
      before.arena.get? below = none → before.Taken p s.name →
      SemaM.define cls sym ctx = .error (.duplicateSymbol s.place s.name) ctx) ∧
    (ctx.Inherits → ∀ m, ctx.lookupMember cls s.name = .ok (some m) →
      SemaM.define cls sym ctx = .error (.duplicateSymbol s.place s.name) ctx) := by
  have hreached : Reached (fun _ _ => True) ctx := by
    rw [← hctx]
    exact h.runs_free ops
  -- The rule, on which the other three statements rest.
  have hrefused : SemaM.define cls sym ctx = .error (.duplicateSymbol s.place s.name) ctx ↔
      ctx.Taken cls s.name ∨
        ∃ parent, ctx.superClass? cls = some parent ∧ ctx.Taken parent s.name := by
    rw [← Context.repeats_class_iff ho hk]
    rcases SemaM.define_class_cases hreached.descends hreached.framed ho hk hs with
      ⟨hrepeats, herror⟩ | ⟨hfree, ctx', hok, -⟩
    · exact ⟨fun _ => hrepeats, fun _ => herror⟩
    · refine ⟨fun hfails => ?_, fun hrepeats => absurd hrepeats hfree⟩
      rw [hok] at hfails
      cases hfails
  refine ⟨hrefused, fun hno => ?_, fun below p hbelow hsuper hnew hp => ?_,
    fun hinherits m hm => ?_⟩
  · rcases SemaM.define_class_cases hreached.descends hreached.framed ho hk hs with
      ⟨-, herror⟩ | ⟨-, ctx', hok, hdefines⟩
    · exact absurd herror hno
    · obtain ⟨o', ho', -⟩ := hdefines.only ho
      exact ⟨ctx', hok, Context.lookupMember_of_find? ho' (hdefines.find? ⟨o, ho⟩ ho')⟩
  · subst hctx
    exact hrefused.mpr (Or.inl (Op.runs_taken h ops hnew hp hsuper hbelow ⟨o, ho⟩))
  · -- A member that is found is in the dictionary of the class.
    rw [hinherits.lookupMember hreached.descends ho hk] at hm
    refine hrefused.mpr (Or.inl ⟨o, ho, ?_⟩)
    exact (Assoc.mem_keys_iff _ _).mpr ⟨m, (Assoc.find?_eq_some_iff _ _ _).mp (Except.ok.inj hm)⟩

/-- A class with a field `m`. -/
def earlyFieldRun : List Op :=
  let type : TypeRef := { name := "int", slot := ⟨0⟩ }
  [.addClass "A" none .script none, .addField "m" type none, .define ⟨85⟩ ⟨86⟩]

/-- Two more classes, each below the one before. Then the first one gets a second field `n`, and two
fields of the same names are made. -/
def lateFieldRun : List Op :=
  let type : TypeRef := { name := "int", slot := ⟨0⟩ }
  [.addClass "B" (some ⟨85⟩) .script none, .addClass "C" (some ⟨87⟩) .script none,
    .addField "n" type none, .define ⟨85⟩ ⟨89⟩, .addField "m" type none, .addField "n" type none]

/-- What the two runs leave, by running them. -/
theorem lateFieldRun_facts :
    let before := Op.runs .initial earlyFieldRun
    let ctx := Op.runs before lateFieldRun
    (before.arena.get? ⟨85⟩).map (·.members.keys) = some ["m"] ∧ before.arena.get? ⟨87⟩ = none ∧
    ctx.superClass? ⟨88⟩ = some ⟨87⟩ ∧ ctx.superClass? ⟨87⟩ = some ⟨85⟩ ∧
    (ctx.arena.get? ⟨90⟩).map (·.name) = some "m" ∧
    (ctx.arena.get? ⟨91⟩).map (·.name) = some "n" ∧
    ctx.lookupMember ⟨88⟩ "n" = .ok (some ⟨89⟩) ∧
    SemaM.failure? (SemaM.define ⟨88⟩ ⟨91⟩) ctx = none ∧
    (SemaM.after (SemaM.define ⟨88⟩ ⟨91⟩) ctx).lookupMember ⟨88⟩ "n" = .ok (some ⟨91⟩) := by
  decide +kernel

/-- The field `m` was there before the second class was made, so the third class refuses it. -/
theorem inherited_names_refused_lateFieldRun :
    let before := Op.runs .initial earlyFieldRun
    let ctx := Op.runs before lateFieldRun
    Reached (fun _ _ => True) before ∧ before.arena.get? ⟨87⟩ = none ∧ before.Taken ⟨85⟩ "m" ∧
    ctx.Ancestor ⟨88⟩ ⟨87⟩ ∧ ctx.superClass? ⟨87⟩ = some ⟨85⟩ ∧
    ∃ s, ctx.arena.get? ⟨90⟩ = some s ∧ s.name = "m" ∧
      SemaM.define ⟨88⟩ ⟨90⟩ ctx = .error (.duplicateSymbol s.place "m") ctx := by
  intro before ctx
  obtain ⟨hkeys, hnew, hc, hb, hsym, -⟩ := lateFieldRun_facts
  have hreached : Reached (fun _ _ => True) before := Reached.initial.runs_free earlyFieldRun
  -- The name is taken at the top before the classes below are made.
  have htaken : before.Taken ⟨85⟩ "m" := by
    obtain ⟨a, ha, hm⟩ := Option.map_eq_some_iff.mp hkeys
    exact ⟨a, ha, by simp [hm]⟩
  obtain ⟨s, hs, hname⟩ := Option.map_eq_some_iff.mp hsym
  have hclass : ∃ o, ctx.arena.get? ⟨88⟩ = some o := by
    rw [Context.superClass?_eq] at hc
    obtain ⟨o, ho, -⟩ := Option.bind_eq_some_iff.mp hc
    exact ⟨o, ho⟩
  obtain ⟨o, ho⟩ := hclass
  obtain ⟨info, hk⟩ := Context.exists_class_of_superClass? hc ho
  have hbelow : ctx.Ancestor ⟨88⟩ ⟨87⟩ := .above .refl hc
  obtain ⟨-, -, hrefused, -⟩ := inherited_names_refused hreached rfl ho hk hs
  have hfails := hrefused ⟨87⟩ ⟨85⟩ hbelow hb hnew (hname.symm ▸ htaken)
  rw [hname] at hfails
  exact ⟨hreached, hnew, htaken, hbelow, hb, s, hs, hname, hfails⟩

/-- The field `n` came to the first class when the other two were made already. A look-up from the
third one finds it, and still the third class takes another field of the name. -/
theorem late_name_redeclared :
    let ctx := Op.runs (Op.runs .initial earlyFieldRun) lateFieldRun
    Reached (fun _ _ => True) ctx ∧ ctx.Ancestor ⟨88⟩ ⟨85⟩ ∧
    (ctx.arena.get? ⟨91⟩).map (·.name) = some "n" ∧
    ctx.lookupMember ⟨88⟩ "n" = .ok (some ⟨89⟩) ∧
    SemaM.failure? (SemaM.define ⟨88⟩ ⟨91⟩) ctx = none ∧
    (SemaM.after (SemaM.define ⟨88⟩ ⟨91⟩) ctx).lookupMember ⟨88⟩ "n" = .ok (some ⟨91⟩) := by
  obtain ⟨-, -, hc, hb, -, hsym, hfound, haccepted, hhidden⟩ := lateFieldRun_facts
  have hreached := (Reached.initial.runs_free earlyFieldRun).runs_free lateFieldRun
  exact ⟨hreached, .above (.above .refl hc) hb, hsym, hfound, haccepted, hhidden⟩

end Sema

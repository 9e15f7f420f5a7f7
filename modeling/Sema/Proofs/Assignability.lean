import Sema.Proofs.Inheritance

/-!
# `Sema.Proofs.Assignability`: what may be stored where

`Context.assignable` is a disjunction of six tests. Five of them are rules about types, and
`Context.Below` lists these. The sixth accepts two types that have the same name; among types which
are the same whenever their names are equal it adds nothing (`assignable_iff_below`).

`Below` is reflexive, transitive and antisymmetric up to sameness. For classes this comes down to
`Context.Ancestor`, which the walk in `Context.isSubclass` decides: a super class is older than the
classes below it, so the walk ends within its bound, from every id.
`assignable_partial_order` puts the two together.
-/

set_option autoImplicit false

namespace Sema

/-! ### Sameness of types -/

namespace Ty

variable {a b c : Ty}

/-- Only structural types can be the same without being equal. -/
theorem same_iff : a.same b = true ↔ a = b ∨
    (∃ s t, a = func s ∧ b = func t ∧ s.name = t.name) ∨
    ∃ s t, a = tuple s ∧ b = tuple t ∧ s.name = t.name := by
  cases a <;> cases b <;> simp +contextual [same, or_iff_right_of_imp]

/-- Sameness is reflexive. -/
@[simp] theorem same_refl (a : Ty) : a.same a = true :=
  same_iff.mpr (Or.inl rfl)

/-- Sameness is symmetric. -/
theorem same_symm (h : a.same b = true) : b.same a = true := by
  rw [same_iff] at h ⊢
  rcases h with rfl | ⟨s, t, rfl, rfl, hname⟩ | ⟨s, t, rfl, rfl, hname⟩
  · exact Or.inl rfl
  · exact Or.inr (Or.inl ⟨t, s, rfl, rfl, hname.symm⟩)
  · exact Or.inr (Or.inr ⟨t, s, rfl, rfl, hname.symm⟩)

/-- Sameness is transitive. -/
theorem same_trans (hab : a.same b = true) (hbc : b.same c = true) : a.same c = true := by
  rcases same_iff.mp hab with rfl | ⟨s, t, rfl, rfl, hst⟩ | ⟨s, t, rfl, rfl, hst⟩
  · exact hbc
  · rcases same_iff.mp hbc with rfl | ⟨_, u, heq, rfl, htu⟩ | ⟨_, _, heq, -⟩
    · exact hab
    · cases heq
      exact same_iff.mpr (Or.inr (Or.inl ⟨s, u, rfl, rfl, hst.trans htu⟩))
    · cases heq
  · rcases same_iff.mp hbc with rfl | ⟨_, _, heq, -⟩ | ⟨_, u, heq, rfl, htu⟩
    · exact hab
    · cases heq
    · cases heq
      exact same_iff.mpr (Or.inr (Or.inr ⟨s, u, rfl, rfl, hst.trans htu⟩))

/-- Only a built-in type itself is the same as it. -/
theorem eq_of_same_builtIn {p : BuiltIn} (h : (builtIn p).same a = true) : a = builtIn p := by
  rcases same_iff.mp h with heq | ⟨_, _, heq, -⟩ | ⟨_, _, heq, -⟩
  · exact heq.symm
  · cases heq
  · cases heq

/-- Only a class itself is the same as it. -/
theorem eq_of_same_classOf {id : SymbolId} (h : (classOf id).same a = true) : a = classOf id := by
  rcases same_iff.mp h with heq | ⟨_, _, heq, -⟩ | ⟨_, _, heq, -⟩
  · exact heq.symm
  · cases heq
  · cases heq

/-- Types that are the same are nullable together. -/
theorem isNullable_of_same (h : a.same b = true) (ha : a.isNullable = true) :
    b.isNullable = true := by
  rcases same_iff.mp h with rfl | ⟨s, t, rfl, rfl, -⟩ | ⟨s, t, rfl, rfl, -⟩
  · exact ha
  · rfl
  · exact ha

/-- The test for a built-in type is equality with it. -/
theorem is_iff {p : BuiltIn} : a.is p = true ↔ a = builtIn p := by
  cases a <;> simp [is, builtIn?]

/-- The only widening there is. -/
theorem isSame?_widen?_iff :
    Ty.isSame? (a.widen? b) b = true ↔ a = builtIn .int ∧ b = builtIn .float := by
  cases a with
  | builtIn p =>
    cases b with
    | builtIn q => cases p <;> cases q <;> decide
    | _ => simp [widen?, CompatTable.resultTy?, builtIn?, isSame?]
  | _ => simp [widen?, CompatTable.resultTy?, builtIn?, isSame?]

end Ty

/-! ### The walk up the super classes -/

namespace Context

variable {ctx : Context} {x y p : SymbolId}

/-- Ancestors have smaller numbers. -/
theorem Descends.le_of_ancestor (h : ctx.Descends) (hp : ctx.Ancestor x p) : p.num ≤ x.num := by
  induction hp with
  | refl => exact Nat.le_refl _
  | tail _ hstep ih =>
    have hlt := (h hstep).1
    omega

/-- No two classes are ancestors of each other. -/
theorem Descends.ancestor_antisymm (h : ctx.Descends) (hxy : ctx.Ancestor x y)
    (hyx : ctx.Ancestor y x) : x = y := by
  have hle := h.le_of_ancestor hxy
  have hge := h.le_of_ancestor hyx
  cases x
  cases y
  simp only [SymbolId.mk.injEq]
  exact Nat.le_antisymm hge hle

/-- A class other than `p` is below `p` exactly if its super class is. -/
theorem ancestor_iff_of_ne (hne : x ≠ p) :
    ctx.Ancestor x p ↔ ∃ q, ctx.superClass? x = some q ∧ ctx.Ancestor q p := by
  constructor
  · intro h
    rcases Relation.ReflTransGen.cases_head h with heq | ⟨q, hq, hrest⟩
    · exact absurd heq hne
    · exact ⟨q, hq, hrest⟩
  · rintro ⟨q, hq, hrest⟩
    exact Relation.ReflTransGen.head hq hrest

/-- The walk with `fuel` steps comes to an answer, and it is the right one. The ids get smaller on
the way, so a class needs no more steps than it has predecessors; an id without a super class needs
one. -/
theorem Descends.reachesWithin_eq (h : ctx.Descends) {fuel : Nat} (hpos : 0 < fuel)
    (hfuel : ∀ q, ctx.superClass? x = some q → x.num < fuel) :
    ∃ answer, ctx.reachesWithin p fuel x = some answer ∧ (answer = true ↔ ctx.Ancestor x p) := by
  induction fuel generalizing x with
  | zero => omega
  | succ fuel ih =>
    by_cases heq : x = p
    · subst heq
      exact ⟨true, by simp [reachesWithin], by simp only [true_iff]; exact .refl⟩
    · cases hq : ctx.superClass? x with
      | none =>
        refine ⟨false, by simp [reachesWithin, heq, hq], ?_⟩
        simp [ancestor_iff_of_ne heq, hq]
      | some q =>
        -- A super class has the smaller id, so the bound lasts.
        have hlt := (h hq).1
        have hx := hfuel q hq
        obtain ⟨answer, hanswer, hiff⟩ := ih (x := q) (by omega) (fun _ _ => by omega)
        refine ⟨answer, by simpa [reachesWithin, heq, hq] using hanswer, ?_⟩
        simp [hiff, ancestor_iff_of_ne heq, hq]

/-- The search bound is above the number of every class with a super class. -/
theorem num_lt_of_superClass? {fuel : Nat} (hfuel : ctx.searchBound ≤ fuel)
    (hp : ctx.superClass? x = some p) : x.num < fuel := by
  rw [superClass?_eq] at hp
  obtain ⟨s, hs, -⟩ := Option.bind_eq_some_iff.mp hp
  have hle := num_le_size hs
  unfold searchBound at hfuel
  omega

/-- The walk of `isSubclass` decides inheritance, also from ids that name no class. -/
theorem Descends.isSubclass_iff (h : ctx.Descends) :
    ctx.isSubclass x p = true ↔ ctx.Ancestor x p := by
  have hpos : 0 < ctx.searchBound := Nat.succ_pos _
  obtain ⟨answer, hanswer, hiff⟩ :=
    h.reachesWithin_eq (p := p) hpos fun _ hq => num_lt_of_superClass? (Nat.le_refl _) hq
  rw [isSubclass, hanswer]
  exact hiff

/-- The test for a child class is ancestry. -/
theorem Descends.isChildClass_iff (h : ctx.Descends) {a b : Ty} :
    ctx.isChildClass a b = true ↔
      ∃ c p, a = .classOf c ∧ b = .classOf p ∧ ctx.Ancestor c p := by
  cases a with
  | classOf c =>
    cases b with
    | classOf p => simp [isChildClass, Ty.class?, h.isSubclass_iff]
    | _ => simp [isChildClass, Ty.class?]
  | _ => simp [isChildClass, Ty.class?]

/-- The test for equal names is that both types have a name and it is the same. -/
theorem sameName_iff {a b : Ty} :
    ctx.sameName a b = true ↔ ∃ name, ctx.typeName a = .ok name ∧ ctx.typeName b = .ok name := by
  unfold sameName
  cases ctx.typeName a with
  | error => simp
  | ok name =>
    cases ctx.typeName b with
    | error => simp
    | ok name' =>
      simp only [beq_iff_eq, Except.ok.injEq]
      exact ⟨fun heq => ⟨name, rfl, heq.symm⟩, fun ⟨_, hl, hr⟩ => hl.trans hr.symm⟩

/-! ### The order -/

/-- The rules by which a value of the first type may be stored as the second. -/
inductive Below (ctx : Context) : Ty → Ty → Prop
  | same {a b : Ty} (h : a.same b = true) : Below ctx a b
  | widen : Below ctx (.builtIn .int) (.builtIn .float)
  | any (a : Ty) : Below ctx a (.builtIn .any)
  | null {b : Ty} (h : b.isNullable = true) : Below ctx (.builtIn .null) b
  | inherit {c p : SymbolId} (h : ctx.Ancestor c p) : Below ctx (.classOf c) (.classOf p)

/-- The check is these rules and the comparison of names. -/
theorem Descends.assignable_iff (h : ctx.Descends) {a b : Ty} :
    ctx.assignable a b = true ↔
      ctx.Below a b ∨ ∃ name, ctx.typeName a = .ok name ∧ ctx.typeName b = .ok name := by
  simp only [assignable, canAssign, Bool.or_eq_true, Bool.and_eq_true, Ty.isSame?_widen?_iff,
    Ty.is_iff, sameName_iff, h.isChildClass_iff]
  constructor
  · rintro (((((hsame | ⟨rfl, rfl⟩) | rfl) | ⟨hb, rfl⟩) | hname) | ⟨c, p, rfl, rfl, hp⟩)
    · exact Or.inl (.same hsame)
    · exact Or.inl .widen
    · exact Or.inl (.any a)
    · exact Or.inl (.null hb)
    · exact Or.inr hname
    · exact Or.inl (.inherit hp)
  · rintro (hbelow | hname)
    · cases hbelow with
      | same hsame => simp [hsame]
      | widen => simp
      | any => simp
      | null hb => simp [hb]
      | inherit hp => simp [hp]
    · simp [hname]

/-- The order on types is transitive. -/
theorem Below.trans {a b c : Ty} (hab : ctx.Below a b) (hbc : ctx.Below b c) : ctx.Below a c := by
  cases hab with
  | same hsame =>
    -- The first two types are equal, or both are structural and only sameness says more of them.
    cases hbc with
    | same hsame' => exact .same (Ty.same_trans hsame hsame')
    | any => exact .any a
    | widen =>
      rw [Ty.eq_of_same_builtIn (Ty.same_symm hsame)]
      exact .widen
    | null hc =>
      rw [Ty.eq_of_same_builtIn (Ty.same_symm hsame)]
      exact .null hc
    | inherit hp =>
      rw [Ty.eq_of_same_classOf (Ty.same_symm hsame)]
      exact .inherit hp
  | widen =>
    cases hbc with
    | same hsame =>
      rw [Ty.eq_of_same_builtIn hsame]
      exact .widen
    | any => exact .any _
  | any =>
    cases hbc with
    | same hsame =>
      rw [Ty.eq_of_same_builtIn hsame]
      exact .any a
    | any => exact .any a
  | null hb =>
    -- Whatever is above a class or a function is one again, or is `any`.
    cases hbc with
    | same hsame => exact .null (Ty.isNullable_of_same hsame hb)
    | widen => cases hb
    | any => exact .any _
    | null hc => exact .null hc
    | inherit => exact .null rfl
  | inherit hp =>
    cases hbc with
    | same hsame =>
      rw [Ty.eq_of_same_classOf hsame]
      exact .inherit hp
    | any => exact .any _
    | inherit hp' => exact .inherit (Relation.ReflTransGen.trans hp hp')

/-- Types that are below each other are the same. -/
theorem Descends.below_antisymm (h : ctx.Descends) {a b : Ty} (hab : ctx.Below a b)
    (hba : ctx.Below b a) : a.same b = true := by
  cases hab with
  | same hsame => exact hsame
  | widen =>
    cases hba with
    | same hsame => exact Ty.same_symm hsame
  | any =>
    cases hba with
    | same hsame => exact Ty.same_symm hsame
    | any => exact Ty.same_refl _
  | null hb =>
    cases hba with
    | same hsame => exact Ty.same_symm hsame
    | null hc => cases hc
  | inherit hp =>
    cases hba with
    | same hsame => exact Ty.same_symm hsame
    | inherit hp' =>
      -- Of two classes each would be an ancestor of the other.
      rw [h.ancestor_antisymm hp hp']
      exact Ty.same_refl _

/-- Among the types, those with equal names are the same. -/
def NamesTell (ctx : Context) (types : Ty → Prop) : Prop :=
  ∀ ⦃a b⦄, types a → types b → ∀ name, ctx.typeName a = .ok name → ctx.typeName b = .ok name →
    a.same b = true

/-- Among types whose names tell them apart, assignability is the order on types. -/
theorem NamesTell.assignable_iff_below {types : Ty → Prop} (hnames : ctx.NamesTell types)
    (h : ctx.Descends) {a b : Ty} (ha : types a) (hb : types b) :
    ctx.assignable a b = true ↔ ctx.Below a b := by
  rw [h.assignable_iff]
  constructor
  · rintro (hbelow | ⟨name, hna, hnb⟩)
    · exact hbelow
    · exact .same (hnames ha hb name hna hnb)
  · exact Or.inl

end Context

/-- In every reached state, on types that are the same whenever their names are equal, being
assignable is a partial order up to sameness. Its greatest element is `any`, and `null` is below
every class and every function type, whatever these are called. -/
theorem assignable_partial_order {allowed : Context → Op → Prop} {ctx : Context}
    (h : Reached allowed ctx) {types : Ty → Prop} (hnames : ctx.NamesTell types) :
    (∀ a, types a → ctx.assignable a a = true) ∧
    (∀ a b c, types a → types b → types c → ctx.assignable a b = true →
      ctx.assignable b c = true → ctx.assignable a c = true) ∧
    (∀ a b, types a → types b → ctx.assignable a b = true → ctx.assignable b a = true →
      a.same b = true) ∧
    (∀ a, ctx.assignable a (.builtIn .any) = true) ∧
    (∀ b, b.isClass = true ∨ b.isFunc = true → ctx.assignable (.builtIn .null) b = true) := by
  have hdescends := h.descends
  refine ⟨?_, ?_, ?_, ?_, ?_⟩
  · intro a ha
    -- The three laws are those of the order, which assignability is here.
    rw [hnames.assignable_iff_below hdescends ha ha]
    exact .same (Ty.same_refl a)
  · intro a b c ha hb hc hab hbc
    rw [hnames.assignable_iff_below hdescends ha hb] at hab
    rw [hnames.assignable_iff_below hdescends hb hc] at hbc
    rw [hnames.assignable_iff_below hdescends ha hc]
    exact hab.trans hbc
  · intro a b ha hb hab hba
    rw [hnames.assignable_iff_below hdescends ha hb] at hab
    rw [hnames.assignable_iff_below hdescends hb ha] at hba
    exact hdescends.below_antisymm hab hba
  · intro a
    exact hdescends.assignable_iff.mpr (Or.inl (.any a))
  · intro b hb
    exact hdescends.assignable_iff.mpr (Or.inl (.null (by simpa [Ty.isNullable] using hb)))

/-- Types of every sort: primitives, the classes of `hierarchyRun`, a class id that names nothing, a
function type and a tuple. -/
def hierarchyTypes : List Ty :=
  let int : TypeRef := { name := "int", slot := ⟨0⟩ }
  [.builtIn .int, .builtIn .float, .builtIn .any, .builtIn .null, .classOf ⟨85⟩, .classOf ⟨87⟩,
    .classOf ⟨89⟩, .classOf ⟨91⟩, .classOf ⟨500⟩, .func { ret := int, params := [int] },
    .tuple { items := [int, int] }]

/-- What `hierarchyRun` leaves of names and assignability, by running it. -/
theorem hierarchyTypes_facts :
    (∀ a ∈ hierarchyTypes, ∀ b ∈ hierarchyTypes,
      (Op.runs .initial hierarchyRun).sameName a b = true → a.same b = true) ∧
    (Op.runs .initial hierarchyRun).assignable (.classOf ⟨89⟩) (.classOf ⟨87⟩) = true ∧
    (Op.runs .initial hierarchyRun).assignable (.classOf ⟨87⟩) (.classOf ⟨85⟩) = true := by
  decide +kernel

/-- The third class may be stored as the first, by way of the second. -/
theorem assignable_partial_order_hierarchyRun :
    Reached (fun _ _ => True) (Op.runs .initial hierarchyRun) ∧
    (Op.runs .initial hierarchyRun).NamesTell (· ∈ hierarchyTypes) ∧
    (Op.runs .initial hierarchyRun).assignable (.classOf ⟨89⟩) (.classOf ⟨85⟩) = true := by
  obtain ⟨hsame, hlower, hupper⟩ := hierarchyTypes_facts
  have hreached : Reached (fun _ _ => True) (Op.runs .initial hierarchyRun) :=
    Reached.initial.runs (by simp [Op.AllAllowed, hierarchyRun])
  have hnames : (Op.runs .initial hierarchyRun).NamesTell (· ∈ hierarchyTypes) :=
    fun a b ha hb name hna hnb => hsame a ha b hb (Context.sameName_iff.mpr ⟨name, hna, hnb⟩)
  refine ⟨hreached, hnames, ?_⟩
  -- From the lowest class over the middle one to the top.
  have horder := (assignable_partial_order hreached hnames).2.1
  exact horder (.classOf ⟨89⟩) (.classOf ⟨87⟩) (.classOf ⟨85⟩) (by decide) (by decide) (by decide)
    hlower hupper

-- The names matter: a tuple of one item is called like the item, and each may be stored as the
-- other.
example :
    let one : Ty := .tuple { items := [{ name := "int", slot := ⟨0⟩ }] }
    Context.initial.assignable one (.builtIn .int) = true ∧
      Context.initial.assignable (.builtIn .int) one = true ∧ one.same (.builtIn .int) = false := by
  decide +kernel

end Sema

import Sema.Proofs.ArrayTypes

/-!
# `Sema.Proofs.UnambiguousNames`: array and function types can be read off their names

Array classes are kept by name and function types are compared by name, so two types that happen to
be written alike would be one. A `TypeTree` is a type made of arrays and functions over simple
names. It is built by the calls for these types (`build`), and it is written as `text` says,
whatever was built before (`returns_build`).

No two trees are written alike (`text_injective`). A name ends with `]`, with `)` or as a simple
name does, which tells the three forms apart. The last `(` that is not closed before the final `)`
ends the result, and the commas outside all brackets separate the parameters, since every name is
`Tidy` and `Single`. For tuples this fails, which is why they are no part of a tree.
-/

set_option autoImplicit false

namespace Sema

/-- A name that a type can be asked for by. -/
structure SimpleName where
  text : String
  nonempty : text.isEmpty = false
  simple : isCompound text = false

namespace SimpleName

/-- The name with this text, if there is one. -/
def ofText? (text : String) : Option SimpleName :=
  if h : text.isEmpty = false ∧ isCompound text = false then some ⟨text, h.1, h.2⟩ else none

/-- A simple name is read off its own text. -/
theorem text_of_ofText? {text : String} {name : SimpleName} (h : ofText? text = some name) :
    name.text = text := by
  simp only [ofText?, Option.dite_none_right_eq_some, Option.some.injEq] at h
  obtain ⟨-, rfl⟩ := h
  rfl

/-- A reference to a simple name is made with a fresh slot. -/
theorem typeRef_text (name : SimpleName) (ctx : Context) :
    SemaM.typeRef (.name name.text) ctx
      = .ok { name := name.text, slot := ⟨ctx.slots.size⟩ } ((Edit.newSlot none).write ctx) :=
  SemaM.typeRef_name name.nonempty name.simple

/-- Only simple names are accepted. -/
theorem exists_of_typeRef {text : String} {type : TypeRef} {ctx ctx' : Context}
    (h : SemaM.typeRef (.name text) ctx = .ok type ctx') :
    ∃ name, ofText? text = some name := by
  simp only [SemaM.typeRef] at h
  split at h
  · cases h
  · rename_i hsimple
    have hsimple : text.isEmpty = false ∧ isCompound text = false := by simpa using hsimple
    exact ⟨_, dif_pos hsimple⟩

/-- References are made to simple names and to nothing else. -/
theorem accepted_iff (text : String) (ctx : Context) :
    (∃ type ctx', SemaM.typeRef (.name text) ctx = .ok type ctx') ↔
      ∃ name : SimpleName, name.text = text := by
  constructor
  · rintro ⟨type, ctx', h⟩
    obtain ⟨name, hname⟩ := exists_of_typeRef h
    exact ⟨name, text_of_ofText? hname⟩
  · rintro ⟨name, rfl⟩
    exact ⟨_, _, name.typeRef_text ctx⟩

end SimpleName

/-- A type made of arrays and functions over simple names. Each parameter is passed by value or by
reference. -/
inductive TypeTree where
  | simple (name : SimpleName)
  | array (item : TypeTree)
  | func (ret : TypeTree) (params : List (TypeTree × Bool))

namespace TypeTree

mutual

/-- How the type is written. -/
def text : TypeTree → String
  | simple name => name.text
  | array item => item.text ++ "[]"
  | func ret params => ret.text ++ "^(" ++ commas (paramTexts params) ++ ")"

/-- The texts of the parameters, each with its way of passing. -/
def paramTexts : List (TypeTree × Bool) → List String
  | [] => []
  | (e, byRef) :: rest => (if byRef then "ref " ++ e.text else e.text) :: paramTexts rest

end

mutual

/-- The calls that build the type. -/
def expr : TypeTree → TypeExpr
  | simple name => .simple name.text
  | array item => .array item.expr
  | func ret params => .func ret.expr (paramExprs params)

/-- The type expressions of the parameters. -/
def paramExprs : List (TypeTree × Bool) → List TypeExpr
  | [] => []
  | (e, byRef) :: rest => .passed e.expr byRef :: paramExprs rest

end

/-- A reference to the type, built from the inside out. -/
def build (e : TypeTree) : SemaM TypeRef := e.expr.build

mutual

/-- Induction on a tree, with a hypothesis for each parameter. -/
@[induction_eliminator]
theorem induct {motive : TypeTree → Prop} (simple : ∀ name, motive (simple name))
    (array : ∀ item, motive item → motive (array item))
    (func : ∀ ret params, motive ret → (∀ p ∈ params, motive p.1) → motive (func ret params))
    (e : TypeTree) : motive e := by
  cases e with
  | simple name => exact simple name
  | array item => exact array item (induct simple array func item)
  | func ret params =>
    exact func ret params (induct simple array func ret) (induct_params simple array func params)
termination_by structural e

/-- The part of the induction that runs over the parameters. -/
theorem induct_params {motive : TypeTree → Prop} (simple : ∀ name, motive (simple name))
    (array : ∀ item, motive item → motive (array item))
    (func : ∀ ret params, motive ret → (∀ p ∈ params, motive p.1) → motive (func ret params))
    (params : List (TypeTree × Bool)) : ∀ p ∈ params, motive p.1 := by
  cases params with
  | nil => exact List.forall_mem_nil _
  | cons p rest =>
    obtain ⟨e, byRef⟩ := p
    exact List.forall_mem_cons.mpr
      ⟨induct simple array func e, induct_params simple array func rest⟩
termination_by structural params

end

/-! ### No two trees are written alike -/

/-- A reference of the name, as one parameter of a signature. The slot plays no part in how it is
written. -/
def ref (e : TypeTree) (byRef : Bool) : TypeRef := { name := e.text, slot := ⟨0⟩, byRef }

/-- The signature that a function type is built to. -/
def signature (ret : TypeTree) (params : List (TypeTree × Bool)) : Signature where
  ret := ret.ref false
  params := params.map fun p => p.1.ref p.2

/-- Tree and signature give the parameters the same texts. -/
theorem map_paramText_ref (params : List (TypeTree × Bool)) :
    (params.map fun p => p.1.ref p.2).map TypeRef.paramText = paramTexts params := by
  induction params with
  | nil => rfl
  | cons p rest ih =>
    rw [List.map_cons, List.map_cons, ih, paramTexts]
    rfl

/-- The text of a function type is the name of its signature. -/
theorem text_func (ret : TypeTree) (params : List (TypeTree × Bool)) :
    (func ret params).text = (signature ret params).name := by
  rw [text, Signature.name_eq, Signature.text, signature, map_paramText_ref]
  rfl

/-- The signature of tidy parts is tidy. -/
theorem signature_tidy {ret : TypeTree} {params : List (TypeTree × Bool)} (hret : Tidy ret.text)
    (hparams : ∀ p ∈ params, Tidy p.1.text) : (signature ret params).Tidy := by
  refine ⟨hret, fun type htype => ?_⟩
  obtain ⟨p, hp, rfl⟩ := List.mem_map.mp htype
  exact hparams p hp

/-- A name has matching brackets, and no space and no comma outside them. -/
theorem text_legible (e : TypeTree) : Tidy e.text ∧ Single e.text := by
  induction e with
  | simple name =>
    -- A simple name has no brackets and no commas at all.
    have hword : ∀ c ∈ name.text.toList, Text.isWordChar c = true := by
      intro c hc
      simpa using List.any_eq_false.mp name.simple c hc
    refine ⟨.of_simple name.simple, fun hempty => ?_, fun hexposes => ?_⟩
    · have hnonempty := name.nonempty
      rw [text] at hempty
      simp [hempty] at hnonempty
    · exact absurd (hword ',' hexposes.mem) (by decide)
  | array item ih =>
    have htext : (array item).text.toList = item.text.toList ++ '[' :: ([] ++ [']']) := by
      simp [text]
    refine ⟨ih.1.array, fun hempty => ?_, ?_⟩
    · simp [hempty] at htext
    · -- A comma would have to stand in the item, or in the brackets, which are empty.
      rw [htext, exposes_append_iff ih.1.matched.level]
      rintro (hexposes | hexposes)
      · exact ih.2.2 hexposes
      · exact not_exposes_wrap (by decide) (by decide) .nil hexposes
  | func ret params ihret ihparams =>
    have htidy := signature_tidy ihret.1 fun p hp => (ihparams p hp).1
    rw [text_func]
    refine ⟨htidy.name, fun hempty => ?_, ?_⟩
    · have htext := (signature ret params).toList_name
      simp [hempty] at htext
    · -- The commas of the list of parameters stand in brackets.
      rw [htidy.exposes_name_iff (by decide) (by decide)]
      exact ihret.2.2

/-- The names of the result and the parameters, and how these are passed, can be read off. -/
theorem text_func_eq_iff (ret ret' : TypeTree) (params params' : List (TypeTree × Bool)) :
    (func ret params).text = (func ret' params').text ↔ ret.text = ret'.text ∧
      params.map (fun p => (p.1.text, p.2)) = params'.map fun p => (p.1.text, p.2) := by
  have htidy : ∀ (e : TypeTree) (ps : List (TypeTree × Bool)), (signature e ps).Tidy :=
    fun e ps => signature_tidy e.text_legible.1 fun p _ => p.1.text_legible.1
  have hseparate : ∀ (e : TypeTree) (ps : List (TypeTree × Bool)), (signature e ps).Separate := by
    intro e ps type htype
    obtain ⟨p, -, rfl⟩ := List.mem_map.mp htype
    exact p.1.text_legible.2
  rw [text_func, text_func, Signature.name_eq_iff (htidy ..) (htidy ..),
    Signature.paramList_eq_iff (htidy ..) (htidy ..) (hseparate _ _) (hseparate _ _)]
  simp only [signature, List.map_map]
  rfl

/-- The text of an array type is compound. -/
theorem isCompound_array (item : TypeTree) : isCompound (array item).text = true :=
  Structural.isCompound_typeName (.array (item.ref false) true)

/-- The text of a function type is compound. -/
theorem isCompound_func (ret : TypeTree) (params : List (TypeTree × Bool)) :
    isCompound (func ret params).text = true := by
  rw [text_func]
  exact Signature.isCompound_name _

/-- A simple name is not the text of a compound type. -/
theorem text_simple_ne (name : SimpleName) {e : TypeTree} (h : isCompound e.text = true) :
    (simple name).text ≠ e.text := by
  intro hsame
  have hsimple : isCompound (simple name).text = false := name.simple
  rw [hsame, h] at hsimple
  cases hsimple

/-- Parameters are the same if the name of each tells it apart from all others. -/
theorem params_eq_of_texts {params params' : List (TypeTree × Bool)}
    (hreads : ∀ p ∈ params, ∀ ⦃e : TypeTree⦄, p.1.text = e.text → p.1 = e)
    (h : params.map (fun p => (p.1.text, p.2)) = params'.map fun p => (p.1.text, p.2)) :
    params = params' := by
  induction params generalizing params' with
  | nil => simpa using h.symm
  | cons p rest ih =>
    cases params' with
    | nil => cases h
    | cons p' rest' =>
      obtain ⟨hhead, htail⟩ := List.cons.inj h
      obtain ⟨htext, hflag⟩ := Prod.mk.inj hhead
      obtain ⟨hp, hrest⟩ := List.forall_mem_cons.mp hreads
      -- The texts at the front are equal, and a tree can be read back from its text.
      have hsame : p = p' := Prod.ext (hp htext) hflag
      rw [hsame, ih hrest htail]

/-- No two trees are written alike. -/
theorem text_injective : Function.Injective text := by
  intro e
  -- The form of a tree shows at the end of its name, and the parts are trees again.
  induction e with
  | simple name =>
    intro e' h
    cases e' with
    | simple name' =>
      cases name
      cases name'
      cases h
      rfl
    | array item' => exact absurd h (text_simple_ne name (isCompound_array item'))
    | func ret' params' => exact absurd h (text_simple_ne name (isCompound_func ret' params'))
  | array item ih =>
    intro e' h
    cases e' with
    | simple name' => exact absurd h.symm (text_simple_ne name' (isCompound_array item))
    | array item' => rw [ih (arrayName_inj h)]
    | func ret' params' =>
      rw [text_func] at h
      exact absurd h (Signature.name_ne_array _ item.text)
  | func ret params ihret ihparams =>
    intro e' h
    cases e' with
    | simple name' => exact absurd h.symm (text_simple_ne name' (isCompound_func ret params))
    | array item' =>
      rw [text_func] at h
      exact absurd h.symm (Signature.name_ne_array _ item'.text)
    | func ret' params' =>
      obtain ⟨hret, hparams⟩ := (text_func_eq_iff ret ret' params params').mp h
      rw [ihret hret, params_eq_of_texts ihparams hparams]

/-! ### Building a tree -/

section Building

open SemaM TypeExpr

variable {ctx : Context}

/-- An array type is built after its item type. -/
theorem build_array (item : TypeTree) :
    (array item).build = (do arrayType (.ref (← item.build))) := rfl

/-- References made before are used as they are. -/
theorem funcType_refs (ret : TypeRef) (params : List TypeRef) :
    funcType (.ref ret) (params.map .ref) = typeRefOf (.func (.of ret params)) := by
  funext ctx
  have hret : typeRef (.ref ret) ctx = .ok ret ctx := rfl
  rw [funcType, bind_of_ok hret, bind_of_ok (typeRefs_refs params)]

/-- A function type is built after its result and its parameters. -/
theorem build_func (ret : TypeTree) (params : List (TypeTree × Bool)) :
    (func ret params).build = (do
      let ret ← ret.build
      let params ← buildAll (paramExprs params)
      typeRefOf (.func (.of ret params))) := by
  rw [build, expr, TypeExpr.build]
  simp only [funcType_refs]
  rfl

/-- The class of an array type is the one that is kept under its name. -/
theorem returns_array {item : TypeTree}
    (h : Returns item.build ctx fun type _ => type.name = item.text) :
    Returns (array item).build ctx fun type ctx' => type.name = (array item).text ∧
      ∃ cls, ctx'.slotType? type.slot = some (.classOf cls) ∧
        ctx'.structural.find? (array item).text = some cls := by
  obtain ⟨itemRef, ctx₁, hitem, hname⟩ := h
  -- The item type has been built already, so the request finds it as it is.
  have href : typeRef (.ref itemRef) ctx₁ = .ok itemRef ctx₁ := rfl
  obtain ⟨type, ctx', hrun, -, cls, hslot, hans⟩ := arrayType_answers href
  have htext : itemRef.name ++ "[]" = (array item).text := by rw [hname, text]
  refine ⟨type, ctx', ?_, ?_, cls, hslot, ?_⟩
  · rw [build_array, bind_of_ok hitem, hrun]
  · have hget : (get : SemaM Context) ctx₁ = .ok ctx₁ ctx₁ := rfl
    rw [arrayType, bind_of_ok href, bind_of_ok hget] at hrun
    obtain ⟨cls', ctx₂, -, hlast⟩ := bind_eq_ok hrun
    cases hlast
    exact htext
  · rw [← htext]
    exact hans.find?

/-- The parameters are all built, with the texts that the tree says. -/
theorem returns_buildAll {params : List (TypeTree × Bool)}
    (h : ∀ p ∈ params, ∀ ctx, Returns p.1.build ctx fun type _ => type.name = p.1.text) :
    Returns (buildAll (paramExprs params)) ctx fun types _ =>
      types.map TypeRef.paramText = paramTexts params := by
  induction params generalizing ctx with
  | nil => exact ⟨[], ctx, rfl, rfl⟩
  | cons p rest ih =>
    obtain ⟨e, byRef⟩ := p
    obtain ⟨hfirst, hrest⟩ := List.forall_mem_cons.mp h
    obtain ⟨type, ctx₁, hrun, hname⟩ := hfirst ctx
    obtain ⟨types, ctx₂, hrun', htexts⟩ : Returns _ ctx₁ _ := ih hrest
    have hpassed : (TypeExpr.passed e.expr byRef).build ctx = .ok (type.withRef byRef) ctx₁ := by
      rw [TypeExpr.build]
      exact bind_of_ok hrun
    refine ⟨type.withRef byRef :: types, ctx₂, ?_, ?_⟩
    · rw [paramExprs, buildAll, bind_of_ok hpassed, bind_of_ok hrun']
      rfl
    · show TypeRef.paramText (type.withRef byRef) :: types.map TypeRef.paramText = _
      rw [htexts, paramTexts, ← hname]
      rfl

/-- A function type is built, with the text that the tree says, and its slot holds its signature. -/
theorem returns_func {ret : TypeTree} {params : List (TypeTree × Bool)}
    (hret : Returns ret.build ctx fun type _ => type.name = ret.text)
    (hparams : ∀ p ∈ params, ∀ ctx, Returns p.1.build ctx fun type _ => type.name = p.1.text) :
    Returns (func ret params).build ctx fun type ctx' => type.name = (func ret params).text ∧
      ∃ s, ctx'.slotType? type.slot = some (.func s) ∧ s.name = (func ret params).text := by
  obtain ⟨retRef, ctx₁, hrun, hname⟩ := hret
  obtain ⟨types, ctx₂, hrun', htexts⟩ : Returns _ ctx₁ _ := returns_buildAll hparams
  -- The name is put together from texts that the parts are known to have.
  have htext : (Signature.of retRef types).name = (func ret params).text := by
    rw [Signature.name_of, Signature.text, hname, htexts, text]
  refine ⟨{ name := _, slot := ⟨ctx₂.slots.size⟩ },
    (Edit.newSlot (some (.func (.of retRef types)))).write ctx₂, ?_, htext, _,
    slotType?_newSlot _, htext⟩
  rw [build_func, bind_of_ok hrun, bind_of_ok hrun']
  rfl

/-- A tree can be built at any time, and the reference has the name of the tree. -/
theorem returns_build (e : TypeTree) (ctx : Context) :
    Returns e.build ctx fun type _ => type.name = e.text := by
  induction e generalizing ctx with
  | simple name => exact ⟨_, _, name.typeRef_text ctx, rfl⟩
  | array item ih =>
    obtain ⟨type, ctx', hrun, hname, -⟩ := returns_array (ih ctx)
    exact ⟨type, ctx', hrun, hname⟩
  | func ret params ihret ihparams =>
    obtain ⟨type, ctx', hrun, hname, -⟩ := returns_func (ihret ctx) ihparams
    exact ⟨type, ctx', hrun, hname⟩

end Building

/-! ### Parsed types -/

/-- The parameters of a parsed function type, if all of them have simple names. -/
def parsedParams? : List ParsedParam → Option (List (TypeTree × Bool))
  | [] => some []
  | p :: rest => do
    let name ← SimpleName.ofText? p.name
    return (simple name, p.byRef) :: (← parsedParams? rest)

/-- A name, made into a function type if there is a function part. -/
def parsedBase? (name : SimpleName) : Option ParsedFunc → Option TypeTree
  | none => some (simple name)
  | some f => do
    let params ← parsedParams? f.params
    return func (if f.returnsArray then array (simple name) else simple name) params

/-- The type that was parsed, if all names in it are simple. -/
def parsed? (name : String) (isArray : Bool) (f : Option ParsedFunc) : Option TypeTree := do
  let base ← parsedBase? (← SimpleName.ofText? name) f
  return if isArray then array base else base

section Parsed

open SemaM TypeExpr

variable {ctx ctx' : Context} {type : TypeRef} {name : String} {isArray : Bool}
  {f : Option ParsedFunc}

/-- Parsed parameters are built as those of the tree that they stand for. -/
theorem parsedParams_eq {ps : List ParsedParam} {params : List (TypeTree × Bool)}
    (h : parsedParams? ps = some params) : parsedParams ps = buildAll (paramExprs params) := by
  induction ps generalizing params with
  | nil =>
    cases h
    rfl
  | cons p rest ih =>
    obtain ⟨name, hname, h⟩ := Option.bind_eq_some_iff.mp h
    obtain ⟨others, hothers, h⟩ := Option.bind_eq_some_iff.mp h
    cases h
    rw [parsedParams, paramExprs, buildAll, ih hothers, ← SimpleName.text_of_ofText? hname]
    simp only [TypeExpr.build, expr, bind_assoc, pure_bind]

/-- Parsed parameters that are built stand for parameters of a tree. -/
theorem exists_of_parsedParams {ps : List ParsedParam} {types : List TypeRef}
    (h : parsedParams ps ctx = .ok types ctx') : ∃ params, parsedParams? ps = some params := by
  induction ps generalizing ctx types ctx' with
  | nil => exact ⟨[], rfl⟩
  | cons p rest ih =>
    obtain ⟨type, ctx₁, htype, h⟩ := bind_eq_ok h
    obtain ⟨others, ctx₂, hothers, -⟩ := bind_eq_ok h
    obtain ⟨name, hname⟩ := SimpleName.exists_of_typeRef htype
    obtain ⟨params, hparams⟩ := ih hothers
    refine ⟨(simple name, p.byRef) :: params, ?_⟩
    rw [parsedParams?, hname, hparams]
    rfl

/-- The suffix of an array type is what is built last. -/
theorem build_suffix (e : TypeTree) (isArray : Bool) :
    (if isArray then array e else e).build = (do
      let type ← e.build
      if isArray then arrayType (.ref type) else return type) := by
  cases isArray with
  | true => exact build_array e
  | false => exact (bind_pure e.build).symm

/-- A simple type is a reference to its name. -/
theorem build_simple (name : SimpleName) : (simple name).build = typeRef (.name name.text) := by
  rw [build, expr, TypeExpr.build]

/-- A parsed type is built by the calls for its tree. -/
theorem parsedType_eq {e : TypeTree} (h : parsed? name isArray f = some e) :
    parsedType name isArray f = e.build := by
  obtain ⟨word, hword, h⟩ := Option.bind_eq_some_iff.mp h
  obtain ⟨base, hbase, h⟩ := Option.bind_eq_some_iff.mp h
  cases h
  rw [build_suffix, ← SimpleName.text_of_ofText? hword, parsedType]
  cases f with
  | none =>
    cases hbase
    simp only [build_simple, pure_bind]
  | some f =>
    obtain ⟨params, hparams, h⟩ := Option.bind_eq_some_iff.mp hbase
    cases h
    rw [build_func, build_suffix, build_simple, ← parsedParams_eq hparams]
    simp only [bind_assoc]
    -- Both begin with the word itself, and differ at most in the suffix.
    refine congrArg (typeRef (.name word.text) >>= ·) (funext fun plain => ?_)
    cases f.returnsArray with
    | true => simp
    | false => simp

/-- A parsed type that is built stands for a tree. -/
theorem exists_of_parsedType (h : parsedType name isArray f ctx = .ok type ctx') :
    ∃ e, parsed? name isArray f = some e := by
  obtain ⟨plain, ctx₁, hplain, h⟩ := bind_eq_ok h
  obtain ⟨word, hword⟩ := SimpleName.exists_of_typeRef hplain
  suffices hbase : ∃ base, parsedBase? word f = some base by
    obtain ⟨base, hbase⟩ := hbase
    exact ⟨_, Option.bind_eq_some_iff.mpr ⟨word, hword,
      Option.bind_eq_some_iff.mpr ⟨base, hbase, rfl⟩⟩⟩
  cases f with
  | none => exact ⟨simple word, rfl⟩
  | some f =>
    -- Whatever the result is, the parameters are built after it.
    have hbuilt : ∃ types ctx₂ ctx₃, parsedParams f.params ctx₂ = .ok types ctx₃ := by
      dsimp only at h
      split at h
      all_goals
        obtain ⟨ret, ctx₂, -, h⟩ := bind_eq_ok h
        obtain ⟨types, ctx₃, hparams, -⟩ := bind_eq_ok h
        exact ⟨types, ctx₂, ctx₃, hparams⟩
    obtain ⟨types, ctx₂, ctx₃, hparams⟩ := hbuilt
    obtain ⟨params, hparams⟩ := exists_of_parsedParams hparams
    exact ⟨_, Option.bind_eq_some_iff.mpr ⟨params, hparams, rfl⟩⟩

/-- A parsed type is built exactly when it stands for a tree, and then as that tree is. -/
theorem parsedType_eq_ok_iff :
    parsedType name isArray f ctx = .ok type ctx' ↔
      ∃ e, parsed? name isArray f = some e ∧ e.build ctx = .ok type ctx' := by
  constructor
  · intro h
    obtain ⟨e, he⟩ := exists_of_parsedType h
    rw [parsedType_eq he] at h
    exact ⟨e, he, h⟩
  · rintro ⟨e, he, h⟩
    rw [parsedType_eq he]
    exact h

example :
    (parsed? "int" true (some ⟨true, [⟨"string", true⟩, ⟨"T", false⟩]⟩)).map text
      = some "int[]^(ref string,T)[]" := by decide

end Parsed

/-! ### Comparing two types -/

section Compare

open SemaM

variable {ctx ctx₁ ctx₂ : Context} {type type' : TypeRef}

/-- Two trees are built one after the other, with any calls in between. -/
theorem reached_of_builds {e e' : TypeTree} {between : List Op}
    (h : Reached (fun _ _ => True) ctx) (hrun : e.build ctx = .ok type ctx₁)
    (hrun' : e'.build (Op.runs ctx₁ between) = .ok type' ctx₂) :
    Reached (fun _ _ => True) ctx₂ ∧ ctx₁.Grows ctx₂ := by
  have hfirst : ctx.Leads ctx₁ := (e.expr.build_fresh h hrun).1
  have hbetween : ctx₁.Leads (Op.runs ctx₁ between) := ⟨between, rfl⟩
  have hmid := hbetween.reached (hfirst.reached h)
  have hsecond := (e'.expr.build_fresh hmid hrun').1
  exact ⟨hsecond.reached hmid, (hbetween.trans hsecond).grows⟩

/-- Array types have one class exactly if their items are the same. -/
theorem array_classes (h : Reached (fun _ _ => True) ctx) (between : List Op)
    (item item' : TypeTree) :
    ∃ type ctx₁ type' ctx₂ cls cls', (array item).build ctx = .ok type ctx₁ ∧
      (array item').build (Op.runs ctx₁ between) = .ok type' ctx₂ ∧
      typeOf type ctx₂ = .ok (.classOf cls) ctx₂ ∧ typeOf type' ctx₂ = .ok (.classOf cls') ctx₂ ∧
      ctx₂.typeName (.classOf cls) = .ok (array item).text ∧ (cls = cls' ↔ item = item') := by
  obtain ⟨type, ctx₁, hrun, -, cls, hslot, hfind⟩ := returns_array (returns_build item ctx)
  obtain ⟨type', ctx₂, hrun', -, cls', hslot', hfind'⟩ :=
    returns_array (returns_build item' (Op.runs ctx₁ between))
  obtain ⟨hreached, hgrows⟩ := reached_of_builds h hrun hrun'
  -- The class asked for first is still on record under its name.
  have hfind := hgrows.structural _ _ hfind
  refine ⟨type, ctx₁, type', ctx₂, cls, cls', hrun, hrun', typeOf_of_bound (hgrows.slots _ _ hslot),
    typeOf_of_bound hslot', hreached.titled hfind, ?_⟩
  constructor
  · rintro rfl
    exact array.inj (text_injective (hreached.inStep.kept.name_unique hfind hfind'))
  · rintro rfl
    rw [hfind'] at hfind
    exact (Option.some.inj hfind).symm

/-- Function types are the same exactly if their results and parameters are. -/
theorem func_types (h : Reached (fun _ _ => True) ctx) (between : List Op) (ret ret' : TypeTree)
    (params params' : List (TypeTree × Bool)) :
    ∃ type ctx₁ type' ctx₂ s s', (func ret params).build ctx = .ok type ctx₁ ∧
      (func ret' params').build (Op.runs ctx₁ between) = .ok type' ctx₂ ∧
      typeOf type ctx₂ = .ok (.func s) ctx₂ ∧ typeOf type' ctx₂ = .ok (.func s') ctx₂ ∧
      ctx₂.typeName (.func s) = .ok (func ret params).text ∧
      ((Ty.func s).same (.func s') = true ↔ ret = ret' ∧ params = params') := by
  have hbuild : ∀ (e : TypeTree) (ps : List (TypeTree × Bool)) (c : Context),
      Returns (func e ps).build c fun type c' => type.name = (func e ps).text ∧
        ∃ s, c'.slotType? type.slot = some (.func s) ∧ s.name = (func e ps).text :=
    fun e ps c => returns_func (returns_build e c) fun p _ => returns_build p.1
  obtain ⟨type, ctx₁, hrun, -, s, hslot, hname⟩ := hbuild ret params ctx
  obtain ⟨type', ctx₂, hrun', -, s', hslot', hname'⟩ := hbuild ret' params' (Op.runs ctx₁ between)
  obtain ⟨-, hgrows⟩ := reached_of_builds h hrun hrun'
  refine ⟨type, ctx₁, type', ctx₂, s, s', hrun, hrun', typeOf_of_bound (hgrows.slots _ _ hslot),
    typeOf_of_bound hslot', congrArg Except.ok hname, ?_⟩
  rw [Ty.same, beq_iff_eq, hname, hname', text_injective.eq_iff, func.injEq]

end Compare

end TypeTree

/-- Array and function types are told apart by how they are written.

The types are the trees over the names that can be asked for, and a parsed type is built as its tree
is. A tree can be built at any time, the reference has the name of the tree, and no two trees have
one name. So, whatever calls are made before and between, two array types have one class exactly if
their items are the same, and two function types are the same exactly if their results are, and
their parameters in number and order and with the same marks for passing by reference. -/
theorem type_names_unambiguous :
    (∀ (name : String) (ctx : Context),
      (∃ type ctx', SemaM.typeRef (.name name) ctx = .ok type ctx') ↔
        ∃ word : SimpleName, word.text = name) ∧
    (∀ (name : String) (isArray : Bool) (f : Option ParsedFunc) (ctx : Context) (type : TypeRef)
        (ctx' : Context),
      SemaM.parsedType name isArray f ctx = .ok type ctx' ↔
        ∃ e, TypeTree.parsed? name isArray f = some e ∧ e.build ctx = .ok type ctx') ∧
    (∀ (e : TypeTree) (ctx : Context),
      ∃ type ctx', e.build ctx = .ok type ctx' ∧ type.name = e.text) ∧
    (∀ e e' : TypeTree, e.text = e'.text ↔ e = e') ∧
    (∀ (before between : List Op) (item item' : TypeTree),
      ∃ type ctx₁ type' ctx₂ cls cls',
        (TypeTree.array item).build (Op.runs .initial before) = .ok type ctx₁ ∧
        (TypeTree.array item').build (Op.runs ctx₁ between) = .ok type' ctx₂ ∧
        SemaM.typeOf type ctx₂ = .ok (.classOf cls) ctx₂ ∧
        SemaM.typeOf type' ctx₂ = .ok (.classOf cls') ctx₂ ∧
        ctx₂.typeName (.classOf cls) = .ok (TypeTree.array item).text ∧
        (cls = cls' ↔ item = item')) ∧
    ∀ (before between : List Op) (ret ret' : TypeTree) (params params' : List (TypeTree × Bool)),
      ∃ type ctx₁ type' ctx₂ s s',
        (TypeTree.func ret params).build (Op.runs .initial before) = .ok type ctx₁ ∧
        (TypeTree.func ret' params').build (Op.runs ctx₁ between) = .ok type' ctx₂ ∧
        SemaM.typeOf type ctx₂ = .ok (.func s) ctx₂ ∧
        SemaM.typeOf type' ctx₂ = .ok (.func s') ctx₂ ∧
        ctx₂.typeName (.func s) = .ok (TypeTree.func ret params).text ∧
        ((Ty.func s).same (.func s') = true ↔ ret = ret' ∧ params = params') := by
  refine ⟨SimpleName.accepted_iff, fun _ _ _ _ _ _ => TypeTree.parsedType_eq_ok_iff,
    TypeTree.returns_build, fun e e' => TypeTree.text_injective.eq_iff, ?_, ?_⟩
  · intro before between item item'
    -- Both are built in states that are reached, with any calls in between.
    exact TypeTree.array_classes (Reached.initial.runs_free before) between item item'
  · intro before between ret ret' params params'
    exact TypeTree.func_types (Reached.initial.runs_free before) between ret ret' params params'

end Sema

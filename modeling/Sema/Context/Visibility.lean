import Sema.Context.Basic

/-!
# `Sema.Context.Visibility`: what a scope offers and where a search goes on

A scope answers a name with the member of that name, unless the member is a variable that has gone
out of scope. If it has no member of that name, the search goes on in its *outer* scope:

* a class passes on to its super class, and only without one to its owner;
* a function passes on to its owner, except that a method skips its class, because a method body
  reaches members through the object only;
* a lambda passes on to where its outermost enclosing function passes on to;
* a block passes on to where its function passes on to;
* the global scope ends the search, and every other symbol passes on to its owner.

The hops from a lambda or block to the function that answers for it are counted. More hops than
there are symbols can only happen when some scope contains itself, and end as `endless`.
-/

set_option autoImplicit false

namespace Sema

/-- Where a search goes on after a scope has no answer. -/
inductive Onward where
  /-- In this scope, or nowhere. -/
  | scope (next : Option SymbolId)
  /-- In this owner of a function, or past it if it is a class. -/
  | past (owner : SymbolId)
  /-- Wherever it goes on from this function. -/
  | sameAs (func : SymbolId)

/-- Where a search goes on after this symbol, which has the given id. -/
def Symbol.onward (s : Symbol) (id : SymbolId) : Onward :=
  let pastOwner := match s.scope with
    | some owner => Onward.past owner
    | none => .scope none
  match s.kind with
  | .classDecl info => .scope (info.superClass <|> s.scope)
  | .func info =>
    match info.flavor with
    | .lambda lambda =>
      match lambda.stack.head? with
      -- A lambda that stands first on its own stack would lead to itself.
      | some outermost => if outermost = id then pastOwner else .sameAs outermost
      | none => pastOwner
    | _ => pastOwner
  | .block b => .sameAs b.func
  | .globalScope => .scope none
  | _ => .scope s.scope

namespace Context

/-- More steps than a search without repetition can take: one for each symbol, and one more to
find out that an id names none. -/
def searchBound (ctx : Context) : Nat := ctx.arena.size + 1

/-- The outer scope, with at most `fuel` hops. -/
def outerWithin (ctx : Context) : Nat → SymbolId → Except CompileError (Option SymbolId)
  | 0, scope => .error (.endless scope)
  | fuel + 1, scope => do
    match (← ctx.symbol scope).onward scope with
    | .scope next => return next
    | .past owner =>
      let s ← ctx.symbol owner
      return match s.kind with
        -- The class of a method is skipped.
        | .classDecl _ => s.scope
        | _ => some owner
    | .sameAs func => ctx.outerWithin fuel func

/-- The scope in which a search goes on when this one has no member of the name. -/
def outer (ctx : Context) (scope : SymbolId) : Except CompileError (Option SymbolId) :=
  ctx.outerWithin ctx.searchBound scope

/-- A found symbol, unless it is hidden. -/
def visible (ctx : Context) (id : SymbolId) : Except CompileError (Option SymbolId) := do
  return if (← ctx.symbol id).isHidden then none else some id

/-- The visible member of one scope. -/
def lookupLocal (ctx : Context) (scope : SymbolId) (name : String) :
    Except CompileError (Option SymbolId) := do
  match (← ctx.symbol scope).members.find? name with
  | some id => ctx.visible id
  | none => return none

/-- The first visible member among several scopes. -/
def lookupAmong (ctx : Context) (name : String) :
    List SymbolId → Except CompileError (Option SymbolId)
  | [] => return none
  | scope :: rest => do
    match ← ctx.lookupLocal scope name with
    | some id => return some id
    | none => ctx.lookupAmong name rest

/-- A name seen from the global scope: its own member, and without one the linked scopes in order.
A hidden member of the global scope ends the search. -/
def lookupGlobal (ctx : Context) (name : String) : Except CompileError (Option SymbolId) := do
  match (← ctx.symbol globals).members.find? name with
  | some id => ctx.visible id
  | none => ctx.lookupAmong name ctx.links

/-- What is particular to a class. -/
def classInfo (ctx : Context) (cls : SymbolId) : Except CompileError ClassInfo := do
  let s ← ctx.symbol cls
  match s.kind with
  | .classDecl info => return info
  | _ => throw (.notAType s.name)

/-- The super class of a class, if it has one. -/
def superClass (ctx : Context) (cls : SymbolId) : Except CompileError (Option SymbolId) := do
  return (← ctx.classInfo cls).superClass

/-- The super class, where anything that is not a class has none. -/
def superClass? (ctx : Context) (cls : SymbolId) : Option SymbolId :=
  match ctx.superClass cls with
  | .ok parent => parent
  | .error _ => none

/-- Whether `ancestor` is reached from a class by going to the super class at most `fuel - 1` times;
`none` if that does not settle it. -/
def reachesWithin (ctx : Context) (ancestor : SymbolId) : Nat → SymbolId → Option Bool
  | 0, _ => none
  | fuel + 1, cls =>
    if cls = ancestor then some true
    else match ctx.superClass? cls with
      | some parent => ctx.reachesWithin ancestor fuel parent
      | none => some false

/-- Whether a class is `ancestor` or inherits from it. -/
def isSubclass (ctx : Context) (cls ancestor : SymbolId) : Bool :=
  (ctx.reachesWithin ancestor ctx.searchBound cls).getD false

/-- The member of a class or of its nearest ancestor that has one, within `fuel` classes. -/
def memberWithin (ctx : Context) (name : String) :
    Nat → SymbolId → Except CompileError (Option SymbolId)
  | 0, cls => .error (.endless cls)
  | fuel + 1, cls => do
    match (← ctx.symbol cls).members.find? name with
    | some id => return some id
    | none =>
      match ← ctx.superClass cls with
      | some parent => ctx.memberWithin name fuel parent
      | none => return none

/-- The member of a class or of its nearest ancestor that has one. Hidden members count. -/
def lookupMember (ctx : Context) (cls : SymbolId) (name : String) :
    Except CompileError (Option SymbolId) :=
  ctx.memberWithin name ctx.searchBound cls

end Context

end Sema

import Sema.Context.Visibility

/-!
# `Sema.Context.Define`: putting symbols into scopes

A symbol is made first and defined later. Defining gives it an owner and, if it is of a kind that
has one, a slot: its position among the members of the owner. A slot once given is never changed,
not even if the symbol is defined a second time somewhere else.

Whether a definition is allowed is decided before anything is written (`ownerFor`), and the last
test, whether the name is still free in the owner, is made by the write itself. So a definition that
fails changes nothing.
-/

set_option autoImplicit false

namespace Sema

/-- The complaint that a name is taken. -/
def Symbol.duplicate (s : Symbol) : CompileError := .duplicateSymbol s.place s.name

/-- The symbol with one more variable to retire, if it is a block. -/
def Symbol.withBlockVar (s : Symbol) (var : SymbolId) : Symbol :=
  match s.kind with
  | .block b => { s with kind := .block { b with vars := b.vars ++ [var] } }
  | _ => s

namespace Context

/-- Whether a scope other than `scope` among these has a visible member of the name. -/
def takenAmong (ctx : Context) (scope : SymbolId) (name : String) :
    List SymbolId → Except CompileError Bool
  | [] => return false
  | link :: rest => do
    -- What the scope has itself is tested when the symbol is entered.
    if link = scope then ctx.takenAmong scope name rest
    else match ← ctx.lookupLocal link name with
      | some _ => return true
      | none => ctx.takenAmong scope name rest

/-- The symbol whose members a definition in `scope` goes to, or why the definition is refused.

Enums and native functions take no definitions. A block hands its variables to its function. A class
may not repeat a name of its super class, and the global scope and the modules may not repeat a name
that is visible in another linked scope. -/
def ownerFor (ctx : Context) (scope sym : SymbolId) : Except CompileError SymbolId := do
  let target ← ctx.symbol scope
  match target.kind with
  | .enumDecl => throw (.defineNotAllowed (← ctx.symbol sym).place target.name)
  | .func info =>
    if info.flavor.isNative then throw (.defineNotAllowed (← ctx.symbol sym).place target.name)
    else return scope
  | .block b => return b.func
  | .classDecl info =>
    match info.superClass with
    | some parent =>
      let s ← ctx.symbol sym
      -- Only the super class is asked, and it goes by its dictionary: hidden members count.
      if (← ctx.symbol parent).members.contains s.name then throw s.duplicate
      else return scope
    | none => return scope
  | .globalScope | .moduleScope =>
    let s ← ctx.symbol sym
    -- Only links are asked, and only for what is visible in them.
    if ← ctx.takenAmong scope s.name ctx.links then throw s.duplicate
    else return scope
  | _ => return scope

end Context

namespace SemaM

/-- Adds a symbol to the members of a scope and makes the scope its owner. -/
def enter (scope sym : SymbolId) : SemaM Unit := do
  let s ← symbol sym
  let owner ← symbol scope
  match owner.members.push? s.name sym with
  | none => throw s.duplicate
  | some members =>
    modifySymbol scope fun o => { o with members }
    modifySymbol sym fun s =>
      { s with
        -- A slot given before is kept, even though the symbol now stands elsewhere.
        slot := if s.kind.isSlotted && s.slot.isNone then some owner.members.size else s.slot
        scope := some scope }

/-- Defines a symbol in a scope. -/
def define (scope sym : SymbolId) : SemaM Unit := do
  let owner ← query (·.ownerFor scope sym)
  enter owner sym
  match (← symbol scope).kind with
  | .block b =>
    -- The variable is in the function's dictionary by now; the block notes it for when it closes.
    modifySymbol sym fun s => { s with level := b.level }
    modifySymbol scope (·.withBlockVar sym)
  | _ => return ()

/-- A new module. -/
def addModule (name : String) : SemaM SymbolId :=
  alloc { name, kind := .moduleScope, scope := some Context.globals }

/-- A new variable. -/
def addVariable (name : String) (type : TypeRef) (location : Option Location) : SemaM SymbolId :=
  alloc { name, kind := .var, type? := some type, location }

/-- A new parameter. -/
def addParam (name : String) (type : TypeRef) (byRef : Bool) (location : Option Location) :
    SemaM SymbolId :=
  alloc { name, kind := .param byRef, type? := some (type.withRef byRef), location }

/-- Takes a variable out of scope for good. -/
def markOutOfScope (sym : SymbolId) : SemaM Unit :=
  modifySymbol sym fun s => { s with outOfScope := true }

/-- A new block of a function, `level` blocks deep. -/
def addBlock (parent func : SymbolId) (level : Nat) (location : Option Location) : SemaM SymbolId :=
  alloc
    { name := "block" ++ toString level
      kind := .block { func, level }
      scope := some parent
      location }

/-- Opens a block in a function or in another block. -/
def openBlock (parent : SymbolId) (location : Option Location) : SemaM SymbolId := do
  match (← symbol parent).kind with
  | .block b => addBlock parent b.func (b.level + 1) location
  | .func _ => addBlock parent parent 1 location
  | _ => throw (.internal (.blockOutsideFunction parent))

/-- Takes every variable declared directly in a block out of scope. -/
def closeBlock (block : SymbolId) : SemaM Unit := do
  match (← symbol block).kind with
  | .block b => b.vars.forM markOutOfScope
  | _ => return ()

end SemaM

end Sema

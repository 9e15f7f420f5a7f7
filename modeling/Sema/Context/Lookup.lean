import Sema.Context.Define

/-!
# `Sema.Context.Lookup`: names seen from a scope

A look-up starts in a scope and follows the outer scopes until one of them answers. A scope answers
with its own member of the name even if that member is hidden; the answer is then that there is
nothing, and the search is over. The global scope also asks the linked scopes.

A lambda does more. Between its own members and its outer scope come the variables of the functions
around it, innermost first. A variable found there is *captured*: every lambda between the function
that owns it and the one that asks gets a variable of the same name, filled from the level outside
it. The answer is the innermost copy, so a look-up can change the context. The next look-up of the
name finds the copy among the lambda's own members.

The search takes at most as many steps as there are symbols, unless some scope contains itself; then
it ends as `endless`.
-/

set_option autoImplicit false

namespace Sema

/-- The symbol with one more captured variable, if it is a lambda. -/
def Symbol.withCapture (s : Symbol) (c : Capture) : Symbol :=
  match s.kind with
  | .func info =>
    match info.flavor with
    | .lambda l =>
      let flavor := .lambda { l with captures := l.captures ++ [c] }
      { s with kind := .func { info with flavor } }
    | _ => s
  | _ => s

/-- What one scope makes of a name. -/
inductive Answer where
  /-- The search is over, with or without a symbol. -/
  | settled (result : Option SymbolId)
  /-- The search goes on in this scope. -/
  | passed (next : SymbolId)

namespace Context

/-- The variable that a lambda may capture: the one of the innermost function around it that has a
live variable of the name, with the functions from the next one inward down to the lambda. A member
that is hidden or no variable is passed over. `around` lists the functions innermost first, and
`inward` those that were passed already, outermost first. -/
def capturable? (ctx : Context) (name : String) (inward : List SymbolId) :
    (around : List SymbolId) → Except CompileError (Option (SymbolId × List SymbolId))
  | [] => return none
  | func :: rest => do
    match (← ctx.symbol func).members.find? name with
    | none => ctx.capturable? name (func :: inward) rest
    | some found =>
      if (← ctx.symbol found).isLive then return some (found, inward)
      else ctx.capturable? name (func :: inward) rest

/-- The functions around a lambda, outermost first: what stands before it on its stack. -/
def around (lambda : SymbolId) (stack : List SymbolId) : Except CompileError (List SymbolId) :=
  if lambda ∈ stack then .ok (stack.takeWhile (· ≠ lambda))
  else .error (.internal (.notOnOwnStack lambda))

end Context

namespace SemaM

/-- Gives a lambda its own variable, filled from a variable one level outside. -/
def capture (lambda source : SymbolId) : SemaM SymbolId := do
  let src ← symbol source
  match src.slot with
  | none => throw (.internal (.captureWithoutSlot src.name))
  | some sourceSlot =>
    let copy ← alloc
      { name := src.name, kind := .var, type? := src.type?, location := src.location }
    -- This is refused if the lambda has a member of the name, hidden or not.
    define lambda copy
    match (← symbol copy).slot with
    | none => throw (.internal (.upvalueWithoutSlot src.name))
    | some target =>
      modifySymbol lambda (·.withCapture { name := src.name, target, source := sourceSlot })
      return copy

/-- Captures a variable in each lambda of a chain, outermost first, each from the one before. -/
def captureThrough : SymbolId → List SymbolId → SemaM SymbolId
  | source, [] => return source
  | source, func :: rest => do
    -- Functions that are no lambdas run in a frame of their own and have nothing to fill.
    if (← symbol func).isLambda then captureThrough (← capture func source) rest
    else captureThrough source rest

/-- A name seen from a lambda among the variables of the functions around it. -/
def lookupAround (lambda : SymbolId) (stack : List SymbolId) (name : String) :
    SemaM (Option SymbolId) := do
  let around ← query fun _ => Context.around lambda stack
  match ← query (·.capturable? name [lambda] around.reverse) with
  | some (found, chain) => return some (← captureThrough found chain)
  | none => return none

/-- Hands the search to the outer scope. -/
def passOutward (scope : SymbolId) : SemaM Answer := do
  match ← query (·.outer scope) with
  | some next => return .passed next
  | none => return .settled none

/-- What one scope makes of a name. -/
def answer (scope : SymbolId) (name : String) : SemaM Answer := do
  let s ← symbol scope
  match s.kind with
  -- A block has no members of its own: its variables are in the dictionary of its function.
  | .block b => return .passed b.func
  | kind =>
    match s.members.find? name with
    -- A hidden member ends the search just as a visible one does.
    | some id => return .settled (← query (·.visible id))
    | none =>
      match kind with
      | .globalScope => return .settled (← query fun ctx => ctx.lookupAmong name ctx.links)
      | .func { flavor := .lambda lambda, .. } =>
        match ← lookupAround scope lambda.stack name with
        | some id => return .settled (some id)
        | none => passOutward scope
      | _ => passOutward scope

/-- A name seen from a scope, in at most `fuel` steps. -/
def lookupWithin : Nat → SymbolId → String → SemaM (Option SymbolId)
  | 0, scope, _ => throw (.endless scope)
  | fuel + 1, scope, name => do
    match ← answer scope name with
    | .settled result => return result
    | .passed next => lookupWithin fuel next name

/-- A name seen from a scope. -/
def lookup (scope : SymbolId) (name : String) : SemaM (Option SymbolId) := do
  lookupWithin (← get).searchBound scope name

/-- A name seen from a scope, which has to have a meaning. -/
def require (scope : SymbolId) (name : String) (location : Option Location) : SemaM SymbolId := do
  match ← lookup scope name with
  | some id => return id
  | none => throw (.unresolvedSymbol (Location.describe location name) name)

end SemaM

end Sema

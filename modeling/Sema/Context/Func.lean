import Sema.Context.Lookup

/-!
# `Sema.Context.Func`: functions and their parameters

The parameters of a function are kept twice: as its first members, which is where a body finds them,
and as the types of its signature, which is what a caller is checked against. Both lists grow
together. A native function gets all parameters when it is made and takes no definitions afterwards;
a script function or lambda gets them one by one, before its first local.

Making a function or adding a parameter is not undone when a later part of it fails.
-/

set_option autoImplicit false

namespace Sema

/-- The symbol with one more parameter type, if it is a function. -/
def Symbol.withParam (s : Symbol) (type : TypeRef) (hasDefault : Bool) : Symbol :=
  match s.kind with
  | .func info =>
    { s with
      kind := .func
        { info with
          signature := info.signature.addParam type
          defaults := if hasDefault then info.defaults + 1 else info.defaults } }
  | _ => s

/-- The type that a symbol has as a parameter. -/
def Symbol.paramType (s : Symbol) : Except CompileError TypeRef :=
  match s.kind, s.type? with
  | .param byRef, some type => .ok (type.withRef byRef)
  | _, _ => .error (.internal (.notAnArgument s.name))

namespace Context

/-- A function with what is particular to it. -/
def func (ctx : Context) (id : SymbolId) : Except CompileError (Symbol × FuncInfo) := do
  let s ← ctx.symbol id
  match s.kind with
  | .func info => return (s, info)
  | _ => throw (.internal (.notAFunction s.name))

/-- The signature of a function. -/
def signature (ctx : Context) (func : SymbolId) : Except CompileError Signature := do
  return (← ctx.func func).2.signature

/-- How many parameters a function has. -/
def totalArgs (ctx : Context) (func : SymbolId) : Except CompileError Nat := do
  return (← ctx.signature func).params.length

/-- How many parameters have a default. -/
def defaultArgs (ctx : Context) (func : SymbolId) : Except CompileError Nat := do
  return (← ctx.func func).2.defaults

/-- How many arguments every call passes. The difference is taken in 64-bit words, so it wraps for a
function whose parameters are fewer than its defaults, which only a native function whose
construction failed can have. -/
def requiredArgs (ctx : Context) (func : SymbolId) : Except CompileError UInt64 := do
  let (_, info) ← ctx.func func
  return UInt64.ofNat info.signature.params.length - UInt64.ofNat info.defaults

/-- The parameter at a position. -/
def param (ctx : Context) (func : SymbolId) (index : Nat) : Except CompileError SymbolId := do
  let (s, info) ← ctx.func func
  let found := if index < info.signature.params.length then s.members.get? index else none
  match found with
  | some id => return id
  | none => throw (.internal (.noArgument index func))

/-- The parameters by name, in order. -/
def params (ctx : Context) (func : SymbolId) : Except CompileError Members := do
  let members ← ctx.membersOf func
  return members.take (← ctx.totalArgs func)

/-- The body of a native function. -/
def hostFunc (ctx : Context) (func : SymbolId) : Except CompileError HostFunc := do
  let (s, info) ← ctx.func func
  match info.flavor with
  | .native body => return body
  | _ => throw (.internal (.notNative s.name))

/-- The variables a lambda has captured so far; other functions capture none. -/
def captures (ctx : Context) (func : SymbolId) : Except CompileError (List Capture) := do
  let (_, info) ← ctx.func func
  return match info.flavor with
    | .lambda l => l.captures
    | _ => []

end Context

namespace SemaM

/-- Adds the type of a parameter to the signature of a function. -/
def pushParam (func arg : SymbolId) (hasDefault : Bool) : SemaM Unit := do
  let type ← query fun ctx => do (← ctx.symbol arg).paramType
  modifySymbol func (·.withParam type hasDefault)

/-- Makes symbols the parameters of a native function, in order. -/
def enterParams (func : SymbolId) : List SymbolId → SemaM Unit
  | [] => return ()
  | arg :: rest => do
    -- A native function takes no definitions, so its parameters are entered directly.
    enter func arg
    pushParam func arg false
    enterParams func rest

/-- A new native function with all its parameters, the last `defaults` of which have a default. -/
def addNativeFunc (name : String) (ret : TypeRef) (defaults : Nat) (body : HostFunc)
    (args : List SymbolId) : SemaM SymbolId := do
  if args.length < defaults then
    throw (.internal (.tooManyDefaults name defaults args.length))
  let info : FuncInfo := { flavor := .native body, signature := { ret }, defaults }
  let func ← alloc { name, kind := .func info }
  enterParams func args
  return func

/-- A new script function without parameters. -/
def addScriptFunc (name : String) (ret : TypeRef) (location : Option Location) : SemaM SymbolId :=
  alloc { name, kind := .func { flavor := .script, signature := { ret } }, location }

/-- A new lambda inside the given functions, outermost first. It is owned by the innermost one, and
stands last on its own stack. -/
def addLambda (name : String) (ret : TypeRef) (enclosing : List SymbolId)
    (location : Option Location) : SemaM SymbolId := do
  match enclosing.getLast? with
  | none => throw (.internal (.noEnclosing (Location.describe location name)))
  | some innermost =>
    -- The id that the lambda is about to get.
    let self : SymbolId := ⟨(← get).arena.size + 1⟩
    alloc
      { name
        kind := .func { flavor := .lambda { stack := enclosing ++ [self] }, signature := { ret } }
        scope := some innermost
        location }

/-- Defines a parameter of a script function or lambda. Parameters come before locals: it is refused
once the function has a member that is no parameter. -/
def defineArg (func arg : SymbolId) (hasDefault : Bool) : SemaM Unit := do
  let (s, info) ← query (·.func func)
  if s.members.size ≠ info.signature.params.length then
    throw (.internal (.argsAfterLocals s.name))
  -- What is written here stays even if the symbol turns out not to be a parameter.
  define func arg
  pushParam func arg hasDefault

end SemaM

end Sema

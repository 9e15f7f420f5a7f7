import Sema.Frame

/-!
# `Sema.Host.Array`: array storage and the methods of array classes

An array is stored in one of two ways. Generic storage is a shared list of values and takes any
item. Typed storage is a buffer of host items; an item is converted when it is stored and converted
back when it is read, and a value that does not convert is rejected.

Each method documents its stack effect. `Add`, `$AddInplace` and `SetAt` look at the item before
they take any operand, so a rejected item leaves the stack as it was; every later failure comes
after some operands are gone.
-/

set_option autoImplicit false

namespace Sema

/-- How the items of an array class are stored. -/
inductive ArrayStorage where
  | generic
  | typed (item : ItemKind)
  deriving DecidableEq, Repr

namespace ArrayStorage

/-- A position inside a sequence of this length. -/
def checkIndex (index : Int) (length : Nat) : Except RuntimeError Nat :=
  if 0 ≤ index ∧ index < length then .ok index.toNat
  else .error (.indexOutOfRange index length)

/-- The buffer behind a typed array: the handle and its items. -/
def bufferOf (k : ItemKind) (s : Store) (array : Value) :
    Except RuntimeError (BufferId × Array k.Carrier) := do
  let b ← array.asHost
  match s.bufferItems? b k with
  | some items => .ok (b, items)
  | none => .error (.typeMismatch "typed array" k.hostName)

/-- A new empty array. -/
def create : ArrayStorage → Store → Value × Store
  | generic, s => s.newList #[]
  | typed k, s => s.newBuffer k

/-- Refuses an item that this storage cannot hold. -/
def accepts : ArrayStorage → Value → Except RuntimeError Unit
  | generic, _ => .ok ()
  | typed k, item => (k.ofValue item).map fun _ => ()

/-- The number of items. -/
def count : ArrayStorage → Store → Value → Except RuntimeError Nat
  | generic, s, array => do
    let l ← array.asList
    return (s.listItems l).size
  | typed k, s, array => do
    let (_, items) ← bufferOf k s array
    return items.size

/-- Appends an item. -/
def add : ArrayStorage → Store → Value → Value → Except RuntimeError Store
  | generic, s, array, item => do
    let l ← array.asList
    return s.setList l ((s.listItems l).push item)
  | typed k, s, array, item => do
    -- The item is converted before the array is looked at.
    let item ← k.ofValue item
    let (b, items) ← bufferOf k s array
    return s.setBuffer b k (items.push item)

/-- The item at a position. -/
def at_ : ArrayStorage → Store → Value → Int → Except RuntimeError Value
  | generic, s, array, index => do
    let items := s.listItems (← array.asList)
    let i ← checkIndex index items.size
    return items.getD i .null
  | typed k, s, array, index => do
    let (_, items) ← bufferOf k s array
    let i ← checkIndex index items.size
    return (items[i]?).elim .null k.toValue

/-- Replaces the item at a position. -/
def setAt : ArrayStorage → Store → Value → Int → Value → Except RuntimeError Store
  | generic, s, array, index, item => do
    let l ← array.asList
    let items := s.listItems l
    let i ← checkIndex index items.size
    return s.setList l (items.setIfInBounds i item)
  | typed k, s, array, index, item => do
    let item ← k.ofValue item
    let (b, items) ← bufferOf k s array
    let i ← checkIndex index items.size
    return s.setBuffer b k (items.setIfInBounds i item)

/-- Removes the item at a position; later items move down by one. -/
def removeAt : ArrayStorage → Store → Value → Int → Except RuntimeError Store
  | generic, s, array, index => do
    let l ← array.asList
    let items := s.listItems l
    let i ← checkIndex index items.size
    return s.setList l (items.eraseIdxIfInBounds i)
  | typed k, s, array, index => do
    let (b, items) ← bufferOf k s array
    let i ← checkIndex index items.size
    return s.setBuffer b k (items.eraseIdxIfInBounds i)

/-- Removes every item. -/
def clear : ArrayStorage → Store → Value → Except RuntimeError Store
  | generic, s, array => do
    let l ← array.asList
    return s.setList l #[]
  | typed k, s, array => do
    let (b, _) ← bufferOf k s array
    return s.setBuffer b k #[]

end ArrayStorage

namespace Host.Array

open HostM

/-- Makes a new empty array. -/
def creator (a : ArrayStorage) : Creator :=
  allocate a.create

/-- The read-only field `Count`. -/
def countAccessor (a : ArrayStorage) : Accessor where
  get s array := do return .num (.ofNat (← a.count s array))

/-- `Add(o)`: takes the item, then the array. -/
def add (a : ArrayStorage) : HostFunc := fun _ => do
  -- The item is tested while it is still on the stack.
  need (a.accepts (← peek))
  let item ← pop
  let array ← pop
  update (a.add · array item)
  return .done

/-- `$AddInplace(o)`: takes the item and leaves the array. -/
def addInplace (a : ArrayStorage) : HostFunc := fun _ => do
  need (a.accepts (← peek))
  let item ← pop
  -- The array stays, so that assignments can be chained.
  let array ← peek
  update (a.add · array item)
  return .done

/-- `At(idx)`: takes the position, then the array; leaves the item. -/
def at_ (a : ArrayStorage) : HostFunc := fun _ => do
  let index ← need (← pop).asIndex
  let array ← pop
  push (← query (a.at_ · array index))
  return .done

/-- `SetAt(idx, o)`: takes the position, then the array, then the item. -/
def setAt (a : ArrayStorage) : HostFunc := fun _ => do
  -- The item lies below the position and the array.
  need (a.accepts (← peekAt 2))
  let index ← need (← pop).asIndex
  let array ← pop
  let item ← pop
  update (a.setAt · array index item)
  return .done

/-- `RemoveAt(idx)`: takes the position, then the array. -/
def removeAt (a : ArrayStorage) : HostFunc := fun _ => do
  let index ← need (← pop).asIndex
  let array ← pop
  update (a.removeAt · array index)
  return .done

/-- `Clear()`: takes the array. -/
def clear (a : ArrayStorage) : HostFunc := fun _ => do
  let array ← pop
  update (a.clear · array)
  return .done

end Host.Array

end Sema

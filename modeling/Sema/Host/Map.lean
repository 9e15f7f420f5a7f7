import Sema.Frame

/-!
# `Sema.Host.Map`: the methods of map classes

A map keeps its keys in the order in which they were first added. A key is taken from the stack
before the map and converted at once, so an operand that cannot be a key fails the call with the map
still in place.
-/

set_option autoImplicit false

namespace Sema.Host.Map

open HostM

/-- The handle and the entries of a map value. -/
def entriesOf (s : Store) (map : Value) : Except RuntimeError (MapId × Assoc Key Value) := do
  let m ← map.asMap
  return (m, s.mapEntries m)

/-- Changes the entries of a map value. -/
def change (map : Value) (f : Assoc Key Value → Assoc Key Value) (s : Store) :
    Except RuntimeError Store := do
  let (m, entries) ← entriesOf s map
  return s.setMap m (f entries)

/-- Makes a new empty map. -/
def creator : Creator :=
  allocate Store.newMap

/-- The read-only field `Count`. -/
def countAccessor : Accessor where
  get s map := do return .num (.ofNat (← entriesOf s map).2.size)

/-- `Add(k, v)`: takes the value, the key, then the map. -/
def add : HostFunc := fun _ => do
  let v ← pop
  let k ← need (Key.ofValue (← pop))
  let map ← pop
  update (change map (·.insert k v))
  return .done

/-- `Remove(k)`: takes the key, then the map. -/
def remove : HostFunc := fun _ => do
  let k ← need (Key.ofValue (← pop))
  let map ← pop
  update (change map (·.erase k))
  return .done

/-- `Contains(k)`: takes the key, then the map; leaves a boolean. -/
def contains : HostFunc := fun _ => do
  let k ← need (Key.ofValue (← pop))
  let map ← pop
  let (_, entries) ← query (entriesOf · map)
  push (.bool (entries.contains k))
  return .done

/-- `TryGet(k)`: takes the key, then the map; leaves the value, null if there is none, and above it
whether there is one. -/
def tryGet : HostFunc := fun _ => do
  let k ← need (Key.ofValue (← pop))
  let map ← pop
  let (_, entries) ← query (entriesOf · map)
  let hit := entries.find? k
  push (hit.getD .null)
  push (.bool hit.isSome)
  return .done

/-- `Clear()`: takes the map. -/
def clear : HostFunc := fun _ => do
  let map ← pop
  update (change map fun _ => .empty)
  return .done

end Sema.Host.Map

import Sema.Assoc
import Sema.Value

/-!
# `Sema.Store`: the shared objects of a running script

Lists, maps and typed buffers are shared by reference: whoever holds a handle sees every change. The
store owns the objects, each kind in its own table, so a handle always names an object of its kind.
Objects are only ever added; a handle handed out once stays good.

A buffer holds items of one host type. `ItemKind` lists the host types there are and how an item is
converted from a script value and back.
-/

set_option autoImplicit false

namespace Sema

/-- The host types a typed buffer can hold. -/
inductive ItemKind where
  | int
  | float
  | bool
  | string
  deriving DecidableEq, Repr

namespace ItemKind

/-- What one item is made of. Integers are 64-bit: `ofValue` cuts every number to that range. -/
abbrev Carrier : ItemKind → Type
  | int => Int
  | float => Binary64
  | bool => Bool
  | string => String

/-- The host's name for the item type, as diagnostics show it. -/
def hostName : ItemKind → String
  | int => "i64"
  | float => "f64"
  | bool => "bool"
  | string => "alloc::string::String"

/-- Converts a script value to an item. -/
def ofValue : (k : ItemKind) → Value → Except RuntimeError k.Carrier
  | int, v => v.asIndex
  | float, v => v.asNum
  | bool, v => v.asBool
  | string, v => v.asStr

/-- Converts an item to a script value. An integer beyond 53 bits is rounded on the way. -/
def toValue : (k : ItemKind) → k.Carrier → Value
  | int, i => .num (.ofInt i)
  | float, n => .num n
  | bool, b => .bool b
  | string, s => .str s

end ItemKind

/-- A typed buffer. -/
structure Buffer where
  kind : ItemKind
  items : Array kind.Carrier

namespace Buffer

/-- The items, if they are of the given kind. -/
def itemsOf? (b : Buffer) (k : ItemKind) : Option (Array k.Carrier) :=
  if h : b.kind = k then some (h ▸ b.items) else none

/-- A buffer has items of its own kind. -/
@[simp]
theorem itemsOf?_mk (k : ItemKind) (items : Array k.Carrier) :
    itemsOf? ⟨k, items⟩ k = some items := by
  simp [itemsOf?]

end Buffer

/-- The objects that values refer to. -/
structure Store where
  lists : Array (Array Value) := #[]
  maps : Array (Assoc Key Value) := #[]
  buffers : Array Buffer := #[]

namespace Store

/-- The store at the start. -/
def empty : Store := {}

/-- The empty store is the store where nothing else is given. -/
instance : Inhabited Store := ⟨empty⟩

/-- Adds a list and returns its handle. -/
def newList (s : Store) (items : Array Value) : Value × Store :=
  (.list ⟨s.lists.size⟩, { s with lists := s.lists.push items })

/-- Adds an empty map and returns its handle. -/
def newMap (s : Store) : Value × Store :=
  (.map ⟨s.maps.size⟩, { s with maps := s.maps.push .empty })

/-- Adds an empty buffer and returns its handle. -/
def newBuffer (s : Store) (k : ItemKind) : Value × Store :=
  (.host ⟨s.buffers.size⟩, { s with buffers := s.buffers.push ⟨k, #[]⟩ })

/-- The items of a list. A handle this store never gave out reads as an empty list. -/
def listItems (s : Store) (l : ListId) : Array Value :=
  s.lists.getD l.index #[]

/-- Replaces the items of a list. -/
def setList (s : Store) (l : ListId) (items : Array Value) : Store :=
  { s with lists := s.lists.setIfInBounds l.index items }

/-- The entries of a map. -/
def mapEntries (s : Store) (m : MapId) : Assoc Key Value :=
  s.maps.getD m.index .empty

/-- Replaces the entries of a map. -/
def setMap (s : Store) (m : MapId) (entries : Assoc Key Value) : Store :=
  { s with maps := s.maps.setIfInBounds m.index entries }

/-- The items of a buffer, if it holds items of this kind. -/
def bufferItems? (s : Store) (b : BufferId) (k : ItemKind) : Option (Array k.Carrier) :=
  (s.buffers[b.index]?).bind (·.itemsOf? k)

/-- Replaces the items of a buffer. -/
def setBuffer (s : Store) (b : BufferId) (k : ItemKind) (items : Array k.Carrier) : Store :=
  { s with buffers := s.buffers.setIfInBounds b.index ⟨k, items⟩ }

end Store

end Sema

/-!
# `Sema.Assoc`: finite maps in insertion order

A list of entries with pairwise distinct keys, in the order in which the keys first came. The
members of a scope, the registry of synthesized classes and the contents of a script map are all of
this kind; they differ only in what happens when a key comes a second time. `push?` refuses it,
`insert` keeps the position and replaces the value. That the keys are distinct is part of the type.

`entries` is the view: each operation below has one equation that says what it does to it.
-/

set_option autoImplicit false

namespace Sema

/-- A finite map that remembers the order in which its keys were added. -/
structure Assoc (κ ν : Type) where
  entries : List (κ × ν)
  nodup : (entries.map Prod.fst).Nodup
  deriving DecidableEq

namespace Assoc

variable {κ ν : Type}

/-- Two maps with the same entries are the same map. -/
@[ext]
theorem ext {a b : Assoc κ ν} (h : a.entries = b.entries) : a = b := by
  cases a; cases b; cases h; rfl

/-- The association without entries. -/
def empty : Assoc κ ν := ⟨[], List.nodup_nil⟩

/-- The empty association is the one where nothing else is given. -/
instance : Inhabited (Assoc κ ν) := ⟨empty⟩

/-- The number of entries. -/
def size (a : Assoc κ ν) : Nat := a.entries.length

/-- Whether there are no entries. -/
def isEmpty (a : Assoc κ ν) : Bool := a.entries.isEmpty

/-- The keys in insertion order. -/
def keys (a : Assoc κ ν) : List κ := a.entries.map Prod.fst

/-- The values in insertion order. -/
def values (a : Assoc κ ν) : List ν := a.entries.map Prod.snd

/-- The value at a position. -/
def get? (a : Assoc κ ν) (i : Nat) : Option ν := (a.entries[i]?).map Prod.snd

/-- The first `n` entries. -/
def take (a : Assoc κ ν) (n : Nat) : Assoc κ ν :=
  ⟨a.entries.take n, by
    rw [List.map_take]
    exact a.nodup.sublist (List.take_sublist n _)⟩

variable [DecidableEq κ]

/-- The value bound to a key. -/
def find? (a : Assoc κ ν) (k : κ) : Option ν := a.entries.lookup k

/-- Whether there is an entry with a key. -/
def contains (a : Assoc κ ν) (k : κ) : Bool := (a.find? k).isSome

/-- The position of a key. -/
def indexOf? (a : Assoc κ ν) (k : κ) : Option Nat := a.entries.findIdx? (·.1 == k)

/-- Adds a new key at the end; refused if the key is present. -/
def push? (a : Assoc κ ν) (k : κ) (v : ν) : Option (Assoc κ ν) :=
  if h : k ∈ a.keys then none
  else some ⟨a.entries ++ [(k, v)], by
    rw [List.map_append, List.nodup_append]
    refine ⟨a.nodup, by simp, ?_⟩
    intro x hx y hy hxy
    simp only [List.map_cons, List.map_nil, List.mem_singleton] at hy
    exact h (by rw [← hy, ← hxy]; exact hx)⟩

/-- Replacing the value of a key leaves the keys as they are. -/
theorem map_fst_replace (es : List (κ × ν)) (k : κ) (v : ν) :
    (es.map fun e => if e.1 = k then (k, v) else e).map Prod.fst = es.map Prod.fst := by
  rw [List.map_map]
  refine List.map_congr_left fun e _ => ?_
  by_cases he : e.1 = k
  · simp [he]
  · simp [he]

/-- Binds a key: in its place if it is present, at the end if it is new. -/
def insert (a : Assoc κ ν) (k : κ) (v : ν) : Assoc κ ν :=
  match a.push? k v with
  | some b => b
  | none => ⟨a.entries.map fun e => if e.1 = k then (k, v) else e, by
      rw [map_fst_replace]; exact a.nodup⟩

/-- Removes a key and keeps the order of the others; nothing happens if it is absent. -/
def erase (a : Assoc κ ν) (k : κ) : Assoc κ ν :=
  ⟨a.entries.filter fun e => e.1 ≠ k, a.nodup.sublist (List.filter_sublist.map _)⟩

end Assoc

end Sema

import Sema.Symbol.Basic

/-!
# `Sema.Symbol.Arena`: all symbols of a compilation

Symbols are kept in the order of their allocation and are never removed, so an id stays good for the
whole compilation. Ids count from 1; 0 names no symbol.
-/

set_option autoImplicit false

namespace Sema

/-- All symbols, in the order of allocation. -/
structure Arena where
  symbols : Array Symbol := #[]

namespace Arena

/-- The arena without symbols. -/
def empty : Arena := {}

/-- The number of symbols, which is the largest number of an id in use. -/
def size (a : Arena) : Nat := a.symbols.size

/-- The symbol with this id. -/
def get? (a : Arena) (id : SymbolId) : Option Symbol :=
  match id.num with
  | 0 => none
  | n + 1 => a.symbols[n]?

/-- Whether there is a symbol under an id. -/
def contains (a : Arena) (id : SymbolId) : Bool := (a.get? id).isSome

/-- Adds a symbol and returns its id. -/
def alloc (a : Arena) (s : Symbol) : SymbolId × Arena :=
  (⟨a.symbols.size + 1⟩, ⟨a.symbols.push s⟩)

/-- Replaces a symbol; an id that names none changes nothing. -/
def set (a : Arena) (id : SymbolId) (s : Symbol) : Arena :=
  match id.num with
  | 0 => a
  | n + 1 => ⟨a.symbols.setIfInBounds n s⟩

/-- After an allocation the new id names the new symbol. -/
theorem get?_alloc_self (a : Arena) (s : Symbol) : (a.alloc s).2.get? (a.alloc s).1 = some s := by
  simp [alloc, get?]

/-- An allocation leaves the symbols that were there. -/
theorem get?_alloc_of_ne (a : Arena) (s : Symbol) (id : SymbolId) (h : id ≠ (a.alloc s).1) :
    (a.alloc s).2.get? id = a.get? id := by
  obtain ⟨n⟩ := id
  cases n with
  | zero => rfl
  | succ n =>
    have hn : n ≠ a.symbols.size := fun e => h (by simp [alloc, e])
    simp only [alloc, get?, Array.getElem?_push]
    simp [hn]

/-- Replacing a symbol that exists. -/
theorem get?_set_self (a : Arena) (id : SymbolId) (s t : Symbol) (h : a.get? id = some t) :
    (a.set id s).get? id = some s := by
  obtain ⟨n⟩ := id
  cases n with
  | zero => simp [get?] at h
  | succ n =>
    simp only [get?] at h
    obtain ⟨hn, _⟩ := Array.getElem?_eq_some_iff.mp h
    simp [set, get?, hn]

/-- Replacing a symbol leaves all others. -/
theorem get?_set_of_ne (a : Arena) (id other : SymbolId) (s : Symbol) (h : other ≠ id) :
    (a.set id s).get? other = a.get? other := by
  obtain ⟨n⟩ := id
  obtain ⟨m⟩ := other
  cases n with
  | zero => rfl
  | succ n =>
    cases m with
    | zero => rfl
    | succ m =>
      have hnm : n ≠ m := fun e => h (by rw [e])
      simp [set, get?, hnm]

/-- Replacing a symbol adds none. -/
theorem size_set (a : Arena) (id : SymbolId) (s : Symbol) : (a.set id s).size = a.size := by
  obtain ⟨n⟩ := id
  cases n <;> simp [set, size]

end Arena

end Sema

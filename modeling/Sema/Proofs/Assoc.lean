import Mathlib.Data.List.Nodup
import Sema.Assoc

/-!
# `Sema.Proofs.Assoc`: look-ups in a map that remembers its order

The keys of an `Assoc` are pairwise distinct, so a look-up, the membership of an entry and the entry
at a position all say the same thing. `find?_eq_some_iff` states it for look-ups, `position_unique`
for positions. `push?_eq_some_iff` and `find?_insert` say what the two ways to add an entry do.
-/

set_option autoImplicit false

namespace Sema.Assoc

variable {κ ν : Type}

/-- A key stands at one position only. -/
theorem position_unique (a : Assoc κ ν) {i j : Nat} {k : κ} {v w : ν}
    (hi : a.entries[i]? = some (k, v)) (hj : a.entries[j]? = some (k, w)) : i = j := by
  have hi' : (a.entries.map Prod.fst)[i]? = some k := by simp [hi]
  have hj' : (a.entries.map Prod.fst)[j]? = some k := by simp [hj]
  exact (List.getElem?_inj (List.getElem?_eq_some_iff.mp hi').1 a.nodup).mp (hi'.trans hj'.symm)

/-- A key is one of an entry. -/
theorem mem_keys_iff (a : Assoc κ ν) (k : κ) : k ∈ a.keys ↔ ∃ v, (k, v) ∈ a.entries := by
  simp [keys]

variable [DecidableEq κ]

/-- A look-up finds the value that is entered under the key. -/
theorem find?_eq_some_iff (a : Assoc κ ν) (k : κ) (v : ν) :
    a.find? k = some v ↔ (k, v) ∈ a.entries := by
  unfold find?
  constructor
  · intro h
    obtain ⟨l₁, l₂, he, -⟩ := List.lookup_eq_some_iff.mp h
    simp [he]
  · intro h
    obtain ⟨l₁, l₂, he⟩ := List.append_of_mem h
    refine List.lookup_eq_some_iff.mpr ⟨l₁, l₂, he, ?_⟩
    -- The key cannot stand before this entry a second time.
    have hnd := a.nodup
    rw [he, List.map_append, List.map_cons, List.nodup_append] at hnd
    intro p hp
    have hne : p.1 ≠ k := hnd.2.2 p.1 (List.mem_map_of_mem hp) k (by simp)
    simpa using hne.symm

/-- A key is not found when it is not there. -/
theorem find?_eq_none_iff (a : Assoc κ ν) (k : κ) : a.find? k = none ↔ k ∉ a.keys := by
  rw [mem_keys_iff, not_exists]
  constructor
  · intro h v hv
    rw [(find?_eq_some_iff a k v).mpr hv] at h
    cases h
  · intro h
    cases hf : a.find? k with
    | none => rfl
    | some v => exact absurd ((find?_eq_some_iff a k v).mp hf) (h v)

/-- The test for a key. -/
theorem contains_iff (a : Assoc κ ν) (k : κ) : a.contains k = true ↔ k ∈ a.keys := by
  rw [contains, Option.isSome_iff_ne_none, ne_eq, find?_eq_none_iff, not_not]

/-- A value that a look-up finds stands at some position. -/
theorem exists_position_of_find? (a : Assoc κ ν) {k : κ} {v : ν} (h : a.find? k = some v) :
    ∃ i : Nat, a.entries[i]? = some (k, v) :=
  List.mem_iff_getElem?.mp ((find?_eq_some_iff a k v).mp h)

/-- A new key is added at the end, a key that is present is refused. -/
theorem push?_eq_some_iff (a b : Assoc κ ν) (k : κ) (v : ν) :
    a.push? k v = some b ↔ k ∉ a.keys ∧ b.entries = a.entries ++ [(k, v)] := by
  unfold push?
  split
  · rename_i h
    simp [h]
  · rename_i h
    simp only [Option.some.injEq, h, not_false_eq_true, true_and]
    exact ⟨fun hb => hb ▸ rfl, fun hb => Assoc.ext hb.symm⟩

/-- An addition is refused when the key is there. -/
theorem push?_eq_none_iff (a : Assoc κ ν) (k : κ) (v : ν) :
    a.push? k v = none ↔ k ∈ a.keys := by
  unfold push?
  split
  · rename_i h
    simp [h]
  · rename_i h
    simp [h]

/-- What an insertion binds. -/
theorem find?_insert (a : Assoc κ ν) (k k' : κ) (v : ν) :
    (a.insert k v).find? k' = if k' = k then some v else a.find? k' := by
  -- As a statement about membership, where a key that is replaced and one that is added look alike.
  have key : ∀ w, (a.insert k v).find? k' = some w ↔
      (if k' = k then w = v else a.find? k' = some w) := by
    intro w
    rw [find?_eq_some_iff, find?_eq_some_iff]
    unfold insert
    cases hp : a.push? k v with
    | some b =>
      obtain ⟨hk, hb⟩ := (push?_eq_some_iff a b k v).mp hp
      have hno : (k, w) ∉ a.entries := fun h => hk ((mem_keys_iff a k).mpr ⟨w, h⟩)
      by_cases h : k' = k
      · subst h
        simp [hb, hno]
      · simp [hb, h]
    | none =>
      obtain ⟨u, hu⟩ := (mem_keys_iff a k).mp ((push?_eq_none_iff a k v).mp hp)
      simp only [List.mem_map, Prod.exists]
      constructor
      · rintro ⟨x, y, hxy, he⟩
        by_cases hx : x = k
        · simp only [hx, if_true, Prod.mk.injEq] at he
          simp [he.1.symm, he.2.symm]
        · simp only [hx, if_false, Prod.mk.injEq] at he
          rw [← he.1, ← he.2]
          simpa [hx] using hxy
      · intro hw
        by_cases h : k' = k
        · simp only [h, if_true] at hw
          exact ⟨k, u, hu, by simp [h, hw]⟩
        · simp only [h, if_false] at hw
          exact ⟨k', w, hw, by simp [h]⟩
  by_cases h : k' = k
  · rw [if_pos h]
    exact (key v).mpr (by simp [h])
  · rw [if_neg h]
    refine Option.ext fun w => ?_
    rw [key w, if_neg h]

end Sema.Assoc

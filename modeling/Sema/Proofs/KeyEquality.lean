import Sema.Proofs.MapMethods

/-!
# `Sema.Proofs.KeyEquality`: keys that are equal as values

A script compares two values by `Value.equals`, a map compares the keys that it makes of them. For
booleans and strings the two agree. Numbers are keys by their bits, and a number other than zero has
one pattern of bits, or is a NaN and equals nothing. So there is one pair of values that are equal
and different keys: the two zeros (`Key.eq_iff_of_equals`).

`equal_keys_exact` says what a map makes of two equal keys: one entry for both, unless they are the
two zeros, which have nothing to do with each other. `zeros_are_two_keys` shows the latter.
-/

set_option autoImplicit false

namespace Sema

/-! ### Equal values as keys -/

namespace Binary64

variable {x y : Binary64}

/-- A zero is its sign. -/
theorem eq_of_isZero (hx : x.isZero = true) (hy : y.isZero = true)
    (hsign : x.negative = y.negative) : x = y := by
  obtain ⟨a⟩ := x
  obtain ⟨b⟩ := y
  -- Without exponent and fraction only the top bit of the word is left.
  simp only [isZero, exponentField, fractionField, fieldUnit, Bool.and_eq_true, beq_iff_eq] at hx hy
  have hsign : signUnit ≤ a.toNat ↔ signUnit ≤ b.toNat := decide_eq_decide.mp hsign
  simp only [signUnit] at hsign
  have ha := a.toNat_lt
  have hb := b.toNat_lt
  rw [Binary64.mk.injEq, ← UInt64.toNat_inj]
  omega

/-- Numbers that are equal have the same bits, or both are zeros. -/
theorem equals_cases (h : x.equals y = true) : x = y ∨ (x.isZero = true ∧ y.isZero = true) := by
  obtain ⟨a⟩ := x
  obtain ⟨b⟩ := y
  simp only [equals, Bool.and_eq_true, Bool.or_eq_true, beq_iff_eq] at h
  rcases h.2 with hbits | hzeros
  · exact Or.inl (congrArg Binary64.mk hbits)
  · exact Or.inr hzeros

end Binary64

/-- The two zeros, in either order. -/
def Value.OppositeZeros (a b : Value) : Prop :=
  ∃ x y : Binary64, a = .num x ∧ b = .num y ∧ x.isZero = true ∧ y.isZero = true ∧
    x.negative ≠ y.negative

/-- Equal values are one key, the two zeros apart. -/
theorem Key.eq_iff_of_equals {k k' : Value} {key key' : Key} (hk : ofValue k = .ok key)
    (hk' : ofValue k' = .ok key') (heq : k.equals k' = true) :
    key = key' ↔ ¬k.OppositeZeros k' := by
  have hkeys := toValue_of_ofValue hk
  have hkeys' := toValue_of_ofValue hk'
  constructor
  · rintro rfl ⟨x, y, rfl, rfl, -, -, hsign⟩
    rw [hkeys] at hkeys'
    cases hkeys'
    exact hsign rfl
  · intro hzeros
    -- Values of different kinds are not equal, so only the three pairs of one kind are left.
    subst hkeys hkeys'
    cases key with
    | bool b =>
      cases key' with
      | bool b' => rw [eq_of_beq (show (b == b') = true from heq)]
      | num y => cases heq
      | str t => cases heq
    | str s =>
      cases key' with
      | bool b' => cases heq
      | num y => cases heq
      | str t => rw [eq_of_beq (show (s == t) = true from heq)]
    | num x =>
      cases key' with
      | bool b' => cases heq
      | str t => cases heq
      | num y =>
        rcases Binary64.equals_cases (show x.equals y = true from heq) with rfl | ⟨hx, hy⟩
        · rfl
        · by_cases hsign : x.negative = y.negative
          · rw [Binary64.eq_of_isZero hx hy hsign]
          · exact absurd ⟨x, y, rfl, rfl, hx, hy, hsign⟩ hzeros

/-! ### Binding a key and using it again -/

namespace Assoc

variable {κ ν : Type} [DecidableEq κ] {k : κ} {v : ν} {es : List (κ × ν)}

/-- A key is found with the value that it was given. -/
theorem lookup_upsert_self (k : κ) (v : ν) (es : List (κ × ν)) :
    (upsert k v es).lookup k = some v := by
  induction es with
  | nil => simp [upsert]
  | cons e es ih =>
    obtain ⟨k₀, v₀⟩ := e
    by_cases he : k₀ = k
    · simp [upsert, he]
    · have hbeq : (k == k₀) = false := by simpa using fun heq => he heq.symm
      simp [upsert, List.lookup_cons, he, hbeq, ih]

/-- The second update of a key replaces the first. -/
theorem upsert_upsert (k : κ) (v w : ν) (es : List (κ × ν)) :
    upsert k w (upsert k v es) = upsert k w es := by
  induction es with
  | nil => simp [upsert]
  | cons e es ih =>
    by_cases he : e.1 = k
    · simp [upsert, he]
    · simp [upsert, he, ih]

/-- Deleting a key takes an update of it away. -/
theorem delete_upsert (k : κ) (v : ν) (es : List (κ × ν)) :
    delete k (upsert k v es) = delete k es := by
  induction es with
  | nil => simp [upsert, delete]
  | cons e es ih =>
    by_cases he : e.1 = k
    · simp [upsert, delete, he]
    · simp [upsert, delete, he, ih]

/-- What is found is an entry. -/
theorem mem_of_lookup (h : es.lookup k = some v) : (k, v) ∈ es := by
  obtain ⟨before, after, rfl, -⟩ := List.lookup_eq_some_iff.mp h
  exact List.mem_append_right _ List.mem_cons_self

/-- A key that is bound has one entry. -/
theorem filter_upsert_self (hnodup : (es.map Prod.fst).Nodup) :
    (upsert k v es).filter (·.1 = k) = [(k, v)] := by
  induction es with
  | nil => simp [upsert]
  | cons e es ih =>
    rw [List.map_cons, List.nodup_cons] at hnodup
    by_cases he : e.1 = k
    · have hrest : es.filter (·.1 = k) = [] := by
        refine List.filter_eq_nil_iff.mpr fun e' hmem heq => hnodup.1 ?_
        rw [he, ← of_decide_eq_true heq]
        exact List.mem_map_of_mem hmem
      simp [upsert, he, hrest]
    · simpa [upsert, he] using ih hnodup.2

/-- The entries of other keys stay. -/
theorem filter_upsert_other (k : κ) (v : ν) (es : List (κ × ν)) :
    (upsert k v es).filter (·.1 ≠ k) = es.filter (·.1 ≠ k) := by
  induction es with
  | nil => simp [upsert]
  | cons e es ih =>
    by_cases he : e.1 = k
    · simp [upsert, he]
    · simpa [upsert, he] using ih

end Assoc

/-! ### What a map makes of two equal keys -/

namespace Use

open Host.Map (contents?)

variable {map : Value} {f : Frame} {es : List (Key × Value)} {k : Value} {key : Key}

/-- `add` puts the value under the key. -/
theorem onMap_add (h : contents? f.store map = some es) (hk : Key.ofValue k = .ok key) (v : Value)
    (args : CallArgs) (below : List Value) :
    (onMap map f (.call (.add k v) args below)).1 = .called (.ok .done) below ∧
      contents? (onMap map f (.call (.add k v) args below)).2.store map
        = some (Assoc.upsert key v es) := by
  have hdoes := (MapCall.follows map).call h (.add k v) args below
  simp only [HostFunc.Does, MapCall.onEntries, MapCall.withKey, hk] at hdoes
  exact hdoes

/-- `remove` takes the key away. -/
theorem onMap_remove (h : contents? f.store map = some es) (hk : Key.ofValue k = .ok key)
    (args : CallArgs) (below : List Value) :
    contents? (onMap map f (.call (.remove k) args below)).2.store map
      = some (Assoc.delete key es) := by
  have hdoes := (MapCall.follows map).call h (.remove k) args below
  simp only [HostFunc.Does, MapCall.onEntries, MapCall.withKey, hk] at hdoes
  exact hdoes.2

/-- The two look-ups show what stands under the key. -/
theorem onMap_lookups (h : contents? f.store map = some es) (hk : Key.ofValue k = .ok key)
    (args : CallArgs) (below : List Value) :
    (onMap map f (.call (.contains k) args below)).1
        = .called (.ok .done) (.bool (es.lookup key).isSome :: below) ∧
      (onMap map f (.call (.tryGet k) args below)).1
        = .called (.ok .done)
          (.bool (es.lookup key).isSome :: (es.lookup key).getD .null :: below) := by
  have hcontains := (MapCall.follows map).call h (.contains k) args below
  have htryGet := (MapCall.follows map).call h (.tryGet k) args below
  simp only [HostFunc.Does, MapCall.onEntries, MapCall.withKey, hk, ← Assoc.isSome_lookup]
    at hcontains htryGet
  exact ⟨hcontains.1, htryGet.1⟩

end Use

/-- Two values that are equal and accepted as keys, used one after the other on any map. If they are
not the two zeros, what was added under the one is found under the other, a second addition under
the other replaces it, and a removal of the other removes it. The two zeros are two keys: what is
added under the one does not change what is found under the other, both can be added, and a removal
of the other leaves the first. -/
theorem equal_keys_exact {f : Frame} {map : Value} {es : List (Key × Value)}
    (h : Host.Map.contents? f.store map = some es) {k k' : Value} {key key' : Key}
    (hk : Key.ofValue k = .ok key) (hk' : Key.ofValue k' = .ok key') (heq : k.equals k' = true)
    (v w : Value) (args args' : CallArgs) (below below' : List Value) :
    let added := Use.onMap map f (.call (.add k v) args below)
    let next (c : MapCall) := Use.onMap map added.2 (.call c args' below')
    added.1 = .called (.ok .done) below ∧
    (¬k.OppositeZeros k' →
      (next (.contains k')).1 = .called (.ok .done) (.bool true :: below') ∧
      (next (.tryGet k')).1 = .called (.ok .done) (.bool true :: v :: below') ∧
      (∃ es', Host.Map.contents? (next (.add k' w)).2.store map = some es' ∧
        es'.filter (fun e => e.1 = key ∨ e.1 = key') = [(key, w)] ∧
        es'.filter (fun e => e.1 ≠ key) = es.filter fun e => e.1 ≠ key) ∧
      Host.Map.contents? (next (.remove k')).2.store map = some (es.filter fun e => e.1 ≠ key)) ∧
    (k.OppositeZeros k' →
      (next (.contains k')).1 = (Use.onMap map f (.call (.contains k') args' below')).1 ∧
      (next (.tryGet k')).1 = (Use.onMap map f (.call (.tryGet k') args' below')).1 ∧
      (∃ es', Host.Map.contents? (next (.add k' w)).2.store map = some es' ∧
        key ≠ key' ∧ (key, v) ∈ es' ∧ (key', w) ∈ es') ∧
      ∃ es', Host.Map.contents? (next (.remove k')).2.store map = some es' ∧ (key, v) ∈ es') := by
  intro added next
  have hsame := Key.eq_iff_of_equals hk hk' heq
  have hnodup := Host.Map.nodup_of_contents? h
  obtain ⟨hreply, hadded⟩ := Use.onMap_add h hk v args below
  obtain ⟨hcontains, htryGet⟩ := Use.onMap_lookups hadded hk' args' below'
  obtain ⟨-, hagain⟩ := Use.onMap_add hadded hk' w args' below'
  have hremoved := Use.onMap_remove hadded hk' args' below'
  refine ⟨hreply, fun hone => ?_, fun hzeros => ?_⟩
  · -- One key: whatever comes second meets the entry of the first addition.
    obtain rfl : key = key' := hsame.mpr hone
    rw [Assoc.lookup_upsert_self] at hcontains htryGet
    rw [Assoc.upsert_upsert] at hagain
    rw [Assoc.delete_upsert, ← Assoc.filter_eq_delete hnodup] at hremoved
    refine ⟨hcontains, htryGet, ⟨_, hagain, ?_, Assoc.filter_upsert_other key w es⟩, hremoved⟩
    simpa only [or_self] using Assoc.filter_upsert_self hnodup
  · -- Two keys: each passes by the entry of the other.
    have hne : key ≠ key' := fun heq => hsame.mp heq hzeros
    obtain ⟨hcontains', htryGet'⟩ := Use.onMap_lookups h hk' args' below'
    rw [Assoc.lookup_upsert_of_ne hne.symm] at hcontains htryGet
    refine ⟨hcontains.trans hcontains'.symm, htryGet.trans htryGet'.symm,
      ⟨_, hagain, hne, ?_, ?_⟩, _, hremoved, ?_⟩
    · refine Assoc.mem_of_lookup ?_
      rw [Assoc.lookup_upsert_of_ne hne, Assoc.lookup_upsert_self]
    · exact Assoc.mem_of_lookup (Assoc.lookup_upsert_self key' w _)
    · refine Assoc.mem_of_lookup ?_
      rw [Assoc.lookup_delete_of_ne hne, Assoc.lookup_upsert_self]

/-- Zero with the sign bit set. -/
def negativeZero : Binary64 := ⟨0x8000000000000000⟩

/-- A frame with one map, which is empty. -/
def oneMapFrame : Frame := { store := { maps := #[.empty] } }

/-- A call on the map of such a frame. -/
def onOneMap (f : Frame) (c : MapCall) : Reply × Frame :=
  Use.onMap (.map ⟨0⟩) f (.call c { count := 2 } [])

/-- What is added under a text is found under it. What is added under the positive zero is not found
under the negative one, and a removal of that one leaves it. -/
theorem equal_keys_exact_oneMapFrame :
    let text : Value := .str "s"
    let zero : Value := .num .zero
    let other : Value := .num negativeZero
    let added := (onOneMap oneMapFrame (.add zero (.str "a"))).2
    Host.Map.contents? oneMapFrame.store (.map ⟨0⟩) = some [] ∧
    (text.equals text = true ∧ ¬text.OppositeZeros text ∧
      (onOneMap (onOneMap oneMapFrame (.add text (.str "a"))).2 (.tryGet text)).1
        = .called (.ok .done) [.bool true, .str "a"]) ∧
    zero.equals other = true ∧ zero.OppositeZeros other ∧
    (onOneMap added (.contains other)).1 = (onOneMap oneMapFrame (.contains other)).1 ∧
    ∃ es, Host.Map.contents? (onOneMap added (.remove other)).2.store (.map ⟨0⟩) = some es ∧
      (.num .zero, .str "a") ∈ es := by
  intro text zero other added
  have hempty : Host.Map.contents? oneMapFrame.store (.map ⟨0⟩) = some [] := rfl
  have htext : ¬text.OppositeZeros text := by
    rintro ⟨x, y, hx, -⟩
    simp only [text, reduceCtorEq] at hx
  -- The two zeros are equal as numbers and differ in their sign bits.
  have hzeros : zero.OppositeZeros other :=
    ⟨.zero, negativeZero, rfl, rfl, by decide, by decide, by decide⟩
  have hequal : text.equals text = true := by decide
  have hequal' : zero.equals other = true := by decide
  obtain ⟨-, hfound, -⟩ := equal_keys_exact hempty rfl rfl hequal (.str "a") (.str "b")
    { count := 2 } { count := 2 } [] []
  obtain ⟨-, -, hapart⟩ := equal_keys_exact hempty rfl rfl hequal' (.str "a") (.str "b")
    { count := 2 } { count := 2 } [] []
  obtain ⟨hcontains, -, -, hremoved⟩ := hapart hzeros
  exact ⟨hempty, ⟨hequal, htext, (hfound htext).2.1⟩, hequal', hzeros, hcontains, hremoved⟩

/-- The two zeros are equal, and a map does not find under the one what was added under the other.
It keeps an entry for each of them, and removes only one. -/
theorem zeros_are_two_keys :
    let zero : Value := .num .zero
    let other : Value := .num negativeZero
    let added := (onOneMap oneMapFrame (.add zero (.str "a"))).2
    zero.equals other = true ∧
    (onOneMap added (.contains other)).1 = .called (.ok .done) [.bool false] ∧
    (onOneMap added (.tryGet other)).1 = .called (.ok .done) [.bool false, .null] ∧
    Host.Map.contents? (onOneMap added (.add other (.str "b"))).2.store (.map ⟨0⟩)
      = some [(.num .zero, .str "a"), (.num negativeZero, .str "b")] ∧
    Host.Map.contents? (onOneMap added (.remove other)).2.store (.map ⟨0⟩)
      = some [(.num .zero, .str "a")] := by
  decide +kernel

end Sema

import Mathlib.Data.List.Nodup
import Sema.Host.Map
import Sema.Proofs.Assoc
import Sema.Proofs.HostCalls

/-!
# `Sema.Proofs.MapMethods`: a map is an association list

The contents of a map are the entries of an `Assoc`, whose operations are written with list
functions that know nothing of distinct keys: an insertion replaces every entry of its key, a
removal filters. `Assoc.upsert` and `Assoc.delete` go through the list once and stop at the key.
`Assoc.entries_insert` and `Assoc.entries_erase` say that on distinct keys the two agree.

`MapCall.onEntries` says what a method call does to such a list, and `MapCall.follows` that it does
the same to a map. `maps_refine_association_lists` takes this to all sequences of uses of a map.
-/

set_option autoImplicit false

namespace Sema

/-! ### Association lists -/

namespace Assoc

variable {κ ν : Type} [DecidableEq κ] {k k' : κ} {v : ν} {es : List (κ × ν)}

/-- Binds a key: in its place if it is there, at the end if it is new. -/
def upsert (k : κ) (v : ν) : List (κ × ν) → List (κ × ν)
  | [] => [(k, v)]
  | e :: es => if e.1 = k then (k, v) :: es else e :: upsert k v es

/-- Removes a key. -/
def delete (k : κ) : List (κ × ν) → List (κ × ν)
  | [] => []
  | e :: es => if e.1 = k then es else e :: delete k es

/-- A new key goes to the end. -/
theorem upsert_of_not_mem (h : k ∉ es.map Prod.fst) : upsert k v es = es ++ [(k, v)] := by
  induction es with
  | nil => rfl
  | cons e es ih =>
    simp only [List.map_cons, List.mem_cons, not_or] at h
    have hne : e.1 ≠ k := fun heq => h.1 heq.symm
    simp [upsert, hne, ih h.2]

/-- Where the key is absent there is nothing to replace. -/
theorem replace_of_not_mem (h : k ∉ es.map Prod.fst) :
    (es.map fun e => if e.1 = k then (k, v) else e) = es := by
  have hsame : ∀ e ∈ es, (if e.1 = k then (k, v) else e) = e := by
    intro e he
    have hne : e.1 ≠ k := by
      rintro rfl
      exact h (List.mem_map_of_mem he)
    rw [if_neg hne]
  exact (List.map_congr_left hsame).trans (List.map_id' es)

/-- Replacing the value of every entry with the key is replacing that of the first, when keys do not
repeat. -/
theorem replace_eq_upsert (hnodup : (es.map Prod.fst).Nodup) (h : k ∈ es.map Prod.fst) :
    (es.map fun e => if e.1 = k then (k, v) else e) = upsert k v es := by
  induction es with
  | nil => cases h
  | cons e es ih =>
    rw [List.map_cons, List.nodup_cons] at hnodup
    by_cases he : e.1 = k
    · -- The key stands here, so it stands nowhere further on.
      rw [he] at hnodup
      simp [upsert, he, replace_of_not_mem hnodup.1]
    · have hmem : k ∈ es.map Prod.fst := by
        rw [List.map_cons, List.mem_cons] at h
        exact h.resolve_left fun heq => he heq.symm
      simp [upsert, he, ih hnodup.2 hmem]

/-- Dropping every entry with the key is dropping the first, when keys do not repeat. -/
theorem filter_eq_delete (hnodup : (es.map Prod.fst).Nodup) :
    (es.filter fun e => e.1 ≠ k) = delete k es := by
  induction es with
  | nil => rfl
  | cons e es ih =>
    rw [List.map_cons, List.nodup_cons] at hnodup
    by_cases he : e.1 = k
    · -- The key stands here, so it stands nowhere further on.
      have hrest : ∀ e' ∈ es, e'.1 ≠ k := by
        intro e' hmem heq
        rw [he, ← heq] at hnodup
        exact hnodup.1 (List.mem_map_of_mem hmem)
      simpa [delete, he] using hrest
    · simpa [delete, he] using ih hnodup.2

/-- Inserting updates the entry with the key or adds one at the end. -/
theorem entries_insert (a : Assoc κ ν) (k : κ) (v : ν) :
    (a.insert k v).entries = upsert k v a.entries := by
  unfold insert
  -- An insertion is an addition at the end if that is not refused, and a replacement if it is.
  cases hpush : a.push? k v with
  | some b =>
    obtain ⟨hnew, hentries⟩ := (push?_eq_some_iff a b k v).mp hpush
    exact hentries.trans (upsert_of_not_mem hnew).symm
  | none => exact replace_eq_upsert a.nodup ((push?_eq_none_iff a k v).mp hpush)

/-- Erasing drops the entry with the key. -/
theorem entries_erase (a : Assoc κ ν) (k : κ) : (a.erase k).entries = delete k a.entries :=
  filter_eq_delete a.nodup

/-- A key is found when it is there. -/
theorem isSome_lookup (k : κ) (es : List (κ × ν)) :
    (es.lookup k).isSome = decide (k ∈ es.map Prod.fst) := by
  induction es with
  | nil => rfl
  | cons e es ih =>
    obtain ⟨k', v'⟩ := e
    by_cases he : k = k'
    · simp [he]
    · have hbeq : (k == k') = false := by simpa using he
      simp [List.lookup_cons, hbeq, he, ih]

/-- An update does not touch other keys. -/
theorem lookup_upsert_of_ne (h : k' ≠ k) (es : List (κ × ν)) :
    (upsert k v es).lookup k' = es.lookup k' := by
  have hbeq : (k' == k) = false := by simpa using h
  induction es with
  | nil => simp [upsert, List.lookup_cons, hbeq]
  | cons e es ih =>
    obtain ⟨k₀, v₀⟩ := e
    by_cases he : k₀ = k
    · simp [upsert, List.lookup_cons, he, hbeq]
    · simp [upsert, List.lookup_cons, he, ih]

/-- A deletion does not touch other keys. -/
theorem lookup_delete_of_ne (h : k' ≠ k) (es : List (κ × ν)) :
    (delete k es).lookup k' = es.lookup k' := by
  have hbeq : (k' == k) = false := by simpa using h
  induction es with
  | nil => rfl
  | cons e es ih =>
    obtain ⟨k₀, v₀⟩ := e
    by_cases he : k₀ = k
    · simp [delete, List.lookup_cons, he, hbeq]
    · simp [delete, List.lookup_cons, he, ih]

end Assoc

/-! ### What a map holds -/

namespace Host.Map

/-- The entries of a map of the store, if the value is one. -/
def contents? (s : Store) : Value → Option (List (Key × Value))
  | .map m => (s.maps[m.index]?).map Assoc.entries
  | _ => none

/-- The value is a map of the store, with these entries. -/
def Holds (map : Value) (s : Store) (es : List (Key × Value)) : Prop :=
  contents? s map = some es

variable {s : Store} {map : Value} {es : List (Key × Value)}

/-- A map is a reference to entries in the store. -/
theorem contents?_eq_some : contents? s map = some es ↔
    ∃ m a, map = .map m ∧ s.maps[m.index]? = some a ∧ a.entries = es := by
  cases map <;> simp [contents?]

/-- The keys of a map do not repeat. -/
theorem nodup_of_contents? (h : contents? s map = some es) : (es.map Prod.fst).Nodup := by
  obtain ⟨m, a, -, -, rfl⟩ := contents?_eq_some.mp h
  exact a.nodup

/-- A reference to a map is followed. -/
theorem entriesOf_map {m : MapId} {a : Assoc Key Value} (h : s.maps[m.index]? = some a) :
    entriesOf s (.map m) = .ok (m, a) := by
  simp [entriesOf, Value.asMap, Store.mapEntries, h]

/-- A change of the entries that a list function describes. -/
theorem change_eq (g : Assoc Key Value → Assoc Key Value)
    (g' : List (Key × Value) → List (Key × Value)) (hg : ∀ a, (g a).entries = g' a.entries)
    (h : contents? s map = some es) :
    ∃ s', change map g s = .ok s' ∧ contents? s' map = some (g' es) := by
  obtain ⟨m, a, rfl, ha, rfl⟩ := contents?_eq_some.mp h
  obtain ⟨hlt, -⟩ := Array.getElem?_eq_some_iff.mp ha
  refine ⟨s.setMap m (g a), by simp [change, entriesOf_map ha], ?_⟩
  simp [contents?, Store.setMap, hlt, hg]

end Host.Map

/-! ### The calls -/

/-- A call of a method on one map, by the operands that stand above the map on the stack. -/
inductive MapCall where
  | add (key value : Value)
  | remove (key : Value)
  | contains (key : Value)
  | tryGet (key : Value)
  | clear

namespace MapCall

open Host.Map (contents? Holds)

/-- The host function that a call runs. -/
def body : MapCall → HostFunc
  | add _ _ => Host.Map.add
  | remove _ => Host.Map.remove
  | contains _ => Host.Map.contains
  | tryGet _ => Host.Map.tryGet
  | clear => Host.Map.clear

/-- The stack that the call is made on. -/
def stack (map : Value) (c : MapCall) (below : List Value) : List Value :=
  match c with
  | add key value => value :: key :: map :: below
  | remove key | contains key | tryGet key => key :: map :: below
  | clear => map :: below

/-- The operand that names a key. -/
def key? : MapCall → Option Value
  | add key _ | remove key | contains key | tryGet key => some key
  | clear => none

/-- Goes on with the key of an operand, or fails with the map still on the stack. -/
def withKey (map key : Value) (below : List Value) (es : List (Key × Value))
    (go : Key → Reply × List (Key × Value)) : Reply × List (Key × Value) :=
  match Key.ofValue key with
  | .ok k => go k
  | .error e => (.called (.error e) (map :: below), es)

/-- The call on an association list. -/
def onEntries (map : Value) (c : MapCall) (below : List Value) (es : List (Key × Value)) :
    Reply × List (Key × Value) :=
  match c with
  | add key value => withKey map key below es fun k =>
    (.called (.ok .done) below, Assoc.upsert k value es)
  | remove key => withKey map key below es fun k =>
    (.called (.ok .done) below, Assoc.delete k es)
  | contains key => withKey map key below es fun k =>
    (.called (.ok .done) (.bool (decide (k ∈ es.map Prod.fst)) :: below), es)
  | tryGet key => withKey map key below es fun k =>
    (.called (.ok .done)
      (.bool (decide (k ∈ es.map Prod.fst)) :: (es.lookup k).getD .null :: below), es)
  | clear => (.called (.ok .done) below, [])

section Step

open HostM

variable {f : Frame} {map : Value} {es : List (Key × Value)} {args : CallArgs} {below : List Value}

variable {s : Store} {log : FiberLog} {host : FiberControl}

/-- The key is converted when it is taken, with the map on top. -/
theorem endsAs_key (h : contents? s map = some es) {key : Value} {go : Key → HostM CallStatus}
    {plain : Key → Reply × List (Key × Value)}
    (hgo : ∀ k, EndsAs (go k) ⟨⟨s, map :: below, log⟩, host⟩ (Holds map) (plain k)) :
    EndsAs (need (Key.ofValue key) >>= go) ⟨⟨s, map :: below, log⟩, host⟩ (Holds map)
      (withKey map key below es plain) := by
  unfold withKey
  cases Key.ofValue key with
  | error e => exact endsAs_need_error rfl h
  | ok k => exact endsAs_need_ok rfl (hgo k)

/-- A change of the entries, as the last step of a call. -/
theorem endsAs_change (g : Assoc Key Value → Assoc Key Value)
    (g' : List (Key × Value) → List (Key × Value)) (hg : ∀ a, (g a).entries = g' a.entries)
    (h : contents? s map = some es) :
    EndsAs (update (Host.Map.change map g) >>= fun _ => pure .done) ⟨⟨s, below, log⟩, host⟩
      (Holds map) (.called (.ok .done) below, g' es) := by
  obtain ⟨s', hs', hcontents⟩ := Host.Map.change_eq g g' hg h
  exact endsAs_update_ok hs' hcontents

/-- `Add` takes the value, the key and the map. -/
theorem does_add (h : contents? f.store map = some es) (key value : Value) :
    Host.Map.add.Does args (value :: key :: map :: below) f (Holds map)
      (onEntries map (.add key value) below es) :=
  EndsAs.does <| endsAs_pop <| endsAs_pop <| endsAs_key h fun k => endsAs_pop <|
    endsAs_change (·.insert k value) (Assoc.upsert k value) (fun a => a.entries_insert k value) h

/-- `Remove` takes the key and the map. -/
theorem does_remove (h : contents? f.store map = some es) (key : Value) :
    Host.Map.remove.Does args (key :: map :: below) f (Holds map)
      (onEntries map (.remove key) below es) :=
  EndsAs.does <| endsAs_pop <| endsAs_key h fun k => endsAs_pop <|
    endsAs_change (·.erase k) (Assoc.delete k) (fun a => a.entries_erase k) h

/-- `Contains` takes the key and the map, and leaves whether there is an entry. -/
theorem does_contains (h : contents? f.store map = some es) (key : Value) :
    Host.Map.contains.Does args (key :: map :: below) f (Holds map)
      (onEntries map (.contains key) below es) := by
  refine EndsAs.does <| endsAs_pop <| endsAs_key h fun k => endsAs_pop ?_
  obtain ⟨m, a, rfl, ha, rfl⟩ := Host.Map.contents?_eq_some.mp h
  refine endsAs_query_ok (Host.Map.entriesOf_map ha) ⟨?_, h⟩
  simp [Assoc.contains, Assoc.find?, Assoc.isSome_lookup]

/-- `TryGet` takes the key and the map, and leaves the value of the entry below whether there is
one. -/
theorem does_tryGet (h : contents? f.store map = some es) (key : Value) :
    Host.Map.tryGet.Does args (key :: map :: below) f (Holds map)
      (onEntries map (.tryGet key) below es) := by
  refine EndsAs.does <| endsAs_pop <| endsAs_key h fun k => endsAs_pop ?_
  obtain ⟨m, a, rfl, ha, rfl⟩ := Host.Map.contents?_eq_some.mp h
  refine endsAs_query_ok (Host.Map.entriesOf_map ha) ⟨?_, h⟩
  simp [Assoc.find?, Assoc.isSome_lookup]

/-- `Clear` takes the map. -/
theorem does_clear (h : contents? f.store map = some es) :
    Host.Map.clear.Does args (map :: below) f (Holds map) (onEntries map .clear below es) :=
  EndsAs.does <| endsAs_pop <| endsAs_change (fun _ => .empty) (fun _ => []) (fun _ => rfl) h

/-- Each method does to the entries of a map what the rule says. -/
theorem follows (map : Value) :
    Use.Follows (Holds map) body (stack map) Host.Map.countAccessor map (onEntries map)
      List.length where
  call h c args below := by
    cases c with
    | add key value => exact does_add h key value
    | remove key => exact does_remove h key
    | contains key => exact does_contains h key
    | tryGet key => exact does_tryGet h key
    | clear => exact does_clear h
  count h := by
    obtain ⟨m, a, rfl, ha, rfl⟩ := Host.Map.contents?_eq_some.mp h
    simp [Host.Map.countAccessor, Host.Map.entriesOf_map ha, Assoc.size]

end Step

/-! ### What follows for the calls on an association list -/

/-- A value that is no key fails the call before anything is changed. -/
theorem withKey_of_error {map key : Value} {below : List Value} {es : List (Key × Value)}
    {go : Key → Reply × List (Key × Value)} {e : RuntimeError} (h : Key.ofValue key = .error e) :
    withKey map key below es go = (.called (.error e) (map :: below), es) := by
  simp [withKey, h]

/-- An operand that is no key fails the call and changes nothing. -/
theorem onEntries_of_error {map key : Value} {c : MapCall} {below : List Value}
    {es : List (Key × Value)} {e : RuntimeError} (hkey : c.key? = some key)
    (h : Key.ofValue key = .error e) :
    c.onEntries map below es = (.called (.error e) (map :: below), es) := by
  cases c with
  | clear => cases hkey
  | _ =>
    cases hkey
    exact withKey_of_error h

/-- Only booleans, numbers and strings can be keys. -/
theorem ofValue_of_other {v : Value} (hbool : ∀ b, v ≠ .bool b) (hnum : ∀ n, v ≠ .num n)
    (hstr : ∀ s, v ≠ .str s) : Key.ofValue v = .error (.typeMismatch "map key" v.kindName) := by
  cases v with
  | bool b => exact absurd rfl (hbool b)
  | num n => exact absurd rfl (hnum n)
  | str s => exact absurd rfl (hstr s)
  | _ => rfl

/-- A call with one key leaves what is found under another. -/
theorem lookup_onEntries {map key : Value} {c : MapCall} {below : List Value}
    {es : List (Key × Value)} {k : Key} (hkey : c.key? = some key) (h : Key.ofValue key ≠ .ok k) :
    (c.onEntries map below es).2.lookup k = es.lookup k := by
  cases hk : Key.ofValue key with
  | error e => rw [onEntries_of_error hkey hk]
  | ok k' =>
    -- The call works on another key than the one that is looked up.
    have hne : k ≠ k' := by
      rintro rfl
      exact h hk
    cases c with
    | add key' value =>
      cases hkey
      simp [onEntries, withKey, hk, Assoc.lookup_upsert_of_ne hne]
    | remove key' =>
      cases hkey
      simp [onEntries, withKey, hk, Assoc.lookup_delete_of_ne hne]
    | contains key' =>
      cases hkey
      simp [onEntries, withKey, hk]
    | tryGet key' =>
      cases hkey
      simp [onEntries, withKey, hk]
    | clear => cases hkey

/-- What a look-up shows depends on what is found under its key only. -/
theorem tryGet_congr {map key : Value} {below : List Value} {es es' : List (Key × Value)}
    (h : ∀ k, Key.ofValue key = .ok k → es'.lookup k = es.lookup k) :
    ((tryGet key).onEntries map below es').1 = ((tryGet key).onEntries map below es).1 := by
  cases hk : Key.ofValue key with
  | error e => simp [onEntries, withKey, hk]
  | ok k =>
    have hfound := h k hk
    simp only [onEntries, withKey, hk, ← Assoc.isSome_lookup, hfound]

end MapCall

/-! ### Any sequence of uses -/

namespace Use

open Host.Map (contents?)

/-- A use of a map of the store. -/
def onMap (map : Value) : Frame → Use MapCall → Reply × Frame :=
  onFrame MapCall.body (MapCall.stack map) Host.Map.countAccessor map

/-- The same use of an association list. -/
def onEntries (map : Value) :
    List (Key × Value) → Use MapCall → Reply × List (Key × Value) :=
  onPlain (MapCall.onEntries map) List.length

variable {map : Value} {f : Frame} {es : List (Key × Value)}

/-- A call leaves what `tryGet` says of other keys alone. -/
theorem onMap_tryGet_other (h : contents? f.store map = some es) {c : MapCall} {key other : Value}
    (hkey : c.key? = some key) (hne : Key.ofValue other ≠ Key.ofValue key)
    (args args' : CallArgs) (below below' : List Value) :
    (onMap map (onMap map f (.call c args below)).2 (.call (.tryGet other) args' below')).1
      = (onMap map f (.call (.tryGet other) args' below')).1 := by
  obtain ⟨-, hnext⟩ := (MapCall.follows map).call h c args below
  have hbefore := ((MapCall.follows map).call h (.tryGet other) args' below').1
  have hafter := ((MapCall.follows map).call hnext (.tryGet other) args' below').1
  -- Both answers are read off the entries, which only differ at the key of the call.
  refine hafter.trans (Eq.trans ?_ hbefore.symm)
  refine MapCall.tryGet_congr fun k hk => MapCall.lookup_onEntries hkey ?_
  rw [← hk]
  exact hne.symm

/-- A call with a value that is no key fails and changes nothing. -/
theorem onMap_of_error (h : contents? f.store map = some es) {c : MapCall} {key : Value}
    {e : RuntimeError} (hkey : c.key? = some key) (he : Key.ofValue key = .error e)
    (args : CallArgs) (below : List Value) :
    (onMap map f (.call c args below)).1.error? = some e ∧
      contents? (onMap map f (.call c args below)).2.store map = some es := by
  obtain ⟨hreply, hnext⟩ := (MapCall.follows map).call h c args below
  rw [MapCall.onEntries_of_error hkey he] at hreply hnext
  exact ⟨congrArg Reply.error? hreply, hnext⟩

end Use

/-- The creator makes an empty map. -/
theorem Host.Map.creator_contents (f : Frame) :
    ∃ map f₀, creator f = .ok map f₀ ∧ contents? f₀.store map = some [] := by
  refine ⟨_, _, rfl, ?_⟩
  simp [contents?, Assoc.empty]

/-- A map that the creator has made behaves as an association list, whatever is done with it.

* Any sequence of calls and of looks at the number of keys shows what the same sequence on an
  association list shows, and the map holds the entries of that list at every moment.
* The keys are pairwise distinct.
* A call with one key does not change what `TryGet` shows for another.
* A key operand that is no boolean, number or string fails the call and leaves the entries. -/
theorem maps_refine_association_lists (f : Frame) :
    ∃ map f₀, Host.Map.creator f = .ok map f₀ ∧
      ∀ uses : List (Use MapCall),
        let real := replay (Use.onMap map) f₀ uses
        let plain := replay (Use.onEntries map) [] uses
        real.1 = plain.1 ∧ Host.Map.contents? real.2.store map = some plain.2 ∧
        (plain.2.map Prod.fst).Nodup ∧
        ∀ c args below key, c.key? = some key →
          let next := Use.onMap map real.2 (.call c args below)
          (∀ other, Key.ofValue other ≠ Key.ofValue key → ∀ args' below',
            (Use.onMap map next.2 (.call (.tryGet other) args' below')).1
              = (Use.onMap map real.2 (.call (.tryGet other) args' below')).1) ∧
          ((∀ b, key ≠ .bool b) → (∀ n, key ≠ .num n) → (∀ s, key ≠ .str s) →
            next.1.error? = some (.typeMismatch "map key" key.kindName) ∧
            Host.Map.contents? next.2.store map = some plain.2) := by
  obtain ⟨map, f₀, hrun, hempty⟩ := Host.Map.creator_contents f
  refine ⟨map, f₀, hrun, ?_⟩
  intro uses real plain
  -- The run so far is the simulation; what follows is about one more call.
  obtain ⟨hreplies, hentries⟩ := (MapCall.follows map).replay hempty uses
  refine ⟨hreplies, hentries, Host.Map.nodup_of_contents? hentries, ?_⟩
  intro c args below key hkey next
  refine ⟨?_, ?_⟩
  · intro other hne args' below'
    exact Use.onMap_tryGet_other hentries hkey hne args args' below below'
  · intro hbool hnum hstr
    have herror := MapCall.ofValue_of_other hbool hnum hstr
    exact Use.onMap_of_error hentries hkey herror args below

/-- Two keys are bound, the first anew, and then it is taken out and put in again. -/
def flagMapUses : List (Use MapCall) :=
  [.call (.add (.bool true) (.str "a")) { count := 2 } [],
    .call (.add (.bool false) (.str "b")) { count := 2 } [.null],
    .call (.add (.bool true) (.str "c")) { count := 2 } [],
    .call (.remove (.bool true)) { count := 1 } [],
    .call (.add (.bool true) (.str "d")) { count := 2 } [],
    .count]

/-- After these uses, a removal of the one key leaves what is found under the other, and a list is
no key. -/
theorem maps_refine_association_lists_flagMapUses :
    let last := (replay (Use.onMap (.map ⟨0⟩)) { store := { maps := #[.empty] } } flagMapUses).2
    let removed := (Use.onMap (.map ⟨0⟩) last (.call (.remove (.bool true)) { count := 1 } [])).2
    Host.Map.contents? last.store (.map ⟨0⟩)
      = some [(.bool false, .str "b"), (.bool true, .str "d")] ∧
    MapCall.key? (.remove (.bool true)) = some (.bool true) ∧
    Key.ofValue (.bool false) ≠ Key.ofValue (.bool true) ∧
    (Use.onMap (.map ⟨0⟩) removed (.call (.tryGet (.bool false)) { count := 1 } [])).1
      = (Use.onMap (.map ⟨0⟩) last (.call (.tryGet (.bool false)) { count := 1 } [])).1 ∧
    (Use.onMap (.map ⟨0⟩) last (.call (.contains (.list ⟨0⟩)) { count := 1 } [])).1.error?
      = some (.typeMismatch "map key" "list") := by
  intro last removed
  obtain ⟨map, f₀, hrun, hall⟩ := maps_refine_association_lists {}
  cases hrun
  obtain ⟨-, hentries, -, hnext⟩ := hall flagMapUses
  have hkey : MapCall.key? (.remove (.bool true)) = some (.bool true) := rfl
  have hne : Key.ofValue (.bool false) ≠ Key.ofValue (.bool true) := by decide
  refine ⟨hentries.trans (by decide +kernel), hkey, hne, (hnext _ _ _ _ hkey).1 _ hne _ _, ?_⟩
  exact ((hnext (.contains (.list ⟨0⟩)) _ _ _ rfl).2 nofun nofun nofun).1

end Sema

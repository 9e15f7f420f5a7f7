import Sema.Host.Array
import Sema.Proofs.HostCalls

/-!
# `Sema.Proofs.ArrayMethods`: an array is a list of items

Arrays are stored in two ways that share no code: a list of values in the store, or a buffer of host
items. `ArrayStorage.contents?` reads either as a plain list, `ArrayStorage.put` exchanges it, and
each operation of the storage has one equation in these terms. `ArrayCall.onItems` says what a
method call does to a plain list, operands, stack and failures included, and `ArrayCall.follows`
that the method does the same to an array.

`arrays_refine_lists` takes this to all sequences of uses of an array. A typed and a generic array
then differ only in how an item is converted, and for floats, booleans and strings the conversion
there and back changes nothing (`ItemKind.toValue_of_ofValue`). So nobody can tell the two apart
but by the handle. For integers this fails: a number is cut to an integer when it is stored.
-/

set_option autoImplicit false

namespace Sema

/-! ### What an array holds -/

namespace Store

variable {s : Store} {b : BufferId} {k : ItemKind}

/-- A new buffer is empty and holds items of the kind that it was made for. -/
theorem bufferItems?_newBuffer (s : Store) (k : ItemKind) :
    (s.newBuffer k).2.bufferItems? ⟨s.buffers.size⟩ k = some #[] := by
  simp [newBuffer, bufferItems?]

/-- A buffer reads back what was last written to it. -/
theorem bufferItems?_setBuffer {items : Array k.Carrier} (h : s.bufferItems? b k = some items)
    (items' : Array k.Carrier) : (s.setBuffer b k items').bufferItems? b k = some items' := by
  have hlt : b.index < s.buffers.size := by
    by_contra hout
    simp [bufferItems?, Array.getElem?_eq_none (Nat.le_of_not_lt hout)] at h
  simp [bufferItems?, setBuffer, hlt]

end Store

namespace ArrayStorage

/-- What the storage keeps for one item. -/
abbrev Item : ArrayStorage → Type
  | generic => Value
  | typed k => k.Carrier

/-- Converts a value when it is stored. -/
def toItem : (a : ArrayStorage) → Value → Except RuntimeError a.Item
  | generic, v => .ok v
  | typed k, v => k.ofValue v

/-- Converts an item when it is read. -/
def ofItem : (a : ArrayStorage) → a.Item → Value
  | generic, v => v
  | typed k, x => k.toValue x

/-- The items of an array of the store, if the value is one. -/
def contents? : (a : ArrayStorage) → Store → Value → Option (List a.Item)
  | generic, s, .list l => (s.lists[l.index]?).map Array.toList
  | typed k, s, .host b => (s.bufferItems? b k).map Array.toList
  | _, _, _ => none

/-- The value is an array of the store, with these items. -/
def Holds (a : ArrayStorage) (array : Value) (s : Store) (xs : List a.Item) : Prop :=
  a.contents? s array = some xs

/-- Exchanges the items of an array. -/
def put : (a : ArrayStorage) → Store → Value → List a.Item → Store
  | generic, s, .list l, xs => s.setList l xs.toArray
  | typed k, s, .host b, xs => s.setBuffer b k xs.toArray
  | _, s, _, _ => s

variable {a : ArrayStorage} {k : ItemKind} {s : Store} {array item : Value}

/-- An array reads as a list when it is that list's array. -/
theorem map_toList_eq_some {α : Type} {o : Option (Array α)} {xs : List α} :
    o.map Array.toList = some xs ↔ o = some xs.toArray := by
  rw [Option.map_eq_some_iff]
  constructor
  · rintro ⟨items, hitems, rfl⟩
    exact hitems
  · intro h
    exact ⟨_, h, rfl⟩

/-- A generic array is a reference to a list of values. -/
theorem contents?_generic {xs : List Value} :
    contents? .generic s array = some xs ↔
      ∃ l, array = .list l ∧ s.lists[l.index]? = some xs.toArray := by
  cases array with
  | list l => simp only [contents?, map_toList_eq_some, Value.list.injEq, exists_eq_left']
  | _ => simp [contents?]

/-- A typed array is a reference to a buffer of its kind. -/
theorem contents?_typed {xs : List k.Carrier} :
    contents? (.typed k) s array = some xs ↔
      ∃ b, array = .host b ∧ s.bufferItems? b k = some xs.toArray := by
  cases array with
  | host b => simp only [contents?, map_toList_eq_some, Value.host.injEq, exists_eq_left']
  | _ => simp [contents?]

/-- An array has the contents that were put into it. -/
theorem contents?_put {xs : List a.Item} (h : a.contents? s array = some xs) (ys : List a.Item) :
    a.contents? (a.put s array ys) array = some ys := by
  cases a with
  | generic =>
    obtain ⟨l, rfl, hl⟩ := contents?_generic.mp h
    obtain ⟨hlt, -⟩ := Array.getElem?_eq_some_iff.mp hl
    simp [contents?, put, Store.setList, hlt]
  | typed k =>
    obtain ⟨b, rfl, hb⟩ := contents?_typed.mp h
    simp [contents?, put, Store.bufferItems?_setBuffer hb]

/-- A new array is empty. -/
theorem contents?_create (a : ArrayStorage) (s : Store) :
    a.contents? (a.create s).2 (a.create s).1 = some [] := by
  cases a with
  | generic => simp [create, contents?, Store.newList]
  | typed k =>
    rw [contents?_typed]
    exact ⟨_, rfl, Store.bufferItems?_newBuffer s k⟩

/-- A value is accepted when it converts to an item. -/
theorem accepts_eq (a : ArrayStorage) (item : Value) :
    a.accepts item = (fun _ => ()) <$> a.toItem item := by
  cases a <;> rfl

/-- The items of a list that is there. -/
theorem listItems_of_get? {l : ListId} {items : Array Value}
    (hl : s.lists[l.index]? = some items) : s.listItems l = items := by
  simp [Store.listItems, hl]

/-- A reference to a buffer of the right kind is followed. -/
theorem bufferOf_host {b : BufferId} {items : Array k.Carrier}
    (hb : s.bufferItems? b k = some items) : bufferOf k s (.host b) = .ok (b, items) := by
  simp [bufferOf, Value.asHost, hb]

section
variable {xs : List a.Item} (h : a.contents? s array = some xs)
include h

/-- `count` is the length of the contents. -/
theorem count_eq : a.count s array = .ok xs.length := by
  cases a with
  | generic =>
    obtain ⟨l, rfl, hl⟩ := contents?_generic.mp h
    simp [count, Value.asList, listItems_of_get? hl]
  | typed k =>
    obtain ⟨b, rfl, hb⟩ := contents?_typed.mp h
    simp [count, bufferOf_host hb]

/-- `add` puts the item at the end. -/
theorem add_eq {x : a.Item} (hx : a.toItem item = .ok x) :
    a.add s array item = .ok (a.put s array (xs ++ [x])) := by
  cases a with
  | generic =>
    obtain ⟨l, rfl, hl⟩ := contents?_generic.mp h
    cases hx
    simp [add, put, Value.asList, listItems_of_get? hl]
  | typed k =>
    obtain ⟨b, rfl, hb⟩ := contents?_typed.mp h
    have hx : k.ofValue item = .ok x := hx
    simp [add, put, hx, bufferOf_host hb]

/-- `at_` reads the item at an index that is in range. -/
theorem at_eq (index : Int) :
    a.at_ s array index
      = (fun i => (xs[i]?).elim .null a.ofItem) <$> checkIndex index xs.length := by
  cases a with
  | generic =>
    obtain ⟨l, rfl, hl⟩ := contents?_generic.mp h
    -- A generic array keeps the values as they are.
    have helim : ∀ o : Option Value, o.elim .null (ofItem .generic) = o.getD .null := by
      intro o
      cases o <;> rfl
    simp [at_, Value.asList, listItems_of_get? hl, helim]
  | typed k =>
    obtain ⟨b, rfl, hb⟩ := contents?_typed.mp h
    show _ = (fun i => (xs[i]?).elim .null k.toValue) <$> checkIndex index xs.length
    simp [at_, bufferOf_host hb]

/-- `setAt` replaces the item at an index that is in range. -/
theorem setAt_eq {x : a.Item} (hx : a.toItem item = .ok x) (index : Int) :
    a.setAt s array index item
      = (fun i => a.put s array (xs.set i x)) <$> checkIndex index xs.length := by
  cases a with
  | generic =>
    obtain ⟨l, rfl, hl⟩ := contents?_generic.mp h
    cases hx
    simp [setAt, put, Value.asList, listItems_of_get? hl]
  | typed k =>
    obtain ⟨b, rfl, hb⟩ := contents?_typed.mp h
    have hx : k.ofValue item = .ok x := hx
    simp [setAt, put, hx, bufferOf_host hb]

/-- `removeAt` takes out the item at an index that is in range. -/
theorem removeAt_eq (index : Int) :
    a.removeAt s array index
      = (fun i => a.put s array (xs.eraseIdx i)) <$> checkIndex index xs.length := by
  cases a with
  | generic =>
    obtain ⟨l, rfl, hl⟩ := contents?_generic.mp h
    simp [removeAt, put, Value.asList, listItems_of_get? hl]
  | typed k =>
    obtain ⟨b, rfl, hb⟩ := contents?_typed.mp h
    simp [removeAt, put, bufferOf_host hb]

/-- `clear` leaves nothing. -/
theorem clear_eq : a.clear s array = .ok (a.put s array []) := by
  cases a with
  | generic =>
    obtain ⟨l, rfl, hl⟩ := contents?_generic.mp h
    rfl
  | typed k =>
    obtain ⟨b, rfl, hb⟩ := contents?_typed.mp h
    simp [clear, put, bufferOf_host hb]

end

end ArrayStorage

/-! ### The calls -/

/-- A call of a method on one array, by the operand that stands above the array on the stack. The
item of `setAt` stands below the array, if the stack is that deep. -/
inductive ArrayCall where
  | add (item : Value)
  | addInplace (item : Value)
  | at_ (index : Value)
  | setAt (index : Value)
  | removeAt (index : Value)
  | clear

namespace ArrayCall

/-- The host function that a call runs. -/
def body (a : ArrayStorage) : ArrayCall → HostFunc
  | add _ => Host.Array.add a
  | addInplace _ => Host.Array.addInplace a
  | at_ _ => Host.Array.at_ a
  | setAt _ => Host.Array.setAt a
  | removeAt _ => Host.Array.removeAt a
  | clear => Host.Array.clear a

/-- The stack that the call is made on. -/
def stack (array : Value) (c : ArrayCall) (below : List Value) : List Value :=
  match c with
  | add v | addInplace v | at_ v | setAt v | removeAt v => v :: array :: below
  | clear => array :: below

variable {a : ArrayStorage}

/-- Goes on at a position of the list, or reports that there is no such position. -/
def atPosition (xs : List a.Item) (i : Int) (below : List Value)
    (go : Fin xs.length → Reply × List a.Item) : Reply × List a.Item :=
  if h : 0 ≤ i ∧ i < xs.length then go ⟨i.toNat, by omega⟩
  else (.called (.error (.indexOutOfRange i xs.length)) below, xs)

/-- The call on a plain list of items. -/
def onItems (a : ArrayStorage) (array : Value) (c : ArrayCall) (below : List Value)
    (xs : List a.Item) : Reply × List a.Item :=
  match c with
  | add item =>
    match a.toItem item with
    | .ok x => (.called (.ok .done) below, xs ++ [x])
    | .error e => (.called (.error e) (item :: array :: below), xs)
  | addInplace item =>
    match a.toItem item with
    | .ok x => (.called (.ok .done) (array :: below), xs ++ [x])
    | .error e => (.called (.error e) (item :: array :: below), xs)
  | at_ index =>
    match index.asIndex with
    | .ok i =>
      atPosition xs i below fun j => (.called (.ok .done) (a.ofItem (xs.get j) :: below), xs)
    | .error e => (.called (.error e) (array :: below), xs)
  | setAt index =>
    match below with
    | [] => (.called (.error .stackUnderflow) [index, array], xs)
    | item :: rest =>
      -- The item is looked at before the index is.
      match a.toItem item, index.asIndex with
      | .ok x, .ok i => atPosition xs i rest fun j => (.called (.ok .done) rest, xs.set j x)
      | .ok _, .error e => (.called (.error e) (array :: below), xs)
      | .error e, _ => (.called (.error e) (index :: array :: below), xs)
  | removeAt index =>
    match index.asIndex with
    | .ok i => atPosition xs i below fun j => (.called (.ok .done) below, xs.eraseIdx j)
    | .error e => (.called (.error e) (array :: below), xs)
  | clear => (.called (.ok .done) below, [])

section Step

open HostM

variable {f : Frame} {array : Value} {xs : List a.Item} {args : CallArgs} {below : List Value}

/-- An index in range is a position. -/
theorem checkIndex_of_mem {i : Int} (h : 0 ≤ i ∧ i < xs.length) :
    ArrayStorage.checkIndex i xs.length = .ok i.toNat :=
  if_pos h

/-- An index out of range is reported with the length. -/
theorem checkIndex_of_not_mem {i : Int} (h : ¬(0 ≤ i ∧ i < xs.length)) :
    ArrayStorage.checkIndex i xs.length = .error (.indexOutOfRange i xs.length) :=
  if_neg h

/-- The storage accepts what it can convert. -/
theorem accepts_of_toItem {item : Value} {x : a.Item} (hx : a.toItem item = .ok x) :
    a.accepts item = .ok () := by
  rw [a.accepts_eq, hx]
  rfl

/-- It refuses the rest, for the reason for which they do not convert. -/
theorem accepts_of_toItem_error {item : Value} {e : RuntimeError} (he : a.toItem item = .error e) :
    a.accepts item = .error e := by
  rw [a.accepts_eq, he]
  rfl

variable {s : Store} {log : FiberLog} {host : FiberControl}

/-- A change at a position, as the last step of a call. -/
theorem endsAs_update_at (h : a.contents? s array = some xs) {i : Int}
    {write : Store → Except RuntimeError Store} (change : Nat → List a.Item)
    (hwrite : write s
      = (fun j => a.put s array (change j)) <$> ArrayStorage.checkIndex i xs.length) :
    EndsAs (update write >>= fun _ => pure .done) ⟨⟨s, below, log⟩, host⟩ (a.Holds array)
      (atPosition xs i below fun j => (.called (.ok .done) below, change j)) := by
  unfold atPosition
  split
  case isTrue hmem =>
    rw [checkIndex_of_mem hmem] at hwrite
    exact endsAs_update_ok hwrite (a.contents?_put h _)
  case isFalse hout =>
    rw [checkIndex_of_not_mem hout] at hwrite
    exact endsAs_update_error hwrite h

/-- A look at a position, with the item as the result of the call. -/
theorem endsAs_query_at (h : a.contents? s array = some xs) (i : Int) :
    EndsAs (query (a.at_ · array i) >>= fun v => push v >>= fun _ => pure .done)
      ⟨⟨s, below, log⟩, host⟩ (a.Holds array)
      (atPosition xs i below fun j =>
        (.called (.ok .done) (a.ofItem (xs.get j) :: below), xs)) := by
  have hread := a.at_eq h i
  unfold atPosition
  split
  case isTrue hmem =>
    -- The index is checked before the item is read.
    have hlt : i.toNat < xs.length := by omega
    rw [checkIndex_of_mem hmem] at hread
    have hitem : a.at_ s array i = .ok (a.ofItem xs[i.toNat]) := by
      simpa [hlt] using hread
    exact endsAs_query_ok hitem ⟨rfl, h⟩
  case isFalse hout =>
    rw [checkIndex_of_not_mem hout] at hread
    exact endsAs_query_error hread h

/-- `Add` appends the item and takes both operands. -/
theorem does_add (h : a.contents? f.store array = some xs) (item : Value) :
    (Host.Array.add a).Does args (item :: array :: below) f (a.Holds array)
      (onItems a array (.add item) below xs) := by
  -- The item is looked at first, so one that does not convert leaves both operands.
  refine EndsAs.does (endsAs_peek ?_)
  cases hx : a.toItem item with
  | error e =>
    simp only [onItems, hx]
    exact endsAs_need_error (accepts_of_toItem_error hx) h
  | ok x =>
    simp only [onItems, hx]
    exact endsAs_need_ok (accepts_of_toItem hx) <| endsAs_pop <| endsAs_pop <|
      endsAs_update_ok (a.add_eq h hx) (a.contents?_put h _)

/-- `$AddInplace` appends the item and leaves the array. -/
theorem does_addInplace (h : a.contents? f.store array = some xs) (item : Value) :
    (Host.Array.addInplace a).Does args (item :: array :: below) f (a.Holds array)
      (onItems a array (.addInplace item) below xs) := by
  refine EndsAs.does (endsAs_peek ?_)
  cases hx : a.toItem item with
  | error e =>
    simp only [onItems, hx]
    exact endsAs_need_error (accepts_of_toItem_error hx) h
  | ok x =>
    simp only [onItems, hx]
    exact endsAs_need_ok (accepts_of_toItem hx) <| endsAs_pop <| endsAs_peek <|
      endsAs_update_ok (a.add_eq h hx) (a.contents?_put h _)

/-- `At` takes the position and the array, and leaves the item. -/
theorem does_at (h : a.contents? f.store array = some xs) (index : Value) :
    (Host.Array.at_ a).Does args (index :: array :: below) f (a.Holds array)
      (onItems a array (.at_ index) below xs) := by
  refine EndsAs.does (endsAs_pop ?_)
  cases hi : index.asIndex with
  | error e =>
    simp only [onItems, hi]
    exact endsAs_need_error rfl h
  | ok i =>
    simp only [onItems, hi]
    exact endsAs_need_ok rfl <| endsAs_pop <| endsAs_query_at h i

/-- `SetAt` takes the position, the array and the item. -/
theorem does_setAt (h : a.contents? f.store array = some xs) (index : Value) :
    (Host.Array.setAt a).Does args (index :: array :: below) f (a.Holds array)
      (onItems a array (.setAt index) below xs) := by
  -- The item is looked at first, two places down, and there may be none.
  cases below with
  | nil => exact EndsAs.does ⟨rfl, h⟩
  | cons item rest =>
    refine EndsAs.does ?_
    cases hx : a.toItem item with
    | error e =>
      simp only [onItems, hx]
      exact endsAs_need_error (accepts_of_toItem_error hx) h
    | ok x =>
      refine endsAs_need_ok (accepts_of_toItem hx) (endsAs_pop ?_)
      cases hi : index.asIndex with
      | error e =>
        simp only [onItems, hx, hi]
        exact endsAs_need_error rfl h
      | ok i =>
        simp only [onItems, hx, hi]
        exact endsAs_need_ok rfl <| endsAs_pop <| endsAs_pop <|
          endsAs_update_at h (xs.set · x) (a.setAt_eq h hx i)

/-- `RemoveAt` takes the position and the array. -/
theorem does_removeAt (h : a.contents? f.store array = some xs) (index : Value) :
    (Host.Array.removeAt a).Does args (index :: array :: below) f (a.Holds array)
      (onItems a array (.removeAt index) below xs) := by
  refine EndsAs.does (endsAs_pop ?_)
  cases hi : index.asIndex with
  | error e =>
    simp only [onItems, hi]
    exact endsAs_need_error rfl h
  | ok i =>
    simp only [onItems, hi]
    exact endsAs_need_ok rfl <| endsAs_pop <| endsAs_update_at h xs.eraseIdx (a.removeAt_eq h i)

/-- `Clear` takes the array. -/
theorem does_clear (h : a.contents? f.store array = some xs) :
    (Host.Array.clear a).Does args (array :: below) f (a.Holds array)
      (onItems a array .clear below xs) :=
  EndsAs.does <| endsAs_pop <| endsAs_update_ok (a.clear_eq h) (a.contents?_put h _)

/-- Each method does to the items of an array what the rule says. -/
theorem follows (a : ArrayStorage) (array : Value) :
    Use.Follows (a.Holds array) (body a) (stack array) (Host.Array.countAccessor a) array
      (onItems a array) List.length where
  call h c args below := by
    cases c with
    | add item => exact does_add h item
    | addInplace item => exact does_addInplace h item
    | at_ index => exact does_at h index
    | setAt index => exact does_setAt h index
    | removeAt index => exact does_removeAt h index
    | clear => exact does_clear h
  count h := by simp [Host.Array.countAccessor, a.count_eq h]

end Step

/-! ### What follows for the calls on a plain list -/

/-- A call that fails leaves the list as it was. -/
theorem onItems_of_error {array : Value} {c : ArrayCall} {below : List Value} {xs : List a.Item}
    (h : (c.onItems a array below xs).1.error? ≠ none) : (c.onItems a array below xs).2 = xs := by
  cases c with
  | setAt index => cases below <;> grind [onItems, atPosition, Reply.error?]
  | _ => grind [onItems, atPosition, Reply.error?]

/-- The call looks for position `i`: its index operand says so, and the item that it is to store, if
it stores one, is on the stack and fits the storage. -/
def Indexes (a : ArrayStorage) (below : List Value) (i : Int) : ArrayCall → Prop
  | at_ index | removeAt index => index.asIndex = .ok i
  | setAt index => index.asIndex = .ok i ∧ ∃ item x, below.head? = some item ∧ a.toItem item = .ok x
  | _ => False

/-- Reading a number never reports a range. -/
theorem asNum_ne_outOfRange (v : Value) (i : Int) (n : Nat) :
    v.asNum ≠ .error (.indexOutOfRange i n) := by
  cases v <;> simp [Value.asNum, Value.mismatch]

/-- Reading an index never reports a range. -/
theorem asIndex_ne_outOfRange (v : Value) (i : Int) (n : Nat) :
    v.asIndex ≠ .error (.indexOutOfRange i n) := by
  have hnum := asNum_ne_outOfRange v i n
  unfold Value.asIndex
  cases h : v.asNum with
  | error e =>
    intro herror
    cases herror
    exact hnum h
  | ok x => simp [Except.map]

/-- Converting an item never reports a range. -/
theorem toItem_ne_outOfRange (a : ArrayStorage) (v : Value) (i : Int) (n : Nat) :
    a.toItem v ≠ .error (.indexOutOfRange i n) := by
  cases a with
  | generic => simp [ArrayStorage.toItem]
  | typed k =>
    show k.ofValue v ≠ _
    cases k with
    | int => exact asIndex_ne_outOfRange v i n
    | float => exact asNum_ne_outOfRange v i n
    | bool => cases v <;> simp [ItemKind.ofValue, Value.asBool, Value.mismatch]
    | string => cases v <;> simp [ItemKind.ofValue, Value.asStr, Value.mismatch]

/-- No failure of another kind looks like this one, so the index decides. -/
theorem outOfRange_iff {array : Value} {c : ArrayCall} {below : List Value} {xs : List a.Item}
    {i : Int} {n : Nat} :
    (c.onItems a array below xs).1.error? = some (.indexOutOfRange i n) ↔
      c.Indexes a below i ∧ (i < 0 ∨ xs.length ≤ i) ∧ n = xs.length := by
  have hindex := asIndex_ne_outOfRange
  have hitem := toItem_ne_outOfRange
  cases c with
  | setAt index => cases below <;> grind [onItems, atPosition, Reply.error?, Indexes]
  | _ => grind [onItems, atPosition, Reply.error?, Indexes]

/-- The item that the call is to store. -/
def item? (below : List Value) : ArrayCall → Option Value
  | add item | addInplace item => some item
  | setAt _ => below.head?
  | _ => none

end ArrayCall

/-- Equal values, or one array in the place of another. -/
def Swapped (t g v w : Value) : Prop :=
  v = w ∨ v = t ∧ w = g

/-- The same reply, but for one array in the place of another. -/
inductive Reply.Alike (t g : Value) : Reply → Reply → Prop
  | called (result : Except RuntimeError CallStatus) {stack stack' : List Value}
      (h : List.Forall₂ (Swapped t g) stack stack') :
      Alike t g (.called result stack) (.called result stack')
  | read (value : Except RuntimeError Value) : Alike t g (.read value) (.read value)

namespace ItemKind

variable {k : ItemKind}

/-- Only integers are changed by being stored. -/
theorem toValue_of_ofValue (hk : k ≠ .int) {v : Value} {x : k.Carrier} (h : k.ofValue v = .ok x) :
    k.toValue x = v := by
  cases k with
  | int => exact absurd rfl hk
  | float =>
    cases v <;> cases h
    rfl
  | bool =>
    cases v <;> cases h
    rfl
  | string =>
    cases v <;> cases h
    rfl

/-- An array is no item of a typed array. -/
theorem ofValue_host (k : ItemKind) (b : BufferId) (x : k.Carrier) :
    k.ofValue (.host b) ≠ .ok x := by
  intro h
  cases k <;> cases h

end ItemKind

namespace ArrayCall

variable {k : ItemKind} {b : BufferId} {g : Value} {below below' : List Value}

/-- The call does to a list of values what it does to the list of typed items. -/
def Mirrors (k : ItemKind) (b : BufferId) (g : Value) (below below' : List Value)
    (xs : List k.Carrier) (c : ArrayCall) : Prop :=
  let typed := c.onItems (.typed k) (.host b) below xs
  let values := c.onItems .generic g below' (xs.map k.toValue)
  Reply.Alike (.host b) g typed.1 values.1 ∧ values.2 = typed.2.map k.toValue

/-- At a position both lists go on alike, or both report that there is no such position. -/
theorem mirrors_atPosition (xs : List k.Carrier) (i : Int)
    (hbelow : List.Forall₂ (Swapped (.host b) g) below below')
    {go : Fin xs.length → Reply × List k.Carrier}
    {go' : Fin (xs.map k.toValue).length → Reply × List Value}
    (hgo : ∀ n (h : n < xs.length) (h' : n < (xs.map k.toValue).length),
      Reply.Alike (.host b) g (go ⟨n, h⟩).1 (go' ⟨n, h'⟩).1 ∧
        (go' ⟨n, h'⟩).2 = (go ⟨n, h⟩).2.map k.toValue) :
    let typed := atPosition (a := .typed k) xs i below go
    let values := atPosition (a := .generic) (xs.map k.toValue) i below' go'
    Reply.Alike (.host b) g typed.1 values.1 ∧ values.2 = typed.2.map k.toValue := by
  have hlen : (xs.map k.toValue).length = xs.length := List.length_map _
  by_cases hmem : 0 ≤ i ∧ i < xs.length
  · have hmem' : 0 ≤ i ∧ i < (xs.map k.toValue).length := by rwa [hlen]
    simp only [atPosition, dif_pos hmem, dif_pos hmem']
    exact hgo i.toNat (by omega) (by omega)
  · have hmem' : ¬(0 ≤ i ∧ i < (xs.map k.toValue).length) := by rwa [hlen]
    simp only [atPosition, dif_neg hmem, dif_neg hmem']
    rw [hlen]
    exact ⟨.called _ hbelow, trivial⟩

/-- Each call has like effects on a typed array and on the generic one with the same values, as long
as the item that it stores is one that the typed array takes. -/
theorem mirrors (hk : k ≠ .int) (xs : List k.Carrier)
    (hbelow : List.Forall₂ (Swapped (.host b) g) below below') {c : ArrayCall}
    (hitem : ∀ item, c.item? below = some item → ∃ x, k.ofValue item = .ok x) :
    Mirrors k b g below below' xs c := by
  have harray : Swapped (.host b) g (.host b) g := Or.inr ⟨rfl, rfl⟩
  cases c with
  | add item =>
    obtain ⟨x, hx⟩ := hitem item rfl
    simpa [Mirrors, onItems, ArrayStorage.toItem, hx, ItemKind.toValue_of_ofValue hk hx]
      using Reply.Alike.called (.ok .done) hbelow
  | addInplace item =>
    obtain ⟨x, hx⟩ := hitem item rfl
    simpa [Mirrors, onItems, ArrayStorage.toItem, hx, ItemKind.toValue_of_ofValue hk hx]
      using Reply.Alike.called (.ok .done) (.cons harray hbelow)
  | at_ index =>
    cases hi : index.asIndex with
    | error e =>
      simpa [Mirrors, onItems, hi] using Reply.Alike.called (.error e) (.cons harray hbelow)
    | ok i =>
      simp only [Mirrors, onItems, hi]
      refine mirrors_atPosition xs i hbelow fun n h h' => ⟨.called _ (.cons ?_ hbelow), rfl⟩
      exact Or.inl (by simp [ArrayStorage.ofItem])
  | setAt index =>
    cases hbelow with
    | nil =>
      simpa [Mirrors, onItems]
        using Reply.Alike.called (.error .stackUnderflow) (.cons (Or.inl rfl) (.cons harray .nil))
    | @cons item item' rest rest' hsame hrest =>
      obtain ⟨x, hx⟩ := hitem item rfl
      -- The item cannot be the array, which no typed array takes.
      have hsame : item' = item := by
        rcases hsame with hsame | ⟨hhost, -⟩
        · exact hsame.symm
        · rw [hhost] at hx
          exact absurd hx (k.ofValue_host b x)
      cases hi : index.asIndex with
      | error e =>
        simpa [Mirrors, onItems, hi, ArrayStorage.toItem, hx, hsame]
          using Reply.Alike.called (.error e) (.cons harray (.cons (Or.inl rfl) hrest))
      | ok i =>
        simp only [Mirrors, onItems, hi, ArrayStorage.toItem, hx, hsame]
        refine mirrors_atPosition xs i hrest fun n h h' => ⟨.called _ hrest, ?_⟩
        rw [List.map_set, ItemKind.toValue_of_ofValue hk hx]
  | removeAt index =>
    cases hi : index.asIndex with
    | error e =>
      simpa [Mirrors, onItems, hi] using Reply.Alike.called (.error e) (.cons harray hbelow)
    | ok i =>
      simp only [Mirrors, onItems, hi]
      refine mirrors_atPosition xs i hbelow fun n h h' => ⟨.called _ hbelow, ?_⟩
      -- Both lists lose the item at the same position.
      simp [List.eraseIdx_eq_take_drop_succ]
  | clear => simpa [Mirrors, onItems] using Reply.Alike.called (.ok .done) hbelow

end ArrayCall

/-! ### Any sequence of uses -/

namespace Use

/-- A use of an array of the store. -/
def onArray (a : ArrayStorage) (array : Value) : Frame → Use ArrayCall → Reply × Frame :=
  onFrame (ArrayCall.body a) (ArrayCall.stack array) (Host.Array.countAccessor a) array

/-- The same use of a plain list of items. -/
def onList (a : ArrayStorage) (array : Value) : List a.Item → Use ArrayCall → Reply × List a.Item :=
  onPlain (ArrayCall.onItems a array) List.length

/-- The same use of a typed and of a generic array, with an item that the typed one takes. -/
inductive Alike (k : ItemKind) (t g : Value) : Use ArrayCall → Use ArrayCall → Prop
  | call (c : ArrayCall) (args args' : CallArgs) {below below' : List Value}
      (hbelow : List.Forall₂ (Swapped t g) below below')
      (hitem : ∀ item, c.item? below = some item → ∃ x, k.ofValue item = .ok x) :
      Alike k t g (.call c args below) (.call c args' below')
  | count : Alike k t g .count .count

/-- Uses that are alike get like replies and keep the two lists alike. -/
theorem onList_alike {k : ItemKind} (hk : k ≠ .int) {b : BufferId} {g : Value} (xs : List k.Carrier)
    {u u' : Use ArrayCall} (h : Alike k (.host b) g u u') :
    Reply.Alike (.host b) g (onList (.typed k) (.host b) xs u).1
        (onList .generic g (xs.map k.toValue) u').1 ∧
      (onList .generic g (xs.map k.toValue) u').2
        = (onList (.typed k) (.host b) xs u).2.map k.toValue := by
  cases h with
  | call c args args' hbelow hitem => exact ArrayCall.mirrors hk xs hbelow hitem
  | count =>
    refine ⟨?_, rfl⟩
    -- Reading the count changes neither array.
    have hlen : (xs.map k.toValue).length = xs.length := List.length_map _
    simp only [onList, onPlain, hlen]
    exact .read _

/-- A whole history of uses that are alike gets like replies. -/
theorem replay_alike {k : ItemKind} (hk : k ≠ .int) {b : BufferId} {g : Value}
    {uses uses' : List (Use ArrayCall)} (h : List.Forall₂ (Alike k (.host b) g) uses uses') :
    List.Forall₂ (Reply.Alike (.host b) g) (replay (onList (.typed k) (.host b)) [] uses).1
      (replay (onList .generic g) [] uses').1 := by
  -- The values of the one list are the items of the other, read back.
  have hstep : ∀ (xs : List k.Carrier) (ys : List Value) (u u' : Use ArrayCall),
      ys = xs.map k.toValue → Alike k (.host b) g u u' →
      Reply.Alike (.host b) g (onList (.typed k) (.host b) xs u).1 (onList .generic g ys u').1 ∧
        (onList .generic g ys u').2 = (onList (.typed k) (.host b) xs u).2.map k.toValue := by
    rintro xs ys u u' rfl hu
    exact onList_alike hk xs hu
  exact (replay_forall₂ hstep h rfl).1

end Use

/-- The class's creator makes an empty array. -/
theorem Host.Array.creator_contents (a : ArrayStorage) (f : Frame) :
    ∃ array f₀, creator a f = .ok array f₀ ∧ a.contents? f₀.store array = some [] :=
  ⟨_, _, rfl, a.contents?_create f.store⟩

/-- An array that a creator has made behaves as a plain list, whatever is done with it.

* Any sequence of calls and of looks at the number of items shows what the same sequence on a list
  shows, and the array holds the items of that list at every moment.
* A call that looks for a position fails with `indexOutOfRange` exactly if there is no such
  position, and no other call does.
* A call that fails leaves the items as they were.
* A typed array of floats, booleans or strings and a generic array show the same for good, as long
  as the items are such that the typed one takes them. -/
theorem arrays_refine_lists (a : ArrayStorage) (f : Frame) :
    ∃ array f₀, Host.Array.creator a f = .ok array f₀ ∧
      (∀ uses : List (Use ArrayCall),
        let real := replay (Use.onArray a array) f₀ uses
        let plain := replay (Use.onList a array) [] uses
        real.1 = plain.1 ∧ a.contents? real.2.store array = some plain.2 ∧
        ∀ c args below,
          let next := Use.onArray a array real.2 (.call c args below)
          (∀ i n, next.1.error? = some (.indexOutOfRange i n) ↔
            c.Indexes a below i ∧ (i < 0 ∨ plain.2.length ≤ i) ∧ n = plain.2.length) ∧
          (next.1.error? ≠ none → a.contents? next.2.store array = some plain.2)) ∧
      ∀ k, a = .typed k → k ≠ .int → ∀ g : Frame,
        ∃ other g₀, Host.Array.creator .generic g = .ok other g₀ ∧
          ∀ uses uses', List.Forall₂ (Use.Alike k array other) uses uses' →
            List.Forall₂ (Reply.Alike array other) (replay (Use.onArray a array) f₀ uses).1
              (replay (Use.onArray .generic other) g₀ uses').1 := by
  obtain ⟨array, f₀, hrun, hnew⟩ := Host.Array.creator_contents a f
  refine ⟨array, f₀, hrun, ?_, ?_⟩
  · intro uses real plain
    -- The run so far is the simulation; the next call is one more step of it.
    obtain ⟨hreplies, hitems⟩ := (ArrayCall.follows a array).replay hnew uses
    refine ⟨hreplies, hitems, ?_⟩
    intro c args below next
    obtain ⟨hreply, hnext⟩ := (ArrayCall.follows a array).call hitems c args below
    have hplain : next.1 = (c.onItems a array below plain.2).1 := hreply
    rw [hplain]
    refine ⟨fun i n => ArrayCall.outOfRange_iff, fun herror => ?_⟩
    exact hnext.trans (congrArg some (ArrayCall.onItems_of_error herror))
  · rintro k rfl hk g
    obtain ⟨b, rfl, -⟩ := ArrayStorage.contents?_typed.mp hnew
    obtain ⟨other, g₀, hrun', hnew'⟩ := Host.Array.creator_contents .generic g
    refine ⟨other, g₀, hrun', ?_⟩
    intro uses uses' halike
    -- Both arrays follow their lists, so it is enough to compare the lists.
    have htyped := ((ArrayCall.follows (.typed k) (.host b)).replay hnew uses).1
    have hgeneric := ((ArrayCall.follows .generic other).replay hnew' uses').1
    rw [Use.onArray, Use.onArray, htyped, hgeneric]
    exact Use.replay_alike hk halike

/-- Flags are added, exchanged and removed, with the array itself further down the stack. -/
def flagUses (array : Value) : List (Use ArrayCall) :=
  [.call (.add (.bool true)) { count := 1 } [array],
    .call (.addInplace (.bool false)) { count := 1 } [],
    .call (.setAt (.num (.ofInt 0))) { count := 2 } [.bool false, array],
    .call (.removeAt (.num (.ofInt 1))) { count := 1 } [.null],
    .count]

/-- `flagUses` asks a typed and a generic array for the same things. -/
theorem flagUses_alike (t g : Value) :
    List.Forall₂ (Use.Alike .bool t g) (flagUses t) (flagUses g) := by
  have harray : Swapped t g t g := Or.inr ⟨rfl, rfl⟩
  have hnull : Swapped t g .null .null := Or.inl rfl
  have hfalse : Swapped t g (.bool false) (.bool false) := Or.inl rfl
  -- Every item in these calls is a flag, so that the typed array takes it.
  have hflag : ∀ (o : Option Value) (v : Bool), o = some (.bool v) →
      ∀ item, o = some item → ∃ x, ItemKind.ofValue .bool item = .ok x := by
    rintro _ v rfl item hitem
    cases hitem
    exact ⟨v, rfl⟩
  exact .cons (.call _ _ _ (.cons harray .nil) (hflag _ true rfl))
    (.cons (.call _ _ _ .nil (hflag _ false rfl))
      (.cons (.call _ _ _ (.cons hfalse (.cons harray .nil)) (hflag _ false rfl))
        (.cons (.call _ _ _ (.cons hnull .nil) nofun) (.cons .count .nil))))

/-- The two arrays reply alike to these uses, and one item is left. -/
theorem arrays_refine_lists_flagUses :
    let typed : Frame := { store := { buffers := #[⟨.bool, #[]⟩] } }
    let generic : Frame := { store := { lists := #[#[]] } }
    let flags := replay (Use.onArray (.typed .bool) (.host ⟨0⟩)) typed (flagUses (.host ⟨0⟩))
    List.Forall₂ (Use.Alike .bool (.host ⟨0⟩) (.list ⟨0⟩)) (flagUses (.host ⟨0⟩))
        (flagUses (.list ⟨0⟩)) ∧
      List.Forall₂ (Reply.Alike (.host ⟨0⟩) (.list ⟨0⟩)) flags.1
        (replay (Use.onArray .generic (.list ⟨0⟩)) generic (flagUses (.list ⟨0⟩))).1 ∧
      (Use.onArray (.typed .bool) (.host ⟨0⟩) flags.2
          (.call (.at_ (.num (.ofInt 1))) { count := 1 } [])).1.error?
        = some (.indexOutOfRange 1 1) := by
  intro typed generic flags
  obtain ⟨array, f₀, hrun, hlist, hsame⟩ := arrays_refine_lists (.typed .bool) {}
  cases hrun
  obtain ⟨other, g₀, hrun', hsame⟩ := hsame .bool rfl (by decide) {}
  cases hrun'
  -- Two flags are added and one is taken out again, so index 1 is just past the end.
  have halike := flagUses_alike (.host ⟨0⟩) (.list ⟨0⟩)
  have hlength : (replay (Use.onList (.typed .bool) (.host ⟨0⟩)) [] (flagUses (.host ⟨0⟩))).2.length
      = 1 := by
    decide +kernel
  obtain ⟨-, -, hnext⟩ := hlist (flagUses (.host ⟨0⟩))
  refine ⟨halike, hsame _ _ halike, ((hnext _ _ _).1 1 1).mpr ⟨?_, ?_, hlength.symm⟩⟩
  · show (Value.num (.ofInt 1)).asIndex = .ok 1
    decide +kernel
  · exact Or.inr (Int.ofNat_le.mpr (Nat.le_of_eq hlength))

/-- An array of integers is asked to put a string at position 0. It has no such position, but what
it reports is the string. -/
theorem setAt_checks_item_before_index :
    ∃ array f₀, Host.Array.creator (.typed .int) {} = .ok array f₀ ∧
      ArrayStorage.contents? (.typed .int) f₀.store array = some [] ∧
      (Value.num (.ofInt 0)).asIndex = .ok 0 ∧
      (Use.onArray (.typed .int) array f₀
          (.call (.setAt (.num (.ofInt 0))) { count := 2 } [.str "x"])).1.error?
        = some (.typeMismatch "num" "string") :=
  ⟨_, _, rfl, rfl, by decide +kernel, rfl⟩

end Sema

import Sema.Host.Fiber
import Sema.Host.Map
import Sema.Proofs.ArrayMethods

/-!
# `Sema.Proofs.StackEffect`: what host methods do to the stack

The compiler emits calls that rely on the exact stack effect of every host method. `HostMethod`
lists the methods of array and map classes and the functions that steer fibers, and
`HostMethod.Effect` is the table of their stack effects. `host_method_stack_effect` says that a call
that succeeds has the effect of the table, and that one that fails has taken some of its operands
and done nothing else.

Every method takes its operands first and changes the store in its last step. So a failure, at
whatever step, finds the frame in which the call began, less some operands (`Frame.taken`). The
rules `HostM.keeps_pop`, `HostM.keeps_need` and so on say this once for each kind of step, and the
methods are gone through step by step.

`start` and `stop` ask the host, whose code has the whole frame at hand. For these two the host has
to leave the stack and the store alone (`FiberControl.LeavesValues`), which a host that only answers
always does.
-/

set_option autoImplicit false

namespace Sema

/-- The frame when the top `n` values are taken and nothing else has happened. -/
def Frame.taken (f : Frame) (n : Nat) : Frame :=
  { f with stack := f.stack.drop n }

/-! ### Hosts that leave the values alone -/

/-- However the run ended, the stack and the store are as they were. -/
def FrameState.KeptBy {α : Type} (f : FrameState) :
    EStateM.Result RuntimeError FrameState α → Prop
  | .ok _ f' | .error _ f' => f'.stack = f.stack ∧ f'.store = f.store

/-- The host touches no value of the calling frame, whether it grants what is asked or refuses. -/
structure FiberControl.LeavesValues (host : FiberControl) : Prop where
  start : ∀ (func : Value) (f : FrameState), f.KeptBy (host.start func f)
  stop : ∀ (id : Int) (f : FrameState), f.KeptBy (host.stop id f)

/-- A host that only answers sees no values. -/
theorem FiberHost.leavesValues (host : FiberHost) : host.control.LeavesValues where
  start func f := by cases h : host.start f.fibers func <;> simp [control, FrameState.KeptBy, h]
  stop id f := by cases h : host.stop f.fibers id <;> simp [control, FrameState.KeptBy, h]

/-! ### The table -/

/-- The methods of array and map classes, and the functions that steer fibers. -/
inductive HostMethod where
  | arrayAdd (a : ArrayStorage)
  | arrayAddInplace (a : ArrayStorage)
  | arrayAt (a : ArrayStorage)
  | arraySetAt (a : ArrayStorage)
  | arrayRemoveAt (a : ArrayStorage)
  | arrayClear (a : ArrayStorage)
  | mapAdd
  | mapRemove
  | mapContains
  | mapTryGet
  | mapClear
  | start
  | stop

namespace HostMethod

/-- The host function behind a method. -/
def body : HostMethod → HostFunc
  | arrayAdd a => Host.Array.add a
  | arrayAddInplace a => Host.Array.addInplace a
  | arrayAt a => Host.Array.at_ a
  | arraySetAt a => Host.Array.setAt a
  | arrayRemoveAt a => Host.Array.removeAt a
  | arrayClear a => Host.Array.clear a
  | mapAdd => Host.Map.add
  | mapRemove => Host.Map.remove
  | mapContains => Host.Map.contains
  | mapTryGet => Host.Map.tryGet
  | mapClear => Host.Map.clear
  | start => Host.Fiber.start
  | stop => Host.Fiber.stop

/-- The number of operands. -/
def arity : HostMethod → Nat
  | arraySetAt _ | mapAdd => 3
  | arrayAdd _ | arrayAddInplace _ | arrayAt _ | arrayRemoveAt _ => 2
  | mapRemove | mapContains | mapTryGet => 2
  | arrayClear _ | mapClear | start | stop => 1

/-- The method hands its operand to the host. -/
def asksHost : HostMethod → Bool
  | start | stop => true
  | _ => false

/-- The stack effect of a call that succeeds: the operands it takes and the results it leaves, each
with the top of the stack first. -/
inductive Effect (f : Frame) : HostMethod → List Value → List Value → Prop
  | arrayAdd {a : ArrayStorage} {item array : Value} : Effect f (.arrayAdd a) [item, array] []
  | arrayAddInplace {a : ArrayStorage} {item array : Value} :
      Effect f (.arrayAddInplace a) [item, array] [array]
  | arrayAt {a : ArrayStorage} {index array : Value} {i : Int} {xs : List a.Item} {x : a.Item}
      (hindex : index.asIndex = .ok i) (hitems : a.contents? f.store array = some xs)
      (hpos : 0 ≤ i) (hitem : xs[i.toNat]? = some x) :
      Effect f (.arrayAt a) [index, array] [a.ofItem x]
  | arraySetAt {a : ArrayStorage} {index array item : Value} :
      Effect f (.arraySetAt a) [index, array, item] []
  | arrayRemoveAt {a : ArrayStorage} {index array : Value} :
      Effect f (.arrayRemoveAt a) [index, array] []
  | arrayClear {a : ArrayStorage} {array : Value} : Effect f (.arrayClear a) [array] []
  | mapAdd {value key map : Value} : Effect f .mapAdd [value, key, map] []
  | mapRemove {key map : Value} : Effect f .mapRemove [key, map] []
  | mapContains {key : Value} {k : Key} {m : MapId} (hkey : Key.ofValue key = .ok k) :
      Effect f .mapContains [key, .map m] [.bool ((f.store.mapEntries m).contains k)]
  | mapTryGet {key : Value} {k : Key} {m : MapId} (hkey : Key.ofValue key = .ok k) :
      Effect f .mapTryGet [key, .map m]
        [.bool ((f.store.mapEntries m).contains k), ((f.store.mapEntries m).find? k).getD .null]
  | mapClear {map : Value} : Effect f .mapClear [map] []
  | start {func : Value} {id : Int} {left : FrameState}
      (hid : f.fiberHost.start func (f.taken 1).toFrameState = .ok id left) :
      Effect f .start [func] [.num (.ofInt id)]
  | stop {id : Value} : Effect f .stop [id] []

/-- The table lists as many operands as the method has. -/
theorem Effect.length_operands {f : Frame} {m : HostMethod} {operands results : List Value}
    (h : m.Effect f operands results) : operands.length = m.arity := by
  cases h <;> rfl

/-- The item that a method is to store, and the storage it is for. -/
def item? (stack : List Value) : HostMethod → Option (ArrayStorage × Value)
  | arrayAdd a | arrayAddInplace a => stack[0]?.map (a, ·)
  | arraySetAt a => stack[2]?.map (a, ·)
  | _ => none

end HostMethod

/-! ### Computations that take their operands first -/

namespace HostM

variable {α β : Type} {f : Frame} {k n : Nat} {post : β → Frame → Prop}

/-- A run that ends well as the postcondition says, or fails when at most `k` values are taken and
the store is as it was. -/
def Keeps (f : Frame) (k : Nat) (post : β → Frame → Prop) :
    EStateM.Result RuntimeError Frame β → Prop
  | .ok b f' => post b f'
  | .error _ f' => ∃ n ≤ k, f'.stack = f.stack.drop n ∧ f'.store = f.store

/-- Takes the top value, or fails on an empty stack. -/
theorem keeps_pop {go : Value → HostM β} (hn : n ≤ k)
    (hgo : ∀ v, f.stack.drop n = v :: f.stack.drop (n + 1) →
      Keeps f k post (go v (f.taken (n + 1)))) :
    Keeps f k post ((pop >>= go) (f.taken n)) := by
  cases hstack : f.stack.drop n with
  | nil =>
    -- An underflow takes nothing, so what was taken before is all that is gone.
    have hrun : pop (f.taken n) = .error .stackUnderflow (f.taken n) := by
      simp [pop, Frame.taken, hstack]
    rw [bind_apply, hrun]
    exact ⟨n, hn, rfl, rfl⟩
  | cons v rest =>
    have hrest : rest = f.stack.drop (n + 1) := by
      rw [← List.drop_drop, hstack]
      rfl
    have hrun : pop (f.taken n) = .ok v (f.taken (n + 1)) := by
      simp [pop, Frame.taken, hstack, hrest]
    rw [bind_apply, hrun]
    exact hgo v (hrest ▸ hstack)

/-- Converts an operand. -/
theorem keeps_need {x : Except RuntimeError α} {go : α → HostM β} (hn : n ≤ k)
    (hgo : ∀ a, x = .ok a → Keeps f k post (go a (f.taken n))) :
    Keeps f k post ((need x >>= go) (f.taken n)) := by
  cases x with
  | error e => exact ⟨n, hn, rfl, rfl⟩
  | ok a => exact hgo a rfl

/-- Looks at a value further down. -/
theorem keeps_peekAt {depth : Nat} {go : Value → HostM β} (hn : n ≤ k)
    (hgo : ∀ v, (f.stack.drop n)[depth]? = some v → Keeps f k post (go v (f.taken n))) :
    Keeps f k post ((peekAt depth >>= go) (f.taken n)) := by
  rw [bind_apply, peekAt]
  cases hstack : (f.taken n).stack[depth]? with
  | none => exact ⟨n, hn, rfl, rfl⟩
  | some v => exact hgo v hstack

/-- Asks the store. -/
theorem keeps_query {read : Store → Except RuntimeError α} {go : α → HostM β} (hn : n ≤ k)
    (hgo : ∀ a, read f.store = .ok a → Keeps f k post (go a (f.taken n))) :
    Keeps f k post ((query read >>= go) (f.taken n)) := by
  cases hread : read f.store with
  | error e =>
    -- The store of the frame is not touched by taking operands.
    have hrun : query read (f.taken n) = .error e (f.taken n) := by
      simp [Frame.taken, hread]
    rw [bind_apply, hrun]
    exact ⟨n, hn, rfl, rfl⟩
  | ok a =>
    have hrun : query read (f.taken n) = .ok a (f.taken n) := by
      simp [Frame.taken, hread]
    rw [bind_apply, hrun]
    exact hgo a hread

/-- The last step of a call that changes an object. -/
theorem keeps_update {write : Store → Except RuntimeError Store} {go : Unit → HostM β} (hn : n ≤ k)
    (hgo : ∀ s, Keeps f k post (go () { f.taken n with store := s })) :
    Keeps f k post ((update write >>= go) (f.taken n)) := by
  rw [bind_apply, update_apply]
  cases write (f.taken n).store with
  | error e => exact ⟨n, hn, rfl, rfl⟩
  | ok s => exact hgo s

/-- The host starts a fiber, and what is left of the stack and the store stay. -/
theorem keeps_startFiber (hhost : f.fiberHost.LeavesValues) {func : Value} {go : Int → HostM β}
    (hn : n ≤ k)
    (hgo : ∀ id left, f.fiberHost.start func (f.taken n).toFrameState = .ok id left →
      left.stack = f.stack.drop n → Keeps f k post (go id { f with toFrameState := left })) :
    Keeps f k post ((startFiber func >>= go) (f.taken n)) := by
  -- The host answers for its own part of the frame.
  have hkept := hhost.start func (f.taken n).toFrameState
  have hrun : startFiber func (f.taken n) = onState (f.fiberHost.start func) (f.taken n) := rfl
  rw [bind_apply, hrun, onState]
  cases hid : f.fiberHost.start func (f.taken n).toFrameState with
  | error e left =>
    rw [hid] at hkept
    exact ⟨n, hn, hkept⟩
  | ok id left =>
    rw [hid] at hkept
    exact hgo id left hid hkept.1

/-- The host stops a fiber, and what is left of the stack and the store stay. -/
theorem keeps_stopFiber (hhost : f.fiberHost.LeavesValues) {id : Int} {go : Unit → HostM β}
    (hn : n ≤ k)
    (hgo : ∀ left : FrameState, left.stack = f.stack.drop n →
      Keeps f k post (go () { f with toFrameState := left })) :
    Keeps f k post ((stopFiber id >>= go) (f.taken n)) := by
  have hkept := hhost.stop id (f.taken n).toFrameState
  have hrun : stopFiber id (f.taken n) = onState (f.fiberHost.stop id) (f.taken n) := rfl
  rw [bind_apply, hrun, onState]
  cases hid : f.fiberHost.stop id (f.taken n).toFrameState with
  | error e left =>
    rw [hid] at hkept
    exact ⟨n, hn, hkept⟩
  | ok _ left =>
    rw [hid] at hkept
    exact hgo left hkept.1

end HostM

/-! ### The methods, one by one -/

namespace ArrayStorage

/-- An array that gives an item has it. -/
theorem at_eq_ok {a : ArrayStorage} {s : Store} {array v : Value} {index : Int}
    (h : a.at_ s array index = .ok v) :
    ∃ xs x, a.contents? s array = some xs ∧ 0 ≤ index ∧ xs[index.toNat]? = some x ∧
      v = a.ofItem x := by
  have hcontents : ∃ xs, a.contents? s array = some xs := by
    cases a with
    | generic =>
      cases array with
      | list l =>
        cases hl : s.lists[l.index]? with
        | some items => exact ⟨items.toList, by simp [contents?, hl]⟩
        | none =>
          -- A list that the store does not have reads as empty, and has no position to read.
          have hout : ¬(0 ≤ index ∧ index < 0) := by omega
          simp [at_, Value.asList, Store.listItems, hl, checkIndex, hout] at h
      | _ => cases h
    | typed k =>
      cases array with
      | host b =>
        cases hb : s.bufferItems? b k with
        | some items => exact ⟨items.toList, by simp [contents?, hb]⟩
        | none => simp [at_, bufferOf, Value.asHost, hb] at h
      | _ => cases h
  obtain ⟨xs, hxs⟩ := hcontents
  rw [at_eq hxs] at h
  by_cases hmem : 0 ≤ index ∧ index < xs.length
  · have hlt : index.toNat < xs.length := by omega
    simp [checkIndex, hmem, hlt] at h
    exact ⟨xs, xs[index.toNat], hxs, hmem.1, by simp [hlt], h.symm⟩
  · simp [checkIndex, hmem] at h

end ArrayStorage

namespace HostMethod

open HostM

variable {a : ArrayStorage} {f : Frame} (args : CallArgs)

/-- How a call ends that succeeds. -/
def Done (m : HostMethod) (f : Frame) (status : CallStatus) (f' : Frame) : Prop :=
  status = .done ∧ ∃ operands results below, f.stack = operands ++ below ∧
    m.Effect f operands results ∧ f'.stack = results ++ below

/-- The first value of what is left on the stack. -/
theorem drop_eq_cons {l : List Value} {n : Nat} {v : Value} (h : (l.drop n)[0]? = some v) :
    l.drop n = v :: l.drop (n + 1) := by
  rw [List.getElem?_drop, Nat.add_zero] at h
  obtain ⟨hlt, hv⟩ := List.getElem?_eq_some_iff.mp h
  rw [List.drop_eq_getElem_cons hlt, hv]

/-- `add` takes the item and the array. -/
theorem keeps_arrayAdd : Keeps f 2 (Done (.arrayAdd a) f) (Host.Array.add a args (f.taken 0)) := by
  -- The item is looked at first, and taken only if the storage accepts it.
  refine keeps_peekAt (by omega) fun _ _ => keeps_need (by omega) fun _ _ => ?_
  refine keeps_pop (by omega) fun item hitem => keeps_pop (by omega) fun array harray => ?_
  refine keeps_update (by omega) fun s => ?_
  have hstack : f.stack = item :: array :: f.stack.drop 2 := hitem.trans (congrArg _ harray)
  exact ⟨rfl, _, _, _, hstack, .arrayAdd, rfl⟩

/-- `addInplace` takes the item and leaves the array. -/
theorem keeps_arrayAddInplace :
    Keeps f 2 (Done (.arrayAddInplace a) f) (Host.Array.addInplace a args (f.taken 0)) := by
  refine keeps_peekAt (by omega) fun _ _ => keeps_need (by omega) fun _ _ => ?_
  -- The array stays where it is, so it is the result.
  refine keeps_pop (by omega) fun item hitem => keeps_peekAt (by omega) fun array harray => ?_
  refine keeps_update (by omega) fun s => ?_
  have hrest := drop_eq_cons harray
  have hstack : f.stack = item :: array :: f.stack.drop 2 := hitem.trans (congrArg _ hrest)
  exact ⟨rfl, _, _, _, hstack, .arrayAddInplace, hrest⟩

/-- `at` takes the index and the array and leaves the item. -/
theorem keeps_arrayAt : Keeps f 2 (Done (.arrayAt a) f) (Host.Array.at_ a args (f.taken 0)) := by
  refine keeps_pop (by omega) fun index hindex => keeps_need (by omega) fun i hi => ?_
  refine keeps_pop (by omega) fun array harray => keeps_query (by omega) fun v hv => ?_
  -- Once the item is read, nothing is left that can fail.
  obtain ⟨xs, x, hxs, hpos, hx, rfl⟩ := ArrayStorage.at_eq_ok hv
  have hstack : f.stack = index :: array :: f.stack.drop 2 := hindex.trans (congrArg _ harray)
  exact ⟨rfl, _, _, _, hstack, .arrayAt hi hxs hpos hx, rfl⟩

/-- `setAt` takes the index, the array and the item. -/
theorem keeps_arraySetAt :
    Keeps f 3 (Done (.arraySetAt a) f) (Host.Array.setAt a args (f.taken 0)) := by
  refine keeps_peekAt (by omega) fun _ _ => keeps_need (by omega) fun _ _ => ?_
  -- The item lies lowest of the three and was looked at before anything is taken.
  refine keeps_pop (by omega) fun index hindex => keeps_need (by omega) fun i _ => ?_
  refine keeps_pop (by omega) fun array harray => keeps_pop (by omega) fun item hitem => ?_
  refine keeps_update (by omega) fun s => ?_
  have hstack : f.stack = index :: array :: item :: f.stack.drop 3 :=
    hindex.trans (congrArg _ (harray.trans (congrArg _ hitem)))
  exact ⟨rfl, _, _, _, hstack, .arraySetAt, rfl⟩

/-- `removeAt` takes the index and the array. -/
theorem keeps_arrayRemoveAt :
    Keeps f 2 (Done (.arrayRemoveAt a) f) (Host.Array.removeAt a args (f.taken 0)) := by
  refine keeps_pop (by omega) fun index hindex => keeps_need (by omega) fun i _ => ?_
  refine keeps_pop (by omega) fun array harray => keeps_update (by omega) fun s => ?_
  have hstack : f.stack = index :: array :: f.stack.drop 2 := hindex.trans (congrArg _ harray)
  exact ⟨rfl, _, _, _, hstack, .arrayRemoveAt, rfl⟩

/-- `clear` takes the array. -/
theorem keeps_arrayClear :
    Keeps f 1 (Done (.arrayClear a) f) (Host.Array.clear a args (f.taken 0)) := by
  refine keeps_pop (by omega) fun array harray => keeps_update (by omega) fun s => ?_
  have hstack : f.stack = array :: f.stack.drop 1 := harray
  exact ⟨rfl, _, _, _, hstack, .arrayClear, rfl⟩

/-- `add` takes the value, the key and the map. -/
theorem keeps_mapAdd : Keeps f 3 (Done .mapAdd f) (Host.Map.add args (f.taken 0)) := by
  refine keeps_pop (by omega) fun value hvalue => keeps_pop (by omega) fun key hkey => ?_
  refine keeps_need (by omega) fun k _ => keeps_pop (by omega) fun map hmap => ?_
  refine keeps_update (by omega) fun s => ?_
  have hstack : f.stack = value :: key :: map :: f.stack.drop 3 :=
    hvalue.trans (congrArg _ (hkey.trans (congrArg _ hmap)))
  exact ⟨rfl, _, _, _, hstack, .mapAdd, rfl⟩

/-- `remove` takes the key and the map. -/
theorem keeps_mapRemove : Keeps f 2 (Done .mapRemove f) (Host.Map.remove args (f.taken 0)) := by
  refine keeps_pop (by omega) fun key hkey => keeps_need (by omega) fun k _ => ?_
  refine keeps_pop (by omega) fun map hmap => keeps_update (by omega) fun s => ?_
  have hstack : f.stack = key :: map :: f.stack.drop 2 := hkey.trans (congrArg _ hmap)
  exact ⟨rfl, _, _, _, hstack, .mapRemove, rfl⟩

/-- Entries are those of a map. -/
theorem entriesOf_eq_ok {s : Store} {map : Value} {m : MapId} {entries : Assoc Key Value}
    (h : Host.Map.entriesOf s map = .ok (m, entries)) :
    map = .map m ∧ entries = s.mapEntries m := by
  cases map with
  | map m =>
    cases h
    exact ⟨rfl, rfl⟩
  | _ => cases h

/-- `contains` takes the key and the map and leaves the answer. -/
theorem keeps_mapContains :
    Keeps f 2 (Done .mapContains f) (Host.Map.contains args (f.taken 0)) := by
  refine keeps_pop (by omega) fun key hkey => keeps_need (by omega) fun k hk => ?_
  refine keeps_pop (by omega) fun map hmap => keeps_query (by omega) fun x hx => ?_
  obtain ⟨m, entries⟩ := x
  obtain ⟨rfl, rfl⟩ := entriesOf_eq_ok hx
  have hstack : f.stack = key :: .map m :: f.stack.drop 2 := hkey.trans (congrArg _ hmap)
  exact ⟨rfl, _, _, _, hstack, .mapContains hk, rfl⟩

/-- `tryGet` takes the key and the map and leaves the answer above the value. -/
theorem keeps_mapTryGet : Keeps f 2 (Done .mapTryGet f) (Host.Map.tryGet args (f.taken 0)) := by
  refine keeps_pop (by omega) fun key hkey => keeps_need (by omega) fun k hk => ?_
  refine keeps_pop (by omega) fun map hmap => keeps_query (by omega) fun x hx => ?_
  obtain ⟨m, entries⟩ := x
  obtain ⟨rfl, rfl⟩ := entriesOf_eq_ok hx
  have hstack : f.stack = key :: .map m :: f.stack.drop 2 := hkey.trans (congrArg _ hmap)
  exact ⟨rfl, _, _, _, hstack, .mapTryGet hk, rfl⟩

/-- `clear` takes the map. -/
theorem keeps_mapClear : Keeps f 1 (Done .mapClear f) (Host.Map.clear args (f.taken 0)) := by
  refine keeps_pop (by omega) fun map hmap => keeps_update (by omega) fun s => ?_
  have hstack : f.stack = map :: f.stack.drop 1 := hmap
  exact ⟨rfl, _, _, _, hstack, .mapClear, rfl⟩

/-- `start` takes the function and leaves the id that the host gives. -/
theorem keeps_start (hhost : f.fiberHost.LeavesValues) :
    Keeps f 1 (Done .start f) (Host.Fiber.start args (f.taken 0)) := by
  refine keeps_pop (by omega) fun func hfunc => ?_
  -- What the host does with the frame comes after the operand was taken.
  refine keeps_startFiber hhost (by omega) fun id left hid hleft => ?_
  have hstack : f.stack = func :: f.stack.drop 1 := hfunc
  exact ⟨rfl, _, _, _, hstack, .start hid, congrArg _ hleft⟩

/-- `stop` takes the id. -/
theorem keeps_stop (hhost : f.fiberHost.LeavesValues) :
    Keeps f 1 (Done .stop f) (Host.Fiber.stop args (f.taken 0)) := by
  refine keeps_pop (by omega) fun id hid => keeps_need (by omega) fun i _ => ?_
  refine keeps_stopFiber hhost (by omega) fun left hleft => ?_
  have hstack : f.stack = id :: f.stack.drop 1 := hid
  exact ⟨rfl, _, _, _, hstack, .stop, hleft⟩

/-- All methods together. -/
theorem keeps_body (m : HostMethod) (args : CallArgs) (f : Frame)
    (hhost : m.asksHost = true → f.fiberHost.LeavesValues) :
    Keeps f m.arity (m.Done f) (m.body args f) := by
  cases m with
  | arrayAdd a => exact keeps_arrayAdd args
  | arrayAddInplace a => exact keeps_arrayAddInplace args
  | arrayAt a => exact keeps_arrayAt args
  | arraySetAt a => exact keeps_arraySetAt args
  | arrayRemoveAt a => exact keeps_arrayRemoveAt args
  | arrayClear a => exact keeps_arrayClear args
  | mapAdd => exact keeps_mapAdd args
  | mapRemove => exact keeps_mapRemove args
  | mapContains => exact keeps_mapContains args
  | mapTryGet => exact keeps_mapTryGet args
  | mapClear => exact keeps_mapClear args
  | start => exact keeps_start args (hhost rfl)
  | stop => exact keeps_stop args (hhost rfl)

/-- An item that does not fit is refused before any operand is taken. -/
theorem body_of_rejected {m : HostMethod} {item : Value} {e : RuntimeError}
    (hitem : m.item? f.stack = some (a, item)) (he : a.accepts item = .error e) :
    m.body args f = .error e f := by
  cases m with
  | arrayAdd a' =>
    obtain ⟨v, hv, heq⟩ := Option.map_eq_some_iff.mp hitem
    cases heq
    simp [body, Host.Array.add, peek, peekAt, hv, he]
  | arrayAddInplace a' =>
    obtain ⟨v, hv, heq⟩ := Option.map_eq_some_iff.mp hitem
    cases heq
    simp [body, Host.Array.addInplace, peek, peekAt, hv, he]
  | arraySetAt a' =>
    obtain ⟨v, hv, heq⟩ := Option.map_eq_some_iff.mp hitem
    cases heq
    simp [body, Host.Array.setAt, peekAt, hv, he]
  | _ => cases hitem

end HostMethod

/-- The stack discipline of host methods, on every stack. `start` and `stop` need a host that leaves
the values of the frame alone.

* A call that succeeds takes its operands, leaves what is below them and puts its results on top.
* A call that fails has taken some of its operands, and no list, map or buffer has changed.
* An item that the storage of an array does not accept is refused with the frame as it was. -/
theorem host_method_stack_effect (m : HostMethod) (args : CallArgs) (f : Frame)
    (hhost : m.asksHost = true → f.fiberHost.LeavesValues) :
    (∀ status f', m.body args f = .ok status f' →
      status = .done ∧ ∃ operands results below, f.stack = operands ++ below ∧
        operands.length = m.arity ∧ m.Effect f operands results ∧ f'.stack = results ++ below) ∧
    (∀ e f', m.body args f = .error e f' →
      (∃ n ≤ m.arity, f'.stack = f.stack.drop n) ∧ f'.store = f.store) ∧
    ∀ a item e, m.item? f.stack = some (a, item) → a.accepts item = .error e →
      m.body args f = .error e f := by
  -- Both outcomes are read off the one fact about the body.
  have hkeeps := m.keeps_body args f hhost
  refine ⟨?_, ?_, fun a item e hitem he => HostMethod.body_of_rejected args hitem he⟩
  · intro status f' hrun
    rw [hrun] at hkeeps
    obtain ⟨hstatus, operands, results, below, hstack, heffect, hleft⟩ := hkeeps
    exact ⟨hstatus, operands, results, below, hstack, heffect.length_operands, heffect, hleft⟩
  · intro e f' hrun
    rw [hrun] at hkeeps
    obtain ⟨n, hn, hstack, hstore⟩ := hkeeps
    exact ⟨⟨n, hn, hstack⟩, hstore⟩

/-- A host that numbers its fibers from 1 and stops none. -/
def countingHost : FiberHost where
  start log _ := .ok (log.started.length + 1)
  stop _ _ := .error (.unsupported "stop")

/-- A stack on which a value and an array of one flag stand above null. -/
def flagFrame (top : Value) : Frame where
  store := { buffers := #[⟨.bool, #[true]⟩] }
  stack := [top, .host ⟨0⟩, .null]
  fiberHost := countingHost

/-- A flag is added and leaves the array, position 1 does not exist, and a string is refused. A
fiber is started and gets number 1, and none can be stopped. -/
theorem host_method_stack_effect_flagFrame :
    (∃ status f', (HostMethod.arrayAddInplace (.typed .bool)).body { count := 1 }
        (flagFrame (.bool false)) = .ok status f' ∧
      status = .done ∧ ∃ operands results below,
        (flagFrame (.bool false)).stack = operands ++ below ∧ operands.length = 2 ∧
        HostMethod.Effect (flagFrame (.bool false)) (.arrayAddInplace (.typed .bool)) operands
          results ∧ f'.stack = results ++ below) ∧
    (∃ e f', (HostMethod.arrayAt (.typed .bool)).body { count := 1 }
        (flagFrame (.num (.ofInt 1))) = .error e f' ∧
      (∃ n ≤ 2, f'.stack = (flagFrame (.num (.ofInt 1))).stack.drop n) ∧
      f'.store = (flagFrame (.num (.ofInt 1))).store) ∧
    HostMethod.item? (flagFrame (.str "x")).stack (.arrayAdd (.typed .bool))
      = some (.typed .bool, .str "x") ∧
    (HostMethod.arrayAdd (.typed .bool)).body { count := 1 } (flagFrame (.str "x"))
      = .error (.typeMismatch "bool" "string") (flagFrame (.str "x")) ∧
    (flagFrame .null).fiberHost.LeavesValues ∧
    (∃ status f', HostMethod.start.body { count := 1 } (flagFrame .null) = .ok status f' ∧
      f'.stack = [.num (.ofInt 1), .host ⟨0⟩, .null] ∧
      status = .done ∧ ∃ operands results below,
        (flagFrame .null).stack = operands ++ below ∧ operands.length = 1 ∧
        HostMethod.Effect (flagFrame .null) .start operands results ∧
        f'.stack = results ++ below) ∧
    ∃ e f', HostMethod.stop.body { count := 1 } (flagFrame (.num (.ofInt 1))) = .error e f' ∧
      (∃ n ≤ 1, f'.stack = (flagFrame (.num (.ofInt 1))).stack.drop n) ∧
      f'.store = (flagFrame (.num (.ofInt 1))).store := by
  -- A success, a failure, a rejected item, and a fiber that is started and one that is not there to
  -- stop.
  refine ⟨?_, ?_, rfl, ?_, countingHost.leavesValues, ?_, ?_⟩
  · obtain ⟨hdone, -⟩ := host_method_stack_effect (.arrayAddInplace (.typed .bool)) { count := 1 }
      (flagFrame (.bool false)) (fun _ => countingHost.leavesValues)
    exact ⟨_, _, rfl, hdone _ _ rfl⟩
  · obtain ⟨-, hfailed, -⟩ := host_method_stack_effect (.arrayAt (.typed .bool)) { count := 1 }
      (flagFrame (.num (.ofInt 1))) (fun _ => countingHost.leavesValues)
    exact ⟨_, _, rfl, hfailed _ _ rfl⟩
  · obtain ⟨-, -, hrejected⟩ := host_method_stack_effect (.arrayAdd (.typed .bool)) { count := 1 }
      (flagFrame (.str "x")) (fun _ => countingHost.leavesValues)
    exact hrejected _ _ _ rfl rfl
  · obtain ⟨hdone, -⟩ := host_method_stack_effect .start { count := 1 } (flagFrame .null)
      (fun _ => countingHost.leavesValues)
    exact ⟨_, _, rfl, rfl, hdone _ _ rfl⟩
  · obtain ⟨-, hfailed, -⟩ := host_method_stack_effect .stop { count := 1 }
      (flagFrame (.num (.ofInt 1))) (fun _ => countingHost.leavesValues)
    exact ⟨_, _, rfl, hfailed _ _ rfl⟩

end Sema

import Mathlib.Data.List.Forall2
import Sema.Frame

/-!
# `Sema.Proofs.HostCalls`: the calls on one object, one after the other

Whoever uses an array or a map lays out a stack, calls a method and sees how the call ended and what
stack it left; in between the number of items can be read. `Use` is one such step and `Reply` is
what it shows. The stack below the operands is part of the step, so a caller may do with the results
of one call whatever it likes before the next.

`HostM.EndsAs` follows a call from step to step: it takes its operands, converts them, and asks the
store or changes it.

The same steps can be made on a plain value, a list of items say, by a rule that knows nothing of
frames and stores. `replay` makes a sequence of steps either way, and `replay_forall₂` takes what
relates the two from one step to all of them.
-/

set_option autoImplicit false

namespace Sema

/-! ### Computations in a frame -/

namespace RuntimeError

variable {α β : Type}

/-- A success is passed on. -/
@[simp]
theorem ok_bind (a : α) (k : α → Except RuntimeError β) : (Except.ok a >>= k) = k a := rfl

/-- A failure ends the computation. -/
@[simp]
theorem error_bind (e : RuntimeError) (k : α → Except RuntimeError β) :
    (Except.error e >>= k) = .error e := rfl

end RuntimeError

namespace HostM

variable {α β : Type}

/-- One computation after another. -/
@[simp]
theorem bind_apply (m : HostM α) (k : α → HostM β) (f : Frame) :
    (m >>= k) f = match m f with
      | .ok a f' => k a f'
      | .error e f' => .error e f' := by
  show EStateM.bind m k f = _
  rw [EStateM.bind]
  cases m f <;> rfl

/-- A requirement passes a value on, or ends the call. -/
@[simp]
theorem need_apply (x : Except RuntimeError α) (f : Frame) :
    need x f = match x with
      | .ok a => .ok a f
      | .error e => .error e f := rfl

/-- A query reads the store. -/
@[simp]
theorem query_apply (read : Store → Except RuntimeError α) (f : Frame) :
    query read f = match read f.store with
      | .ok a => .ok a f
      | .error e => .error e f := rfl

/-- An update changes the store, and nothing when it fails. -/
@[simp]
theorem update_apply (write : Store → Except RuntimeError Store) (f : Frame) :
    update write f = match write f.store with
      | .ok s => .ok () { f with store := s }
      | .error e => .error e f := rfl

end HostM

/-! ### One step -/

/-- What a step shows: how a call ended and the stack it left, or what a field holds. -/
inductive Reply where
  | called (result : Except RuntimeError CallStatus) (stack : List Value)
  | read (value : Except RuntimeError Value)
  deriving DecidableEq

/-- What went wrong, if something did. -/
def Reply.error? : Reply → Option RuntimeError
  | called (.error e) _ | read (.error e) => some e
  | _ => none

/-- Calls a host function on a stack that its caller has laid out. -/
def HostFunc.reply (body : HostFunc) (args : CallArgs) (stack : List Value) (f : Frame) :
    Reply × Frame :=
  match body args { f with stack } with
  | .ok status f' => (.called (.ok status) f'.stack, f')
  | .error e f' => (.called (.error e) f'.stack, f')

/-- The call shows what a step on a plain value shows, and leaves a store that holds the value after
that step. -/
def HostFunc.Does {σ : Type} (body : HostFunc) (args : CallArgs) (stack : List Value) (f : Frame)
    (holds : Store → σ → Prop) (plain : Reply × σ) : Prop :=
  let real := body.reply args stack f
  real.1 = plain.1 ∧ holds real.2.store plain.2

/-! ### The steps of a call -/

namespace HostM

variable {α σ : Type} {holds : Store → σ → Prop} {plain : Reply × σ} {y : σ} {f : Frame}
  {e : RuntimeError}

/-- What is left of a call shows what a step on a plain value shows, and leaves a store that holds
the value after that step. -/
def EndsAs (m : HostM CallStatus) (f : Frame) (holds : Store → σ → Prop) (plain : Reply × σ) :
    Prop :=
  match m f with
  | .ok status f' => .called (.ok status) f'.stack = plain.1 ∧ holds f'.store plain.2
  | .error e f' => .called (.error e) f'.stack = plain.1 ∧ holds f'.store plain.2

/-- A call is all of it. -/
theorem EndsAs.does {body : HostFunc} {args : CallArgs} {stack : List Value}
    (h : EndsAs (body args) { f with stack } holds plain) : body.Does args stack f holds plain := by
  unfold EndsAs at h
  unfold HostFunc.Does HostFunc.reply
  cases hrun : body args { f with stack } with
  | ok status f' => simpa [hrun] using h
  | error e f' => simpa [hrun] using h

section Operands

variable {s : Store} {v : Value} {stack : List Value} {log : FiberLog} {host : FiberControl}
  {go : Value → HostM CallStatus}

/-- The top value is taken. -/
theorem endsAs_pop (h : EndsAs (go v) ⟨⟨s, stack, log⟩, host⟩ holds plain) :
    EndsAs (pop >>= go) ⟨⟨s, v :: stack, log⟩, host⟩ holds plain :=
  h

/-- The top value is looked at. -/
theorem endsAs_peek (h : EndsAs (go v) ⟨⟨s, v :: stack, log⟩, host⟩ holds plain) :
    EndsAs (peek >>= go) ⟨⟨s, v :: stack, log⟩, host⟩ holds plain :=
  h

end Operands

section Fallible

variable {x : Except RuntimeError α} {a : α} {go : α → HostM CallStatus}

/-- An operand is converted. -/
theorem endsAs_need_ok (hx : x = .ok a) (h : EndsAs (go a) f holds plain) :
    EndsAs (need x >>= go) f holds plain := by
  rw [hx]
  exact h

/-- An operand does not convert: what was taken before is gone, and that is all. -/
theorem endsAs_need_error (hx : x = .error e) (h : holds f.store y) :
    EndsAs (need x >>= go) f holds (.called (.error e) f.stack, y) := by
  rw [hx]
  exact ⟨rfl, h⟩

variable {read : Store → Except RuntimeError α}

/-- The store gives what is asked for. -/
theorem endsAs_query_ok (hread : read f.store = .ok a) (h : EndsAs (go a) f holds plain) :
    EndsAs (query read >>= go) f holds plain := by
  rw [EndsAs, bind_apply, query_apply, hread]
  exact h

/-- The store does not have what is asked for. -/
theorem endsAs_query_error (hread : read f.store = .error e) (h : holds f.store y) :
    EndsAs (query read >>= go) f holds (.called (.error e) f.stack, y) := by
  rw [EndsAs, bind_apply, query_apply, hread]
  exact ⟨rfl, h⟩

end Fallible

section Change

variable {write : Store → Except RuntimeError Store} {s' : Store} {status : CallStatus}

/-- The last step of a call changes the store. -/
theorem endsAs_update_ok (hwrite : write f.store = .ok s') (h : holds s' y) :
    EndsAs (update write >>= fun _ => pure status) f holds (.called (.ok status) f.stack, y) := by
  rw [EndsAs, bind_apply, update_apply, hwrite]
  exact ⟨rfl, h⟩

/-- The last step of a call is refused. -/
theorem endsAs_update_error (hwrite : write f.store = .error e) (h : holds f.store y) :
    EndsAs (update write >>= fun _ => pure status) f holds (.called (.error e) f.stack, y) := by
  rw [EndsAs, bind_apply, update_apply, hwrite]
  exact ⟨rfl, h⟩

end Change

end HostM

/-- One use of an object whose methods are called as `κ` says: a call, with what the stack holds
below the operands, or a look at the number of items. -/
inductive Use (κ : Type) where
  | call (call : κ) (args : CallArgs) (below : List Value)
  | count

namespace Use

variable {κ σ : Type}

/-- A step on an object of the store. -/
def onFrame (body : κ → HostFunc) (stack : κ → List Value → List Value) (field : Accessor)
    (object : Value) (f : Frame) : Use κ → Reply × Frame
  | .call c args below => (body c).reply args (stack c below) f
  | .count => (.read (field.get f.store object), f)

/-- The same step on a plain value, by a rule for calls. -/
def onPlain (rule : κ → List Value → σ → Reply × σ) (size : σ → Nat) (x : σ) : Use κ → Reply × σ
  | .call c _ below => rule c below x
  | .count => (.read (.ok (.num (.ofNat (size x)))), x)

end Use

/-! ### All steps -/

section Replay

variable {σ τ γ δ ρ ρ' : Type}

/-- The replies to a sequence of steps, and the state after the last one. -/
def replay (step : σ → γ → ρ × σ) : σ → List γ → List ρ × σ
  | s, [] => ([], s)
  | s, c :: cs =>
    let rest := replay step (step s c).2 cs
    ((step s c).1 :: rest.1, rest.2)

/-- Two machines whose steps correspond give corresponding replies for good. -/
theorem replay_forall₂ {R : σ → τ → Prop} {C : γ → δ → Prop} {Q : ρ → ρ' → Prop}
    {step : σ → γ → ρ × σ} {step' : τ → δ → ρ' × τ}
    (hstep : ∀ s t c d, R s t → C c d →
      Q (step s c).1 (step' t d).1 ∧ R (step s c).2 (step' t d).2)
    {cs : List γ} {ds : List δ} (hcs : List.Forall₂ C cs ds) :
    ∀ {s : σ} {t : τ}, R s t →
      List.Forall₂ Q (replay step s cs).1 (replay step' t ds).1 ∧
      R (replay step s cs).2 (replay step' t ds).2 := by
  -- The states differ from step to step, so the relation of the first two is left open.
  induction hcs with
  | nil =>
    intro s t h
    exact ⟨.nil, h⟩
  | cons hc _ ih =>
    intro s t h
    obtain ⟨hreply, hnext⟩ := hstep _ _ _ _ h hc
    obtain ⟨hrest, hlast⟩ := ih hnext
    exact ⟨.cons hreply hrest, hlast⟩

/-- The case of equal steps and equal replies. -/
theorem replay_eq {R : σ → τ → Prop} {step : σ → γ → ρ × σ} {step' : τ → γ → ρ × τ}
    (hstep : ∀ s t c, R s t → (step s c).1 = (step' t c).1 ∧ R (step s c).2 (step' t c).2)
    (cs : List γ) {s : σ} {t : τ} (h : R s t) :
    (replay step s cs).1 = (replay step' t cs).1 ∧
      R (replay step s cs).2 (replay step' t cs).2 := by
  have hsame : ∀ s t c d, R s t → c = d →
      (step s c).1 = (step' t d).1 ∧ R (step s c).2 (step' t d).2 := by
    intro s t c d h hc
    rw [hc]
    exact hstep s t d h
  obtain ⟨hreplies, hlast⟩ := replay_forall₂ hsame (List.forall₂_refl cs) h
  rw [List.forall₂_eq_eq_eq] at hreplies
  exact ⟨hreplies, hlast⟩

end Replay

namespace Use

variable {κ σ : Type} {holds : Store → σ → Prop} {body : κ → HostFunc}
  {stack : κ → List Value → List Value} {field : Accessor} {object : Value}
  {rule : κ → List Value → σ → Reply × σ} {size : σ → Nat}

/-- The methods of an object do to the value that it holds what the rule says. -/
structure Follows (holds : Store → σ → Prop) (body : κ → HostFunc)
    (stack : κ → List Value → List Value) (field : Accessor) (object : Value)
    (rule : κ → List Value → σ → Reply × σ) (size : σ → Nat) : Prop where
  call : ∀ {f x}, holds f.store x → ∀ c args below,
    (body c).Does args (stack c below) f holds (rule c below x)
  count : ∀ {s x}, holds s x → field.get s object = .ok (.num (.ofNat (size x)))

/-- One use of an object is answered as the plain data say. -/
theorem Follows.step (h : Follows holds body stack field object rule size) {f : Frame} {x : σ}
    (hx : holds f.store x) (u : Use κ) :
    (onFrame body stack field object f u).1 = (onPlain rule size x u).1 ∧
      holds (onFrame body stack field object f u).2.store (onPlain rule size x u).2 := by
  cases u with
  | call c args below => exact h.call hx c args below
  | count => exact ⟨congrArg Reply.read (h.count hx), hx⟩

/-- A history of uses is answered as the plain data say. -/
theorem Follows.replay (h : Follows holds body stack field object rule size) {f : Frame} {x : σ}
    (hx : holds f.store x) (uses : List (Use κ)) :
    (replay (onFrame body stack field object) f uses).1 = (replay (onPlain rule size) x uses).1 ∧
      holds (replay (onFrame body stack field object) f uses).2.store
        (replay (onPlain rule size) x uses).2 :=
  replay_eq (R := fun (f : Frame) x => holds f.store x) (fun _ _ u hx => h.step hx u) uses hx

end Use

end Sema

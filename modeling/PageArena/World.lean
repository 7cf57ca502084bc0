/-
Operations on an object in its world.

A `World` is the object that an operation works on, together with all it can reach: the
operating system, the heap, what is known about the host, and the log.  An operation is an
`Act`: it finds a world and leaves one, and it answers a value or an error.  A world is
left in either case, because what an operation did before it failed stays done.

An act on a part is made an act on the whole by `within`.  The other combinators say what
an act can do: look at its object or change it, make a call, report an event, and fail.
`raise` is the only way to fail with an error of the library, and it reports the error if
the error is one that is reported.  `attempt` goes on after a failure.

The `run_` equations say of each combinator what it answers and which world it leaves.
-/
import PageArena.Event
import PageArena.Kernel
import PageArena.Raw.Heap
import PageArena.Raw.Observer

namespace PageArena

/-- What has been learned about the host; each question is asked once. -/
structure HostRecord where
  geometry : Option (Except HostError Geometry) := none
  backend : Option (Except ArenaError Backend) := none

/-- Everything around the objects of the library. -/
structure Machine where
  kernel : Kernel := {}
  heap : RawHeap := {}
  observer : Observer := {}
  host : HostRecord := {}
  log : List Event := []

/-- A machine on which nothing has happened yet, whose system reports some page size, and
some number if it reports -1. -/
def Machine.reporting (pageSize pageErrno : Int) : Machine :=
  { kernel := { pageSize := pageSize, pageErrno := pageErrno } }

/-- An object and everything around it. -/
structure World (σ : Type) extends Machine where
  self : σ

/-- An operation on an object in its world: what it answers, and the world it leaves. -/
structure Act (ε σ α : Type) where
  run : World σ → Except ε α × World σ

namespace Act

variable {ε ε' σ τ α β : Type}

instance : Monad (Act ε σ) where
  pure a := ⟨fun w => (.ok a, w)⟩
  bind first next := ⟨fun w =>
    match first.run w with
    | (.ok a, w') => (next a).run w'
    | (.error e, w') => (.error e, w')⟩

/-- Fails and reports nothing. -/
def fail (error : ε) : Act ε σ α := ⟨fun w => (.error error, w)⟩

/-- The whole world. -/
def world : Act ε σ (World σ) := ⟨fun w => (.ok w, w)⟩

/-- The object. -/
def self : Act ε σ σ := ⟨fun w => (.ok w.self, w)⟩

/-- Changes the object. -/
def update (change : σ → σ) : Act ε σ Unit :=
  ⟨fun w => (.ok (), { w with self := change w.self })⟩

/-- Calls the operating system. -/
def kernel (call : Kernel → α × Kernel) : Act ε σ α :=
  ⟨fun w => (.ok (call w.kernel).1, { w with kernel := (call w.kernel).2 })⟩

/-- Calls the heap. -/
def heap (call : RawHeap → α × RawHeap) : Act ε σ α :=
  ⟨fun w => (.ok (call w.heap).1, { w with heap := (call w.heap).2 })⟩

/-- Calls the watched backend. -/
def observer (call : Observer → α × Observer) : Act ε σ α :=
  ⟨fun w => (.ok (call w.observer).1, { w with observer := (call w.observer).2 })⟩

/-- Changes what is known about the host. -/
def learn (change : HostRecord → HostRecord) : Act ε σ Unit :=
  ⟨fun w => (.ok (), { w with host := change w.host })⟩

/-- The time. -/
def now : Act ε σ Nat := ⟨fun w => (.ok w.kernel.clock, w)⟩

/-- Reports an event. -/
def emit (event : Event) : Act ε σ Unit :=
  ⟨fun w => (.ok (), { w with log := w.log ++ [event] })⟩

/-- Fails, and reports the error if it is one that is reported. -/
def raise (error : ArenaError) : Act ArenaError σ α :=
  ⟨fun w => (.error error, { w with log := w.log ++ (Event.ofError? error).toList })⟩

/-- Answers the value, or fails with the error. -/
def settle (result : Except ArenaError α) : Act ArenaError σ α :=
  match result with
  | .ok value => pure value
  | .error error => raise error

/-- Fails as a call to the operating system that has just failed. -/
def raiseErrno (call : OsCall) : Act ArenaError σ α :=
  ⟨fun w => (raise (.osFailure call w.kernel.errno)).run w⟩

/-- Goes on after the act, whether it failed or not. -/
def attempt (act : Act ε σ α) : Act ε' σ (Except ε α) :=
  ⟨fun w => (.ok (act.run w).1, (act.run w).2)⟩

/-- The act with another kind of error. -/
def mapError (f : ε → ε') (act : Act ε σ α) : Act ε' σ α :=
  ⟨fun w => ((act.run w).1.mapError f, (act.run w).2)⟩

/-- An act on a part of the object: the part is taken out, and put back as the act left
it. -/
def within (get : σ → τ) (put : τ → σ → σ) (act : Act ε τ α) : Act ε σ α :=
  ⟨fun w =>
    let (answer, w') := act.run { w with self := get w.self }
    (answer, { w' with self := put w'.self w.self })⟩

/-! ### What the combinators do -/

@[simp] theorem run_pure (a : α) (w : World σ) :
    (pure a : Act ε σ α).run w = (.ok a, w) := rfl

theorem run_bind (first : Act ε σ α) (next : α → Act ε σ β) (w : World σ) :
    (first >>= next).run w = match first.run w with
      | (.ok a, w') => (next a).run w'
      | (.error e, w') => (.error e, w') := rfl

theorem run_bind_ok {first : Act ε σ α} {next : α → Act ε σ β} {w w' : World σ} {a : α}
    (h : first.run w = (.ok a, w')) : (first >>= next).run w = (next a).run w' := by
  rw [run_bind, h]

theorem run_bind_error {first : Act ε σ α} {next : α → Act ε σ β} {w w' : World σ} {e : ε}
    (h : first.run w = (.error e, w')) : (first >>= next).run w = (.error e, w') := by
  rw [run_bind, h]

@[simp] theorem run_fail (e : ε) (w : World σ) :
    (fail e : Act ε σ α).run w = (.error e, w) := rfl

@[simp] theorem run_world (w : World σ) : (world : Act ε σ _).run w = (.ok w, w) := rfl

@[simp] theorem run_self (w : World σ) : (self : Act ε σ σ).run w = (.ok w.self, w) := rfl

@[simp] theorem run_update (change : σ → σ) (w : World σ) :
    (update change : Act ε σ Unit).run w = (.ok (), { w with self := change w.self }) := rfl

@[simp] theorem run_kernel (call : Kernel → α × Kernel) (w : World σ) :
    (kernel call : Act ε σ α).run w
      = (.ok (call w.kernel).1, { w with kernel := (call w.kernel).2 }) := rfl

@[simp] theorem run_heap (call : RawHeap → α × RawHeap) (w : World σ) :
    (heap call : Act ε σ α).run w
      = (.ok (call w.heap).1, { w with heap := (call w.heap).2 }) := rfl

@[simp] theorem run_observer (call : Observer → α × Observer) (w : World σ) :
    (observer call : Act ε σ α).run w
      = (.ok (call w.observer).1, { w with observer := (call w.observer).2 }) := rfl

@[simp] theorem run_learn (change : HostRecord → HostRecord) (w : World σ) :
    (learn change : Act ε σ Unit).run w = (.ok (), { w with host := change w.host }) := rfl

@[simp] theorem run_now (w : World σ) :
    (now : Act ε σ Nat).run w = (.ok w.kernel.clock, w) := rfl

@[simp] theorem run_emit (event : Event) (w : World σ) :
    (emit event : Act ε σ Unit).run w = (.ok (), { w with log := w.log ++ [event] }) := rfl

@[simp] theorem run_raise (e : ArenaError) (w : World σ) :
    (raise e : Act ArenaError σ α).run w
      = (.error e, { w with log := w.log ++ (Event.ofError? e).toList }) := rfl

@[simp] theorem settle_ok (a : α) : (settle (.ok a) : Act ArenaError σ α) = pure a := rfl

@[simp] theorem settle_error (e : ArenaError) :
    (settle (.error e) : Act ArenaError σ α) = raise e := rfl

@[simp] theorem run_raiseErrno (call : OsCall) (w : World σ) :
    (raiseErrno call : Act ArenaError σ α).run w
      = (raise (.osFailure call w.kernel.errno)).run w := rfl

@[simp] theorem run_attempt (act : Act ε σ α) (w : World σ) :
    (attempt act : Act ε' σ (Except ε α)).run w = (.ok (act.run w).1, (act.run w).2) := rfl

@[simp] theorem run_mapError (f : ε → ε') (act : Act ε σ α) (w : World σ) :
    (act.mapError f).run w = ((act.run w).1.mapError f, (act.run w).2) := rfl

@[simp] theorem run_within (get : σ → τ) (put : τ → σ → σ) (act : Act ε τ α)
    (w : World σ) :
    (act.within get put).run w
      = ((act.run { w with self := get w.self }).1,
         { (act.run { w with self := get w.self }).2 with
            self := put (act.run { w with self := get w.self }).2.self w.self }) := rfl

end Act

end PageArena

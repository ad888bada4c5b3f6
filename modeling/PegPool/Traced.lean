import PegPool.Event

/-!
# Traced computations

A `Traced ε α` is the outcome of a computation, a value or an error, together with the events on the
way to it in the order in which they happened.  A failure keeps the events before it.

The two projections are what proofs use: `outcome_bind` says that outcomes chain as they do without
events, and `events_bind` that events are those of the first step followed by those of the second.
-/

namespace PegPool

/-- An outcome and the events on the way to it. -/
@[ext]
structure Traced (ε α : Type) where
  /-- What happened, in order. -/
  events : List Event
  outcome : Except ε α

namespace Traced

variable {ε δ α β : Type}

def ok (a : α) : Traced ε α := ⟨[], .ok a⟩

def fail (e : ε) : Traced ε α := ⟨[], .error e⟩

def log (e : Event) : Traced ε Unit := ⟨[e], .ok ()⟩

def andThen (x : Traced ε α) (f : α → Traced ε β) : Traced ε β :=
  match x.outcome with
  | .ok a => ⟨x.events ++ (f a).events, (f a).outcome⟩
  | .error e => ⟨x.events, .error e⟩

instance : Monad (Traced ε) where
  pure := ok
  bind := andThen

instance : MonadExceptOf ε (Traced ε) where
  throw := fail
  tryCatch x handle := match x.outcome with
    | .ok a => ⟨x.events, .ok a⟩
    | .error e => ⟨x.events ++ (handle e).events, (handle e).outcome⟩

def lift (x : Except ε α) : Traced ε α := ⟨[], x⟩

instance : MonadLift (Except ε) (Traced ε) := ⟨lift⟩

/-- Changes the error, keeping the events. -/
def mapError (f : ε → δ) (x : Traced ε α) : Traced δ α :=
  ⟨x.events, x.outcome.mapError f⟩

/-- The value, or nothing if there is none; the events are kept. -/
def attempt (x : Traced ε α) : Traced δ (Option α) :=
  ⟨x.events, .ok x.outcome.toOption⟩

def value (x : Traced Empty α) : α :=
  match x.outcome with
  | .ok a => a
  | .error e => nomatch e

@[simp] theorem outcome_pure (a : α) : (pure a : Traced ε α).outcome = .ok a := rfl
@[simp] theorem events_pure (a : α) : (pure a : Traced ε α).events = [] := rfl
@[simp] theorem outcome_lift (x : Except ε α) : (lift x).outcome = x := rfl
@[simp] theorem events_lift (x : Except ε α) : (lift x).events = [] := rfl
@[simp] theorem outcome_log (e : Event) : (log e : Traced ε Unit).outcome = .ok () := rfl
@[simp] theorem events_log (e : Event) : (log e : Traced ε Unit).events = [e] := rfl
@[simp] theorem outcome_fail (e : ε) : (fail e : Traced ε α).outcome = .error e := rfl
@[simp] theorem events_fail (e : ε) : (fail e : Traced ε α).events = [] := rfl

@[simp] theorem outcome_bind (x : Traced ε α) (f : α → Traced ε β) :
    (x >>= f).outcome = x.outcome >>= fun a => (f a).outcome := by
  show (andThen x f).outcome = _
  unfold andThen
  cases h : x.outcome <;> rfl

theorem events_bind (x : Traced ε α) (f : α → Traced ε β) :
    (x >>= f).events = x.events ++ match x.outcome with
      | .ok a => (f a).events
      | .error _ => [] := by
  show (andThen x f).events = _
  unfold andThen
  cases h : x.outcome <;> simp

@[simp] theorem outcome_mapError (f : ε → δ) (x : Traced ε α) :
    (x.mapError f).outcome = x.outcome.mapError f := rfl

@[simp] theorem outcome_attempt (x : Traced ε α) :
    (x.attempt : Traced δ (Option α)).outcome = .ok x.outcome.toOption := rfl

@[simp] theorem events_attempt (x : Traced ε α) :
    (x.attempt : Traced δ (Option α)).events = x.events := rfl

end Traced

end PegPool

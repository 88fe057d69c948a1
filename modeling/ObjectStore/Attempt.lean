import ObjectStore.Error

/-!
# Attempts

Storing and loading change a state step by step, and may fail after some of
the steps. What the state is after a failure matters: some operations undo
what they did, others leave it. An `Attempt` is a computation on a state
whose failure keeps the state it has reached.

## Main results

* `Attempt.start_bind`: the second step starts where the first one ended, or
  not at all.
* `Attempt.start_modify_ok`, `Attempt.start_modify_error`: a step either
  replaces the state or fails and leaves it alone.
* `Attempt.start_within`: an attempt on a part leaves the rest to `set`.
-/

namespace ObjectStore

/-- A computation on a state that may fail. The state survives the failure. -/
abbrev Attempt (σ α : Type) := ExceptT Error (StateM σ) α

namespace Attempt

variable {σ τ α β : Type}

/-- Runs an attempt from a state. -/
def start (attempt : Attempt σ α) (s : σ) : Except Error α × σ := attempt.run s

/-- The attempt with a given outcome and final state. -/
def of (f : σ → Except Error α × σ) : Attempt σ α := ExceptT.mk f

/-- What does not concern the state. -/
def lift (result : Except Error α) : Attempt σ α := of fun s => (result, s)

/-- Replaces the state, or fails and leaves it alone. -/
def modify (f : σ → Except Error σ) : Attempt σ Unit :=
  of fun s =>
    match f s with
    | .ok s' => (.ok (), s')
    | .error e => (.error e, s)

/-- An attempt on a part of the state. -/
def within (get : σ → τ) (set : τ → σ → σ) (attempt : Attempt τ α) : Attempt σ α :=
  of fun s =>
    let (result, part) := attempt.start (get s)
    (result, set part s)

@[simp] theorem start_pure (a : α) (s : σ) : (pure a : Attempt σ α).start s = (.ok a, s) := rfl

theorem start_bind (first : Attempt σ α) (second : α → Attempt σ β) (s : σ) :
    (first >>= second).start s =
      match first.start s with
      | (.ok a, s') => (second a).start s'
      | (.error e, s') => (.error e, s') := by
  simp only [start, ExceptT.run, bind, ExceptT.bind, ExceptT.mk, StateT.bind, ExceptT.bindCont]
  cases first s with
  | mk result s' => cases result <;> rfl

@[simp] theorem start_of (f : σ → Except Error α × σ) (s : σ) : (of f).start s = f s := rfl

@[simp] theorem start_lift (result : Except Error α) (s : σ) :
    (lift result : Attempt σ α).start s = (result, s) :=
  rfl

theorem start_within (get : σ → τ) (set : τ → σ → σ) (attempt : Attempt τ α) (s : σ) :
    (within get set attempt).start s =
      ((attempt.start (get s)).1, set (attempt.start (get s)).2 s) :=
  rfl

theorem start_modify_ok {f : σ → Except Error σ} {s s' : σ} (h : f s = .ok s') :
    (modify f).start s = (.ok (), s') := by
  simp only [start, modify, of, ExceptT.run, ExceptT.mk, h]

theorem start_modify_error {f : σ → Except Error σ} {s : σ} {e : Error} (h : f s = .error e) :
    (modify f).start s = (.error e, s) := by
  simp only [start, modify, of, ExceptT.run, ExceptT.mk, h]

end Attempt

end ObjectStore

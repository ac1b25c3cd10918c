import GcRoots.Fault
import GcRoots.Trace

namespace GcRoots

/-!
# Actions

An `Action σ α` changes a state of type `σ`, records trace entries in the journal, and either
returns an `α` or stops with a `Fault`. A stopped action keeps the state as far as it got:
a check that fails halfway through an operation leaves the earlier changes in place.

`Action.focus` runs an action on one part of a larger state, which is how an operation of a
component (a storage, a chain) becomes an operation of the structure holding it.
-/

/-- A state change that records trace entries and may stop with a fault. -/
abbrev Action (σ α : Type) := EStateM Fault (σ × Journal) α

namespace Action

variable {σ τ α : Type}

/-- The current state. -/
def read : Action σ σ := fun s => .ok s.1 s

/-- Replaces the state. -/
def write (x : σ) : Action σ Unit := fun s => .ok () (x, s.2)

/-- Changes the state by a function. -/
def update (f : σ → σ) : Action σ Unit := fun s => .ok () (f s.1, s.2)

/-- Records one trace entry. -/
def emit (e : TraceEntry) : Action σ Unit :=
  fun s => .ok () (s.1, { s.2 with entries := s.2.entries.push e })

/-- Stops with a fault, keeping the state. -/
def fail (f : Fault) : Action σ α := fun s => .error f s

/-- Begins a root scan and returns its number; scans are numbered from 1. -/
def nextScan : Action σ Nat :=
  fun s => .ok (s.2.scans + 1) (s.1, { s.2 with scans := s.2.scans + 1 })

/-- Runs an action on the part `get t` of a state `t`, putting the changed part back with `put`
whether the action returns or stops. -/
def focus (get : τ → σ) (put : τ → σ → τ) (m : Action σ α) : Action τ α :=
  fun s =>
    match m (get s.1, s.2) with
    | .ok a (x, j) => .ok a (put s.1 x, j)
    | .error e (x, j) => .error e (put s.1 x, j)

/-- Lifts a pure result that may be a fault. -/
def ofExcept : Except Fault α → Action σ α
  | .ok a => fun s => .ok a s
  | .error e => fun s => .error e s

/-- Runs an action; when it stops with a fault, runs `cleanup` on the state the action left
and then passes the fault on, as a value dropped while a panic unwinds does. A fault of the
cleanup itself is not reported: the first fault passes on. -/
def unwinding (cleanup : Action σ Unit) (m : Action σ α) : Action σ α :=
  fun s =>
    match m s with
    | .ok a s' => .ok a s'
    | .error e s' =>
      match cleanup s' with
      | .ok _ s'' => .error e s''
      | .error _ s'' => .error e s''

/-- Runs an action and reports its outcome as a value, so that a fault of one operation does
not stop the ones after it. A fatal fault is passed on. -/
def attempt (m : Action σ α) : Action σ (Except Fault α) :=
  fun s =>
    match m s with
    | .ok a s' => .ok (.ok a) s'
    | .error e s' => if e.isFatal then .error e s' else .ok (.error e) s'

end Action

end GcRoots

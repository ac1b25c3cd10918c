import GcRoots.Action
import GcRoots.Text

namespace GcRoots

/-!
# Claim-once groups

A root group is a piece of scanning work shared by the workers of one pass. A serial group runs
for the first worker that reaches it and is skipped by the rest. A parallel group runs for
every worker (each worker does its own share) and is marked completed.

Each time a group's body runs, a `root_group` span with the group's name is recorded.
-/

/-- How the workers of a pass share a group. -/
inductive Concurrency where
  | serial
  | parallel
  deriving DecidableEq, Repr

/-- The observable state of a group. -/
inductive ClaimState where
  | unclaimed
  | claimed
  | pending
  | completed
  deriving DecidableEq, Repr

/-- A claim-once group. -/
structure Claim where
  name : String
  concurrency : Concurrency
  /-- Set once the group has run. -/
  taken : Bool := false
  deriving Repr

namespace Claim

/-- A fresh serial group. -/
def serial (name : String) : Claim := { name, concurrency := .serial }

/-- A fresh parallel group. -/
def parallel (name : String) : Claim := { name, concurrency := .parallel }

/-- Whether the body runs now, and the group afterwards. -/
def take (c : Claim) : Bool × Claim :=
  match c.concurrency with
  | .serial => if c.taken then (false, c) else (true, { c with taken := true })
  | .parallel => (true, { c with taken := true })

/-- The group's state. -/
def state (c : Claim) : ClaimState :=
  match c.concurrency, c.taken with
  | .serial, false => .unclaimed
  | .serial, true => .claimed
  | .parallel, false => .pending
  | .parallel, true => .completed

/-- Runs `body` when the group lets this worker run it, recording the group's span first.
Returns whether it ran and the group afterwards. -/
def run {σ : Type} (c : Claim) (body : Action σ Unit) : Action σ (Bool × Claim) := do
  let (go, c') := c.take
  if go then
    Action.emit (.rootGroup c.name)
    body
  return (go, c')

end Claim

/-- The name under which a group state is reported. -/
def ClaimState.name : ClaimState → String
  | .unclaimed => "unclaimed"
  | .claimed => "claimed"
  | .pending => "pending"
  | .completed => "completed"

/-- The diagnostic name of a group state. -/
def ClaimState.text : ClaimState → String
  | .unclaimed => "Unclaimed"
  | .claimed => "Claimed"
  | .pending => "Pending"
  | .completed => "Completed"

/-- Diagnostic text, such as `ClaimOnce { name: "universe", state: Unclaimed }`. -/
def Claim.text (c : Claim) : String :=
  "ClaimOnce \x7b name: " ++ Text.quoted c.name ++ ", state: " ++ c.state.text ++ " \x7d"

end GcRoots

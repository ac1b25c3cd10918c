import GcRoots.Thread.Registry

namespace GcRoots

/-!
# Frame scopes

A frame scope opens a local frame on a thread and closes it when the scope is dropped, so the
local handles made inside go away with the frame; `FrameScope.escape` closes it early and
carries one handle out to the frame around it.

Two details of the order of events decide which frame a scope closes. The scope value is made
before the thread answers whether the frame opened, so a refused scope is dropped at once, and
dropping it closes the innermost frame: the one around it. `escape` marks the scope closed
before it closes the frame, so when resolving the handle to carry out fails, dropping the scope
on the way out closes nothing and the frame stays open.
-/

/-- A frame scope: the thread it opened a frame on, and whether it was closed already. -/
structure FrameScope where
  thread : Nat
  closed : Bool := false
  deriving Repr

namespace FrameScope

/-- Drops the scope: closes its thread's innermost frame, without a result, unless the scope
was closed already. -/
def drop (g : FrameScope) : Action Registry Unit :=
  if g.closed then pure () else do
    let _ ← Registry.popFrame g.thread none

/-- Opens a frame planned for `n` handles on thread `t`. The scope is made first; when the
thread refuses the frame, the scope is dropped and there is none. -/
def create (t n : Nat) : Action Registry (Option FrameScope) := do
  let g : FrameScope := { thread := t }
  if ← Registry.pushFrame t n then return some g
  g.drop
  return none

/-- Closes the scope's frame and hands `result`'s object to the frame around it as a new local
handle. The scope counts as closed from the start, so a failure drops it without effect. -/
def escape (g : FrameScope) (result : Option Handle) : Action Registry (Option Handle) :=
  let g := { g with closed := true }
  Action.unwinding g.drop (Registry.popFrame g.thread result)

end FrameScope

end GcRoots

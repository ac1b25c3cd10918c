import GcRoots.Table

namespace GcRoots

/-!
# Thread contexts

A thread context is a thread known to the registry. It carries an id, the parity of the last
root pass that claimed it, and its chain of local handle blocks. Detaching a thread gives its
blocks back to the pool and leaves it without a chain; the context itself stays known by
number.

The registry's claim parity runs 0, 1, 2, 1, 2, …: each pass advances it, and a thread is
claimed for a pass by setting its own parity to the pass's parity.
-/

/-- A thread context. -/
structure Context where
  /-- The id, counted from 1 in the order of attaching. -/
  id : Nat
  /-- The parity of the pass that last claimed the thread. -/
  parity : Nat := 0
  /-- The local handle chain; `none` once the thread is detached. -/
  chain : Option Chain
  deriving Repr

namespace Context

/-- Claims the thread for parity `p`: succeeds when its parity is not `p` already. -/
def claim (c : Context) (p : Nat) : Context × Bool :=
  if c.parity = p then (c, false) else ({ c with parity := p }, true)

/-- Whether the thread is attached. -/
def attached (c : Context) : Bool := c.chain.isSome

/-- Diagnostic text of the id, such as `ContextId(1)`. -/
def idText (c : Context) : String := "ContextId(" ++ toString c.id ++ ")"

/-- Diagnostic text, such as `ThreadContext { id: ContextId(1), oops_do_parity: 0, .. }`. -/
def text (c : Context) : String :=
  "ThreadContext \x7b id: " ++ c.idText ++ ", oops_do_parity: " ++ toString c.parity ++ ", .. \x7d"

end Context

/-- The parity after `p`: 2 leads back to 1, any other parity to the next number. -/
def nextParity (p : Nat) : Nat := if p = 2 then 1 else p + 1

/-- Diagnostic text of a claim parity, such as `ClaimParity(1)`. -/
def parityText (p : Nat) : String := "ClaimParity(" ++ toString p ++ ")"

end GcRoots

import GcRoots.Thread.Context

namespace GcRoots

/-!
# The thread registry

The registry owns the handle table and knows every thread context by number, in the order the
threads were attached. Detached threads keep their number but no longer count as registered.
It also holds the claim parity and whether a safepoint is in progress.

Local handle operations of a thread go through its chain and the table's block pool. Using the
chain of a detached thread is a fault, except that making a handle for the null object or
destroying the null handle does nothing at all.
-/

/-- The registry. -/
structure Registry where
  table : Table
  /-- Every context ever attached, by number. -/
  contexts : Array Context := #[]
  parity : Nat := 0
  atSafepoint : Bool := false
  /-- The id the next attached thread gets. -/
  nextId : Nat := 1
  deriving Repr

/-- The kinds `handleType` tells apart. -/
inductive HandleKind where
  | invalid
  | threadLocal
  | global
  | weakGlobal
  deriving DecidableEq, Repr

/-- The name under which a handle kind is reported. -/
def HandleKind.name : HandleKind → String
  | .invalid => "invalid"
  | .threadLocal => "local"
  | .global => "global"
  | .weakGlobal => "weak_global"

namespace Registry

variable {α : Type}

/-- The registered contexts: those still attached, in attach order. -/
def attached (r : Registry) : List Context := r.contexts.toList.filter Context.attached

/-- The number of registered threads. -/
def threadCount (r : Registry) : Nat := r.attached.length

/-- Runs an action on thread `t`'s chain and the block pool. A detached thread is a fault. -/
def onChain (t : Nat) (m : Action (Chain × BlockPool) α) : Action Registry α := do
  let r ← Action.read
  match r.contexts[t]? with
  | none => Action.fail (.usedAfterDetach 0)
  | some c =>
    match c.chain with
    | none => Action.fail (.usedAfterDetach c.id)
    | some ch =>
      Action.focus (fun r => (ch, r.table.pool))
        (fun r cp => { r with
          contexts := r.contexts.set! t { c with chain := some cp.1 }
          table := { r.table with pool := cp.2 } }) m

/-- Reads thread `t`'s chain; a detached thread is a fault. -/
def chainOf (r : Registry) (t : Nat) : Except Fault Chain :=
  match r.contexts[t]? with
  | none => .error (.usedAfterDetach 0)
  | some c =>
    match c.chain with
    | none => .error (.usedAfterDetach c.id)
    | some ch => .ok ch

/-- Runs an action on the handle table. -/
def onTable (m : Action Table α) : Action Registry α :=
  Action.focus (fun r => r.table) (fun r t => { r with table := t }) m

/-- Attaches a thread and returns its number. The id is taken before the thread's first block,
so a pool without blocks uses up an id. -/
def attach : Action Registry Nat := do
  let r ← Action.read
  if r.atSafepoint then Action.fail .attachDuringSafepoint
  let id := r.nextId
  Action.write { r with nextId := id + 1 }
  let ch ← onTable (Action.focus (fun t => t.pool) (fun t p => { t with pool := p }) Chain.create)
  let r ← Action.read
  Action.write { r with contexts := r.contexts.push { id, chain := some ch } }
  return r.contexts.size

/-- Detaches thread `t`: its blocks go back to the pool. Detaching twice does nothing more. -/
def detach (t : Nat) : Action Registry Unit := do
  let r ← Action.read
  if r.atSafepoint then Action.fail .detachDuringSafepoint
  match r.contexts[t]? with
  | some c =>
    match c.chain with
    | some ch =>
      let p ← Action.ofExcept (ch.release r.table.pool)
      Action.write { r with
        contexts := r.contexts.set! t { c with chain := none }
        table := { r.table with pool := p } }
    | none => return
  | none => return

/-- Whether thread `t` holds local handle `h` in any of its frames. -/
def isLocal (r : Registry) (t : Nat) (h : Handle) : Bool :=
  match h, r.contexts[t]? with
  | .strong (.threadLocal i), some c =>
    match c.chain with
    | some ch => ch.framesHold r.table.pool i
    | none => false
  | _, _ => false

/-- Whether any registered thread holds local handle `h`. -/
def isLocalOfAny (r : Registry) (h : Handle) : Bool :=
  (List.range r.contexts.size).any fun t =>
    (r.contexts[t]?.map Context.attached).getD false && r.isLocal t h

/-- A local handle for `obj` on thread `t` (null for the null object). -/
def makeLocal (t : Nat) (obj : Nat) : Action Registry (Option Handle) := do
  if obj = 0 then return none
  let i ← onChain t (Chain.allocate obj)
  return some (.strong (.threadLocal i))

/-- Destroys a local handle of thread `t`: it must be strong, local, held by the thread, and
its slot must not be null already. The null handle is ignored. -/
def destroyLocal (t : Nat) : Option Handle → Action Registry Unit
  | none => return
  | some h => do
    let s ← Action.ofExcept (Table.strongRef h)
    match s with
    | .global _ => Action.fail (.notLocal h)
    | .threadLocal i =>
      let r ← Action.read
      if !r.isLocal t h then
        Action.fail (.foreignLocal h ((r.contexts[t]?.map Context.id).getD 0))
      match r.table.pool.slot? i with
      | some v =>
        if v = 0 then Action.fail (.destroyedTwice h)
        Action.write { r with table := { r.table with pool := r.table.pool.store i 0 } }
      | none => return

/-- Announces room for `n` more handles in thread `t`'s frame: `false` beyond the table's
limit, otherwise the frame plans its live handles plus `n`. -/
def ensureCapacity (t : Nat) (n : Nat) : Action Registry Bool := do
  if n > (← Action.read).table.config.maxLocalCapacity then return false
  onChain t do
    let (c, p) ← Action.read
    match checkedAdd (c.top.live p) n with
    | some planned =>
      Action.write (c.setPlanned planned, p)
      return true
    | none => Action.fail .additionOverflow

/-- Opens a frame for `n` handles on thread `t`: `false` beyond the table's limit. -/
def pushFrame (t : Nat) (n : Nat) : Action Registry Bool := do
  if n > (← Action.read).table.config.maxLocalCapacity then return false
  onChain t do
    Chain.pushFrame
    Action.update fun (c, p) => (c.setPlanned n, p)
    return true

/-- Closes thread `t`'s innermost frame and hands `result`'s object to the frame outside it as
a new local handle. The result is resolved before the frame closes. -/
def popFrame (t : Nat) (result : Option Handle) : Action Registry (Option Handle) := do
  let obj ← Action.ofExcept ((← Action.read).table.resolve result)
  let _ ← onChain t Chain.popFrame
  makeLocal t obj

/-- Claims thread `t` for parity `p`. -/
def claim (t : Nat) (p : Nat) : Action Registry Bool := do
  let r ← Action.read
  match r.contexts[t]? with
  | some c =>
    let (c', ok) := c.claim p
    Action.write { r with contexts := r.contexts.set! t c' }
    return ok
  | none => return false

/-- Advances the claim parity and returns the new parity. -/
def advanceParity : Action Registry Nat := do
  let r ← Action.read
  Action.write { r with parity := nextParity r.parity }
  return nextParity r.parity

/-- Fails for the first registered thread whose parity differs from the registry's. -/
def assertAllClaimed (r : Registry) : Except Fault Unit :=
  match r.attached.find? fun c => c.parity != r.parity with
  | some c => .error (.threadNotClaimed c.id c.parity r.parity)
  | none => .ok ()

/-- Begins a safepoint; one already in progress is a fault (the flag stays set). -/
def beginSafepoint : Action Registry Unit := do
  let r ← Action.read
  Action.write { r with atSafepoint := true }
  if r.atSafepoint then Action.fail .safepointInProgress

/-- Ends the safepoint. -/
def endSafepoint (r : Registry) : Registry := { r with atSafepoint := false }

/-- What kind of handle `h` is: a weak or strong global handle with an allocated slot, or a
local handle held by the given thread. -/
def handleType (r : Registry) (t : Option Nat) (h : Handle) : HandleKind :=
  match h with
  | .weak _ => if r.table.isWeakGlobal h then .weakGlobal else .invalid
  | .strong (.global _) => if r.table.isGlobal h then .global else .invalid
  | .strong (.threadLocal _) =>
    match t with
    | some t => if r.isLocal t h then .threadLocal else .invalid
    | none => .invalid

/-- Diagnostic text, such as `ThreadRegistry { threads: 1, parity: 0, at_safepoint: false, .. }`. -/
def text (r : Registry) : String :=
  "ThreadRegistry \x7b threads: " ++ toString r.threadCount ++ ", parity: " ++ toString r.parity ++
    ", at_safepoint: " ++ toString r.atSafepoint ++ ", .. \x7d"

end Registry

end GcRoots

import GcRoots.Block.Chain
import GcRoots.Scenario.Script

namespace GcRoots
namespace Scenario

/-!
# Chain scenarios

A chain scenario works on a block pool and chains made from it, numbered in the order they are
made. A chain whose creation failed still uses up its number, and a released chain is gone.
Blocks can also be taken from the pool and released directly, by reference number.
-/

instance : SlotMemory BlockPool where
  readSlot p a := match a with
    | .threadLocal i => (p.slot? i).getD 0
    | _ => 0
  writeSlot p a v := match a with
    | .threadLocal i => p.store i v
    | _ => p

/-- The state of a chain scenario. -/
structure ChainRun where
  pool : BlockPool
  /-- Chains by number; `none` once released or when creation failed. -/
  chains : Array (Option Chain) := #[]
  /-- Blocks taken directly from the pool, by reference number. -/
  refs : Array Nat := #[]

/-- Runs a chain action on chain `c` and the pool. -/
def onChainRun {α : Type} (c : Nat) (m : Action (Chain × BlockPool) α) : Run ChainRun α := do
  let st ← Run.read
  match st.chains[c]? with
  | some (some ch) =>
    Run.focus (fun r => (ch, r.pool))
      (fun r cp => { r with chains := r.chains.set! c (some cp.1), pool := cp.2 }) (Run.lift m)
  | _ => Run.reject ("no live chain " ++ toString c)

/-- The live chain with number `c`. -/
def liveChain (st : ChainRun) (c : Nat) : Run ChainRun Chain :=
  match st.chains[c]? with
  | some (some ch) => pure ch
  | _ => Run.reject ("no live chain " ++ toString c)

/-- The local index that a step's index names. The index travels as the word of a thread-local
handle, cut to a machine word, so only its payload bits survive: an index whose payload wraps
to zero names no slot, and the largest word cannot be advanced to a payload at all. -/
def localIndex (i : Nat) : Run ChainRun Nat :=
  if i + 1 = wordModulus then Run.lift (Action.fail .additionOverflow)
  else
    match Handle.ofWord? ((Handle.local_ i).word % wordModulus) with
    | some (.strong (.threadLocal j)) => pure j
    | _ => Run.reject "bad local index"

/-- Reads a step's index field as a local index. -/
def readLocalIndex (step : Value) : Run ChainRun Nat := do
  localIndex (← Run.decode (step.natField "index"))

/-- One step of a chain scenario. Every step reads its chain number `c` first. -/
def chainStep (step : Value) : Run ChainRun (List (String × Value)) := do
  let name := opName step
  let c ← Run.decode (step.natFieldOr "c" 0)
  let st ← Run.read
  match name with
  | "new_chain" =>
    let n := st.chains.size
    Run.write { st with chains := st.chains.push none }
    let ch ← Run.focus (fun r => r.pool) (fun r p => { r with pool := p }) (Run.lift Chain.create)
    let st' ← Run.read
    Run.write { st' with chains := st'.chains.set! n (some ch) }
    return [("chain", .nat n)]
  | "allocate" =>
    let obj ← Run.decode (step.objField "obj")
    if obj = 0 then Run.reject "allocate needs a non-null obj"
    let i ← onChainRun c (Chain.allocate obj)
    return [("index", .nat i)]
  | "release" =>
    let ch ← liveChain st c
    match ch.release st.pool with
    | .ok p => Run.write { st with pool := p, chains := st.chains.set! c none }; return []
    | .error f => Run.lift (Action.fail f)
  | "push_frame" =>
    onChainRun c Chain.pushFrame
    return []
  | "pop_frame" =>
    let b ← onChainRun c Chain.popFrame
    return [("value", .bool b)]
  | "contains" =>
    let i ← readLocalIndex step
    let ch ← liveChain st c
    return [("value", .bool (ch.top.holds st.pool i))]
  | "frames_contain" =>
    let i ← readLocalIndex step
    let ch ← liveChain st c
    return [("value", .bool (ch.framesHold st.pool i))]
  | "info" =>
    let ch ← liveChain st c
    return [("length", .nat ch.top.blocks.size), ("live", .nat (ch.top.live st.pool)),
      ("planned", .nat ch.top.planned), ("memory", .nat ch.top.memory),
      ("frames", .nat ch.frames.length), ("has_link", .bool !ch.outer.isEmpty)]
  | "set_planned" =>
    let v ← Run.decode (step.natField "value")
    let ch ← liveChain st c
    Run.write { st with chains := st.chains.set! c (some (ch.setPlanned v)) }
    return []
  | "oops_do" =>
    let v ← Run.decode (readVisitor step false false)
    let ch ← liveChain st c
    let w := Sweep.strong v.rewrite { state := st.pool }
      ((ch.handedOut st.pool).map SlotAddr.threadLocal)
    Run.write { st with pool := w.state }
    return visitsAnswer v w.visits
  | "slot" =>
    let i ← readLocalIndex step
    match st.pool.slot? i with
    | some v => return [("exists", .bool true), ("obj", .object v)]
    | none => return [("exists", .bool false)]
  | "store_slot" =>
    let i ← readLocalIndex step
    -- the object is read only for a slot that exists
    if (st.pool.slot? i).isNone then return [("exists", .bool false)]
    let obj ← Run.decode (step.objField "obj")
    match st.pool.store? i obj with
    | some p => Run.write { st with pool := p }; return [("exists", .bool true)]
    | none => return [("exists", .bool false)]
  | "pool" =>
    return [("allocated", .nat st.pool.blocks.size), ("pooled", .nat st.pool.queue.length),
      ("memory", .nat st.pool.memory)]
  | "pool_debug" => return [("value", .str st.pool.text)]
  | "debug" =>
    let ch ← liveChain st c
    return [("value", .str ch.text)]
  | "allocate_block" =>
    let b ← Run.focus (fun r => r.pool) (fun r p => { r with pool := p })
      (Run.lift BlockPool.allocate)
    let st' ← Run.read
    Run.write { st' with refs := st'.refs.push b }
    return [("ref", .nat st'.refs.size), ("block", .nat b)]
  | "release_block" =>
    let k ← Run.decode (step.natField "ref")
    match st.refs[k]? with
    | some b =>
      match st.pool.release b with
      | .ok p => Run.write { st with pool := p }; return []
      | .error f => Run.lift (Action.fail f)
    | none => Run.reject "no such block ref"
  | "block_info" =>
    let k ← Run.decode (step.natField "ref")
    match st.refs[k]? with
    | some b =>
      let blk := (st.pool.block? b).getD {}
      let slot := step.natAt? "slot"
      return [("block", .nat b), ("top", .nat blk.top), ("live", .nat blk.live),
        ("contains", match slot with | some s => .bool (blk.contains s) | none => .null)]
    | none => Run.reject "no such block ref"
  | "raw" =>
    let bits ← Run.decode (step.natField "bits")
    return rawAnswer bits
  | _ => Run.reject ("unknown op " ++ name)

/-- Answers a chain scenario. The pool is made before the steps are read, so a pool that cannot
be made is reported before steps that cannot be read. -/
def chainScenario (input : Value) (trace : Bool) : Value :=
  match input.natField "max_blocks" with
  | .error m => setupFailure (.badInput m)
  | .ok maxBlocks =>
    if !Arena.capacityFits maxBlocks then setupFailure (.fault .additionOverflow)
    else
      match input.arrFieldOr "ops" with
      | .error m => setupFailure (.badInput m)
      | .ok ops =>
        match runScript trace chainStep (pure []) ops ({ pool := { capacity := maxBlocks } }, {}) with
        | .ok (results, aborted) _ => scriptAnswer results aborted
        | .error e _ => setupFailure e

end Scenario
end GcRoots

import GcRoots.Block.Basic

namespace GcRoots

/-!
# Chains of handle blocks

A thread allocates local handles from a chain of blocks taken from the pool. A chain is a stack
of frames; the innermost frame is the one in use, and the outer frames wait until the frames
inside them are popped.

A frame allocates a handle by the first of these that applies:
1. the next slot of its current block;
2. the last entry of its free list (the slot must be null);
3. moving on to its next block;
4. when no blocks may be added before a rebuild, rebuilding the free list: every null slot of
   its blocks, block by block. The frame may then add `⌈(size - 2·free) / 32⌉` blocks when
   fewer than half of its `size` slots are free;
5. otherwise adding a block from the pool.

Popping a frame returns its blocks to the pool in order.
-/

/-- One frame of a chain. -/
structure Frame where
  /-- Block numbers, in the order the frame took them. -/
  blocks : Array Nat
  /-- Position in `blocks` of the block in use. -/
  last : Nat := 0
  /-- Free local indices; the last entry is used first. -/
  free : Array Nat := #[]
  /-- Blocks the frame may still add before it next rebuilds its free list. -/
  allocBeforeRebuild : Nat := 0
  /-- The capacity the thread announced for this frame. -/
  planned : Nat := 0
  deriving Repr

/-- A chain: the frame in use and the frames outside it, innermost first. -/
structure Chain where
  top : Frame
  outer : List Frame := []
  deriving Repr

/-- What one step of handle allocation leads to. -/
inductive Progress where
  | done (index : Nat)
  | again
  deriving Repr

namespace Frame

/-- A frame holding one block taken from the pool. -/
def create : Action BlockPool Frame := do
  let b ← BlockPool.allocate
  return { blocks := #[b] }

/-- Rebuilds the free list from the given blocks, appending their null slots in order. A block
that is not full stops the rebuild with the entries found so far kept. -/
def collectFree : List Nat → Action (Frame × BlockPool) Unit
  | [] => return
  | b :: bs => do
    let (f, p) ← Action.read
    match p.block? b with
    | none => Action.fail (.unknownBlock b)
    | some blk =>
      if blk.top = blockSlots then
        let found := (List.range blk.top).filter fun i => blk.slots.getD i 0 == 0
        Action.write ({ f with free := f.free ++ (found.map fun i => b * blockSlots + i).toArray }, p)
        collectFree bs
      else Action.fail (.rebuildWithUnusedHandles blk.top)

/-- The number of blocks to add after a rebuild that found `free` of `total` slots null. -/
def growthAfterRebuild (total free : Nat) : Nat :=
  if total > 2 * free then (total - 2 * free + blockSlots - 1) / blockSlots else 0

/-- Rebuilds the free list and sets how many blocks may be added before the next rebuild. -/
def rebuild : Action (Frame × BlockPool) Unit := do
  collectFree (← Action.read).1.blocks.toList
  let (f, p) ← Action.read
  let total := f.blocks.size * blockSlots
  let abr := if total > 2 * f.free.size then growthAfterRebuild total f.free.size
    else f.allocBeforeRebuild
  Action.write ({ f with allocBeforeRebuild := abr }, p)
  Action.emit (.freeListRebuild f.blocks.size f.free.size abr)

/-- One step of allocating a handle for `obj`. -/
def allocateStep (obj : Nat) : Action (Frame × BlockPool) Progress := do
  let (f, p) ← Action.read
  let cur := f.blocks.getD f.last 0
  match p.block? cur with
  | none => Action.fail (.unknownBlock cur)
  | some blk =>
    match blk.bump obj with
    | some (blk', slot) =>
      Action.write (f, { p with blocks := p.blocks.set! cur blk' })
      return .done (cur * blockSlots + slot)
    | none =>
      match f.free.back? with
      | some i =>
        Action.write ({ f with free := f.free.pop }, p)
        match p.slot? i with
        | none => Action.fail (.unknownBlock (i / blockSlots))
        | some v =>
          if v = 0 then
            Action.write ({ f with free := f.free.pop }, p.store i obj)
            return .done i
          else Action.fail (.freeEntryInUse i)
      | none =>
        if f.last + 1 < f.blocks.size then
          Action.write ({ f with last := f.last + 1 }, p)
          return .again
        else if f.allocBeforeRebuild = 0 then
          rebuild
          return .again
        else
          let b ← Action.focus (fun s => s.2) (fun s q => (s.1, q)) BlockPool.allocate
          Action.update fun (g, q) =>
            ({ g with blocks := g.blocks.push b, last := g.last + 1,
                      allocBeforeRebuild := g.allocBeforeRebuild - 1 }, q)
          return .again

/-- Repeats allocation steps until one hands out a slot; `fuel` bounds the steps. -/
def allocateLoop (obj : Nat) : Nat → Action (Frame × BlockPool) Nat
  | 0 => do Action.fail (.blocksExhausted (← Action.read).2.capacity)
  | fuel + 1 => do
    match ← allocateStep obj with
    | .done i => return i
    | .again => allocateLoop obj fuel

/-- A bound on allocation steps: each step moves to a later block, rebuilds once before
adding a block, or adds a block, and a block from the arena is empty. -/
def stepBound (f : Frame) (p : BlockPool) : Nat :=
  f.blocks.size + 4 * p.queue.length + 8

/-- Allocates a handle for `obj` and returns its local index. -/
def allocate (obj : Nat) : Action (Frame × BlockPool) Nat := do
  let (f, p) ← Action.read
  allocateLoop obj (stepBound f p)

/-- Whether the frame's own blocks hold local index `i` below their top. -/
def holds (f : Frame) (p : BlockPool) (i : Nat) : Bool :=
  f.blocks.contains (i / blockSlots) &&
    match p.block? (i / blockSlots) with
    | some b => b.contains (i % blockSlots)
    | none => false

/-- The handed-out local indices of the frame, block by block. -/
def handedOut (f : Frame) (p : BlockPool) : List Nat :=
  f.blocks.toList.flatMap fun b =>
    match p.block? b with
    | some blk => (List.range blk.top).map fun i => b * blockSlots + i
    | none => []

/-- The number of non-null handles in the frame's blocks. -/
def live (f : Frame) (p : BlockPool) : Nat :=
  f.blocks.foldl (fun n b => n + ((p.block? b).map Block.live).getD 0) 0

/-- Bytes of the frame's blocks. -/
def memory (f : Frame) : Nat := f.blocks.size * blockBytes

end Frame

namespace Chain

/-- A chain of one frame with one block. -/
def create : Action BlockPool Chain := do
  return { top := ← Frame.create }

/-- All frames, innermost first. -/
def frames (c : Chain) : List Frame := c.top :: c.outer

/-- Allocates a handle in the innermost frame. -/
def allocate (obj : Nat) : Action (Chain × BlockPool) Nat :=
  Action.focus (fun s => (s.1.top, s.2)) (fun s fp => ({ s.1 with top := fp.1 }, fp.2))
    (Frame.allocate obj)

/-- Opens a new innermost frame; the chain is unchanged when the pool has no block. -/
def pushFrame : Action (Chain × BlockPool) Unit := do
  let f ← Action.focus (fun s => s.2) (fun s p => (s.1, p)) Frame.create
  Action.update fun (c, p) => ({ top := f, outer := c.top :: c.outer }, p)

/-- Closes the innermost frame and returns its blocks to the pool; `false` when there is no
outer frame. -/
def popFrame : Action (Chain × BlockPool) Bool := do
  let (c, p) ← Action.read
  match c.outer with
  | [] => return false
  | f :: rest =>
    let p' ← Action.ofExcept (p.releaseAll c.top.blocks.toList)
    Action.write ({ top := f, outer := rest }, p')
    return true

/-- Returns the blocks of every frame to the pool, innermost frame first. -/
def release (c : Chain) (p : BlockPool) : Except Fault BlockPool :=
  p.releaseAll (c.frames.flatMap fun f => f.blocks.toList)

/-- Whether any frame holds local index `i`. -/
def framesHold (c : Chain) (p : BlockPool) (i : Nat) : Bool :=
  c.frames.any fun f => f.holds p i

/-- The handed-out local indices of every frame, innermost first. -/
def handedOut (c : Chain) (p : BlockPool) : List Nat :=
  c.frames.flatMap fun f => f.handedOut p

/-- Bytes of the blocks of every frame. -/
def memory (c : Chain) : Nat := c.frames.foldl (fun n f => n + f.memory) 0

/-- Sets the announced capacity of the innermost frame. -/
def setPlanned (c : Chain) (n : Nat) : Chain := { c with top := { c.top with planned := n } }

/-- Diagnostic text of a list, such as `[a, b]`. -/
def listText (xs : List String) : String := "[" ++ ", ".intercalate xs ++ "]"

/-- Diagnostic text of a frame and the frames outside it. -/
def framesText (f : Frame) : List Frame → String
  | [] => frameText f "None"
  | g :: gs => frameText f ("Some(" ++ framesText g gs ++ ")")
where
  frameText (f : Frame) (link : String) : String :=
    "HandleBlockChain \x7b blocks: " ++
      listText (f.blocks.toList.map fun b => "BlockId(" ++ toString b ++ ")") ++
      ", last: " ++ toString f.last ++ ", free_list: " ++
      listText (f.free.toList.map fun i => "LocalIndex(" ++ toString i ++ ")") ++
      ", allocate_before_rebuild: " ++ toString f.allocBeforeRebuild ++
      ", planned_capacity: " ++ toString f.planned ++ ", pop_frame_link: " ++ link ++ " \x7d"

/-- Diagnostic text of a chain, nesting the outer frames. -/
def text (c : Chain) : String := framesText c.top c.outer

end Chain

end GcRoots

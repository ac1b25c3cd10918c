import GcRoots.Action
import GcRoots.Arena

namespace GcRoots

/-!
# Handle blocks and the block pool

Local handles live in blocks of 32 slots. A block fills from the bottom: `top` counts the
slots handed out, and the slots below `top` are the block's handles (a cleared handle leaves a
null slot below `top`).

The block pool owns every block. It hands out blocks from a first-in first-out queue of
released blocks, and otherwise takes the next block of its arena, up to a fixed number of
blocks. A released block is cleared (its handed-out slots set to null, `top` back to 0) and
joins the end of the queue.

A local index names slot `i % 32` of block `i / 32`.
-/

/-- Slots per handle block. -/
def blockSlots : Nat := 32

/-- Bytes of one handle block: 32 slot words and the top word. -/
def blockBytes : Nat := 264

/-- A handle block. -/
structure Block where
  slots : Array Nat := Array.replicate blockSlots 0
  top : Nat := 0
  deriving Repr

namespace Block

/-- Hands out the next slot for `obj`; `none` when the block is full. -/
def bump (b : Block) (obj : Nat) : Option (Block × Nat) :=
  if b.top < blockSlots then
    some ({ b with slots := b.slots.set! b.top obj, top := b.top + 1 }, b.top)
  else none

/-- Nulls the handed-out slots and resets `top`. -/
def clear (b : Block) : Block :=
  { slots := (List.range b.top).foldl (fun a i => a.set! i 0) b.slots, top := 0 }

/-- Whether slot `i` has been handed out. -/
def contains (b : Block) (i : Nat) : Bool := decide (i < b.top)

/-- The handed-out positions whose slot is not null. -/
def livePositions (b : Block) : List Nat :=
  (List.range b.top).filter fun i => b.slots.getD i 0 != 0

/-- The number of handed-out slots that are not null. -/
def live (b : Block) : Nat := b.livePositions.length

end Block

/-- The block pool. -/
structure BlockPool where
  /-- How many blocks the arena may hand out. -/
  capacity : Nat
  blocks : Array Block := #[]
  /-- Released blocks, first out at the head. -/
  queue : List Nat := []
  deriving Repr

namespace BlockPool

/-- Hands out a block: the head of the queue, else the next block of the arena. Taking a
block from the arena reports a new arena chunk when it starts one, then the block. -/
def allocate : Action BlockPool Nat := do
  let p ← Action.read
  match p.queue with
  | b :: rest =>
    Action.write { p with queue := rest }
    return b
  | [] =>
    if p.blocks.size < p.capacity then
      let i := p.blocks.size
      if Arena.startsChunk i then
        Action.emit (.arenaChunk (Arena.chunkOf i) (Arena.chunkLen (Arena.chunkOf i)))
      Action.write { p with blocks := p.blocks.push {} }
      Action.emit (.blockAllocated i)
      return i
    else Action.fail (.blocksExhausted p.capacity)

/-- The block with number `b`, when the pool has handed it out. -/
def block? (p : BlockPool) (b : Nat) : Option Block := p.blocks[b]?

/-- Clears block `b` and queues it for reuse. -/
def release (p : BlockPool) (b : Nat) : Except Fault BlockPool :=
  match p.blocks[b]? with
  | some blk => .ok { p with blocks := p.blocks.set! b blk.clear, queue := p.queue ++ [b] }
  | none => .error (.unknownBlock b)

/-- Releases blocks in order. -/
def releaseAll (p : BlockPool) : List Nat → Except Fault BlockPool
  | [] => .ok p
  | b :: bs => do
    let p' ← p.release b
    p'.releaseAll bs

/-- The content of the slot with local index `i`, when its block exists. -/
def slot? (p : BlockPool) (i : Nat) : Option Nat :=
  (p.blocks[i / blockSlots]?).map fun b => b.slots.getD (i % blockSlots) 0

/-- Writes the slot with local index `i`; `none` when its block does not exist. -/
def store? (p : BlockPool) (i : Nat) (obj : Nat) : Option BlockPool :=
  match p.blocks[i / blockSlots]? with
  | some b =>
    let b' := { b with slots := b.slots.set! (i % blockSlots) obj }
    some { p with blocks := p.blocks.set! (i / blockSlots) b' }
  | none => none

/-- Writes the slot with local index `i`, or leaves the pool unchanged. -/
def store (p : BlockPool) (i : Nat) (obj : Nat) : BlockPool :=
  (p.store? i obj).getD p

/-- Bytes reserved by the arena of blocks. -/
def memory (p : BlockPool) : Nat := Arena.reservedBytes p.blocks.size blockBytes

/-- Diagnostic text, such as `HandleBlockPool { blocks_allocated: 1, pooled_blocks: 0 }`. -/
def text (p : BlockPool) : String :=
  "HandleBlockPool \x7b blocks_allocated: " ++ toString p.blocks.size ++ ", pooled_blocks: " ++
    toString p.queue.length ++ " \x7d"

end BlockPool

end GcRoots

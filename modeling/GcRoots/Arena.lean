import GcRoots.Action
import GcRoots.Word

namespace GcRoots
namespace Arena

/-!
# Chunked arenas

An arena hands out element indices 0, 1, 2, … up to a fixed capacity and never moves an
element. Its storage grows in chunks of doubling size: chunk `c` holds `16 · 2^c` elements, so
chunk 0 holds indices 0–15, chunk 1 indices 16–47, chunk 2 indices 48–111, and so on. Index `i`
lies in chunk `log₂(i + 16) - 4`.

A chunk is reserved when the first of its indices is handed out, and the bytes an arena
reserves are the sizes of its reserved chunks. Setting up an arena of capacity `n > 0`
computes `n - 1 + 16` on a machine word, which overflows for the largest capacities.

An `Arena α` keeps a table with a place for every chunk its capacity needs, each place empty
until its chunk is reserved, and the number of elements handed out. `locate` splits an index
into its chunk and its offset in the chunk; `push` hands out the next index, reserving its chunk
and filling it with default elements when the index is the first of its chunk; `get` reads an
element handed out, and `modify` writes one.

Main statement: `chunkOf_first` (the first index of chunk `c` lies in chunk `c`).
-/

/-- The number of elements chunk `c` holds. -/
def chunkLen (c : Nat) : Nat := 16 * Nat.pow 2 c

/-- The chunk that holds index `i`. -/
def chunkOf (i : Nat) : Nat := Nat.log2 (i + 16) - 4

/-- The first index of chunk `c`. -/
def chunkStart (c : Nat) : Nat := 16 * Nat.pow 2 c - 16

/-- Whether index `i` is the first index of its chunk, so that handing it out reserves a chunk. -/
def startsChunk (i : Nat) : Bool := chunkStart (chunkOf i) == i

/-- The number of chunks reserved once `len` indices have been handed out. -/
def chunksInUse (len : Nat) : Nat :=
  if len = 0 then 0 else chunkOf (len - 1) + 1

/-- The number of elements in the reserved chunks once `len` indices have been handed out. -/
def reservedElements (len : Nat) : Nat := 16 * (Nat.pow 2 (chunksInUse len) - 1)

/-- Bytes reserved for elements of `size` bytes once `len` indices have been handed out. -/
def reservedBytes (len size : Nat) : Nat := reservedElements len * size

/-- Whether an arena of this capacity can be set up without overflowing a word. -/
def capacityFits (capacity : Nat) : Bool :=
  capacity == 0 || (capacity - 1 + 16 < wordModulus)

/-- Index `i` split into its chunk and its offset in the chunk: with `i + 16` between `2^b` and
`2^(b+1)`, the chunk is `b - 4` and the offset is `i + 16 - 2^b`. -/
def locate (i : Nat) : Nat × Nat :=
  let biased := i + 16
  let bit := Nat.log2 biased
  (bit - 4, biased - Nat.pow 2 bit)

/-- The number of chunks an arena of this capacity has a place for: those of its indices. -/
def chunkCount (capacity : Nat) : Nat :=
  if capacity = 0 then 0 else (locate (capacity - 1)).1 + 1

theorem chunkOf_lt_sixteen {i : Nat} (h : i < 16) : chunkOf i = 0 := by
  unfold chunkOf
  have h1 : 16 ≤ i + 16 := by omega
  have h2 : i + 16 < 32 := by omega
  have hl : Nat.log2 (i + 16) = 4 := by
    rw [Nat.log2_eq_iff (by omega)]
    constructor <;> omega
  omega

theorem chunkOf_first (c : Nat) : chunkOf (chunkStart c) = c := by
  unfold chunkOf chunkStart
  have hp : 1 ≤ Nat.pow 2 c := Nat.one_le_two_pow
  have h4 : Nat.pow 2 (c + 4) = Nat.pow 2 c * 16 := Nat.pow_add 2 c 4
  have heq : 16 * Nat.pow 2 c - 16 + 16 = Nat.pow 2 (c + 4) := by omega
  have hl : Nat.log2 (Nat.pow 2 (c + 4)) = c + 4 := Nat.log2_two_pow
  rw [heq, hl]
  omega

/-- Chunk 2 starts at index 48. -/
example : chunkStart 2 = 48 ∧ chunkOf 47 = 1 ∧ chunkOf 48 = 2 := by decide

end Arena

/-- An arena of elements of type `α`. -/
structure Arena (α : Type) where
  /-- A place for each chunk; `none` until the chunk is reserved. -/
  chunks : Array (Option (Array α))
  /-- The number of elements handed out. -/
  len : Nat
  capacity : Nat
  deriving Repr

namespace Arena

variable {α : Type}

/-- An empty arena for `capacity` elements, with an empty place for each chunk it needs. Computing
the chunk count overflows a word when the capacity does not fit. -/
def withCapacity (capacity : Nat) : Except Fault (Arena α) :=
  if capacityFits capacity then
    .ok { chunks := Array.replicate (chunkCount capacity) none, len := 0, capacity }
  else .error .additionOverflow

/-- The place of chunk `c`; a fault when the table has no place `c`. -/
def chunk? (a : Arena α) (c : Nat) : Except Fault (Option (Array α)) :=
  match a.chunks[c]? with
  | some place => .ok place
  | none => .error (.indexOutOfBounds a.chunks.size c)

/-- Hands out the next index, or `none` when the arena is at capacity. The first index of a chunk
reserves the chunk, filled with default elements, and records it. -/
def push [Inhabited α] : Action (Arena α) (Option Nat) := do
  let a ← Action.read
  if a.capacity ≤ a.len then return none
  let c := (locate a.len).1
  match ← Action.ofExcept (a.chunk? c) with
  | some _ => Action.write { a with len := a.len + 1 }
  | none =>
    Action.emit (.arenaChunk c (chunkLen c))
    Action.write
      { a with chunks := a.chunks.set! c (some (Array.replicate (chunkLen c) default)),
               len := a.len + 1 }
  return some a.len

/-- The element at `index`, if it has been handed out. -/
def get (a : Arena α) (index : Nat) : Except Fault (Option α) := do
  if a.len ≤ index then return none
  let (c, o) := locate index
  match ← a.chunk? c with
  | none => return none
  | some elems =>
    match elems[o]? with
    | some x => return some x
    | none => throw (.indexOutOfBounds elems.size o)

/-- The arena after a write of `f x` through the reference to the element `x` at `index`; an
index not handed out has no reference, and writing leaves the arena as it was. -/
def modify (a : Arena α) (index : Nat) (f : α → α) : Arena α :=
  if a.len ≤ index then a
  else
    let (c, o) := locate index
    match a.chunks[c]? with
    | some (some elems) => { a with chunks := a.chunks.set! c (some (elems.modify o f)) }
    | _ => a

/-- Whether chunk `c` is reserved. -/
def isReserved (a : Arena α) (c : Nat) : Bool := (a.chunks[c]?).join.isSome

/-- Bytes held by the reserved chunks, for elements of `size` bytes. -/
def reserved (a : Arena α) (size : Nat) : Nat :=
  (List.range a.chunks.size).foldl
    (fun total c => if a.isReserved c then total + chunkLen c * size else total) 0

end Arena

end GcRoots

import GcRoots.Action
import GcRoots.Arena
import GcRoots.Text

namespace GcRoots

/-!
# Slot storage

A slot storage holds object slots in segments of 64. Each segment has an allocation bit per
slot. Segments are handed out by a chunked arena whose capacity is the storage capacity
divided by 64, rounded up.

The storage keeps a stack of segments that have a free slot. To add an object it takes the
segment on top of the stack, or opens a new segment when the stack is empty, and uses the
lowest free slot of it. A segment that fills up leaves the stack. A segment that was full and
loses a slot goes back on top. The index of a slot is its segment number times 64 plus its
position in the segment.

A scan of a segment reads its allocation word and takes the set bits lowest first, clearing each
one it takes, until the word is zero.
-/

/-- Slots per segment. -/
def segmentSlots : Nat := 64

/-- Bytes of one segment: 64 slot words and the allocation word. -/
def segmentBytes : Nat := 520

/-- Bytes of the storage record itself. -/
def storageRecordBytes : Nat := 96

/-- A segment: which slots are allocated, and what each slot holds (0 is null). -/
structure Segment where
  used : Array Bool := Array.replicate segmentSlots false
  slots : Array Nat := Array.replicate segmentSlots 0
  deriving Repr

namespace Segment

/-- The lowest unallocated position, if any. -/
def firstFree? (g : Segment) : Option Nat :=
  (List.range segmentSlots).find? fun b => !g.used.getD b false

/-- Whether every position is allocated. -/
def isFull (g : Segment) : Bool :=
  (List.range segmentSlots).all fun b => g.used.getD b false

/-- The allocation word: bit `b` is set when position `b` is allocated. -/
def allocationWord (g : Segment) : Nat :=
  (List.range segmentSlots).foldl (fun w b => if g.used.getD b false then w ||| 1 <<< b else w) 0

/-- The positions a scan of the word `bits` reaches, one per turn: each turn takes the lowest set
bit and clears it, and the scan stops at the zero word. A word has 64 bits, so a scan of one is
given 64 turns. -/
def bitScan : (turns bits : Nat) → List Nat
  | 0, _ => []
  | turns + 1, bits =>
    if bits = 0 then [] else trailingZeros bits :: bitScan turns (clearLowestBit bits)

/-- The allocated positions, as the scan of the allocation word reaches them. -/
def livePositions (g : Segment) : List Nat := bitScan wordBits g.allocationWord

end Segment

/-- A slot storage. -/
structure SlotStorage where
  /-- The name used in diagnostics. -/
  name : String
  /-- How many segments the arena may hand out. -/
  segmentCapacity : Nat
  segments : Array Segment := #[]
  /-- Segments with a free slot; the head is the top of the stack. -/
  partlyUsed : List Nat := []
  /-- The number of allocated slots. -/
  count : Nat := 0
  deriving Repr

namespace SlotStorage

/-- An empty storage for `capacity` slots. -/
def create (name : String) (capacity : Nat) : SlotStorage :=
  { name, segmentCapacity := (capacity + segmentSlots - 1) / segmentSlots }

/-- The content of slot `i` when its segment exists (allocated or not). -/
def slot? (s : SlotStorage) (i : Nat) : Option Nat :=
  (s.segments[i / segmentSlots]?).map fun g => g.slots.getD (i % segmentSlots) 0

/-- Whether slot `i` is allocated. -/
def isAllocated (s : SlotStorage) (i : Nat) : Bool :=
  match s.segments[i / segmentSlots]? with
  | some g => g.used.getD (i % segmentSlots) false
  | none => false

/-- Writes slot `i` when its segment exists; `none` when it does not. -/
def store? (s : SlotStorage) (i : Nat) (obj : Nat) : Option SlotStorage :=
  match s.segments[i / segmentSlots]? with
  | some g =>
    let g' := { g with slots := g.slots.set! (i % segmentSlots) obj }
    some { s with segments := s.segments.set! (i / segmentSlots) g' }
  | none => none

/-- Writes slot `i`, leaving the storage unchanged when the slot does not exist. -/
def store (s : SlotStorage) (i : Nat) (obj : Nat) : SlotStorage :=
  (s.store? i obj).getD s

/-- The number of segments handed out. -/
def segmentCount (s : SlotStorage) : Nat := s.segments.size

/-- The storage with a fresh segment opened on top of the stack, when the arena has room. -/
def openSegment? (s : SlotStorage) : Option SlotStorage :=
  if s.segments.size < s.segmentCapacity then
    some { s with segments := s.segments.push {}, partlyUsed := s.segments.size :: s.partlyUsed }
  else none

/-- Places `obj` in the lowest free slot of segment `seg`, which is on top of the stack. -/
def placeIn (s : SlotStorage) (seg : Nat) (obj : Nat) : Option (SlotStorage × Nat) :=
  match s.segments[seg]? with
  | none => none
  | some g =>
    match g.firstFree? with
    | none => none
    | some b =>
      let g' : Segment := { used := g.used.set! b true, slots := g.slots.set! b obj }
      some ({ s with
        segments := s.segments.set! seg g'
        partlyUsed := if g'.isFull then s.partlyUsed.tail else s.partlyUsed
        count := s.count + 1 }, seg * segmentSlots + b)

/-- Adds `obj`: the segment on top of the stack, else a new segment; `none` when the storage
is full. -/
def insert? (s : SlotStorage) (obj : Nat) : Option (SlotStorage × Nat) :=
  match s.partlyUsed with
  | seg :: _ => s.placeIn seg obj
  | [] =>
    match s.openSegment? with
    | some s' => s'.placeIn s.segments.size obj
    | none => none

/-- Adds `obj` and reports it: a new segment that starts an arena chunk records the chunk, and
a full storage records its exhaustion and yields `none`. -/
def add (obj : Nat) : Action SlotStorage (Option Nat) := do
  let s ← Action.read
  if s.partlyUsed.isEmpty && s.segments.size < s.segmentCapacity &&
      Arena.startsChunk s.segments.size then
    let c := Arena.chunkOf s.segments.size
    Action.emit (.arenaChunk c (Arena.chunkLen c))
  if s.partlyUsed.isEmpty && !(s.segments.size < s.segmentCapacity) then
    Action.emit (.storageExhausted s.name s.count)
    return none
  match s.insert? obj with
  | some (s', i) =>
    Action.write s'
    return some i
  | none => Action.fail .segmentFull

/-- Releases slot `i`: it must lie in a handed-out segment and be allocated. The slot is
cleared, and a segment that was full goes back on top of the stack. -/
def remove (s : SlotStorage) (i : Nat) : Except Fault SlotStorage :=
  let seg := i / segmentSlots
  let b := i % segmentSlots
  match s.segments[seg]? with
  | none => .error (.slotOutOfRange s.name i)
  | some g =>
    if g.used.getD b false then
      .ok { s with
        segments := s.segments.set! seg { used := g.used.set! b false, slots := g.slots.set! b 0 }
        partlyUsed := if g.isFull then seg :: s.partlyUsed else s.partlyUsed
        count := s.count - 1 }
    else .error (.unallocatedSlot s.name i)

/-- The allocated slot indices of the given segments, segment by segment, ascending. -/
def liveIndicesIn (s : SlotStorage) (segs : List Nat) : List Nat :=
  segs.flatMap fun seg =>
    match s.segments[seg]? with
    | some g => g.livePositions.map fun b => seg * segmentSlots + b
    | none => []

/-- All allocated slot indices in storage order. -/
def liveIndices (s : SlotStorage) : List Nat :=
  s.liveIndicesIn (List.range s.segments.size)

/-- Bytes used: the record and the reserved arena chunks. -/
def memory (s : SlotStorage) : Nat :=
  storageRecordBytes + Arena.reservedBytes s.segments.size segmentBytes

/-- Diagnostic text, such as `SlotStorage { name: "test", allocation_count: 1, segments: 1 }`. -/
def text (s : SlotStorage) : String :=
  "SlotStorage \x7b name: " ++ Text.quoted s.name ++ ", allocation_count: " ++ toString s.count ++
    ", segments: " ++ toString s.segments.size ++ " \x7d"

/-- A snapshot of the segment count with a cursor, shared by the workers of one parallel walk
over the storage. Each claim takes the segment under the cursor and moves the cursor on, also
when it finds no segment left. -/
structure Cursor where
  storage : String
  segmentCount : Nat
  next : Nat := 0
  deriving Repr

/-- A cursor over the segments handed out so far. -/
def cursor (s : SlotStorage) : Cursor :=
  { storage := s.name, segmentCount := s.segments.size }

/-- One worker's walk: the segments it claims, and the cursor after its last, failed claim. -/
def Cursor.claimAll (c : Cursor) : List Nat × Cursor :=
  (List.range' c.next (c.segmentCount - c.next), { c with next := max c.next c.segmentCount + 1 })

/-- Diagnostic text, such as `ParState { storage: "test", segment_count: 1, next_segment: 0 }`. -/
def Cursor.text (c : Cursor) : String :=
  "ParState \x7b storage: " ++ Text.quoted c.storage ++ ", segment_count: " ++
    toString c.segmentCount ++ ", next_segment: " ++ toString c.next ++ " \x7d"

end SlotStorage

end GcRoots

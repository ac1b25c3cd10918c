import GcRoots.Handle

namespace GcRoots

/-!
# Faults

A fault is a broken contract detected by the library: an operation stops at the point of the
check and leaves its state as far as it got. Each constructor names one cause, and
`Fault.message` gives its diagnostic text in one place.

The exhaustion of a storage under the "exit" strategy is not a fault of one operation but the
end of the whole process; it is `Fault.outOfMemory`, which callers never recover from.
-/

/-- Which configuration limit a table was built beyond. -/
inductive ConfigLimit where
  | globalCapacity
  | weakGlobalCapacity
  | handleBlocks
  deriving DecidableEq, Repr

/-- The causes of a stopped operation. -/
inductive Fault where
  /-- A strong-only operation got a weak handle. -/
  | weakGivenForStrong (h : Handle)
  /-- A weak-only operation got a strong handle. -/
  | strongGivenForWeak (h : Handle)
  /-- A global operation got a strong handle that is not global. -/
  | notGlobal (h : Handle)
  /-- A local operation got a strong handle that is not local. -/
  | notLocal (h : Handle)
  /-- A local handle destroyed on a thread whose frames do not hold it. -/
  | foreignLocal (h : Handle) (thread : Nat)
  /-- A local handle whose slot is already empty. -/
  | destroyedTwice (h : Handle)
  /-- A handle resolved through a missing or empty slot. -/
  | invalidHandle (h : Handle)
  /-- A handle that must name an object resolved to null. -/
  | nullRead (h : Handle)
  /-- A storage index beyond the storage's segments. -/
  | slotOutOfRange (storage : String) (index : Nat)
  /-- A storage index whose slot is not allocated. -/
  | unallocatedSlot (storage : String) (index : Nat)
  /-- The block pool has handed out all of its blocks. -/
  | blocksExhausted (capacity : Nat)
  /-- A block number the pool never handed out. -/
  | unknownBlock (block : Nat)
  /-- A free-list entry whose slot is occupied. -/
  | freeEntryInUse (index : Nat)
  /-- A segment on the stack of partly used segments has no free slot. -/
  | segmentFull
  /-- A free-list rebuild met a block that is not full. -/
  | rebuildWithUnusedHandles (top : Nat)
  /-- A thread used after it was detached. -/
  | usedAfterDetach (thread : Nat)
  | attachDuringSafepoint
  | detachDuringSafepoint
  | safepointInProgress
  | foreignSafepoint
  | notAtSafepoint
  /-- A thread that a finished pass did not claim. -/
  | threadNotClaimed (thread : Nat) (threadParity : Nat) (parity : Nat)
  /-- A table configured beyond what handle words can address. -/
  | configTooLarge (limit : ConfigLimit)
  | additionOverflow
  | multiplicationOverflow
  /-- An index past the end of a table of `len` entries. -/
  | indexOutOfBounds (len index : Nat)
  /-- The null object was asked for by number. -/
  | nullObject (n : Nat)
  /-- The process ends: a storage is exhausted under the exit strategy. -/
  | outOfMemory (storage : String) (inUse : Nat)
  deriving Repr

namespace Fault

/-- The diagnostic text of a fault. -/
def message : Fault → String
  | weakGivenForStrong h => "strong accessor applied to weak handle " ++ h.text
  | strongGivenForWeak h => "weak accessor applied to strong handle " ++ h.text
  | notGlobal h => "invalid global handle " ++ h.text
  | notLocal h => "invalid local handle " ++ h.text
  | foreignLocal h t => h.text ++ " is not a local handle of ContextId(" ++ toString t ++ ")"
  | destroyedTwice h => "local handle " ++ h.text ++ " destroyed twice"
  | invalidHandle h => "invalid handle " ++ h.text
  | nullRead h => "null read from handle " ++ h.text
  | slotOutOfRange s i => s ++ ": slot " ++ toString i ++ " out of range"
  | unallocatedSlot s i => s ++ ": release of unallocated slot " ++ toString i
  | blocksExhausted c =>
    "out of handle blocks (" ++ toString c ++ " blocks of 32 handles in use)"
  | unknownBlock b => "BlockId(" ++ toString b ++ ") not allocated by this pool"
  | freeEntryInUse i => "free list entry LocalIndex(" ++ toString i ++ ") in use"
  | segmentFull => "partial segment has no free slot"
  | rebuildWithUnusedHandles top =>
    "assertion `left == right` failed: rebuild with unused handles\n  left: " ++
      toString top ++ "\n right: 32"
  | usedAfterDetach t => "ContextId(" ++ toString t ++ ") used after detach"
  | attachDuringSafepoint => "attach during safepoint"
  | detachDuringSafepoint => "detach during safepoint"
  | safepointInProgress => "safepoint already in progress"
  | foreignSafepoint => "safepoint belongs to another thread registry"
  | notAtSafepoint => "should be at safepoint"
  | threadNotClaimed t tp p =>
    "assertion `left == right` failed: ContextId(" ++ toString t ++
      ") not claimed in pass with parity " ++ toString p ++ "\n  left: " ++ toString tp ++
      "\n right: " ++ toString p
  | configTooLarge .globalCapacity =>
    "assertion failed: config.global_capacity <= max_index"
  | configTooLarge .weakGlobalCapacity =>
    "assertion failed: config.weak_global_capacity <= max_index"
  | configTooLarge .handleBlocks =>
    "assertion failed: config.max_handle_blocks <= max_index / HANDLE_BLOCK_SIZE"
  | additionOverflow => "attempt to add with overflow"
  | multiplicationOverflow => "attempt to multiply with overflow"
  | indexOutOfBounds len i =>
    "index out of bounds: the len is " ++ toString len ++ " but the index is " ++ toString i
  | nullObject n => "object " ++ toString n ++ " is null"
  | outOfMemory s n =>
    "[handles] Out of memory: cannot allocate in " ++ s ++ " (" ++ toString n ++ " in use)"

/-- Whether the fault ends the whole process rather than one operation. -/
def isFatal : Fault → Bool
  | outOfMemory _ _ => true
  | _ => false

end Fault

end GcRoots

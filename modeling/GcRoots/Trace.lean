namespace GcRoots

/-!
# Trace entries

Operations report what they do as a sequence of trace entries: spans opened around a root pass
call or a root group body, and events for arena growth, block allocation, free-list rebuilds,
storage exhaustion and the setup and teardown of root iterators.

A `Journal` collects the entries of a run together with the counter that numbers root scans.
-/

/-- The four kinds of root iterator. -/
inductive IteratorKind where
  | strong
  | weak
  | concurrentWeak
  | thread
  deriving DecidableEq, Repr

/-- The name under which an iterator kind is reported. -/
def IteratorKind.name : IteratorKind → String
  | .strong => "strong"
  | .weak => "weak"
  | .concurrentWeak => "concurrent_weak"
  | .thread => "thread"

/-- Severity of a trace entry. -/
inductive Level where
  | trace
  | debug
  | warn
  deriving DecidableEq, Repr

/-- The name under which a level is reported. -/
def Level.name : Level → String
  | .trace => "TRACE"
  | .debug => "DEBUG"
  | .warn => "WARN"

/-- One span or event. -/
inductive TraceEntry where
  /-- A span around one worker call of an iterator. -/
  | rootPass (iterator : IteratorKind) (scan : Nat)
  /-- A span around one execution of a root group body. -/
  | rootGroup (group : String)
  /-- An iterator was set up; strong and thread iterators report the parity they advanced to. -/
  | iteratorSetup (iterator : IteratorKind) (scan : Nat) (parity : Option Nat)
  /-- An iterator was torn down. -/
  | iteratorTeardown (iterator : IteratorKind) (scan : Nat)
  /-- An arena started chunk `chunk`, which holds `len` elements. -/
  | arenaChunk (chunk len : Nat)
  /-- The block pool handed out a block it had never handed out before. -/
  | blockAllocated (block : Nat)
  /-- A chain rebuilt its free list. -/
  | freeListRebuild (blocks free allocateBeforeRebuild : Nat)
  /-- A storage had no room for one more slot. -/
  | storageExhausted (storage : String) (allocated : Nat)
  deriving Repr

/-- The level at which each event is reported; spans carry none. -/
def TraceEntry.level : TraceEntry → Option Level
  | .rootPass .. => none
  | .rootGroup .. => none
  | .iteratorSetup .. => some .debug
  | .iteratorTeardown .. => some .debug
  | .arenaChunk .. => some .debug
  | .blockAllocated .. => some .trace
  | .freeListRebuild .. => some .trace
  | .storageExhausted .. => some .warn

/-- The entries of a run so far, and the number of root scans begun. -/
structure Journal where
  entries : Array TraceEntry := #[]
  scans : Nat := 0

end GcRoots

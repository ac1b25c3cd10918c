import GcRoots.Storage.Basic
import GcRoots.Block.Chain

namespace GcRoots

/-!
# The handle table

A handle table holds the global and the weak global storages and the pool of local handle
blocks. It resolves handles to objects, creates and destroys global and weak global handles,
and answers which kind of handle a word names.

Resolving a strong handle requires its slot to exist and hold an object; resolving a weak
handle requires its slot to exist and gives null once the slot was cleared. The guarded
variant checks nothing and gives null for any missing slot.
-/

/-- What to do when a storage has no room for a new handle. -/
inductive FailStrategy where
  /-- End the process with a message. -/
  | exit
  /-- Give the null handle. -/
  | returnNull
  deriving DecidableEq, Repr

/-- Limits of a handle table. -/
structure Config where
  globalCapacity : Nat := 1048576
  weakGlobalCapacity : Nat := 1048576
  maxLocalCapacity : Nat := 65536
  maxHandleBlocks : Nat := 1048576
  strategy : FailStrategy := .exit
  deriving Repr

/-- The largest index a handle word can carry. -/
def maxHandleIndex : Nat := Nat.pow 2 62 - 2

namespace Config

/-- Diagnostic text, such as `HandleTableConfig { global_capacity: 1048576, … }`. -/
def text (c : Config) : String :=
  "HandleTableConfig \x7b global_capacity: " ++ toString c.globalCapacity ++
    ", weak_global_capacity: " ++ toString c.weakGlobalCapacity ++
    ", max_local_capacity: " ++ toString c.maxLocalCapacity ++
    ", max_handle_blocks: " ++ toString c.maxHandleBlocks ++
    ", alloc_fail_strategy: " ++
    (match c.strategy with | .exit => "ExitOom" | .returnNull => "ReturnNull") ++ " \x7d"

end Config

/-- A handle table. -/
structure Table where
  config : Config
  globals : SlotStorage
  weaks : SlotStorage
  pool : BlockPool
  deriving Repr

/-- The name of the global storage. -/
def globalStorageName : String := "global handles"

/-- The name of the weak global storage. -/
def weakStorageName : String := "weak global handles"

namespace Table

/-- A table for the configuration; each limit must fit what handle words can address. -/
def create (c : Config) : Except Fault Table :=
  if c.globalCapacity > maxHandleIndex then .error (.configTooLarge .globalCapacity)
  else if c.weakGlobalCapacity > maxHandleIndex then .error (.configTooLarge .weakGlobalCapacity)
  else if c.maxHandleBlocks > maxHandleIndex / blockSlots then .error (.configTooLarge .handleBlocks)
  else .ok {
    config := c
    globals := SlotStorage.create globalStorageName c.globalCapacity
    weaks := SlotStorage.create weakStorageName c.weakGlobalCapacity
    pool := { capacity := c.maxHandleBlocks } }

/-- A storage that has no room: the null handle, or the end of the process. -/
def exhausted (storage : SlotStorage) (strategy : FailStrategy) : Action Table (Option Handle) :=
  match strategy with
  | .returnNull => return none
  | .exit => Action.fail (.outOfMemory storage.name storage.count)

/-- A global handle for `obj` (null for the null object). -/
def makeGlobal (obj : Nat) (strategy : FailStrategy) : Action Table (Option Handle) := do
  if obj = 0 then return none
  match ← Action.focus (fun t => t.globals) (fun t s => { t with globals := s })
      (SlotStorage.add obj) with
  | some i => return some (.strong (.global i))
  | none => exhausted (← Action.read).globals strategy

/-- A weak global handle for `obj` (null for the null object). -/
def makeWeak (obj : Nat) (strategy : FailStrategy) : Action Table (Option Handle) := do
  if obj = 0 then return none
  match ← Action.focus (fun t => t.weaks) (fun t s => { t with weaks := s })
      (SlotStorage.add obj) with
  | some i => return some (.weak i)
  | none => exhausted (← Action.read).weaks strategy

/-- The slot index of a strong handle; a weak handle is refused. -/
def strongRef (h : Handle) : Except Fault SlotRef :=
  match h with
  | .strong s => .ok s
  | .weak _ => .error (.weakGivenForStrong h)

/-- The slot index of a weak handle; a strong handle is refused. -/
def weakRef (h : Handle) : Except Fault Nat :=
  match h with
  | .weak i => .ok i
  | .strong _ => .error (.strongGivenForWeak h)

/-- Destroys a global handle; the null handle is ignored. -/
def destroyGlobal (t : Table) : Option Handle → Except Fault Table
  | none => .ok t
  | some h => do
    match ← strongRef h with
    | .global i => return { t with globals := ← t.globals.remove i }
    | .threadLocal _ => .error (.notGlobal h)

/-- Destroys a weak global handle; the null handle is ignored. -/
def destroyWeak (t : Table) : Option Handle → Except Fault Table
  | none => .ok t
  | some h => do
    let i ← weakRef h
    return { t with weaks := ← t.weaks.remove i }

/-- Whether a weak handle's slot is missing or null. -/
def isWeakCleared (t : Table) (h : Handle) : Except Fault Bool := do
  let i ← weakRef h
  return match t.weaks.slot? i with
    | some v => v == 0
    | none => true

/-- The content of the slot a handle names, when that slot exists. -/
def slot? (t : Table) : Handle → Option Nat
  | .weak i => t.weaks.slot? i
  | .strong (.global i) => t.globals.slot? i
  | .strong (.threadLocal i) => t.pool.slot? i

/-- Writes the slot a handle names; `none` when it does not exist. -/
def store? (t : Table) (h : Handle) (obj : Nat) : Option Table :=
  match h with
  | .weak i => (t.weaks.store? i obj).map fun s => { t with weaks := s }
  | .strong (.global i) => (t.globals.store? i obj).map fun s => { t with globals := s }
  | .strong (.threadLocal i) => (t.pool.store? i obj).map fun p => { t with pool := p }

/-- Resolves a handle: a weak handle's slot must exist; a strong handle's slot must exist and
hold an object. The null handle resolves to null (0). -/
def resolve (t : Table) : Option Handle → Except Fault Nat
  | none => .ok 0
  | some h =>
    match h with
    | .weak _ =>
      match t.slot? h with
      | some v => .ok v
      | none => .error (.invalidHandle h)
    | .strong _ =>
      match t.slot? h with
      | some v => if v = 0 then .error (.invalidHandle h) else .ok v
      | none => .error (.invalidHandle h)

/-- Resolves a handle word without checks: null when the word is null or the slot is missing. -/
def resolveGuarded (t : Table) (w : Nat) : Nat :=
  match Handle.ofWord? w with
  | some h => (t.slot? h).getD 0
  | none => 0

/-- Resolves a handle that must name an object. -/
def resolveNonNull (t : Table) (h : Handle) : Except Fault Nat := do
  let v ← t.resolve (some h)
  if v = 0 then .error (.nullRead h) else .ok v

/-- Whether a handle is a global handle whose slot is allocated. -/
def isGlobal (t : Table) : Handle → Bool
  | .strong (.global i) => t.globals.isAllocated i
  | _ => false

/-- Whether a handle is a weak global handle whose slot is allocated. -/
def isWeakGlobal (t : Table) : Handle → Bool
  | .weak i => t.weaks.isAllocated i
  | _ => false

/-- Diagnostic text of the table. -/
def text (t : Table) : String :=
  "HandleTable \x7b global_handles: " ++ t.globals.text ++ ", weak_global_handles: " ++
    t.weaks.text ++ ", block_pool: " ++ t.pool.text ++ " \x7d"

end Table

end GcRoots

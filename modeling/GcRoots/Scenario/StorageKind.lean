import GcRoots.Storage.Basic
import GcRoots.Scenario.Script

namespace GcRoots
namespace Scenario

/-!
# Storage scenarios

A storage scenario works on one slot storage with a name and a capacity. Its steps add,
remove, read and write slots, walk the allocated slots with a visitor, and walk them through a
cursor shared by the steps of a `par` block, the way parallel workers would.
-/

instance : SlotMemory SlotStorage where
  readSlot s a := match a with
    | .storage i => (s.slot? i).getD 0
    | _ => 0
  writeSlot s a v := match a with
    | .storage i => s.store i v
    | _ => s

/-- Diagnostic text of a storage slot, with its address shown as its label. -/
def storageSlotText (s : SlotStorage) (i : Nat) : Value :=
  match s.slot? i with
  | some v => .str ("RootSlot \x7b address: slot:" ++ toString i ++ ", value: " ++
      optionalObjectText v ++ " \x7d")
  | none => .null

/-- A storage walk over the given slot indices with a visitor, strong or with a liveness
test. -/
def storageWalk (s : SlotStorage) (idx : List Nat) (alive : Option Liveness) (rw : Rewrite) :
    Sweep SlotStorage :=
  let addrs := idx.map SlotAddr.storage
  match alive with
  | none => Sweep.strong rw { state := s } addrs
  | some a => Sweep.weak a rw { state := s } addrs

/-- The state of a storage scenario: the storage, and the cursor of the enclosing `par` block. -/
structure StorageRun where
  storage : SlotStorage
  cursor : Option SlotStorage.Cursor := none

/-- One step of a storage scenario; `fuel` bounds the nesting of `par` blocks. -/
def storageStep : Nat → Value → Run StorageRun (List (String × Value))
  | 0, _ => Run.reject "steps nested too deeply"
  | fuel + 1, step => do
    let name := opName step
    let st ← Run.read
    let s := st.storage
    match name with
    | "add" =>
      let obj ← Run.decode (step.objField "obj")
      if obj = 0 then Run.reject "add needs a non-null obj"
      let i ← Run.focus (fun r => r.storage) (fun r x => { r with storage := x })
        (Run.lift (SlotStorage.add obj))
      return [("index", .natOrNull i)]
    | "remove" =>
      let i ← Run.decode (step.natField "index")
      match s.remove i with
      | .ok s' => Run.write { st with storage := s' }; return []
      | .error f => Run.lift (Action.fail f)
    | "slot" =>
      let i ← Run.decode (step.natField "index")
      match s.slot? i with
      | some v => return [("exists", .bool true), ("obj", .object v)]
      | none => return [("exists", .bool false)]
    | "store" =>
      let i ← Run.decode (step.natField "index")
      -- the object is read only for a slot that exists
      if (s.slot? i).isNone then return [("exists", .bool false)]
      let obj ← Run.decode (step.objField "obj")
      match s.store? i obj with
      | some s' => Run.write { st with storage := s' }; return [("exists", .bool true)]
      | none => return [("exists", .bool false)]
    | "is_allocated" =>
      let i ← Run.decode (step.natField "index")
      return [("value", .bool (s.isAllocated i))]
    | "stats" =>
      return [("name", .str s.name), ("count", .nat s.count), ("segments", .nat s.segmentCount),
        ("memory", .nat s.memory)]
    | "debug" =>
      match st.cursor with
      | some c => return [("value", .str c.text)]
      | none => return [("value", .str s.text)]
    | "debug_slot" =>
      let i ← Run.decode (step.natField "index")
      return [("value", storageSlotText s i)]
    | "oops_do" | "weak_oops_do" =>
      let alive ← if name == "weak_oops_do" then some <$> Run.decode (readLiveness step)
        else pure none
      let v ← Run.decode (readVisitor step false false)
      let (idx, cursor) := match st.cursor with
        | some c => let (segs, c') := c.claimAll; (s.liveIndicesIn segs, some c')
        | none => (s.liveIndices, none)
      let w := storageWalk s idx alive v.rewrite
      Run.write { storage := w.state, cursor }
      return visitsAnswer v w.visits
    | "par" =>
      let steps ← Run.decode (step.arrFieldOr "steps")
      let outer := st.cursor
      let c := s.cursor
      Run.write { st with cursor := some c }
      let answers ← runSteps (storageStep fuel) (pure []) steps
      Run.write { (← Run.read) with cursor := outer }
      return [("segment_count", .nat c.segmentCount), ("steps", .arr answers)]
    | "raw" =>
      let bits ← Run.decode (step.natField "bits")
      return rawAnswer bits
    | _ => Run.reject ("unknown op " ++ name)

/-- Answers a storage scenario. -/
def storageScenario (input : Value) (trace : Bool) : Value :=
  let setup : Except String (SlotStorage × List Value) := do
    let capacity ← input.natField "capacity"
    let name := (input.text? "name").getD "test"
    let ops ← input.arrFieldOr "ops"
    return (SlotStorage.create name capacity, ops)
  match setup with
  | .error m => setupFailure (.badInput m)
  | .ok (s, ops) =>
    match runScript trace (storageStep input.size) (pure []) ops ({ storage := s }, {}) with
    | .ok (results, aborted) _ => scriptAnswer results aborted
    | .error e _ => setupFailure e

end Scenario
end GcRoots

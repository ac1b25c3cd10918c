import GcRoots.Scenario.Table.Setup
import GcRoots.Roots.Pass

namespace GcRoots
namespace Scenario

/-!
# Steps of a table scenario

The steps that act on the table, the threads and the root sources directly. A step names a
thread by its number `t` (0 when absent) and a handle by its word, by `null`, by `"last"` (the
latest entry of the handle history) or by `"h<k>"` (entry `k`). Steps that make a handle add
its word to the history, or null when there is none.
-/

/-- Reads a history index: an optional plus sign, then one or more decimal digits, naming a
number below the word modulus. -/
def historyIndex? (cs : List Char) : Option Nat :=
  let digits := match cs with
    | '+' :: rest => rest
    | _ => cs
  if digits.isEmpty || !digits.all Char.isDigit then none
  else
    let n := digits.foldl (fun n c => n * 10 + (c.toNat - '0'.toNat)) 0
    if n < wordModulus then some n else none

/-- Reads a handle field as a word: an integer word, null, or a history entry named `"last"`
or `"h"` followed by its index. -/
def readWord (history : Array (Option Nat)) (step : Value) (k : String) : Except String Nat :=
  match step.field? k with
  | none => .error ("missing field " ++ k)
  | some .null => .ok 0
  | some (.str "last") =>
    match history.back? with
    | some w => .ok (w.getD 0)
    | none => .error "no handle last"
  | some (.str s) =>
    match s.toList with
    | 'h' :: rest =>
      match historyIndex? rest with
      | some i =>
        match history[i]? with
        | some w => .ok (w.getD 0)
        | none => .error ("no handle " ++ s)
      | none => .error ("bad handle reference " ++ s)
    | _ => .error ("bad handle reference " ++ s)
  | some x =>
    match x.word? with
    | some w => .ok w
    | none => .error (Value.notWord k)

/-- Reads a handle field; the null handle is `none`. -/
def readHandle (step : Value) (k : String) : Run TableRun (Option Handle) := do
  let w ← Run.decode (readWord (← Run.read).history step k)
  return Handle.ofWord? w

/-- Reads a handle field that must not be null. -/
def readLiveHandle (step : Value) : Run TableRun Handle := do
  match ← readHandle step "handle" with
  | some h => return h
  | none => Run.reject "field handle is a null handle"

/-- Reads the thread number `t` (0 when absent); it must name an attached-once thread. -/
def readThread (step : Value) : Run TableRun Nat := do
  let t ← Run.decode (step.natFieldOr "t" 0)
  if t < (← Run.read).world.registry.contexts.size then return t
  else Run.reject ("no thread " ++ toString t)

/-- Runs a registry action. -/
def onRegistry {α : Type} (m : Action Registry α) : Run TableRun α :=
  Run.focus (fun s => s.world.registry)
    (fun s r => { s with world := { s.world with registry := r } }) (Run.lift m)

/-- Runs a world action. -/
def onWorld {α : Type} (m : Action World α) : Run TableRun α :=
  Run.focus (fun s => s.world) (fun s w => { s with world := w }) (Run.lift m)

/-- Adds an entry to the handle history. -/
def remember (w : Option Nat) : Run TableRun Unit := do
  let s ← Run.read
  Run.write { s with history := s.history.push w }

/-- Runs a step that makes a handle: its word joins the history (null when the step failed),
and the answer is the handle. -/
def makingHandle (m : Run TableRun (Option Handle)) : Run TableRun (List (String × Value)) := do
  match ← Run.attempt m with
  | .ok h =>
    remember (h.map Handle.word)
    return [("handle", .natOrNull (h.map Handle.word))]
  | .error e =>
    remember none
    fun s => .error e s

/-- Reads an optional allocation strategy; absent or null means the table's own, and any other
value must name one of the two strategies. -/
def readStrategy (step : Value) : Run TableRun FailStrategy := do
  match step.given? "strategy" with
  | none => return (← Run.read).world.registry.table.config.strategy
  | some (.str "exit_oom") => return .exit
  | some (.str "return_null") => return .returnNull
  | some _ => Run.reject "strategy must be exit_oom or return_null"

/-- The label of the slot a handle names. -/
def handleSlotAddr : Handle → SlotAddr
  | .weak i => .weak i
  | .strong (.global i) => .global i
  | .strong (.threadLocal i) => .threadLocal i

/-- A field whose value is a fault or a number. -/
def numberOrFault (r : Except Fault Nat) : Value :=
  match r with
  | .ok n => .nat n
  | .error f => (Failure.fault f).toValue

/-- The answer of a source in the `sources` report. -/
def sourceValue : Source → Value
  | .listed slots c p e =>
    .obj [("calls", .nat c), ("prologues", .nat p), ("epilogues", .nat e),
      ("slots", .arr (slots.toList.map Value.object))]
  | .counting c p e =>
    .obj [("kind", .str "counting"), ("calls", .nat c), ("prologues", .nat p), ("epilogues", .nat e)]
  | .empty => .obj [("kind", .str "none")]
  | .closure slots => .obj [("kind", .str "closure"), ("slots", .arr (slots.toList.map Value.object))]

/-- A strong walk of the world over candidate slots, returning the visits. -/
def worldWalk (slots : List SlotAddr) (rw : Rewrite) (alive : Option Liveness) :
    Run TableRun (Array Visit) := do
  let s ← Run.read
  let sw : Sweep World := { state := s.world }
  let sw := match alive with
    | some a => sw.weak a rw slots
    | none => sw.strong rw slots
  Run.write { s with world := sw.state }
  return sw.visits

/-- The steps that need no nested steps; `none` for a name they do not cover. -/
def simpleStep (name : String) (step : Value) (safepointHeld : Bool) :
    Option (Run TableRun (List (String × Value))) :=
  match name with
  | "attach" => some do
    let t ← onRegistry Registry.attach
    let r := (← Run.read).world.registry
    let id := ((r.contexts[t]?).map Context.idText).getD ""
    return [("thread", .nat t), ("id", .str id)]
  | "detach" => some do
    let t ← readThread step
    onRegistry (Registry.detach t)
    return []
  | "make_local" => some do
    makingHandle do
      let t ← readThread step
      let obj ← Run.decode (step.objField "obj")
      onRegistry (Registry.makeLocal t obj)
  | "make_global" => some do
    makingHandle do
      let obj ← Run.decode (step.objField "obj")
      let strategy ← readStrategy step
      onRegistry (Registry.onTable (Table.makeGlobal obj strategy))
  | "make_weak" => some do
    makingHandle do
      let obj ← Run.decode (step.objField "obj")
      let strategy ← readStrategy step
      onRegistry (Registry.onTable (Table.makeWeak obj strategy))
  | "destroy_local" => some do
    let t ← readThread step
    let h ← readHandle step "handle"
    onRegistry (Registry.destroyLocal t h)
    return []
  | "destroy_global" => some do
    let h ← readHandle step "handle"
    let t := (← Run.read).world.registry.table
    match t.destroyGlobal h with
    | .ok t' => onRegistry (Action.update fun r => { r with table := t' }); return []
    | .error f => Run.lift (Action.fail f)
  | "destroy_weak" => some do
    let h ← readHandle step "handle"
    let t := (← Run.read).world.registry.table
    match t.destroyWeak h with
    | .ok t' => onRegistry (Action.update fun r => { r with table := t' }); return []
    | .error f => Run.lift (Action.fail f)
  | "push_frame" => some do
    let t ← readThread step
    let n ← Run.decode (step.natField "capacity")
    return [("value", .bool (← onRegistry (Registry.pushFrame t n)))]
  | "ensure_capacity" => some do
    let t ← readThread step
    let n ← Run.decode (step.natField "capacity")
    return [("value", .bool (← onRegistry (Registry.ensureCapacity t n)))]
  | "pop_frame" => some do
    makingHandle do
      let t ← readThread step
      let h ← match step.field? "result" with
        | some _ => readHandle step "result"
        | none => pure none
      onRegistry (Registry.popFrame t h)
  | "is_local" => some do
    let t ← readThread step
    let h ← readLiveHandle step
    return [("value", .bool ((← Run.read).world.registry.isLocal t h))]
  | "is_local_of_any" => some do
    let h ← readLiveHandle step
    return [("value", .bool ((← Run.read).world.registry.isLocalOfAny h))]
  | "thread_info" => some do
    let t ← readThread step
    let r := (← Run.read).world.registry
    let c := (r.contexts[t]?).getD { id := 0, chain := none }
    let ch := r.chainOf t
    let pool := r.table.pool
    return [("live", numberOrFault (ch.map fun x => x.top.live pool)),
      ("chain_length", numberOrFault (ch.map fun x => x.top.blocks.size)),
      ("planned", numberOrFault (ch.map fun x => x.top.planned)),
      ("memory", numberOrFault (ch.map Chain.memory)),
      ("parity", .nat c.parity), ("id", .str c.idText)]
  | "thread_oops_do" => some do
    let t ← readThread step
    let v ← Run.decode (readVisitor step true false)
    let r := (← Run.read).world.registry
    let slots := match (r.contexts[t]?).bind Context.chain with
      | some ch => (ch.handedOut r.table.pool).map SlotAddr.threadLocal
      | none => []
    return visitsAnswer v (← worldWalk slots v.rewrite none)
  | "claim_thread" => some do
    let t ← readThread step
    let p ← Run.decode (step.natField "parity")
    return [("value", .bool (← onRegistry (Registry.claim t (p % halfWordModulus))))]
  | "resolve" => some do
    let h ← readHandle step "handle"
    match (← Run.read).world.registry.table.resolve h with
    | .ok v => return [("obj", .object v)]
    | .error f => Run.lift (Action.fail f)
  | "resolve_non_null" => some do
    let h ← readLiveHandle step
    match (← Run.read).world.registry.table.resolveNonNull h with
    | .ok v => return [("obj", .object v)]
    | .error f => Run.lift (Action.fail f)
  | "resolve_guard" => some do
    let w ← Run.decode (readWord (← Run.read).history step "handle")
    return [("obj", .object ((← Run.read).world.registry.table.resolveGuarded w))]
  | "is_global" => some do
    let h ← readLiveHandle step
    return [("value", .bool ((← Run.read).world.registry.table.isGlobal h))]
  | "is_weak_global" => some do
    let h ← readLiveHandle step
    return [("value", .bool ((← Run.read).world.registry.table.isWeakGlobal h))]
  | "is_weak_cleared" => some do
    let h ← readLiveHandle step
    match (← Run.read).world.registry.table.isWeakCleared h with
    | .ok b => return [("value", .bool b)]
    | .error f => Run.lift (Action.fail f)
  | "handle_type" => some do
    let h ← readLiveHandle step
    let t ← match step.given? "t" with
      | some _ => some <$> readThread step
      | none => pure none
    return [("value", .str ((← Run.read).world.registry.handleType t h).name)]
  | "slot" => some do
    let h ← readLiveHandle step
    match (← Run.read).world.registry.table.slot? h with
    | some v => return [("exists", .bool true), ("label", .str (handleSlotAddr h).label),
        ("obj", .object v)]
    | none => return [("exists", .bool false)]
  | "set_slot" => some do
    let h ← readLiveHandle step
    let obj ← Run.decode (step.objField "obj")
    match (← Run.read).world.registry.table.store? h obj with
    | some t' => onRegistry (Action.update fun r => { r with table := t' }); return [("exists", .bool true)]
    | none => return [("exists", .bool false)]
  | "raw" => some do
    let bits ← Run.decode (step.natField "bits")
    return rawAnswer bits
  | "memory" => some do
    let t := (← Run.read).world.registry.table
    return [("global", .nat t.globals.memory), ("weak", .nat t.weaks.memory),
      ("pool", .nat t.pool.memory)]
  | "stats" => some do
    let r := (← Run.read).world.registry
    return [("global_count", .nat r.table.globals.count),
      ("global_segments", .nat r.table.globals.segmentCount),
      ("weak_count", .nat r.table.weaks.count),
      ("weak_segments", .nat r.table.weaks.segmentCount),
      ("blocks_allocated", .nat r.table.pool.blocks.size),
      ("pooled_blocks", .nat r.table.pool.queue.length),
      ("thread_count", .nat r.threadCount), ("parity", .nat r.parity),
      ("at_safepoint", .bool r.atSafepoint)]
  | "table_oops_do" => some do
    let v ← Run.decode (readVisitor step true false)
    let t := (← Run.read).world.registry.table
    return visitsAnswer v (← worldWalk (t.globals.liveIndices.map SlotAddr.global) v.rewrite none)
  | "table_weak_oops_do" => some do
    let alive ← Run.decode (readLiveness step)
    let v ← Run.decode (readVisitor step true false)
    let t := (← Run.read).world.registry.table
    return visitsAnswer v (← worldWalk (t.weaks.liveIndices.map SlotAddr.weak) v.rewrite (some alive))
  | "table_weak_oops_do_all" => some do
    let v ← Run.decode (readVisitor step true false)
    let t := (← Run.read).world.registry.table
    return visitsAnswer v
      (← worldWalk (t.weaks.liveIndices.map SlotAddr.weak) v.rewrite (some .everything))
  | "change_parity" => some do
    return [("value", .nat (← onRegistry Registry.advanceParity))]
  | "parallel_oops_do" => some do
    let p ← Run.decode (step.natField "parity")
    let v ← Run.decode (readVisitor step true false)
    let (_, visits) ← onWorld (Scan.visitsOf (Scan.threads (p % halfWordModulus) v.rewrite))
    return visitsAnswer v visits
  | "assert_all_claimed" => some do
    match (← Run.read).world.registry.assertAllClaimed with
    | .ok () => return []
    | .error f => Run.lift (Action.fail f)
  | "source_store" => some do
    let name ← Run.decode (step.strField "source")
    let c ← match Category.ofName? name with
      | some c => pure c
      | none => Run.reject ("unknown source " ++ name)
    let i ← Run.decode (step.natField "index")
    let s ← Run.read
    -- the object is read only for a slot the source holds
    if (s.world.sources.get c).slots.size ≤ i then Run.reject "source index out of range"
    let obj ← Run.decode (step.objField "obj")
    match (s.world.sources.get c).store? i obj with
    | some src =>
      Run.write { s with world := { s.world with sources := s.world.sources.set c src } }
      return []
    | none => Run.reject "source index out of range"
  | "sources" => some do
    let w := (← Run.read).world
    return Category.all.map fun c => (c.name, sourceValue (w.sources.get c))
  | "test_obj" => some do
    let n ← Run.decode (step.natField "n")
    match checkedMul n 16 with
    | some v => if v = 0 then Run.lift (Action.fail (.nullObject n)) else return [("obj", .nat v)]
    | none => Run.lift (Action.fail .multiplicationOverflow)
  | "at_safepoint" => some do
    return [("value", .bool (← Run.read).world.registry.atSafepoint)]
  | "debug" => some do
    let what ← Run.decode (step.strField "what")
    let w := (← Run.read).world
    let r := w.registry
    match what with
    | "table" => return [("value", .str r.table.text)]
    | "config" => return [("value", .str r.table.config.text)]
    | "registry" => return [("value", .str r.text)]
    | "roots" => return [("value", .str w.text)]
    | "roots_config" => return [("value", .str w.roots.text)]
    | "pool" => return [("value", .str r.table.pool.text)]
    | "global_storage" => return [("value", .str r.table.globals.text)]
    | "weak_storage" => return [("value", .str r.table.weaks.text)]
    | "parity" => return [("value", .str (parityText r.parity))]
    | "thread" =>
      let t ← readThread step
      let c := (r.contexts[t]?).getD { id := 0, chain := none }
      return [("value", .str c.text), ("same_table", .bool true)]
    | "handle" =>
      let h ← readLiveHandle step
      return [("value", .str h.text)]
    | "obj" =>
      let obj ← Run.decode (step.objField "obj")
      return [("value", .str (optionalObjectText obj))]
    | "slot" =>
      let h ← readLiveHandle step
      match r.table.slot? h with
      | some v => return [("value", .str ("RootSlot \x7b address: " ++ (handleSlotAddr h).label ++
          ", value: " ++ optionalObjectText v ++ " \x7d"))]
      | none => return [("value", .str "None")]
    | "safepoint" =>
      if safepointHeld then return [("value", .str "Safepoint \x7b .. \x7d")]
      else Run.reject "no safepoint in progress"
    | _ => Run.reject ("unknown debug target " ++ what)
  | _ => none

end Scenario
end GcRoots

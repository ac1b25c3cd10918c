import GcRoots.Roots.World
import GcRoots.Scenario.Script

namespace GcRoots
namespace Scenario

/-!
# Setting up a table scenario

A table scenario describes the handle table's limits, which roots are weak, the root sources
and the stack roots of its threads. Every category of root source is installed; a category the
scenario does not describe gets an empty listed source.

The state of a table scenario is the root world and the history of handles its steps made.
After each step the scenario reports a summary of the world.
-/

/-- The state of a table scenario. -/
structure TableRun where
  world : World
  /-- The word of each handle made so far, in order; `none` for null or a failed step. -/
  history : Array (Option Nat) := #[]

/-- Reads the table configuration; a configuration that is not an object is the default one.
A strategy that is given must be one of the two named strategies. -/
def readConfig (input : Value) : Except String Config :=
  match input.field? "config" with
  | some (.obj fs) => do
    let c : Value := .obj fs
    let d : Config := {}
    let globalCapacity ← c.natFieldOr "global_capacity" d.globalCapacity
    let weakGlobalCapacity ← c.natFieldOr "weak_global_capacity" d.weakGlobalCapacity
    let maxLocalCapacity ← c.natFieldOr "max_local_capacity" d.maxLocalCapacity
    let maxHandleBlocks ← c.natFieldOr "max_handle_blocks" d.maxHandleBlocks
    let strategy ← match c.field? "alloc_fail_strategy" with
      | none => .ok FailStrategy.exit
      | some (.str "exit_oom") => .ok .exit
      | some (.str "return_null") => .ok .returnNull
      | some _ => .error "strategy must be exit_oom or return_null"
    return { globalCapacity, weakGlobalCapacity, maxLocalCapacity, maxHandleBlocks, strategy }
  | _ => .ok {}

/-- Reads which roots are weak; a description that is not an object is the default one. -/
def readRootsConfig (input : Value) : Except String RootsConfig :=
  match input.field? "roots" with
  | some (.obj fs) => do
    let r : Value := .obj fs
    let weakRoots ← r.boolFieldOr "weak_roots" true
    let concurrentWeakGlobals ← r.boolFieldOr "concurrent_jni_weak_global_handles" true
    return { weakRoots, concurrentWeakGlobals }
  | _ => .ok {}

/-- Reads the source of one category: a list of slots, a counting source, no source, or an
object whose `closure` lists the slots of a closure source. -/
def readSource (c : Category) (spec : Value) : Except String Source :=
  match spec with
  | .arr xs => do return Source.ofList (← Value.objects c.name xs).toArray
  | .str "counting" => .ok (.counting 0 0 0)
  | .str "none" => .ok .empty
  | .obj _ =>
    match spec.field? "closure" with
    | some (.arr xs) => do return .closure (← Value.objects c.name xs).toArray
    | some _ => .error ("field " ++ c.name ++ " is not an array")
    | none => .error "missing field closure"
  | _ => .error ("field " ++ c.name ++ " is not an array")

/-- Reads the sources in category order: a category that is absent or null gets an empty
listed source. Once every category is read, a described name that is not a category is
refused, the first in name order. -/
def readSources (input : Value) : Except String Sources := do
  let described : List (String × Value) := match input.field? "sources" with
    | some (.obj fs) => fs
    | _ => []
  let spec : Value := .obj described
  let found ← Category.all.mapM fun c =>
    match spec.given? c.name with
    | some v => do return (c, ← readSource c v)
    | none => .ok (c, Source.ofList #[])
  match described.find? fun p => (Category.ofName? p.1).isNone with
  | some p => .error ("unknown source " ++ p.1)
  | none =>
    return Sources.ofFn fun c => ((found.find? fun p => p.1 == c).map Prod.snd).getD (Source.ofList #[])

/-- Reads the stack roots of each thread, when the scenario installs them. A null row is an
empty stack, and a null slot holds the null object. -/
def readStacks (input : Value) : Except String (Option (Array (Array Nat))) :=
  match input.field? "stack_roots" with
  | none | some .null => .ok none
  | some (.arr rows) => do
    let rows ← rows.mapM fun row =>
      match row with
      | .arr xs => do return (← Value.objects "stack_roots" xs).toArray
      | .null => .ok #[]
      | _ => .error "field stack_roots is not an array"
    return some rows.toArray
  | some _ => .error "stack_roots is not an array"

/-- The world a scenario starts from, and its steps. The description of the world is read
before the table is made, and the steps after it, so a table that cannot be made is reported
before steps that cannot be read. -/
def readSetup (input : Value) : Except Failure (World × List Value) := do
  let config ← (readConfig input).mapError .badInput
  let roots ← (readRootsConfig input).mapError .badInput
  let stackRoots ← (readStacks input).mapError .badInput
  let sources ← (readSources input).mapError .badInput
  let table ← (Table.create config).mapError .fault
  let ops ← (input.arrFieldOr "ops").mapError .badInput
  return ({ registry := { table }, roots, sources, stackRoots }, ops)

/-- The summary of the world reported after each step. -/
def stateSummary (w : World) : Value :=
  let r := w.registry
  .obj [("g", .nat r.table.globals.count), ("w", .nat r.table.weaks.count),
    ("blocks", .nat r.table.pool.blocks.size), ("pooled", .nat r.table.pool.queue.length),
    ("threads", .nat r.threadCount), ("parity", .nat r.parity), ("sp", .bool r.atSafepoint)]

/-- The summary field, read from the current state. -/
def summaryField : Run TableRun (List (String × Value)) := do
  return [("state", stateSummary (← Run.read).world)]

end Scenario
end GcRoots

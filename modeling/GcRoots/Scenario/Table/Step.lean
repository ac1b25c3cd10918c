import GcRoots.Scenario.Table.Worker
import GcRoots.Thread.FrameScope

namespace GcRoots
namespace Scenario

/-!
# Table scenarios

A table scenario runs a script of steps on one root world. Besides the steps that act on the
world directly, four kinds of step hold steps of their own:

* a safepoint block runs its steps at a safepoint of the registry;
* a frame opens a local frame on a thread, runs its steps, and closes the frame, carrying one
  handle out when asked to;
* a parallel block walks one storage through a cursor shared by its worker steps;
* a pass sets up a root pass, runs its steps (worker calls and ordinary steps), reports the
  states of its groups and tears the pass down.

A strong, weak or thread pass runs at the safepoint of the block around it, or at one of its
own when no block holds one. A pass handed a foreign safepoint fails to set up.
-/

/-- Ends the registry's safepoint. -/
def endSafepoint : Run TableRun Unit :=
  onRegistry (Action.update Registry.endSafepoint)

/-- The answer of a step's end: null, or the failure. -/
def endValue (r : Except Failure Unit) : Value :=
  match r with
  | .ok () => .null
  | .error e => e.toValue

/-- Sets up a pass of the given kind. -/
def startPass (name : String) (foreign : Bool) : Action World Pass :=
  match name with
  | "strong_pass" => Pass.strong <$> StrongPass.start foreign
  | "weak_pass" => Pass.weak <$> WeakPass.start foreign
  | _ => Pass.thread <$> ThreadPass.start foreign

/-- A strong, weak or thread pass; `ordinary` runs the ordinary steps inside it at its
safepoint, `held` says whether a safepoint is held around it. -/
def passOp (name : String) (ordinary : Value → Run TableRun Fields) (held : Bool)
    (step : Value) : Run TableRun Fields := do
  let steps ← Run.decode (step.arrFieldOr "steps")
  let foreign ← Run.decode (step.boolFieldOr "foreign_safepoint" false)
  let own := !held && !foreign
  if own then onRegistry Registry.beginSafepoint
  match ← Run.attempt (onWorld (startPass name foreign)) with
  | .error e =>
    if own then endSafepoint
    return [("parity", .null), ("steps", .arr []), ("groups", .null), ("end", e.toValue)]
  | .ok p =>
    let (answers, p, _) ← passSteps ordinary p #[] steps
    let groups := groupsValue p.groups
    let finished ← Run.attempt (onWorld p.finish)
    if own then endSafepoint
    return [("parity", .natOrNull p.parity?), ("steps", .arr answers), ("groups", groups),
      ("end", endValue finished)]

/-- A concurrent weak pass; it needs no safepoint. -/
def concurrentPassOp (ordinary : Value → Run TableRun Fields) (step : Value) :
    Run TableRun Fields := do
  let steps ← Run.decode (step.arrFieldOr "steps")
  let p ← onWorld (Pass.concurrentWeak <$> ConcurrentWeakPass.start)
  let (answers, p, _) ← passSteps ordinary p #[] steps
  let finished ← Run.attempt (onWorld p.finish)
  return [("steps", .arr answers), ("end", endValue finished)]

/-- A safepoint block. -/
def safepointOp (ordinary : Value → Run TableRun Fields) (step : Value) :
    Run TableRun Fields := do
  let steps ← Run.decode (step.arrFieldOr "steps")
  onRegistry Registry.beginSafepoint
  let answers ← runSteps ordinary summaryField steps
  endSafepoint
  return [("steps", .arr answers)]

/-- A parallel block over the global or the weak global handles. -/
def storageParOp (ordinary : Value → Run TableRun Fields) (step : Value) :
    Run TableRun Fields := do
  let which ← match step.field? "storage" with
    | some (.str "global") => pure ParStorage.globals
    | some (.str "weak") => pure ParStorage.weaks
    | _ => Run.reject "storage must be global or weak"
  let steps ← Run.decode (step.arrFieldOr "steps")
  let c := (which.of (← Run.read).world.registry.table).cursor
  let answers ← parSteps ordinary which c steps
  return [("segment_count", .nat c.segmentCount), ("steps", .arr answers)]

/-- A frame scope on thread `t`. A scope that cannot be opened answers at once (dropping it
has closed the frame around it). After its steps the scope is escaped with the handle to carry
out, or dropped. A scope whose handle to carry out cannot be read is dropped; its end is the
failure of that drop if it fails, and the reading failure otherwise. Carrying a handle out adds
an entry to the handle history even when the handle cannot be read. -/
def frameOp (ordinary : Value → Run TableRun Fields) (step : Value) : Run TableRun Fields := do
  let t ← readThread step
  let n ← Run.decode (step.natField "capacity")
  let steps ← Run.decode (step.arrFieldOr "steps")
  let some g ← onRegistry (FrameScope.create t n) | return [("created", .bool false)]
  let answers ← runSteps ordinary summaryField steps
  let withId ← match step.boolFieldOr "with_thread_id" false with
    | .ok b => pure b
    | .error m => do
      onRegistry g.drop
      Run.reject m
  let contexts := (← Run.read).world.registry.contexts
  let idField : Fields :=
    if withId then
      match contexts[t]? with
      | some c => [("thread_id", .str c.idText)]
      | none => []
    else []
  let ending ← match step.field? "escape" with
    | some _ => do
      match readWord (← Run.read).history step "escape" with
      | .error m => do
        remember none
        let r ← Run.attempt (onRegistry g.drop)
        pure (match r with
          | .ok _ => (Failure.badInput m).toValue
          | .error e => e.toValue)
      | .ok w => do
        let r ← Run.attempt (makingHandle (onRegistry (g.escape (Handle.ofWord? w))))
        pure (match r with
          | .ok fs => Value.obj fs
          | .error e => e.toValue)
    | none => do
      let r ← Run.attempt (onRegistry g.drop)
      pure (match r with
        | .ok _ => Value.null
        | .error e => e.toValue)
  return [("created", .bool true), ("steps", .arr answers)] ++ idField ++ [("end", ending)]

/-- One step of a table scenario; `held` says whether a safepoint is held around it, and
`fuel` bounds the nesting of blocks. -/
def tableStep : Nat → Bool → Value → Run TableRun Fields
  | 0, _, _ => Run.reject "steps nested too deeply"
  | fuel + 1, held, step => do
    let name := opName step
    match simpleStep name step held with
    | some m => m
    | none =>
      match name with
      | "safepoint" => safepointOp (tableStep fuel true) step
      | "frame" => frameOp (tableStep fuel held) step
      | "storage_par" => storageParOp (tableStep fuel held) step
      | "strong_pass" | "weak_pass" | "thread_pass" => passOp name (tableStep fuel true) held step
      | "concurrent_weak_pass" => concurrentPassOp (tableStep fuel held) step
      | _ => Run.reject ("unknown op " ++ name)

/-- Answers a table scenario. -/
def tableScenario (input : Value) (trace : Bool) : Value :=
  match readSetup input with
  | .error e => setupFailure e
  | .ok (w, ops) =>
    match runScript trace (tableStep input.size false) summaryField ops ({ world := w }, {}) with
    | .ok (results, aborted) _ => scriptAnswer results aborted
    | .error e _ => setupFailure e

end Scenario
end GcRoots

import GcRoots.Scenario.Table.Ops

namespace GcRoots
namespace Scenario

/-!
# Worker steps inside a pass or a parallel block

Inside a pass, some steps are worker calls of the pass and questions about it (its groups,
its parity, its text, the visits its workers shared); every other step is an ordinary table
step. Worker steps are answered without the state summary, ordinary steps with it. Inside a
`storage_par` block, the worker steps walk one storage through a cursor shared by the block.
-/

/-- Fields of an answer. -/
abbrev Fields := List (String × Value)

/-- The answer of a list of groups: each group's name and state. -/
def groupsValue (gs : List Claim) : Value :=
  .arr (gs.map fun c => .arr [.str c.name, .str c.state.name])

/-- The answer of a worker call, with the record shared by the pass's workers after it. -/
def workerAnswer (v : Visitor) (visits shared : Array Visit) : Fields × Array Visit :=
  match v.report with
  | .shared => ([("shared", .bool true)], shared ++ visits)
  | _ => (visitsAnswer v visits, shared)

/-- Runs one worker call of a pass on the world. -/
def workerCall (v : Visitor) (shared : Array Visit) (call : Scan Pass) :
    Run TableRun (Fields × Pass × Array Visit) := do
  let (p, visits) ← onWorld (Scan.visitsOf call)
  let (fs, shared) := workerAnswer v visits shared
  return (fs, p, shared)

/-- A step that works with the pass `p`, or `none` for an ordinary step. -/
def passStep (p : Pass) (shared : Array Visit) (step : Value) (name : String) :
    Option (Run TableRun (Fields × Pass × Array Visit)) :=
  match p, name with
  | _, "groups" => some (pure ([("groups", groupsValue p.groups)], p, shared))
  | .strong it, "parity" => some (pure ([("value", .nat it.parity)], p, shared))
  | .thread it, "parity" => some (pure ([("value", .nat it.parity)], p, shared))
  | .concurrentWeak _, "debug_safepoint" => none
  | _, "debug_safepoint" => some (pure ([("value", .str "Safepoint \x7b .. \x7d")], p, shared))
  | _, "debug" => some (pure ([("value", .str p.text)], p, shared))
  | _, "shared" => some (pure (sharedAnswer shared, p, shared))
  | .strong it, "oops_do" => some do
    let weakExport ← Run.decode (step.boolFieldOr "visit_jvmti_weak_export" false)
    let v ← Run.decode (readVisitor step true true)
    workerCall v shared (Pass.strong <$> it.work v.rewrite weakExport)
  | .weak it, "oops_do" => some do
    let v ← Run.decode (readVisitor step true true)
    workerCall v shared (Pass.weak <$> it.work .everything v.rewrite)
  | .weak it, "unlink_or_oops_do" => some do
    let alive ← Run.decode (readLiveness step)
    let v ← Run.decode (readVisitor step true true)
    workerCall v shared (Pass.weak <$> it.work alive v.rewrite)
  | .concurrentWeak it, "oops_do" => some do
    let v ← Run.decode (readVisitor step true true)
    workerCall v shared (Pass.concurrentWeak <$> it.work none v.rewrite)
  | .concurrentWeak it, "unlink_or_oops_do" => some do
    let alive ← Run.decode (readLiveness step)
    let v ← Run.decode (readVisitor step true true)
    workerCall v shared (Pass.concurrentWeak <$> it.work (some alive) v.rewrite)
  | .thread it, "oops_do" => some do
    let v ← Run.decode (readVisitor step true true)
    workerCall v shared (Pass.thread <$> it.work v.rewrite)
  | _, _ => none

/-- The steps of a pass block, each answered: worker steps work with the pass, ordinary steps
run through `ordinary` and are answered with the state summary. Returns the pass and the shared
record after the last step. -/
def passSteps (ordinary : Value → Run TableRun Fields) :
    Pass → Array Visit → List Value → Run TableRun (List Value × Pass × Array Visit)
  | p, shared, [] => pure ([], p, shared)
  | p, shared, step :: rest => do
    let (v, p, shared) ← match passStep p shared step (opName step) with
      | some m => do
        match ← Run.attempt m with
        | .ok (fs, p', shared') => pure (Value.obj (("op", stepName step) :: fs), p', shared')
        | .error e => pure (Value.obj (answerOf step (.error e)), p, shared)
      | none => do
        let r ← Run.attempt (ordinary step)
        let more ← summaryField
        pure (Value.obj (answerOf step r ++ more), p, shared)
    let (vs, p, shared) ← passSteps ordinary p shared rest
    return (v :: vs, p, shared)

/-- Which storage a parallel block walks: the global or the weak global handles. -/
inductive ParStorage where
  | globals
  | weaks

/-- The storage of the table that a parallel block walks. -/
def ParStorage.of (t : Table) : ParStorage → SlotStorage
  | .globals => t.globals
  | .weaks => t.weaks

/-- The slot address of an index of the storage. -/
def ParStorage.addr : ParStorage → Nat → SlotAddr
  | .globals => SlotAddr.global
  | .weaks => SlotAddr.weak

/-- A step that works with the cursor of a parallel block, or `none` for an ordinary step. -/
def parStep (which : ParStorage) (c : SlotStorage.Cursor) (step : Value) (name : String) :
    Option (Run TableRun (Fields × SlotStorage.Cursor)) :=
  let walk (alive : Option Liveness) (v : Visitor) : Run TableRun (Fields × SlotStorage.Cursor) := do
    let (segs, c') := c.claimAll
    let s := which.of (← Run.read).world.registry.table
    let visits ← worldWalk ((s.liveIndicesIn segs).map which.addr) v.rewrite alive
    return (visitsAnswer v visits, c')
  match name with
  | "par_oops_do" => some do
    let v ← Run.decode (readVisitor step true false)
    walk none v
  | "par_weak_oops_do" => some do
    let alive ← Run.decode (readLiveness step)
    let v ← Run.decode (readVisitor step true false)
    walk (some alive) v
  | _ => none

/-- The steps of a parallel block, each answered: worker steps share the block's cursor,
ordinary steps run through `ordinary` and are answered with the state summary. -/
def parSteps (ordinary : Value → Run TableRun Fields) (which : ParStorage) :
    SlotStorage.Cursor → List Value → Run TableRun (List Value)
  | _, [] => pure []
  | c, step :: rest => do
    let (v, c) ← match parStep which c step (opName step) with
      | some m => do
        match ← Run.attempt m with
        | .ok (fs, c') => pure (Value.obj (("op", stepName step) :: fs), c')
        | .error e => pure (Value.obj (answerOf step (.error e)), c)
      | none => do
        let r ← Run.attempt (ordinary step)
        let more ← summaryField
        pure (Value.obj (answerOf step r ++ more), c)
    return v :: (← parSteps ordinary which c rest)

end Scenario
end GcRoots

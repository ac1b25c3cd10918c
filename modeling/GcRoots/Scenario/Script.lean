import GcRoots.Scenario.Raw
import GcRoots.Scenario.Visitor

namespace GcRoots
namespace Scenario

/-!
# Scripts of steps

A scenario is a script: a list of steps run in order on one state. Each step is answered by an
object holding the step's name and either its answer fields or its failure; a failure does not
stop the script. When the scenario asks for tracing, each top-level answer also lists the trace
entries its step recorded, nested steps included.

The end of the process (a fatal fault) stops the script: the answers of the steps that
finished are kept, and the reason is reported beside them.
-/

/-- The answer object of a trace entry. -/
def traceValue : TraceEntry → Value
  | .rootPass it scan =>
    .obj [("span", .str "root_pass"), ("iterator", .str it.name), ("scan_id", .nat scan)]
  | .rootGroup g => .obj [("span", .str "root_group"), ("group", .str g)]
  | .iteratorSetup it scan parity =>
    .obj ([("event", .str "iterator_setup"), ("level", .str "DEBUG"), ("iterator", .str it.name),
      ("scan_id", .nat scan)] ++ (match parity with | some p => [("parity", .nat p)] | none => []))
  | .iteratorTeardown it scan =>
    .obj [("event", .str "iterator_teardown"), ("level", .str "DEBUG"),
      ("iterator", .str it.name), ("scan_id", .nat scan)]
  | .arenaChunk c len =>
    .obj [("event", .str "arena_chunk"), ("level", .str "DEBUG"), ("chunk", .nat c), ("len", .nat len)]
  | .blockAllocated b =>
    .obj [("event", .str "block_allocated"), ("level", .str "TRACE"), ("block", .nat b)]
  | .freeListRebuild blocks free abr =>
    .obj [("event", .str "free_list_rebuild"), ("level", .str "TRACE"), ("blocks", .nat blocks),
      ("free", .nat free), ("allocate_before_rebuild", .nat abr)]
  | .storageExhausted s n =>
    .obj [("event", .str "storage_exhausted"), ("level", .str "WARN"), ("storage", .str s),
      ("allocated", .nat n)]

/-- The operation a step names; a step whose `op` is not a string names the empty operation. -/
def opName (step : Value) : String := (step.text? "op").getD ""

/-- The name of a step, as its answer repeats it. -/
def stepName (step : Value) : Value := .str (opName step)

/-- The answer object of a step from its outcome. -/
def answerOf (step : Value) (r : Except Failure (List (String × Value))) : List (String × Value) :=
  ("op", stepName step) ::
    match r with
    | .ok fs => fs
    | .error e => match e.toValue with
      | .obj fs => fs
      | _ => []

/-- Adds fields to an answer object. -/
def withFields (v : Value) (more : List (String × Value)) : Value :=
  match v with
  | .obj fs => .obj (fs ++ more)
  | _ => v

/-- The steps of a script, each answered. `after` adds fields read after each step (the state
summary of the table scenarios). -/
def runSteps {σ : Type} (step : Value → Run σ (List (String × Value)))
    (after : Run σ (List (String × Value))) : List Value → Run σ (List Value)
  | [] => return []
  | s :: rest => do
    let r ← Run.attempt (step s)
    let more ← after
    let v : Value := .obj (answerOf s r ++ more)
    return v :: (← runSteps step after rest)

/-- Runs a top-level script: every answer gets the `after` fields and, with `trace`, its trace
entries. A fatal fault stops the script; its message is returned beside the finished answers. -/
def runScript {σ : Type} (trace : Bool) (step : Value → Run σ (List (String × Value)))
    (after : Run σ (List (String × Value))) : List Value → Run σ (List Value × Option String)
  | [] => fun s => .ok ([], none) s
  | op :: rest => fun s =>
    let one : Run σ Value := do
      let mark ← Run.traceMark
      let r ← Run.attempt (step op)
      let more ← after
      let entries ← Run.traceSince mark
      let tracing := if trace then [("tracing", Value.arr (entries.map traceValue))] else []
      return .obj (answerOf op r ++ more ++ tracing)
    match one s with
    | .ok v s' =>
      match runScript trace step after rest s' with
      | .ok (vs, ab) s'' => .ok (v :: vs, ab) s''
      | .error e s'' => .error e s''
    | .error e s' =>
      match e with
      | .fault f => .ok ([], some f.message) s'
      | .badInput m => .ok ([], some m) s'

/-- The answer of a whole scenario from its script's outcome. -/
def scriptAnswer (results : List Value) (aborted : Option String) : Value :=
  match aborted with
  | none => .obj [("results", .arr results)]
  | some m => .obj [("results", .arr results),
      ("aborted", .obj [("error", .str "abort"), ("message", .str m)])]

/-- The answer of a scenario that could not be set up. -/
def setupFailure (e : Failure) : Value := e.toValue

end Scenario
end GcRoots

import GcRoots.Scenario.StorageKind
import GcRoots.Scenario.ClaimKind
import GcRoots.Scenario.ChainKind
import GcRoots.Scenario.Table.Step
import GcRoots.Scenario.Value.Reader
import GcRoots.Scenario.Value.Printer

namespace GcRoots
namespace Scenario

/-!
# Answering a scenario

A scenario names its kind: `table` (the default), `storage`, `chain` or `claim`. Each kind
builds its own state and runs its script; `trace: true` adds the trace entries of each step to
its answer. `respond` answers one line of input text with one line of output text.
-/

/-- Answers one scenario. A kind that is not a string is the default kind, and tracing is on
only when `trace` is the boolean true. -/
def answer (input : Value) : Value :=
  let trace := input.isTrue "trace"
  match input.text? "kind" with
  | some "storage" => storageScenario input trace
  | some "claim" => claimScenario input trace
  | some "chain" => chainScenario input trace
  | some "table" => tableScenario input trace
  | some k => setupFailure (.badInput ("unknown kind " ++ k))
  | none => tableScenario input trace

/-- Answers one line of input: the answer to the scenario it holds, or, when the line is not a
JSON text, the reason. -/
def respond (line : String) : String :=
  match Value.read line with
  | .ok v => (answer v).print
  | .error m => (Value.obj [("error", .str "bad_json"), ("message", .str m)]).print

end Scenario
end GcRoots

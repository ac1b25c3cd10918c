import GcRoots.Roots.Claim
import GcRoots.Thread.Context
import GcRoots.Scenario.Script

namespace GcRoots
namespace Scenario

/-!
# Claim scenarios

A claim scenario exercises claim-once groups and claim parities on their own. Groups and
parities are numbered separately, in the order they are made; running a group counts how many
times its body has executed.
-/

/-- A group with the number of times its body ran. -/
structure CountedClaim where
  claim : Claim
  runs : Nat := 0

/-- The state of a claim scenario. -/
structure ClaimRun where
  claims : Array CountedClaim := #[]
  parities : Array Nat := #[]

/-- Reads a concurrency by name; anything but a known name is refused. -/
def readConcurrency (s : Option String) : Except String Concurrency :=
  match s with
  | some "serial" | some "serial_only" => .ok .serial
  | some "parallel" | some "parallel_safe" => .ok .parallel
  | _ => .error "concurrency must be serial or parallel"

/-- The name under which a concurrency is reported. -/
def concurrencyName : Concurrency → String
  | .serial => "serial"
  | .parallel => "parallel"

/-- One step of a claim scenario. Every step reads its number `k` first. -/
def claimStep (step : Value) : Run ClaimRun (List (String × Value)) := do
  let name := opName step
  let k ← Run.decode (step.natFieldOr "k" 0)
  let st ← Run.read
  let claimAt (k : Nat) : Run ClaimRun CountedClaim :=
    match st.claims[k]? with
    | some c => pure c
    | none => Run.reject "no such claim"
  let parityAt (k : Nat) : Run ClaimRun Nat :=
    match st.parities[k]? with
    | some p => pure p
    | none => Run.reject "no such parity"
  match name with
  | "new" =>
    let gname := (step.text? "name").getD "group"
    let conc ← Run.decode (readConcurrency (step.text? "concurrency"))
    Run.write { st with claims := st.claims.push { claim := { name := gname, concurrency := conc } } }
    return [("k", .nat st.claims.size)]
  | "run" =>
    let c ← claimAt k
    let (ran, c') ← Run.lift (Action.focus (fun (_ : ClaimRun) => ()) (fun r _ => r)
      (c.claim.run (pure ())))
    let runs := if ran then c.runs + 1 else c.runs
    Run.write { st with claims := st.claims.set! k { claim := c', runs } }
    return [("ran", .bool ran), ("runs", .nat runs)]
  | "state" =>
    let c ← claimAt k
    return [("name", .str c.claim.name), ("concurrency", .str (concurrencyName c.claim.concurrency)),
      ("state", .str c.claim.state.name)]
  | "debug" =>
    let c ← claimAt k
    return [("value", .str c.claim.text)]
  | "parity_new" =>
    -- a parity made as the default one starts where a new one does
    let _ ← Run.decode (step.boolFieldOr "default" false)
    Run.write { st with parities := st.parities.push 0 }
    return [("k", .nat st.parities.size)]
  | "advance" =>
    let p ← parityAt k
    Run.write { st with parities := st.parities.set! k (nextParity p) }
    return [("value", .nat (nextParity p))]
  | "current" =>
    return [("value", .nat (← parityAt k))]
  | "parity_debug" =>
    return [("value", .str (parityText (← parityAt k)))]
  | "raw" =>
    let bits ← Run.decode (step.natField "bits")
    return rawAnswer bits
  | _ => Run.reject ("unknown op " ++ name)

/-- Answers a claim scenario. -/
def claimScenario (input : Value) (trace : Bool) : Value :=
  match input.arrFieldOr "ops" with
  | .error m => setupFailure (.badInput m)
  | .ok ops =>
    match runScript trace claimStep (pure []) ops ({}, {}) with
    | .ok (results, aborted) _ => scriptAnswer results aborted
    | .error e _ => setupFailure e

end Scenario
end GcRoots

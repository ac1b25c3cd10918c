import GcRoots.Visit
import GcRoots.Scenario.Run

namespace GcRoots
namespace Scenario

/-!
# Visitors and liveness tests in scenarios

A step that walks root slots names its visitor by a mode. Four modes rewrite slots and answer
the list of visits (`record`, `clear`, `offset` by a signed amount, `relocate` by a list of
pairs). Two modes only count: `count` answers the visit count of every slot label, and
`shared` adds the visits to the record shared by the workers of one pass.

A weak walk takes a liveness test: everything alive, everything but a list, or only a list.
-/

/-- How a walk's visits are answered. -/
inductive Report where
  /-- The visits, in order, with the slot contents before the visit. -/
  | visits
  /-- Visit counts per slot label. -/
  | counts
  /-- Added to the pass's shared record. -/
  | shared
  deriving DecidableEq, Repr

/-- A visitor: what it writes and how its visits are answered. -/
structure Visitor where
  rewrite : Rewrite := .keep
  report : Report := .visits

/-- Reads one pair of a relocation map: its first element is the value replaced and its second
the replacement, where a missing or null replacement is the null object. Elements after the
second are ignored. -/
def readPair (p : Value) : Except String (Nat × Nat) :=
  let item (i : Nat) : Value := match p with
    | .arr xs => xs.getD i .null
    | _ => .null
  match (item 0).word?, item 1 with
  | none, _ => .error (Value.notWord "map")
  | some a, .null => .ok (a, 0)
  | some a, y =>
    match y.word? with
    | some b => .ok (a, b)
    | none => .error (Value.notWord "map")

/-- Reads the pairs of a relocation map. -/
def readPairs : List Value → Except String (List (Nat × Nat))
  | [] => .ok []
  | p :: ps => do return (← readPair p) :: (← readPairs ps)

/-- Reads the amount of an offset visitor: a signed or an unsigned 64-bit integer. -/
def readOffset (v : Value) : Except String Int :=
  match v.field? "by" with
  | none => .error "missing field by"
  | some x =>
    match x.int? with
    | some n =>
      if -Value.signedLimit ≤ n ∧ n < Value.wordLimit then .ok n
      else .error "visitor by is not an integer"
    | none => .error "visitor by is not an integer"

/-- Reads the map of a relocating visitor. -/
def readMap (v : Value) : Except String (List (Nat × Nat)) :=
  match v.field? "map" with
  | none => .error "missing field map"
  | some (.arr ps) => readPairs ps
  | some _ => .error "visitor map is not an array"

/-- Reads the `visitor` field of a step. A visitor that is not an object, or names no mode,
records. `count` is accepted only where `countAllowed`, and `shared` only where a pass
provides a shared record. -/
def readVisitor (step : Value) (countAllowed sharedAllowed : Bool) : Except String Visitor :=
  match step.field? "visitor" with
  | some (.obj fs) =>
    let v : Value := .obj fs
    match v.text? "mode" with
    | none => .ok {}
    | some mode =>
      match mode with
      | "record" => .ok {}
      | "clear" => .ok { rewrite := .clear }
      | "offset" => return { rewrite := .offset (← readOffset v) }
      | "relocate" => return { rewrite := .relocate (← readMap v) }
      | "count" =>
        if countAllowed then .ok { report := .counts }
        else .error ("unknown visitor mode " ++ mode)
      | "shared" =>
        if sharedAllowed then .ok { report := .shared }
        else .error ("unknown visitor mode " ++ mode)
      | _ => .error ("unknown visitor mode " ++ mode)
  | _ => .ok {}

/-- Reads the object list of a liveness test. -/
def readObjectList : Value → Except String (List Nat)
  | .arr xs => Value.words "is_alive" xs
  | _ => .error "is_alive list is not an array"

/-- Reads the `is_alive` field of a step: a list under `dead` keeps everything else, a list
under `alive` keeps only those objects, and anything else keeps everything. -/
def readLiveness (step : Value) : Except String Liveness :=
  match step.field? "is_alive" with
  | some (.obj fs) =>
    let v : Value := .obj fs
    match v.field? "dead", v.field? "alive" with
    | some d, _ => return .allBut (← readObjectList d)
    | none, some a => return .only (← readObjectList a)
    | none, none => .ok .everything
  | _ => .ok .everything

/-- The answer of a visit count list. -/
def countsValue (visits : Array Visit) : Value :=
  .arr ((tally visits).map fun p => .arr [.str p.1, .nat p.2])

/-- The answer fields of a walk's visits for a visitor. -/
def visitsAnswer (v : Visitor) (visits : Array Visit) : List (String × Value) :=
  match v.report with
  | .visits => [("visits", .arr (visits.toList.map fun x => .arr [.str x.slot.label, .nat x.value]))]
  | .counts => [("counts", countsValue visits), ("total", .nat visits.size)]
  | .shared => [("shared", .bool true)]

/-- The answer fields describing a shared record. -/
def sharedAnswer (visits : Array Visit) : List (String × Value) :=
  let counts := tally visits
  [("total", .nat visits.size), ("distinct", .nat counts.length),
    ("is_empty", .bool visits.isEmpty), ("all_visited_once", .bool (counts.all fun p => p.2 == 1)),
    ("counts", countsValue visits)]

end Scenario
end GcRoots

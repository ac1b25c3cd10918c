import GcRoots.Action
import GcRoots.Scenario.Value
import GcRoots.Word

namespace GcRoots
namespace Scenario

/-!
# Running scenario steps

A scenario step fails either because its input cannot be read (`Failure.badInput`, with the
reason) or because the library stopped with a fault. `Run σ` is the action type of scenario
steps over a state `σ`; library actions are lifted into it, keeping their faults.

Field readers decode the input of a step. A required field that is absent is "missing"; a
field of the wrong kind is reported with the kind it should have been. An optional field that
is null counts as absent, while a required field that is null is of the wrong kind. A few
fields are read leniently instead (`isTrue`, `text?`, `natAt?`): a value of another kind there
counts as absent.
-/

/-- Why a scenario step gave no regular answer. -/
inductive Failure where
  | badInput (message : String)
  | fault (f : Fault)
  deriving Repr

/-- The answer object of a failure. -/
def Failure.toValue : Failure → Value
  | .badInput m => .obj [("error", .str "bad_input"), ("message", .str m)]
  | .fault f => .obj [("error", .str "panic"), ("message", .str f.message)]

/-- Whether the failure ends the whole process. -/
def Failure.isFatal : Failure → Bool
  | .fault f => f.isFatal
  | .badInput _ => false

/-- A scenario step over a state of type `σ`. -/
abbrev Run (σ α : Type) := EStateM Failure (σ × Journal) α

namespace Run

variable {σ τ α : Type}

/-- Runs a library action as a scenario step. -/
def lift (m : Action σ α) : Run σ α := fun s =>
  match m s with
  | .ok a s' => .ok a s'
  | .error e s' => .error (.fault e) s'

/-- Rejects the step's input. -/
def reject (message : String) : Run σ α := fun s => .error (.badInput message) s

/-- Reads a decoded field, rejecting the step when decoding failed. -/
def decode : Except String α → Run σ α
  | .ok a => fun s => .ok a s
  | .error m => reject m

/-- The current state. -/
def read : Run σ σ := fun s => .ok s.1 s

/-- Replaces the state. -/
def write (x : σ) : Run σ Unit := fun s => .ok () (x, s.2)

/-- Runs a step on the part `get t` of a state `t`. -/
def focus (get : τ → σ) (put : τ → σ → τ) (m : Run σ α) : Run τ α := fun s =>
  match m (get s.1, s.2) with
  | .ok a (x, j) => .ok a (put s.1 x, j)
  | .error e (x, j) => .error e (put s.1 x, j)

/-- Runs a step and reports its outcome, so that the steps after it still run. A fatal fault
is passed on. -/
def attempt (m : Run σ α) : Run σ (Except Failure α) := fun s =>
  match m s with
  | .ok a s' => .ok (.ok a) s'
  | .error e s' => if e.isFatal then .error e s' else .ok (.error e) s'

/-- The number of trace entries recorded so far. -/
def traceMark : Run σ Nat := fun s => .ok s.2.entries.size s

/-- The trace entries recorded since a mark. -/
def traceSince (mark : Nat) : Run σ (List TraceEntry) := fun s =>
  .ok (s.2.entries.extract mark s.2.entries.size).toList s

end Run

namespace Value

/-- The largest machine word plus one. -/
def wordLimit : Int := (wordModulus : Int)

/-- The least signed 64-bit integer, negated. -/
def signedLimit : Int := ((Nat.pow 2 63 : Nat) : Int)

/-- Reads an unsigned 64-bit integer. -/
def word? (v : Value) : Option Nat :=
  match v.int? with
  | some n => if 0 ≤ n ∧ n < wordLimit then some n.toNat else none
  | none => none

/-- The message for a field that is not an unsigned 64-bit integer. -/
def notWord (k : String) : String := "field " ++ k ++ " is not an unsigned 64-bit integer"

/-- A required unsigned integer field. -/
def natField (v : Value) (k : String) : Except String Nat :=
  match v.field? k with
  | none => .error ("missing field " ++ k)
  | some x =>
    match x.word? with
    | some n => .ok n
    | none => .error (notWord k)

/-- An optional unsigned integer field: absent or null gives the default, and any other value
must be an unsigned integer. -/
def natFieldOr (v : Value) (k : String) (d : Nat) : Except String Nat :=
  match v.given? k with
  | none => .ok d
  | some x =>
    match x.word? with
    | some n => .ok n
    | none => .error (notWord k)

/-- An optional unsigned integer field read leniently: anything but an unsigned integer counts
as absent. -/
def natAt? (v : Value) (k : String) : Option Nat :=
  (v.field? k).bind word?

/-- A required object field: null (or 0) is the null object. -/
def objField (v : Value) (k : String) : Except String Nat :=
  match v.field? k with
  | none => .error ("missing field " ++ k)
  | some .null => .ok 0
  | some x =>
    match x.word? with
    | some n => .ok n
    | none => .error (notWord k)

/-- An optional boolean field: absent or null gives the default, and any other value must be a
boolean. -/
def boolFieldOr (v : Value) (k : String) (d : Bool) : Except String Bool :=
  match v.given? k with
  | none => .ok d
  | some (.bool b) => .ok b
  | some _ => .error ("field " ++ k ++ " is not a boolean")

/-- Whether field `k` is the boolean true; any other value, or none, counts as false. -/
def isTrue (v : Value) (k : String) : Bool :=
  match v.field? k with
  | some (.bool true) => true
  | _ => false

/-- A required string field. -/
def strField (v : Value) (k : String) : Except String String :=
  match v.field? k with
  | none => .error ("missing field " ++ k)
  | some (.str s) => .ok s
  | some _ => .error (k ++ " is not a string")

/-- A string field read leniently: `none` unless the field is a string. -/
def text? (v : Value) (k : String) : Option String :=
  match v.field? k with
  | some (.str s) => some s
  | _ => none

/-- An optional array field: absent or null is empty, and any other value must be an array. -/
def arrFieldOr (v : Value) (k : String) : Except String (List Value) :=
  match v.given? k with
  | none => .ok []
  | some (.arr xs) => .ok xs
  | some _ => .error ("field " ++ k ++ " is not an array")

/-- Reads every element of a list of objects. -/
def objects (k : String) : List Value → Except String (List Nat)
  | [] => .ok []
  | x :: xs => do
    let n ← match x with
      | .null => .ok 0
      | _ => match x.word? with
        | some n => .ok n
        | none => .error (notWord k)
    return n :: (← objects k xs)

/-- Reads every element of a list as an unsigned integer; null is refused. -/
def words (k : String) : List Value → Except String (List Nat)
  | [] => .ok []
  | x :: xs => do
    let n ← match x.word? with
      | some n => .ok n
      | none => .error (notWord k)
    return n :: (← words k xs)

end Value

end Scenario
end GcRoots

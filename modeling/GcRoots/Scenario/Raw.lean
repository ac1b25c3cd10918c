import GcRoots.Table
import GcRoots.Scenario.Run

namespace GcRoots
namespace Scenario

/-!
# Inspecting a handle word

The `raw` step shows how a word decodes: whether it is null or tagged weak, the kind and index
of the handle it decodes to, the word of that handle, and what the strong and weak accessors
give for it.
-/

/-- A value for a result that may be a fault. -/
def faultOr (r : Except Fault String) : Value :=
  match r with
  | .ok s => .str s
  | .error f => (Failure.fault f).toValue

/-- The answer fields of the `raw` step for word `w`. -/
def rawAnswer (w : Nat) : List (String × Value) :=
  let h := Handle.ofWord? w
  let kind : Value := match h with
    | some (.strong (.threadLocal _)) => .str "local"
    | some (.strong (.global _)) => .str "global"
    | some (.weak _) => .str "weak"
    | none => .null
  let index : Value := match h with
    | some x => .nat x.index
    | none => .null
  [("is_null", .bool (w == 0)),
    ("is_weak", .bool (Handle.wordIsWeak w)),
    ("kind", kind),
    ("index", index),
    ("handle_is_weak", match h with | some x => .bool x.isWeak | none => .null),
    ("reencoded", .nat (Handle.wordOf h)),
    ("strong_ref", match h with
      | some x => faultOr ((Table.strongRef x).map SlotRef.text)
      | none => .null),
    ("weak_ref", match h with
      | some x => faultOr ((Table.weakRef x).map fun i => "GlobalIndex(" ++ toString i ++ ")")
      | none => .null),
    ("debug", .str (Handle.wordText w))]

end Scenario
end GcRoots

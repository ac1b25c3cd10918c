import GcRoots.Word
import GcRoots.Roots.Category

namespace GcRoots

/-!
# Visiting root slots

A visitor is called on root slots one at a time and may overwrite the slot it is given. This
module names slots by address (`SlotAddr`), describes what a visitor writes (`Rewrite`) and
which objects count as alive (`Liveness`), and walks a list of candidate slots over any state
that can read and write slots (`SlotMemory`).

A strong walk visits every candidate slot that is not null at the moment it is reached. A weak
walk does the same for live objects and clears the slots of dead ones without visiting them.
Each visit is recorded with the slot and its content before the visitor wrote.
-/

/-- The address of a root slot. -/
inductive SlotAddr where
  /-- Slot `i` of the global storage. -/
  | global (i : Nat)
  /-- Slot `i` of the weak global storage. -/
  | weak (i : Nat)
  /-- The local handle slot with local index `i`. -/
  | threadLocal (i : Nat)
  /-- Slot `i` of a root source. -/
  | source (c : Category) (i : Nat)
  /-- Stack root `i` of thread `t`. -/
  | stack (t i : Nat)
  /-- Slot `i` of a storage on its own. -/
  | storage (i : Nat)
  deriving DecidableEq, Repr

/-- The label of a slot address, such as `global:3`, `local:32`, `universe:0` or `stack:1:0`. -/
def SlotAddr.label : SlotAddr → String
  | .global i => "global:" ++ toString i
  | .weak i => "weak:" ++ toString i
  | .threadLocal i => "local:" ++ toString i
  | .source c i => c.name ++ ":" ++ toString i
  | .stack t i => "stack:" ++ toString t ++ ":" ++ toString i
  | .storage i => "slot:" ++ toString i

/-- What a visitor writes into the slot it visits. -/
inductive Rewrite where
  /-- Leave the slot as it is. -/
  | keep
  /-- Null the slot. -/
  | clear
  /-- Add a signed offset, modulo the word size. -/
  | offset (delta : Int)
  /-- Replace the object by the target of the first pair whose source it is. -/
  | relocate (pairs : List (Nat × Nat))
  deriving Repr

/-- The new content of a visited slot that held `v`. -/
def Rewrite.apply : Rewrite → Nat → Nat
  | .keep, v => v
  | .clear, _ => 0
  | .offset d, v => wrappingOffset v d
  | .relocate pairs, v =>
    match pairs.find? fun p => p.1 == v with
    | some p => p.2
    | none => v

/-- Which objects a weak walk keeps. -/
inductive Liveness where
  | everything
  /-- Alive unless listed. -/
  | allBut (dead : List Nat)
  /-- Alive only if listed. -/
  | only (alive : List Nat)
  deriving Repr

/-- Whether `obj` is alive. -/
def Liveness.alive : Liveness → Nat → Bool
  | .everything, _ => true
  | .allBut dead, v => !dead.contains v
  | .only alive, v => alive.contains v

/-- One visit: the slot and its content before the visitor wrote. -/
structure Visit where
  slot : SlotAddr
  value : Nat
  deriving Repr

/-- States that hold root slots. -/
class SlotMemory (σ : Type) where
  /-- The content of a slot (0 when null or missing). -/
  readSlot : σ → SlotAddr → Nat
  /-- Overwrites a slot (no change when missing). -/
  writeSlot : σ → SlotAddr → Nat → σ

/-- A state during a walk, with the visits so far. -/
structure Sweep (σ : Type) where
  state : σ
  visits : Array Visit := #[]

variable {σ : Type} [SlotMemory σ]

/-- Visits one slot if it is not null. -/
def Sweep.visitStrong (rw : Rewrite) (w : Sweep σ) (a : SlotAddr) : Sweep σ :=
  let v := SlotMemory.readSlot w.state a
  if v = 0 then w
  else { state := SlotMemory.writeSlot w.state a (rw.apply v), visits := w.visits.push ⟨a, v⟩ }

/-- Visits one slot if it holds a live object, clears it if it holds a dead one. -/
def Sweep.visitWeak (alive : Liveness) (rw : Rewrite) (w : Sweep σ) (a : SlotAddr) : Sweep σ :=
  let v := SlotMemory.readSlot w.state a
  if v = 0 then w
  else if alive.alive v then w.visitStrong rw a
  else { w with state := SlotMemory.writeSlot w.state a 0 }

/-- A strong walk over candidate slots in order. -/
def Sweep.strong (rw : Rewrite) (w : Sweep σ) (slots : List SlotAddr) : Sweep σ :=
  slots.foldl (Sweep.visitStrong rw) w

/-- A weak walk over candidate slots in order. -/
def Sweep.weak (alive : Liveness) (rw : Rewrite) (w : Sweep σ) (slots : List SlotAddr) :
    Sweep σ :=
  slots.foldl (Sweep.visitWeak alive rw) w

/-- Visit counts by slot label, sorted by label: every label visited at least once. -/
def tally (visits : Array Visit) : List (String × Nat) :=
  let labels := visits.toList.map fun v => v.slot.label
  let sorted := labels.mergeSort fun a b => decide (a ≤ b)
  sorted.foldr (fun l acc =>
    match acc with
    | (l', n) :: rest => if l == l' then (l', n + 1) :: rest else (l, 1) :: acc
    | [] => [(l, 1)]) []

end GcRoots

import GcRoots.Visit
import Mathlib.Data.List.Basic

namespace GcRoots

/-!
# Walks over any slot memory

A walk reads each slot of its list when it reaches it, and its visitor writes only the slot it
is given. So when the slots of a list are distinct and writing one leaves the others as they
were, each of them is read before anything is written to it, and a weak walk visits, in the
order of the list, each slot holding a live object once and with that object
(`Sweep.visits_weak`). When writing one leaves every other slot as it was (`Sweep.Apart`), the
walk also gives each live slot the visitor's write, nulls each slot holding a dead object, and
leaves every other slot as it was (`Sweep.weak_apart`). A strong walk is the weak walk that finds every object
alive (`Sweep.strong_eq_weak_everything`), and whatever every write to the slots of a list keeps,
a walk over the list keeps (`Sweep.weak_preserves`).

This holds of any state that reads and writes slots: a slot storage, the block pool, the root
world.
-/

namespace Sweep

variable {σ : Type} [SlotMemory σ] {alive : Liveness} {rw : Rewrite}

/-- The slots of a list are apart in `σ` when writing one of them leaves every other slot as it
was. -/
def Apart (σ : Type) [SlotMemory σ] (l : List SlotAddr) : Prop :=
  ∀ (w : σ) a b v, a ∈ l → a ≠ b →
    SlotMemory.readSlot (SlotMemory.writeSlot w a v) b = SlotMemory.readSlot w b

theorem Apart.tail {a : SlotAddr} {l : List SlotAddr} (h : Apart σ (a :: l)) : Apart σ l :=
  fun w b c v hb hbc => h w b c v (List.mem_cons_of_mem a hb) hbc

/-- The visit a weak walk makes at slot `a` holding `v`: one, when `v` is a live object. -/
def keptVisit (alive : Liveness) (a : SlotAddr) (v : Nat) : List Visit :=
  if v ≠ 0 ∧ alive.alive v = true then [⟨a, v⟩] else []

/-- What a weak walk leaves in a slot of its list that held `v`: the visitor's write over a live
object, null over a dead one. -/
def swept (alive : Liveness) (rw : Rewrite) (v : Nat) : Nat :=
  if v = 0 then v else if alive.alive v then rw.apply v else 0

/-- One step of a weak walk writes its slot at most, with what `swept` says. -/
theorem state_visitWeak (sw : Sweep σ) (a : SlotAddr) :
    (sw.visitWeak alive rw a).state =
      if SlotMemory.readSlot sw.state a = 0 then sw.state
      else SlotMemory.writeSlot sw.state a (swept alive rw (SlotMemory.readSlot sw.state a)) := by
  by_cases h0 : SlotMemory.readSlot sw.state a = 0
  · simp [visitWeak, h0]
  · by_cases hl : alive.alive (SlotMemory.readSlot sw.state a) = true
    · simp [visitWeak, visitStrong, swept, h0, hl]
    · simp [visitWeak, swept, h0, hl]

/-- One step of a weak walk makes the visit `keptVisit` says. -/
theorem visits_visitWeak (sw : Sweep σ) (a : SlotAddr) :
    (sw.visitWeak alive rw a).visits.toList =
      sw.visits.toList ++ keptVisit alive a (SlotMemory.readSlot sw.state a) := by
  by_cases h0 : SlotMemory.readSlot sw.state a = 0
  · simp [visitWeak, keptVisit, h0]
  · by_cases hl : alive.alive (SlotMemory.readSlot sw.state a) = true
    · simp [visitWeak, visitStrong, keptVisit, h0, hl]
    · simp [visitWeak, keptVisit, h0, hl]

/-- A strong walk is the weak walk that finds every object alive. -/
theorem strong_eq_weak_everything (rw : Rewrite) (sw : Sweep σ) (l : List SlotAddr) :
    sw.strong rw l = sw.weak .everything rw l := by
  have hv : visitWeak (σ := σ) .everything rw = visitStrong rw := by
    funext sw a
    by_cases ha : SlotMemory.readSlot sw.state a = 0 <;>
      simp [visitWeak, visitStrong, ha, Liveness.alive]
  simp only [weak, strong, hv]

/-- What every write to the slots of a list keeps, a weak walk over the list keeps. -/
theorem weak_preserves (alive : Liveness) (rw : Rewrite) (P : σ → Prop) {l : List SlotAddr}
    (hw : ∀ w a v, a ∈ l → P w → P (SlotMemory.writeSlot w a v)) (sw : Sweep σ)
    (h : P sw.state) : P (sw.weak alive rw l).state := by
  induction l generalizing sw with
  | nil => exact h
  | cons a l ih =>
    apply ih (fun w b v hb => hw w b v (List.mem_cons_of_mem a hb))
    rw [state_visitWeak]
    split
    · exact h
    · exact hw _ a _ List.mem_cons_self h

/-- A weak walk over distinct slots, none of whose writes changes another slot of the list,
visits in the order of the list each slot holding a live object, with the object it held when the
walk began: each slot is read before anything is written to it. -/
theorem visits_weak (alive : Liveness) (rw : Rewrite) {l : List SlotAddr} (hl : l.Nodup)
    (hs : ∀ (w : σ) a b v, a ∈ l → b ∈ l → a ≠ b →
      SlotMemory.readSlot (SlotMemory.writeSlot w a v) b = SlotMemory.readSlot w b)
    (sw : Sweep σ) :
    (sw.weak alive rw l).visits.toList =
      sw.visits.toList ++ l.flatMap (fun a => keptVisit alive a (SlotMemory.readSlot sw.state a)) := by
  induction l generalizing sw with
  | nil => simp [weak]
  | cons a l ih =>
    obtain ⟨ha, hl'⟩ := List.nodup_cons.mp hl
    -- the first step writes only `a`, which the rest of the walk never reads
    have hkeep : ∀ b ∈ l, SlotMemory.readSlot (sw.visitWeak alive rw a).state b =
        SlotMemory.readSlot sw.state b := by
      intro b hb
      rw [state_visitWeak]
      split
      · rfl
      · exact hs _ a b _ List.mem_cons_self (List.mem_cons_of_mem a hb) (fun h => ha (h ▸ hb))
    have hrest :
        l.flatMap (fun b => keptVisit alive b (SlotMemory.readSlot (sw.visitWeak alive rw a).state b)) =
          l.flatMap (fun b => keptVisit alive b (SlotMemory.readSlot sw.state b)) :=
      List.flatMap_congr fun b hb => by rw [hkeep b hb]
    have hvis := ih hl' (fun w b c v hb hc => hs w b c v (List.mem_cons_of_mem a hb)
      (List.mem_cons_of_mem a hc)) (sw.visitWeak alive rw a)
    simp only [weak, List.foldl_cons] at hvis ⊢
    rw [hvis, hrest, visits_visitWeak, List.flatMap_cons, List.append_assoc]

/-- A weak walk over distinct, apart slots, each of which reads back what is written to it while
it holds an object: it visits, in the order of the list, each slot holding a live object, with
that object; it leaves in each slot of the list what `swept` says of its content, and every
other slot as it was. -/
theorem weak_apart (alive : Liveness) (rw : Rewrite) {l : List SlotAddr} (hl : l.Nodup)
    (hs : Apart σ l)
    (hback : ∀ (w : σ) a v, a ∈ l → SlotMemory.readSlot w a ≠ 0 →
      SlotMemory.readSlot (SlotMemory.writeSlot w a v) a = v) (sw : Sweep σ) :
    (sw.weak alive rw l).visits.toList =
        sw.visits.toList ++ l.flatMap (fun a => keptVisit alive a (SlotMemory.readSlot sw.state a)) ∧
      ∀ b, SlotMemory.readSlot (sw.weak alive rw l).state b =
        if b ∈ l then swept alive rw (SlotMemory.readSlot sw.state b)
        else SlotMemory.readSlot sw.state b := by
  refine ⟨visits_weak alive rw hl (fun w a b v ha _ hab => hs w a b v ha hab) sw, ?_⟩
  induction l generalizing sw with
  | nil => simp [weak]
  | cons a l ih =>
    obtain ⟨ha, hl'⟩ := List.nodup_cons.mp hl
    -- the first step writes only `a`, and then the rest of the walk only the slots of `l`
    have hother : ∀ b, b ≠ a → SlotMemory.readSlot (sw.visitWeak alive rw a).state b =
        SlotMemory.readSlot sw.state b := by
      intro b hb
      rw [state_visitWeak]
      split
      · rfl
      · exact hs _ a b _ List.mem_cons_self (Ne.symm hb)
    have hself : SlotMemory.readSlot (sw.visitWeak alive rw a).state a =
        swept alive rw (SlotMemory.readSlot sw.state a) := by
      rw [state_visitWeak]
      split
      · rename_i h0
        simp [swept, h0]
      · rename_i h0
        exact hback _ a _ List.mem_cons_self h0
    have hread := ih hl' hs.tail (fun w b v hb => hback w b v (List.mem_cons_of_mem a hb))
      (sw.visitWeak alive rw a)
    intro b
    simp only [weak, List.foldl_cons] at hread ⊢
    rw [hread b]
    by_cases hba : b = a
    · subst hba
      simp [ha, hself]
    · simp [hba, hother b hba]

end Sweep

end GcRoots

import GcRoots.Proofs.Sweep
import GcRoots.Proofs.WeakPass
import GcRoots.Scenario.StorageKind

namespace GcRoots

/-!
# Scans of a slot storage

A scan of a slot storage takes its segments in order and, in each, the positions the scan of the
allocation word reaches; those are the allocated positions in ascending order
(`Segment.livePositions_eq_filter`), so the scanned indices are the allocated indices in strictly
ascending order (`SlotStorage.liveIndices_sorted`).

A storage's slots are apart: writing one leaves every other as it was, and a slot holding an
object reads back what is written to it (`SlotStorage.apart_storage`,
`SlotStorage.slot?_store_of_ne_zero`). So the walk over the scanned indices visits each allocated
slot holding a kept object once, with that object, gives it the visitor's write, nulls the slots
of objects a weak scan does not keep, and changes nothing else: writing slots keeps every
allocation bit, the count and the stack of partly used segments (`Scenario.storageWalk_spec`).

Main statement: `storage_scan_visits_live_slots_in_order`, over every word for the segment loop
and over every storage, liveness test and visitor for the scan.
-/

namespace SlotStorage

variable {t : SlotStorage}

/-- The allocated indices of segments taken in ascending order are in ascending order. -/
theorem liveIndicesIn_sorted {segs : List Nat} (h : segs.Pairwise (· < ·)) :
    (t.liveIndicesIn segs).Pairwise (· < ·) := by
  unfold liveIndicesIn
  refine List.pairwise_flatMap.mpr ⟨fun seg _ => ?_, h.imp ?_⟩
  · split
    · rw [Segment.livePositions_eq_filter]
      exact List.pairwise_map.mpr ((List.pairwise_lt_range.filter _).imp fun hlt => by omega)
    · exact List.Pairwise.nil
  · intro s₁ s₂ hlt x hx y hy
    have h₁ := mem_segmentIndices hx
    have h₂ := mem_segmentIndices hy
    -- segment `s₁` ends where a later segment can start at the earliest
    have hle : s₁ * segmentSlots + segmentSlots ≤ s₂ * segmentSlots := by
      rw [← Nat.succ_mul]
      exact Nat.mul_le_mul_right _ hlt
    omega

/-- The allocated indices of a storage, as its scan takes them, are in ascending order. -/
theorem liveIndices_sorted (t : SlotStorage) : t.liveIndices.Pairwise (· < ·) :=
  t.liveIndicesIn_sorted List.pairwise_lt_range

/-- A slot exists exactly when its segment does. -/
theorem slot?_eq_none_iff {i : Nat} : t.slot? i = none ↔ t.segments.size ≤ i / segmentSlots := by
  unfold slot?
  rw [Option.map_eq_none_iff, Array.getElem?_eq_none_iff]

/-- A slot that holds an object reads back what is written to it. -/
theorem slot?_store_of_ne_zero {i : Nat} (h : (t.slot? i).getD 0 ≠ 0) (v : Nat) :
    (t.store i v).slot? i = some v := by
  unfold store store? slot? at *
  rcases hg : t.segments[i / segmentSlots]? with _ | g
  · simp [hg] at h
  have hlt : i / segmentSlots < t.segments.size := (Array.getElem?_eq_some_iff.mp hg).1
  rw [hg] at h
  -- the slot lies inside the segment's array, since it does not read null
  have hb : i % segmentSlots < g.slots.size := by
    refine Nat.lt_of_not_le fun hb => h ?_
    simp [Array.getD_eq_getD_getElem?, Array.getElem?_eq_none hb]
  rw [Option.getD_some, Array.getElem?_set!_of_lt hlt, if_pos rfl]
  simp [Array.getD_eq_getD_getElem?, Array.set!_eq_setIfInBounds, hb]

/-- Writing a slot keeps the count, the stack of partly used segments and the segments. -/
theorem store_frame (t : SlotStorage) (k v : Nat) :
    (t.store k v).count = t.count ∧ (t.store k v).partlyUsed = t.partlyUsed ∧
      (t.store k v).segments.size = t.segments.size := by
  rcases store_cases t k v with h | ⟨g, -, h⟩ <;> rw [h]
  · exact ⟨rfl, rfl, rfl⟩
  · exact ⟨rfl, rfl, Array.size_set! ..⟩

/-- `u` has the allocation bits, the count, the stack of partly used segments and the segments
of `s`: it differs from `s` at most in what its slots hold. -/
structure SameLayout (s u : SlotStorage) : Prop where
  bits : ∀ j, u.isAllocated j = s.isAllocated j
  count : u.count = s.count
  stack : u.partlyUsed = s.partlyUsed
  size : u.segments.size = s.segments.size

theorem SameLayout.refl (s : SlotStorage) : SameLayout s s := ⟨fun _ => rfl, rfl, rfl, rfl⟩

/-- Writing a slot changes only what the slot holds. -/
theorem SameLayout.store {s u : SlotStorage} (h : SameLayout s u) (k v : Nat) :
    SameLayout s (u.store k v) := by
  obtain ⟨hc, hp, hz⟩ := store_frame u k v
  exact ⟨fun j => (u.isAllocated_store k v j).trans (h.bits j), hc.trans h.count, hp.trans h.stack,
    hz.trans h.size⟩

/-- Storage slots are apart: writing one leaves every other slot as it was. -/
theorem apart_storage (idx : List Nat) : Sweep.Apart SlotStorage (idx.map SlotAddr.storage) := by
  intro u a b v ha hab
  obtain ⟨i, -, rfl⟩ := List.mem_map.mp ha
  cases b with
  | storage j =>
    have hij : i ≠ j := fun h => hab (h ▸ rfl)
    exact congrArg (Option.getD · 0) (u.slot?_store_ne hij v)
  | _ => rfl

end SlotStorage

/-- The visits of a walk whose slots are each visited at most once with their content: the slots
that pass the test, in order. -/
theorem flatMap_singleton_or_nil {α β : Type} (p : α → Prop) [DecidablePred p] (f : α → β)
    (l : List α) :
    l.flatMap (fun a => if p a then [f a] else []) = (l.filter fun a => decide (p a)).map f := by
  induction l with
  | nil => rfl
  | cons a l ih =>
    rw [List.flatMap_cons, ih, List.filter_cons]
    by_cases h : p a <;> simp [h]

namespace Scenario

/-- A walk over distinct slots of a storage: it visits, in order, each slot of the list holding
an object the test keeps, with that object; it leaves in each slot of the list what `swept` says
of its content and every other slot as it was; and it keeps every allocation bit, the count and
the stack of partly used segments. -/
theorem storageWalk_spec (s : SlotStorage) {idx : List Nat} (hidx : idx.Nodup)
    (alive : Option Liveness) (rw : Rewrite) :
    (storageWalk s idx alive rw).visits.toList =
        idx.flatMap (fun i => Sweep.keptVisit (alive.getD .everything) (.storage i) ((s.slot? i).getD 0)) ∧
      (∀ j, (storageWalk s idx alive rw).state.slot? j = (s.slot? j).map fun v =>
        if j ∈ idx then Sweep.swept (alive.getD .everything) rw v else v) ∧
      (∀ j, (storageWalk s idx alive rw).state.isAllocated j = s.isAllocated j) ∧
      (storageWalk s idx alive rw).state.count = s.count ∧
      (storageWalk s idx alive rw).state.partlyUsed = s.partlyUsed := by
  -- a strong walk is the weak walk that keeps every object
  have hwalk : storageWalk s idx alive rw =
      Sweep.weak (alive.getD .everything) rw { state := s } (idx.map SlotAddr.storage) := by
    cases alive with
    | none => exact Sweep.strong_eq_weak_everything rw _ _
    | some a => rfl
  have hnodup : (idx.map SlotAddr.storage).Nodup := hidx.map fun _ _ => SlotAddr.storage.inj
  have hback : ∀ (u : SlotStorage) a v, a ∈ idx.map SlotAddr.storage →
      SlotMemory.readSlot u a ≠ 0 → SlotMemory.readSlot (SlotMemory.writeSlot u a v) a = v := by
    intro u a v ha h0
    obtain ⟨i, -, rfl⟩ := List.mem_map.mp ha
    show ((u.store i v).slot? i).getD 0 = v
    rw [SlotStorage.slot?_store_of_ne_zero h0]
    rfl
  obtain ⟨hvis, hread⟩ := Sweep.weak_apart (alive.getD .everything) rw hnodup
    (SlotStorage.apart_storage idx) hback { state := s }
  -- writing slots keeps the allocation bits, the count, the stack and the segments
  have hsame : SlotStorage.SameLayout s
      (Sweep.weak (alive.getD .everything) rw { state := s } (idx.map SlotAddr.storage)).state :=
    Sweep.weak_preserves _ rw (SlotStorage.SameLayout s) (fun u a v ha hu => by
      obtain ⟨i, -, rfl⟩ := List.mem_map.mp ha
      exact hu.store i v) _ (SlotStorage.SameLayout.refl s)
  rw [hwalk]
  refine ⟨?_, fun j => ?_, hsame.bits, hsame.count, hsame.stack⟩
  · rw [hvis, List.flatMap_map]
    rfl
  · -- the slot exists after the walk exactly when it did before, and reads as `weak_apart` says
    have hj := hread (.storage j)
    simp only [List.mem_map, SlotAddr.storage.injEq, exists_eq_right] at hj
    have hnone : ∀ u : SlotStorage, SlotStorage.SameLayout s u → (u.slot? j = none ↔ s.slot? j = none) :=
      fun u hu => by rw [SlotStorage.slot?_eq_none_iff, hu.size, ← SlotStorage.slot?_eq_none_iff]
    rcases hs : s.slot? j with _ | v
    · exact (hnone _ hsame).mpr hs
    · rcases hu : (Sweep.weak (alive.getD .everything) rw { state := s }
          (idx.map SlotAddr.storage)).state.slot? j with _ | u
      · rw [(hnone _ hsame).mp hu] at hs
        cases hs
      · have hj' : (some u).getD 0 = if j ∈ idx then
            Sweep.swept (alive.getD .everything) rw ((s.slot? j).getD 0) else (s.slot? j).getD 0 := by
          rw [← hu]
          exact hj
        rw [hs] at hj'
        rw [Option.map_some]
        exact congrArg some hj'

end Scenario

/-- A scan of a slot storage, over every word, storage, liveness test and visitor. The loop over
a segment's allocation word reaches the set bits of any word below `2^64` lowest first, each
once, and ends after as many turns as the word has set bits. Over the whole storage the scan
visits, in strictly ascending order of index, exactly the allocated slots that hold an object
the test keeps (with no test, every object), each once and with that object. A weak scan nulls
the allocated slots holding an object it does not keep. Every other slot, every allocation bit,
the allocation count and the stack of partly used segments are as they were. -/
theorem storage_scan_visits_live_slots_in_order :
    (∀ x < wordModulus, Segment.bitScan wordBits x = (List.range wordBits).filter x.testBit ∧
      clearLowestBit^[popcount x] x = 0 ∧ ∀ t < popcount x, clearLowestBit^[t] x ≠ 0) ∧
    ∀ (s : SlotStorage) (alive : Option Liveness) (rw : Rewrite),
      let keep := (alive.getD .everything).alive
      let seen := s.liveIndices.filter fun i => (s.slot? i).getD 0 ≠ 0 ∧ keep ((s.slot? i).getD 0)
      let w := Scenario.storageWalk s s.liveIndices alive rw
      w.visits.toList = seen.map (fun i => ⟨.storage i, (s.slot? i).getD 0⟩) ∧
        seen.Pairwise (· < ·) ∧
        (∀ i, i ∈ seen ↔
          s.isAllocated i = true ∧ (s.slot? i).getD 0 ≠ 0 ∧ keep ((s.slot? i).getD 0) = true) ∧
        (∀ i, w.state.slot? i = (s.slot? i).map fun v =>
          if s.isAllocated i = true ∧ v ≠ 0 then (if keep v then rw.apply v else 0) else v) ∧
        (∀ i, w.state.isAllocated i = s.isAllocated i) ∧ w.state.count = s.count ∧
        w.state.partlyUsed = s.partlyUsed := by
  refine ⟨fun x hx => ⟨bitScan_eq_filter hx (popcount_le x), clearLowestBit_iterate_popcount hx⟩,
    fun s alive rw => ?_⟩
  dsimp only
  obtain ⟨hvis, hslot, hbits, hcount, hstack⟩ :=
    Scenario.storageWalk_spec s s.liveIndices_nodup alive rw
  refine ⟨?_, s.liveIndices_sorted.sublist List.filter_sublist, fun i => ?_, fun i => ?_, hbits,
    hcount, hstack⟩
  · rw [hvis]
    unfold Sweep.keptVisit
    exact flatMap_singleton_or_nil _ _ _
  · rw [List.mem_filter, SlotStorage.mem_liveIndices, decide_eq_true_iff]
  · -- an index is scanned exactly when it is allocated, and `swept` leaves null slots alone
    rw [hslot i]
    refine congrArg (fun f => Option.map f (s.slot? i)) (funext fun v => ?_)
    by_cases ha : s.isAllocated i = true <;> by_cases hv : v = 0 <;>
      simp [SlotStorage.mem_liveIndices, Sweep.swept, ha, hv]

/-- The loop over a word with bits 2, 4 and 63 set reaches them in that order and ends after
three turns. -/
theorem storage_scan_of_three_bit_word :
    0x8000000000000014 < wordModulus ∧
      Segment.bitScan wordBits 0x8000000000000014 = [2, 4, 63] ∧
      clearLowestBit^[3] 0x8000000000000014 = 0 := by
  obtain ⟨hscan, hend, -⟩ := storage_scan_visits_live_slots_in_order.1 0x8000000000000014 (by decide)
  have hpop : popcount 0x8000000000000014 = 3 := by decide
  exact ⟨by decide, hscan.trans (by decide), hpop ▸ hend⟩

end GcRoots

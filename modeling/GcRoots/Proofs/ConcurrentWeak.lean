import GcRoots.Proofs.WeakPass

namespace GcRoots

/-!
# What a concurrent weak pass scans

A concurrent weak pass runs without a safepoint, so weak global handles are made and destroyed
between its worker calls. Setting it up takes the number of segments of the weak storage with a
cursor that its calls share; a call claims segments from the cursor until none of that snapshot
is left, and walks the slots allocated in the segments it claimed as they are when it walks them.
The pass does anything only when weak roots are weak and the weak global handles are scanned
concurrently (`ConcurrentWeakPass.active`).

Making and destroying a weak global handle changes the weak storage alone
(`WeakEvent.after_op?`). A call claims every segment the cursor has left and spends it
(`SlotStorage.Cursor.spent_claimAll`), so of calls made one after another the first walks every
slot that is allocated and not null at that time in a segment of the snapshot, slots added to
those segments since included and segments added since left out, and the later calls walk
nothing. A call with a liveness test clears the slots of dead objects; one without visits every
slot it walks.

Main statement: `concurrent_weak_pass_scans_snapshot`, over any world and any events around the
first call. Calls running at the same time are not covered: the events run one after another.
-/

namespace SlotStorage.Cursor

/-- A cursor past the end of its snapshot: a claim hands out no segment. -/
def Spent (c : Cursor) : Prop := c.segmentCount < c.next

/-- A cursor that has handed out nothing hands out every segment of the snapshot at once. -/
theorem claimAll_fresh {c : Cursor} (h : c.next = 0) : c.claimAll.1 = List.range c.segmentCount := by
  show List.range' c.next (c.segmentCount - c.next) = _
  rw [h, Nat.sub_zero, List.range_eq_range']

theorem claimAll_spent {c : Cursor} (h : c.Spent) : c.claimAll.1 = [] := by
  show List.range' c.next (c.segmentCount - c.next) = []
  rw [Nat.sub_eq_zero_of_le (Nat.le_of_lt h)]
  rfl

/-- After a claim the cursor is spent. -/
theorem spent_claimAll (c : Cursor) : c.claimAll.2.Spent := by
  show c.segmentCount < max c.next c.segmentCount + 1
  omega

end SlotStorage.Cursor

/-! ### Operations on the weak global handles -/

/-- The world with another weak storage. -/
def World.withWeaks (w : World) (s : SlotStorage) : World :=
  { w with registry := { w.registry with table := { w.registry.table with weaks := s } } }

namespace World

@[simp] theorem withWeaks_roots (w : World) (s : SlotStorage) : (w.withWeaks s).roots = w.roots := rfl

@[simp] theorem withWeaks_weaks (w : World) (s : SlotStorage) :
    (w.withWeaks s).registry.table.weaks = s := rfl

end World

/-- An event while a concurrent weak pass is under way: a weak global handle is made or
destroyed, or a worker calls the pass, with a liveness test that unlinks dead objects or
without one. -/
inductive WeakEvent where
  | makeWeak (obj : Nat) (strategy : FailStrategy)
  | destroyWeak (h : Option Handle)
  | call (alive : Option Liveness) (rw : Rewrite)

namespace WeakEvent

/-- The operation an event runs on the world, unless it is a call. -/
def op? : WeakEvent → Option Op
  | .makeWeak obj strategy => some (.makeWeak obj strategy)
  | .destroyWeak h => some (.destroyWeak h)
  | .call _ _ => none

def isCall : WeakEvent → Bool
  | .call _ _ => true
  | _ => false

/-- The operations among events, in order. -/
def ops (es : List WeakEvent) : List Op := es.filterMap op?

/-- The number of calls among events. -/
def calls (es : List WeakEvent) : Nat := es.countP isCall

theorem op?_of_isCall {e : WeakEvent} (h : e.isCall = false) : ∃ op, e.op? = some op := by
  cases e with
  | makeWeak obj strategy => exact ⟨_, rfl⟩
  | destroyWeak h => exact ⟨_, rfl⟩
  | call alive rw => cases h

theorem ops_cons_of_op? {e : WeakEvent} {op : Op} (he : e.op? = some op) (es : List WeakEvent) :
    ops (e :: es) = op :: ops es := by
  simp [ops, he]

theorem calls_cons_of_op? {e : WeakEvent} {op : Op} (he : e.op? = some op) (es : List WeakEvent) :
    calls (e :: es) = calls es := by
  cases e with
  | call alive rw => cases he
  | _ => simp [calls, isCall]

@[simp] theorem ops_call (alive : Option Liveness) (rw : Rewrite) (es : List WeakEvent) :
    ops (.call alive rw :: es) = ops es := rfl

@[simp] theorem calls_call (alive : Option Liveness) (rw : Rewrite) (es : List WeakEvent) :
    calls (.call alive rw :: es) = calls es + 1 := by
  simp [calls, List.countP_cons, isCall]

/-- Making or destroying a weak global handle changes the weak storage by the call it makes on
it and leaves the rest of the world as it was, whatever it records. -/
theorem after_op? {e : WeakEvent} {op : Op} (he : e.op? = some op) (s : World × Journal) :
    (op.after s).1 = s.1.withWeaks (SlotStorage.applyOption op.weakCall s.1.registry.table.weaks) := by
  obtain ⟨w, j⟩ := s
  cases e with
  | makeWeak obj strategy =>
    cases he
    rw [Op.after_makeWeak_fst]
    by_cases h0 : obj = 0 <;>
      simp [Table.final_makeWeak, h0, Op.weakCall, SlotStorage.applyOption, SlotStorage.Call.apply,
        SlotStorage.final_add, World.withWeaks]
  | destroyWeak h =>
    cases he
    have hweaks := (Op.storages_after (show (Op.destroyWeak h).OnStorages from trivial) (w, j)).2
    rw [← hweaks, Op.after_destroyWeak_fst]
    -- a destruction that fails leaves the table, one that succeeds changes the weak storage
    split
    next t hg => rcases Table.destroyWeak_eq hg with rfl | ⟨k, g, -, -, rfl⟩ <;> rfl
    next => rfl
  | call alive rw => cases he

theorem roots_after_op? {e : WeakEvent} {op : Op} (he : e.op? = some op) (s : World × Journal) :
    (op.after s).1.roots = s.1.roots := by
  rw [after_op? he]
  rfl

/-- The world the operations among events leave depends on the world they start from alone. -/
theorem runAll_ops_congr : ∀ (es : List WeakEvent) {s s' : World × Journal}, s.1 = s'.1 →
    (Op.runAll (ops es) s).1 = (Op.runAll (ops es) s').1
  | [], _, _, h => h
  | e :: es, s, s', h => by
    cases he : e.op? with
    | none =>
      have hes : ops (e :: es) = ops es := by simp [ops, he]
      rw [hes]
      exact runAll_ops_congr es h
    | some op =>
      rw [ops_cons_of_op? he, Op.runAll_cons, Op.runAll_cons]
      exact runAll_ops_congr es (by rw [after_op? he, after_op? he, h])

/-- The operations among events keep the roots configuration. -/
theorem roots_runAll_ops : ∀ (es : List WeakEvent) (s : World × Journal),
    (Op.runAll (ops es) s).1.roots = s.1.roots
  | [], _ => rfl
  | e :: es, s => by
    cases he : e.op? with
    | none =>
      have hes : ops (e :: es) = ops es := by simp [ops, he]
      rw [hes]
      exact roots_runAll_ops es s
    | some op =>
      rw [ops_cons_of_op? he, Op.runAll_cons, roots_runAll_ops es, roots_after_op? he]

end WeakEvent

/-! ### One call -/

namespace Sweep

variable {alive : Liveness} {rw : Rewrite}

/-- A call's walk over given segments of the weak global handles, with a liveness test; a walk
as strong roots is the one that finds every object alive. -/
def weakSegments (alive : Liveness) (rw : Rewrite) (segs : List Nat) (sw : Sweep World) : Sweep World :=
  sw.weak alive rw ((Walk.weaks segs).slots sw.state)

theorem mem_weaks_slots {w : World} {segs : List Nat} {i : Nat} :
    SlotAddr.weak i ∈ (Walk.weaks segs).slots w ↔
      i / segmentSlots ∈ segs ∧ w.registry.table.weaks.isAllocated i = true := by
  simp only [Walk.slots, List.mem_map, SlotAddr.weak.injEq, exists_eq_right,
    SlotStorage.mem_liveIndicesIn]

theorem weaks_slots_nodup (w : World) {segs : List Nat} (h : segs.Nodup) :
    ((Walk.weaks segs).slots w).Nodup :=
  (w.registry.table.weaks.liveIndicesIn_nodup h).map fun _ _ => SlotAddr.weak.inj

theorem weakSegments_nil (sw : Sweep World) : sw.weakSegments alive rw [] = sw := by
  simp [weakSegments, Walk.slots, SlotStorage.liveIndicesIn, weak]

/-- The walk visits the slots of the segments that hold live objects, once each, with the
objects they held when it began. -/
theorem visits_weakSegments {segs : List Nat} (h : segs.Nodup) (sw : Sweep World) :
    (sw.weakSegments alive rw segs).visits =
      sw.visits ++ (liveSeen sw.state alive ((Walk.weaks segs).slots sw.state)).toArray :=
  weak_visits (weaks_slots_nodup _ h) (separate_weak _) sw

/-- The walk writes weak global slots alone and keeps their allocation bits. -/
theorem weakTouched_weakSegments (segs : List Nat) (sw : Sweep World) :
    World.WeakTouched sw.state (sw.weakSegments alive rw segs).state ∧
      (sw.weakSegments alive rw segs).state.sources = sw.state.sources := by
  refine weak_induct (fun w => World.WeakTouched sw.state w ∧ w.sources = sw.state.sources)
    (fun w a v ha hw => ?_) ⟨World.WeakTouched.refl _, rfl⟩
  obtain ⟨i, -, rfl⟩ := List.mem_map.mp ha
  exact ⟨hw.1.writeSlot (Or.inl rfl) v, hw.2⟩

/-- A weak global slot the walk does not come to keeps its content. -/
theorem readSlot_weakSegments {segs : List Nat} (sw : Sweep World) {i : Nat}
    (hi : SlotAddr.weak i ∉ (Walk.weaks segs).slots sw.state) :
    (sw.weakSegments alive rw segs).state.readSlot (.weak i) = sw.state.readSlot (.weak i) := by
  refine weak_induct (fun w => w.readSlot (.weak i) = sw.state.readSlot (.weak i))
    (fun w a v ha hw => ?_) rfl
  have hne : a ≠ .weak i := fun h => hi (h ▸ ha)
  rw [w.readSlot_writeSlot_weak hne]
  exact hw

/-- The walk leaves a slot it comes to null when it held a dead object. -/
theorem cleared_weakSegments {segs : List Nat} (h : segs.Nodup) (sw : Sweep World) {i : Nat}
    (hi : SlotAddr.weak i ∈ (Walk.weaks segs).slots sw.state) (h0 : sw.state.readSlot (.weak i) ≠ 0)
    (hdead : alive.alive (sw.state.readSlot (.weak i)) = false) :
    (sw.weakSegments alive rw segs).state.readSlot (.weak i) = 0 :=
  weak_cleared (weaks_slots_nodup _ h) (separate_weak _) hi (fun w => w.readSlot_writeSlot_weak_zero i)
    sw h0 hdead

end Sweep

theorem Scan.weakSegments_run (alive : Liveness) (rw : Rewrite) (segs : List Nat) (sw : Sweep World)
    (j : Journal) : Scan.weakSegments alive rw segs (sw, j) = .ok () (sw.weakSegments alive rw segs, j) :=
  rfl

theorem Scan.weakSegmentsStrong_run (rw : Rewrite) (segs : List Nat) (sw : Sweep World) (j : Journal) :
    Scan.weakSegmentsStrong rw segs (sw, j) = .ok () (sw.weakSegments .everything rw segs, j) := by
  show Action.update _ (sw, j) = _
  rw [Action.update_run, Sweep.weakSegments, Sweep.weak_everything]
  rfl

namespace ConcurrentWeakPass

/-- Whether the calls of a concurrent weak pass do anything under a roots configuration: weak
roots are weak and the weak global handles are scanned concurrently. -/
def active (cfg : RootsConfig) : Bool := cfg.weakRoots && cfg.concurrentWeakGlobals

/-- The pass after a call that does something: the cursor has claimed what it had left, and
the group has run. -/
def next (it : ConcurrentWeakPass) : ConcurrentWeakPass :=
  { it with cursor := it.cursor.claimAll.2, jniWeakHandles := it.jniWeakHandles.take.2 }

theorem start_run (w : World) (j : Journal) :
    ∃ j', start (w, j) = .ok { scan := j.scans + 1, cursor := w.registry.table.weaks.cursor } (w, j') := by
  unfold start
  rw [Action.bind_ok (Action.nextScan_run _), Action.bind_ok (Action.emit_run _ _),
    Action.bind_ok (Action.read_run _)]
  exact ⟨_, rfl⟩

/-- A call of a pass that does nothing under the configuration changes nothing at all. -/
theorem work_inactive (it : ConcurrentWeakPass) (alive : Option Liveness) (rw : Rewrite)
    (sw : Sweep World) (j : Journal) (h : active sw.state.roots = false) :
    it.work alive rw (sw, j) = .ok it (sw, j) := by
  unfold work
  rw [Action.bind_ok (Action.read_run _)]
  simp only [active] at h
  simp only [h, Bool.false_eq_true, if_false]
  rfl

/-- A call of a pass that does something claims the segments the cursor has left and walks
them, with the liveness test when it has one. -/
theorem work_active (it : ConcurrentWeakPass) (hpar : it.jniWeakHandles.concurrency = .parallel)
    (alive : Option Liveness) (rw : Rewrite) (sw : Sweep World) (j : Journal)
    (h : active sw.state.roots = true) :
    ∃ j', it.work alive rw (sw, j) =
      .ok it.next (sw.weakSegments (alive.getD .everything) rw it.cursor.claimAll.1, j') := by
  unfold work
  rw [Action.bind_ok (Action.read_run _)]
  simp only [active] at h
  simp only [h, if_true]
  rw [Action.bind_ok (Action.emit_run _ _)]
  -- a call without liveness test walks as strong roots, which is the walk finding all alive
  cases alive with
  | some a =>
    dsimp only
    rw [Action.bind_ok (Claim.run_eq _ (Scan.weakSegments_run a rw _) _ _), Claim.take_parallel hpar]
    exact ⟨_, by simp only [next, Claim.take_parallel hpar]; rfl⟩
  | none =>
    dsimp only
    rw [Action.bind_ok (Claim.run_eq _ (Scan.weakSegmentsStrong_run rw _) _ _), Claim.take_parallel hpar]
    exact ⟨_, by simp only [next, Claim.take_parallel hpar]; rfl⟩

theorem concurrency_next (it : ConcurrentWeakPass) :
    it.next.jniWeakHandles.concurrency = it.jniWeakHandles.concurrency :=
  Claim.concurrency_take _

/-- A group that has run and runs again is as it was. -/
theorem jniWeakHandles_next {it : ConcurrentWeakPass} (hpar : it.jniWeakHandles.concurrency = .parallel)
    (ht : it.jniWeakHandles.taken = true) : it.next.jniWeakHandles = it.jniWeakHandles := by
  show it.jniWeakHandles.take.2 = _
  rw [Claim.take_parallel hpar]
  cases h : it.jniWeakHandles
  simp_all

/-! ### Runs of events -/

/-- Runs events in order from a pass: each operation on the state the one before left, whether
it returned or stopped with a fault, and each call on the pass the call before returned. Gives
the pass and the state after the last event, and the visits of each call in order. -/
def drive : ConcurrentWeakPass → List WeakEvent → World × Journal →
    ConcurrentWeakPass × (World × Journal) × List (Array Visit)
  | it, [], s => (it, s, [])
  | it, .makeWeak obj strategy :: es, s => drive it es ((Op.makeWeak obj strategy).after s)
  | it, .destroyWeak h :: es, s => drive it es ((Op.destroyWeak h).after s)
  | it, .call alive rw :: es, s =>
    match Scan.visitsOf (it.work alive rw) s with
    | .ok (it', vs) s' =>
      let r := drive it' es s'
      (r.1, r.2.1, vs :: r.2.2)
    | .error _ s' => drive it es s'

theorem drive_op {e : WeakEvent} {op : Op} (he : e.op? = some op) (it : ConcurrentWeakPass)
    (es : List WeakEvent) (s : World × Journal) : it.drive (e :: es) s = it.drive es (op.after s) := by
  cases e with
  | makeWeak obj strategy => cases he; rfl
  | destroyWeak h => cases he; rfl
  | call alive rw => cases he

theorem drive_call {it it' : ConcurrentWeakPass} {alive : Option Liveness} {rw : Rewrite}
    {s s' : World × Journal} {vs : Array Visit} (h : Scan.visitsOf (it.work alive rw) s = .ok (it', vs) s')
    (es : List WeakEvent) :
    it.drive (.call alive rw :: es) s =
      ((it'.drive es s').1, (it'.drive es s').2.1, vs :: (it'.drive es s').2.2) := by
  simp only [drive, h]

/-- Events that are not calls run as the operations they are, and leave the pass alone. -/
theorem drive_ops (it : ConcurrentWeakPass) (rest : List WeakEvent) :
    ∀ (pre : List WeakEvent) (s : World × Journal), (∀ e ∈ pre, e.isCall = false) →
      it.drive (pre ++ rest) s = it.drive rest (Op.runAll (WeakEvent.ops pre) s)
  | [], _, _ => rfl
  | e :: pre, s, hpre => by
    obtain ⟨op, he⟩ := WeakEvent.op?_of_isCall (hpre e List.mem_cons_self)
    have htail : ∀ e ∈ pre, e.isCall = false := fun e' he' => hpre e' (List.mem_cons_of_mem e he')
    rw [List.cons_append, drive_op he, WeakEvent.ops_cons_of_op? he, Op.runAll_cons]
    exact drive_ops it rest pre (op.after s) htail

/-- Under a configuration where the pass does nothing, its calls change nothing and visit
nothing: the events run as their operations alone. -/
theorem drive_inactive (it : ConcurrentWeakPass) :
    ∀ (es : List WeakEvent) (s : World × Journal), active s.1.roots = false →
      it.drive es s = (it, Op.runAll (WeakEvent.ops es) s, List.replicate (WeakEvent.calls es) #[])
  | [], _, _ => rfl
  | .call alive rw :: es, s, h => by
    have hcall : Scan.visitsOf (it.work alive rw) s = .ok (it, #[]) s :=
      Scan.visitsOf_ok (work_inactive it alive rw _ s.2 h)
    rw [drive_call hcall, drive_inactive it es s h]
    simp [List.replicate_succ]
  | .makeWeak obj strategy :: es, s, h => by
    rw [drive_op rfl, drive_inactive it es _
      (by rw [WeakEvent.roots_after_op? (e := .makeWeak obj strategy) rfl]; exact h),
      WeakEvent.ops_cons_of_op? rfl, WeakEvent.calls_cons_of_op? rfl, Op.runAll_cons]
  | .destroyWeak hd :: es, s, h => by
    rw [drive_op rfl, drive_inactive it es _
      (by rw [WeakEvent.roots_after_op? (e := .destroyWeak hd) rfl]; exact h),
      WeakEvent.ops_cons_of_op? rfl, WeakEvent.calls_cons_of_op? rfl, Op.runAll_cons]

/-- Once its cursor is spent and its group has run, the calls of a pass that does something
walk nothing: the events leave the world as their operations alone would, and the group as it
was. -/
theorem drive_spent : ∀ (es : List WeakEvent) (it : ConcurrentWeakPass) (s : World × Journal),
    active s.1.roots = true → it.cursor.Spent → it.jniWeakHandles.concurrency = .parallel →
    it.jniWeakHandles.taken = true →
      (it.drive es s).1.jniWeakHandles = it.jniWeakHandles ∧
        (it.drive es s).2.1.1 = (Op.runAll (WeakEvent.ops es) s).1 ∧
        (it.drive es s).2.2 = List.replicate (WeakEvent.calls es) #[]
  | [], _, _, _, _, _, _ => ⟨rfl, rfl, rfl⟩
  | .call alive rw :: es, it, s, h, hsp, hpar, ht => by
    obtain ⟨j', hwork⟩ := it.work_active hpar alive rw { state := s.1 } s.2 h
    rw [SlotStorage.Cursor.claimAll_spent hsp, Sweep.weakSegments_nil] at hwork
    -- the call walks nothing; the pass after it is spent and has run as well
    obtain ⟨ih₁, ih₂, ih₃⟩ := drive_spent es it.next (s.1, j') h (SlotStorage.Cursor.spent_claimAll _)
      (by rw [concurrency_next]; exact hpar) (by rw [jniWeakHandles_next hpar ht]; exact ht)
    rw [drive_call (Scan.visitsOf_ok hwork)]
    refine ⟨ih₁.trans (jniWeakHandles_next hpar ht), ?_, ?_⟩
    · exact ih₂.trans (WeakEvent.runAll_ops_congr es rfl)
    · simp [ih₃, List.replicate_succ]
  | .makeWeak obj strategy :: es, it, s, h, hsp, hpar, ht => by
    rw [drive_op rfl, WeakEvent.ops_cons_of_op? rfl, WeakEvent.calls_cons_of_op? rfl, Op.runAll_cons]
    exact drive_spent es it _ (by rw [WeakEvent.roots_after_op? (e := .makeWeak obj strategy) rfl]; exact h)
      hsp hpar ht
  | .destroyWeak hd :: es, it, s, h, hsp, hpar, ht => by
    rw [drive_op rfl, WeakEvent.ops_cons_of_op? rfl, WeakEvent.calls_cons_of_op? rfl, Op.runAll_cons]
    exact drive_spent es it _ (by rw [WeakEvent.roots_after_op? (e := .destroyWeak hd) rfl]; exact h)
      hsp hpar ht

end ConcurrentWeakPass

/-- A concurrent weak pass set up on any world, weak global handles made and destroyed before
its first call, the first call, with a liveness test or without, and any events after it.

Setting up changes no part of the world and takes the number of segments of the weak storage.
Under a configuration where the pass does nothing, no event of any run visits or clears a slot
and the group stays pending. Otherwise the events before the first call leave the pass alone,
and the first call visits, once each, the slots that are allocated and hold live objects at that
moment in the segments below that number, with the objects they hold, and leaves those holding
dead objects null; it changes no other slot and nothing else of the world but the contents of
weak global slots. The group is completed from then on, and the later calls visit nothing and
change nothing of the world. -/
theorem concurrent_weak_pass_scans_snapshot (s : World × Journal) (pre : List WeakEvent)
    (hpre : ∀ e ∈ pre, e.isCall = false) (alive : Option Liveness) (rw : Rewrite)
    (post : List WeakEvent) :
    ∃ it s₁, ConcurrentWeakPass.start s = .ok it s₁ ∧ s₁.1 = s.1 ∧
      it.cursor.segmentCount = s.1.registry.table.weaks.segments.size ∧
      it.jniWeakHandles.state = .pending ∧
      (ConcurrentWeakPass.active s.1.roots = false → ∀ es, it.drive es s₁ =
        (it, Op.runAll (WeakEvent.ops es) s₁, List.replicate (WeakEvent.calls es) #[])) ∧
      it.drive pre s₁ = (it, Op.runAll (WeakEvent.ops pre) s₁, []) ∧
      (ConcurrentWeakPass.active s.1.roots = true →
        let w := (Op.runAll (WeakEvent.ops pre) s₁).1
        let live := alive.getD .everything
        ∃ it' vs s₃, Scan.visitsOf (it.work alive rw) (Op.runAll (WeakEvent.ops pre) s₁) = .ok (it', vs) s₃ ∧
          (∀ i, (vs.toList.map Visit.slot).count (.weak i) =
            if i / segmentSlots < it.cursor.segmentCount ∧ w.registry.table.weaks.isAllocated i = true ∧
              w.readSlot (.weak i) ≠ 0 ∧ live.alive (w.readSlot (.weak i)) = true then 1 else 0) ∧
          (∀ v ∈ vs.toList, ∃ i, v.slot = .weak i ∧ v.value = w.readSlot (.weak i)) ∧
          (∀ i, i / segmentSlots < it.cursor.segmentCount → w.registry.table.weaks.isAllocated i = true →
            w.readSlot (.weak i) ≠ 0 → live.alive (w.readSlot (.weak i)) = false →
            s₃.1.readSlot (.weak i) = 0) ∧
          (∀ i, ¬ (i / segmentSlots < it.cursor.segmentCount ∧ w.registry.table.weaks.isAllocated i = true) →
            s₃.1.readSlot (.weak i) = w.readSlot (.weak i)) ∧
          World.WeakTouched w s₃.1 ∧ s₃.1.sources = w.sources ∧
          it'.jniWeakHandles.state = .completed ∧
          it.drive (pre ++ .call alive rw :: post) s₁ =
            ((it'.drive post s₃).1, (it'.drive post s₃).2.1, vs :: (it'.drive post s₃).2.2) ∧
          (it'.drive post s₃).2.2 = List.replicate (WeakEvent.calls post) #[] ∧
          (it'.drive post s₃).2.1.1 = (Op.runAll (WeakEvent.ops post) s₃).1 ∧
          (it'.drive post s₃).1.jniWeakHandles.state = .completed) := by
  obtain ⟨w₀, j⟩ := s
  obtain ⟨j₁, hstart⟩ := ConcurrentWeakPass.start_run w₀ j
  generalize hit : ({ scan := j.scans + 1, cursor := w₀.registry.table.weaks.cursor } :
    ConcurrentWeakPass) = it at hstart
  have hpar : it.jniWeakHandles.concurrency = .parallel := by rw [← hit]; rfl
  have hfresh : it.cursor.next = 0 := by rw [← hit]; rfl
  have hpre_run : it.drive pre (w₀, j₁) = (it, Op.runAll (WeakEvent.ops pre) (w₀, j₁), []) := by
    have h := ConcurrentWeakPass.drive_ops it [] pre (w₀, j₁) hpre
    rw [List.append_nil] at h
    exact h
  refine ⟨it, (w₀, j₁), hstart, rfl, by rw [← hit]; rfl, by rw [← hit]; rfl,
    fun h es => ConcurrentWeakPass.drive_inactive it es _ h, hpre_run, fun hact => ?_⟩
  have hroots : ConcurrentWeakPass.active (Op.runAll (WeakEvent.ops pre) (w₀, j₁)).1.roots = true := by
    rw [WeakEvent.roots_runAll_ops]
    exact hact
  have hdrive := ConcurrentWeakPass.drive_ops it (.call alive rw :: post) pre (w₀, j₁) hpre
  generalize Op.runAll (WeakEvent.ops pre) (w₀, j₁) = s₂ at hroots hdrive ⊢
  obtain ⟨w, j₂⟩ := s₂
  dsimp only
  -- the first call claims every segment of the snapshot and walks them
  obtain ⟨j₃, hwork⟩ := it.work_active hpar alive rw { state := w } j₂ hroots
  rw [SlotStorage.Cursor.claimAll_fresh hfresh] at hwork
  generalize hsw : ({ state := w } : Sweep World).weakSegments (alive.getD .everything) rw
    (List.range it.cursor.segmentCount) = sw at hwork
  have hcall := Scan.visitsOf_ok hwork
  have hslots := Sweep.weaks_slots_nodup w (List.nodup_range (n := it.cursor.segmentCount))
  have hvisits : sw.visits.toList = Sweep.liveSeen w (alive.getD .everything)
      ((Walk.weaks (List.range it.cursor.segmentCount)).slots w) := by
    rw [← hsw, Sweep.visits_weakSegments List.nodup_range]
    simp
  have hkeeps : World.WeakTouched w sw.state ∧ sw.state.sources = w.sources := by
    rw [← hsw]
    exact Sweep.weakTouched_weakSegments (List.range it.cursor.segmentCount) { state := w }
  obtain ⟨htouched, hsources⟩ := hkeeps
  have hcompleted : it.next.jniWeakHandles.state = .completed := by
    simp [ConcurrentWeakPass.next, Claim.take_parallel hpar, Claim.state, hpar]
  -- the later calls find the cursor spent
  obtain ⟨hgroup, hworld, hlater⟩ := ConcurrentWeakPass.drive_spent post it.next (sw.state, j₃)
    (by rw [htouched.roots]; exact hroots) (SlotStorage.Cursor.spent_claimAll _)
    (by rw [ConcurrentWeakPass.concurrency_next]; exact hpar)
    (by simp [ConcurrentWeakPass.next, Claim.take_parallel hpar])
  refine ⟨it.next, sw.visits, (sw.state, j₃), hcall, fun i => ?_, fun v hv => ?_,
    fun i hi ha h0 hdead => ?_, fun i hi => ?_, htouched, hsources, hcompleted,
    by rw [hdrive, ConcurrentWeakPass.drive_call hcall], hlater, hworld, by rw [hgroup]; exact hcompleted⟩
  · rw [hvisits, Sweep.count_liveSeen _ _ hslots]
    simp only [Sweep.mem_weaks_slots, List.mem_range, and_assoc]
  · rw [hvisits] at hv
    obtain ⟨a, ha, hva⟩ := List.mem_filterMap.mp hv
    obtain ⟨i, -, rfl⟩ := List.mem_map.mp ha
    split at hva
    · cases hva
      exact ⟨i, rfl, rfl⟩
    · cases hva
  · rw [← hsw]
    exact Sweep.cleared_weakSegments List.nodup_range _
      (Sweep.mem_weaks_slots.mpr ⟨List.mem_range.mpr hi, ha⟩) h0 hdead
  · rw [← hsw]
    refine Sweep.readSlot_weakSegments _ fun hm => hi ?_
    rw [Sweep.mem_weaks_slots, List.mem_range] at hm
    exact hm

/-- A weak global handle for 16 made before a concurrent weak pass is set up and one for 32 made
after it, in the same segment: the first call, which finds 32 dead, visits the slot of 16 and
clears the slot of 32. -/
theorem concurrent_weak_pass_clears_late_handle :
    let s := Op.runAll [.makeWeak 16 .returnNull] (World.new Table.fresh, {})
    ∃ it s₁, ConcurrentWeakPass.start s = .ok it s₁ ∧
      ∃ it' vs s₃, Scan.visitsOf (it.work (some (.allBut [32])) .keep)
          (Op.runAll [.makeWeak 32 .returnNull] s₁) = .ok (it', vs) s₃ ∧
        (vs.toList.map Visit.slot).count (.weak 0) = 1 ∧ s₃.1.readSlot (.weak 1) = 0 := by
  intro s
  obtain ⟨it, s₁, hstart, hs₁, hn, -, -, -, hact⟩ := concurrent_weak_pass_scans_snapshot s
    [.makeWeak 32 .returnNull] (by simp [WeakEvent.isCall]) (some (.allBut [32])) .keep []
  -- the world the first call finds: 16 in slot 0, 32 in slot 1, both in segment 0
  have hw : (Op.runAll (WeakEvent.ops [.makeWeak 32 .returnNull]) s₁).1 =
      (Op.runAll [.makeWeak 32 .returnNull] (s.1, {})).1 :=
    WeakEvent.runAll_ops_congr [.makeWeak 32 .returnNull] hs₁
  have hfacts : ConcurrentWeakPass.active s.1.roots = true ∧ s.1.registry.table.weaks.segments.size = 1 ∧
      (Op.runAll [.makeWeak 32 .returnNull] (s.1, {})).1.registry.table.weaks.isAllocated 0 = true ∧
      (Op.runAll [.makeWeak 32 .returnNull] (s.1, {})).1.readSlot (.weak 0) = 16 ∧
      (Op.runAll [.makeWeak 32 .returnNull] (s.1, {})).1.registry.table.weaks.isAllocated 1 = true ∧
      (Op.runAll [.makeWeak 32 .returnNull] (s.1, {})).1.readSlot (.weak 1) = 32 := by
    decide +kernel
  obtain ⟨hactive, hsize, ha₀, hv₀, ha₁, hv₁⟩ := hfacts
  obtain ⟨it', vs, s₃, hcall, hcount, -, hclear, -⟩ := hact hactive
  have hseg : ∀ i < segmentSlots, i / segmentSlots < it.cursor.segmentCount := fun i hi => by
    rw [hn, hsize, Nat.div_eq_of_lt hi]
    decide
  refine ⟨it, s₁, hstart, it', vs, s₃, hcall, ?_, ?_⟩
  · rw [hcount 0, if_pos ⟨hseg 0 (by decide), by rw [hw]; exact ha₀, by rw [hw, hv₀]; decide,
      by rw [hw, hv₀]; rfl⟩]
  · exact hclear 1 (hseg 1 (by decide)) (by rw [hw]; exact ha₁) (by rw [hw, hv₁]; decide)
      (by rw [hw, hv₁]; rfl)

end GcRoots

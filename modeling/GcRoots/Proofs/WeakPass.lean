import GcRoots.Proofs.Coverage
import GcRoots.Proofs.StorageSet
import GcRoots.Proofs.Sweep

namespace GcRoots

/-!
# What a weak pass does

A weak pass runs at its registry's safepoint. Setting it up runs the prologues of the symbol
table and then the string table; tearing it down runs their epilogues in the same order. Each
worker call walks the symbol table, and when weak roots are weak also the weak export, the trace
and the string table, and, unless they are scanned concurrently, the weak global handles. The
serial groups (the weak global handles, the weak export, the trace) run in the first call only.

A walk reads each slot of its list before anything is written to it, when the slots of the list
are distinct and a write to one leaves the others alone (`Sweep.Separate`). So a weak walk over
the weak global handles visits each allocated slot that holds a live object once, with that
object (`Sweep.weak_visits`), and leaves each slot of a dead object null (`Sweep.weak_cleared`),
whatever its visitor writes. Such a slot stays allocated, so it resolves to null, reads as
cleared, and can be destroyed once (`Table.cleared_weak`).

Main statement: `weak_pass_clears_dead_weaks`, over any world at a safepoint, any liveness test,
and one or more calls with any visitors.
-/

namespace SlotStorage

variable {s : SlotStorage}

/-- Writing a slot leaves every other slot as it was. -/
theorem slot?_store_ne (s : SlotStorage) {k i : Nat} (h : k ≠ i) (v : Nat) :
    (s.store k v).slot? i = s.slot? i := by
  unfold store store? slot?
  rcases hg : s.segments[k / segmentSlots]? with _ | g
  · rfl
  have hlt : k / segmentSlots < s.segments.size := (Array.getElem?_eq_some_iff.mp hg).1
  simp only [Option.getD_some, Array.getElem?_set!_of_lt hlt]
  by_cases hseg : k / segmentSlots = i / segmentSlots
  · -- the same segment, so another position in it
    have hm : k % segmentSlots ≠ i % segmentSlots := fun hm => h (eq_of_div_mod hseg hm)
    rw [if_pos hseg, ← hseg, hg]
    simp [Array.getD_eq_getD_getElem?, Array.set!_eq_setIfInBounds, hm]
  · rw [if_neg hseg]

/-- Writing null into a slot that exists leaves it null. -/
theorem slot?_store_zero (s : SlotStorage) (k : Nat) :
    (s.store k 0).slot? k = (s.slot? k).map fun _ => 0 := by
  unfold store store? slot?
  rcases hg : s.segments[k / segmentSlots]? with _ | g
  · simp [hg]
  have hlt : k / segmentSlots < s.segments.size := (Array.getElem?_eq_some_iff.mp hg).1
  rw [Option.getD_some, Array.getElem?_set!_of_lt hlt, if_pos rfl]
  simp only [Option.map_some, Array.getD_eq_getD_getElem?, Array.set!_eq_setIfInBounds,
    Array.getElem?_setIfInBounds]
  by_cases hk : k % segmentSlots < g.slots.size <;> simp [hk]

/-- Writing a slot keeps every allocation bit. -/
theorem isAllocated_store (s : SlotStorage) (k v i : Nat) :
    (s.store k v).isAllocated i = s.isAllocated i := by
  unfold store store? isAllocated
  rcases hg : s.segments[k / segmentSlots]? with _ | g
  · rfl
  have hlt : k / segmentSlots < s.segments.size := (Array.getElem?_eq_some_iff.mp hg).1
  simp only [Option.getD_some, Array.getElem?_set!_of_lt hlt]
  by_cases hseg : k / segmentSlots = i / segmentSlots
  · rw [if_pos hseg, ← hseg, hg]
  · rw [if_neg hseg]

/-- The allocated indices of some segments: those whose segment is among them. -/
theorem mem_liveIndicesIn {segs : List Nat} {i : Nat} :
    i ∈ s.liveIndicesIn segs ↔ i / segmentSlots ∈ segs ∧ s.isAllocated i = true := by
  unfold liveIndicesIn
  rw [List.mem_flatMap]
  constructor
  · rintro ⟨seg, hseg, hi⟩
    have hb := mem_segmentIndices hi
    split at hi
    · rename_i g hg
      obtain ⟨b, hb', rfl⟩ := List.mem_map.mp hi
      rw [Segment.livePositions_eq_filter] at hb'
      have hb'' : b < segmentSlots := List.mem_range.mp (List.mem_filter.mp hb').1
      rw [index_div hb'', isAllocated_index hg hb'']
      exact ⟨hseg, by simpa using (List.mem_filter.mp hb').2⟩
    · cases hi
  · rintro ⟨hseg, ha⟩
    obtain ⟨g, hg, hused⟩ := isAllocated_iff.mp ha
    refine ⟨i / segmentSlots, hseg, ?_⟩
    rw [hg]
    refine List.mem_map.mpr ⟨i % segmentSlots, ?_, Nat.div_add_mod' i segmentSlots⟩
    rw [Segment.livePositions_eq_filter]
    exact List.mem_filter.mpr ⟨List.mem_range.mpr (Nat.mod_lt _ (by decide)), by simpa using hused⟩

/-- The allocated indices of a storage are its allocated slots. -/
theorem mem_liveIndices {i : Nat} : i ∈ s.liveIndices ↔ s.isAllocated i = true := by
  unfold liveIndices
  rw [mem_liveIndicesIn, List.mem_range]
  refine ⟨fun h => h.2, fun h => ⟨?_, h⟩⟩
  obtain ⟨g, hg, -⟩ := isAllocated_iff.mp h
  exact (Array.getElem?_eq_some_iff.mp hg).1

end SlotStorage

namespace World

/-- Writing any other slot leaves a weak global slot as it was. -/
theorem readSlot_writeSlot_weak (w : World) {a : SlotAddr} {i : Nat} (h : a ≠ .weak i) (v : Nat) :
    (w.writeSlot a v).readSlot (.weak i) = w.readSlot (.weak i) := by
  cases a with
  | weak k =>
    have hk : k ≠ i := fun hk => h (hk ▸ rfl)
    simp only [writeSlot, readSlot, SlotStorage.slot?_store_ne _ hk]
  | global k => rfl
  | threadLocal k => rfl
  | source c k => rfl
  | stack t k => rfl
  | storage k => rfl

/-- Writing null into a weak global slot leaves it null. -/
theorem readSlot_writeSlot_weak_zero (w : World) (i : Nat) :
    (w.writeSlot (.weak i) 0).readSlot (.weak i) = 0 := by
  simp only [writeSlot, readSlot, SlotStorage.slot?_store_zero]
  cases w.registry.table.weaks.slot? i <;> rfl

end World

namespace Sweep

/-- The slots of a list are separate when writing one leaves the others as they were. -/
def Separate (l : List SlotAddr) : Prop :=
  ∀ (w : World) a b v, a ∈ l → b ∈ l → a ≠ b → (w.writeSlot a v).readSlot b = w.readSlot b

theorem Separate.tail {a : SlotAddr} {l : List SlotAddr} (h : Separate (a :: l)) : Separate l :=
  fun w b c v hb hc => h w b c v (List.mem_cons_of_mem a hb) (List.mem_cons_of_mem a hc)

/-- Weak global slots are separate. -/
theorem separate_weak (l : List Nat) : Separate (l.map SlotAddr.weak) := by
  intro w' a b v _ hb hab
  obtain ⟨i, -, rfl⟩ := List.mem_map.mp hb
  exact w'.readSlot_writeSlot_weak hab v

theorem separate_weakSlots (w : World) : Separate w.weakSlots :=
  separate_weak _

/-- The visits of a weak walk whose slots are read before anything is written to them: each slot
of the list that holds a live object, with that object. -/
def liveSeen (w : World) (alive : Liveness) (l : List SlotAddr) : List Visit :=
  l.filterMap fun a =>
    if w.readSlot a ≠ 0 ∧ alive.alive (w.readSlot a) = true then some ⟨a, w.readSlot a⟩ else none

theorem liveSeen_cons (w : World) (alive : Liveness) (a : SlotAddr) (l : List SlotAddr) :
    liveSeen w alive (a :: l) = liveSeen w alive [a] ++ liveSeen w alive l := by
  simp only [liveSeen, List.filterMap_cons, List.filterMap_nil]
  split <;> rfl

/-- Worlds that agree on the slots of a list see the same visits over it. -/
theorem liveSeen_congr {w w' : World} {alive : Liveness} {l : List SlotAddr}
    (h : ∀ a ∈ l, w'.readSlot a = w.readSlot a) : liveSeen w' alive l = liveSeen w alive l := by
  unfold liveSeen
  exact List.filterMap_congr fun a ha => by rw [h a ha]

/-- The visits seen over a list are the visits a weak walk keeps, slot by slot. -/
theorem liveSeen_eq_flatMap (w : World) (alive : Liveness) (l : List SlotAddr) :
    liveSeen w alive l = l.flatMap fun a => keptVisit alive a (w.readSlot a) := by
  induction l with
  | nil => rfl
  | cons a l ih =>
    rw [liveSeen_cons, ih, List.flatMap_cons]
    congr 1
    simp only [liveSeen, keptVisit, List.filterMap_cons, List.filterMap_nil]
    by_cases h : w.readSlot a ≠ 0 ∧ alive.alive (w.readSlot a) = true
    · rw [if_pos h, if_pos h]
    · rw [if_neg h, if_neg h]

variable {alive : Liveness} {rw : Rewrite}

/-- One step of a weak walk writes its own slot at most. -/
theorem visitWeak_state (sw : Sweep World) (a : SlotAddr) :
    (sw.visitWeak alive rw a).state = sw.state ∨
      ∃ v, (sw.visitWeak alive rw a).state = sw.state.writeSlot a v := by
  rw [state_visitWeak]
  split
  · exact Or.inl rfl
  · exact Or.inr ⟨_, rfl⟩

theorem visitWeak_visits (sw : Sweep World) (a : SlotAddr) :
    (sw.visitWeak alive rw a).visits = sw.visits ++ (liveSeen sw.state alive [a]).toArray := by
  apply Array.toList_inj.mp
  rw [visits_visitWeak, Array.toList_append, liveSeen_eq_flatMap, List.flatMap_singleton]
  rfl

/-- A weak walk over separate, distinct slots visits each slot that holds a live object once, in
order, with the object it held when the walk began; its visitor may write anything. -/
theorem weak_visits {l : List SlotAddr} (hl : l.Nodup) (hs : Separate l) (sw : Sweep World) :
    (sw.weak alive rw l).visits = sw.visits ++ (liveSeen sw.state alive l).toArray := by
  apply Array.toList_inj.mp
  rw [visits_weak alive rw hl hs sw, Array.toList_append, liveSeen_eq_flatMap]
  rfl

/-- A weak walk over separate, distinct slots leaves a slot of a dead object null, whatever its
visitor writes elsewhere. -/
theorem weak_cleared {l : List SlotAddr} (hl : l.Nodup) (hs : Separate l) {a : SlotAddr}
    (ha : a ∈ l) (hzero : ∀ w : World, (w.writeSlot a 0).readSlot a = 0) (sw : Sweep World)
    (h0 : sw.state.readSlot a ≠ 0) (hdead : alive.alive (sw.state.readSlot a) = false) :
    (sw.weak alive rw l).state.readSlot a = 0 := by
  induction l generalizing sw with
  | nil => cases ha
  | cons b l ih =>
    obtain ⟨hb, hl⟩ := List.nodup_cons.mp hl
    simp only [weak, List.foldl_cons]
    by_cases hab : b = a
    · subst hab
      -- the step clears `b`, and the rest of the walk writes only other slots
      have hclear : (sw.visitWeak alive rw b).state.readSlot b = 0 := by
        simp [visitWeak, h0, hdead, hzero]
      exact weak_induct (fun w => w.readSlot b = 0)
        (fun w c v hc hw => by
          rw [hs w c b v (List.mem_cons_of_mem b hc) List.mem_cons_self (fun hcb => hb (hcb ▸ hc))]
          exact hw) hclear
    · have ha' : a ∈ l := (List.mem_cons.mp ha).resolve_left (Ne.symm hab)
      have hkeep : (sw.visitWeak alive rw b).state.readSlot a = sw.state.readSlot a := by
        rcases visitWeak_state sw b with h | ⟨v, h⟩ <;> rw [h]
        exact hs sw.state b a v List.mem_cons_self ha hab
      exact ih hl hs.tail ha' (sw.visitWeak alive rw b) (hkeep ▸ h0) (hkeep ▸ hdead)

end Sweep

/-! ### The walks of a weak pass -/

namespace Source

/-- A source without its slots: what walks over its slots leave alone. -/
def counters : Source → Source
  | .listed _ c p e => .listed #[] c p e
  | .closure _ => .closure #[]
  | s => s

@[simp] theorem counters_called (s : Source) : s.called.counters = s.counters.called := by
  cases s <;> rfl

@[simp] theorem counters_store? (s : Source) (i v : Nat) : ((s.store? i v).getD s).counters = s.counters := by
  cases s with
  | listed sl c p e => by_cases hi : i < sl.size <;> simp [store?, counters, hi]
  | closure sl => by_cases hi : i < sl.size <;> simp [store?, counters, hi]
  | counting c p e => rfl
  | empty => rfl

end Source

/-- Whether a slot address names a weak global slot. -/
def SlotAddr.isWeak : SlotAddr → Bool
  | .weak _ => true
  | _ => false

namespace World

/-- `w'` is `w` with other root sources and other contents in its weak global slots: the rest of
the registry, the configuration, the stack roots and every allocation bit of the weak storage
are the same. -/
structure WeakTouched (w w' : World) : Prop where
  registry : { w'.registry with table := { w'.registry.table with weaks := w.registry.table.weaks } } =
    w.registry
  roots : w'.roots = w.roots
  stack : w'.stackRoots = w.stackRoots
  allocated : ∀ i, w'.registry.table.weaks.isAllocated i = w.registry.table.weaks.isAllocated i

namespace WeakTouched

variable {w w' w'' : World}

theorem refl (w : World) : WeakTouched w w := ⟨rfl, rfl, rfl, fun _ => rfl⟩

theorem trans (h : WeakTouched w w') (h' : WeakTouched w' w'') : WeakTouched w w'' := by
  refine ⟨?_, h'.roots.trans h.roots, h'.stack.trans h.stack,
    fun i => (h'.allocated i).trans (h.allocated i)⟩
  rw [← h.registry, ← h'.registry]

/-- Writing a weak global slot or a slot of a root source touches only what the relation
allows. -/
theorem writeSlot (h : WeakTouched w w') {a : SlotAddr} (ha : a.isWeak = true ∨ ∃ c i, a = .source c i)
    (v : Nat) : WeakTouched w (w'.writeSlot a v) := by
  rcases ha with ha | ⟨c, i, rfl⟩
  · cases a with
    | weak k =>
      exact h.trans ⟨rfl, rfl, rfl, fun i => SlotStorage.isAllocated_store _ k v i⟩
    | _ => cases ha
  · exact h.trans ⟨rfl, rfl, rfl, fun _ => rfl⟩

theorem enter (h : WeakTouched w w') (c : Category) : WeakTouched w (w'.enter c) :=
  h.trans ⟨rfl, rfl, rfl, fun _ => rfl⟩

end WeakTouched

end World

namespace Sweep

variable {alive : Liveness} {rw : Rewrite}

/-- The walk of a weak source group: the source is entered, then its slots are walked with the
liveness test. -/
def sourceWeak (c : Category) (alive : Liveness) (rw : Rewrite) (sw : Sweep World) : Sweep World :=
  ({ sw with state := sw.state.enter c } : Sweep World).weak alive rw (sw.state.sourceSlots c)

/-- The walk of the weak global handles with the liveness test. -/
def weakGlobals (alive : Liveness) (rw : Rewrite) (sw : Sweep World) : Sweep World :=
  sw.weak alive rw sw.state.weakSlots

theorem weakTouched_sourceWeak (c : Category) (sw : Sweep World) :
    World.WeakTouched sw.state (sw.sourceWeak c alive rw).state := by
  refine weak_induct (World.WeakTouched sw.state) (fun w a v ha hw => hw.writeSlot ?_ v)
    ((World.WeakTouched.refl _).enter c)
  obtain ⟨i, -, rfl⟩ := List.mem_map.mp ha
  exact Or.inr ⟨c, i, rfl⟩

theorem weakTouched_weakGlobals (sw : Sweep World) :
    World.WeakTouched sw.state (sw.weakGlobals alive rw).state := by
  refine weak_induct (World.WeakTouched sw.state) (fun w a v ha hw => hw.writeSlot ?_ v)
    (World.WeakTouched.refl _)
  obtain ⟨i, -, rfl⟩ := List.mem_map.mp ha
  exact Or.inl rfl

/-- Walking a source enters it once and keeps the counters of every source otherwise. -/
theorem counters_sourceWeak (c c' : Category) (sw : Sweep World) :
    ((sw.sourceWeak c alive rw).state.sources.get c').counters =
      if c' = c then (sw.state.sources.get c').counters.called else (sw.state.sources.get c').counters := by
  -- the walk writes slots of the source only, which keeps every source's counters
  have hwalk : ∀ c', ((({ sw with state := sw.state.enter c } : Sweep World).weak alive rw
      (sw.state.sourceSlots c)).state.sources.get c').counters =
        ((sw.state.enter c).sources.get c').counters :=
    weak_induct (fun w : World => ∀ c', (w.sources.get c').counters =
      ((sw.state.enter c).sources.get c').counters)
    (fun w a v ha hw c'' => by
      obtain ⟨i, -, rfl⟩ := List.mem_map.mp ha
      rw [← hw c'']
      simp only [World.writeSlot, Sources.get_modify]
      split
      · subst_vars
        exact Source.counters_store? _ _ _
      · rfl)
    (fun _ => rfl)
  rw [sourceWeak, hwalk c']
  simp only [World.enter, Sources.get_set]
  split
  · subst_vars
    exact Source.counters_called _
  · rfl

theorem counters_weakGlobals (sw : Sweep World) (c : Category) :
    ((sw.weakGlobals alive rw).state.sources.get c).counters = (sw.state.sources.get c).counters := by
  refine weak_induct (fun w : World => (w.sources.get c).counters = (sw.state.sources.get c).counters)
    (fun w a v ha hw => ?_) rfl
  obtain ⟨i, -, rfl⟩ := List.mem_map.mp ha
  exact hw

/-- Walking a source leaves the weak global slots as they were. -/
theorem weaks_sourceWeak (c : Category) (sw : Sweep World) :
    (sw.sourceWeak c alive rw).state.registry = sw.state.registry := by
  refine weak_induct (fun w : World => w.registry = sw.state.registry) (fun w a v ha hw => ?_) rfl
  obtain ⟨i, -, rfl⟩ := List.mem_map.mp ha
  exact hw

/-- The visits of a walk lie in its list of slots. -/
theorem weak_visits_filter {l : List SlotAddr} (p : Visit → Bool) (hl : ∀ a ∈ l, ∀ v, p ⟨a, v⟩ = false)
    (sw : Sweep World) : (sw.weak alive rw l).visits.toList.filter p = sw.visits.toList.filter p := by
  induction l generalizing sw with
  | nil => rfl
  | cons a l ih =>
    simp only [weak, List.foldl_cons] at ih ⊢
    rw [ih (fun b hb => hl b (List.mem_cons_of_mem a hb)), visitWeak_visits]
    simp only [Array.toList_append, List.filter_append]
    have hnone : (liveSeen sw.state alive [a]).filter p = [] := by
      by_cases h : sw.state.readSlot a ≠ 0 ∧ alive.alive (sw.state.readSlot a) = true
      · simp [liveSeen, h, hl a List.mem_cons_self]
      · simp [liveSeen, h]
    rw [hnone, List.append_nil]

theorem weakVisits_sourceWeak (c : Category) (sw : Sweep World) :
    (sw.sourceWeak c alive rw).visits.toList.filter (·.slot.isWeak) =
      sw.visits.toList.filter (·.slot.isWeak) := by
  refine weak_visits_filter _ (fun a ha v => ?_) _
  obtain ⟨i, -, rfl⟩ := List.mem_map.mp ha
  rfl

end Sweep

theorem Scan.source_weak_run (c : Category) (alive : Liveness) (rw : Rewrite) (sw : Sweep World)
    (j : Journal) : Scan.source c (some alive) rw (sw, j) = .ok () (sw.sourceWeak c alive rw, j) := rfl

theorem Scan.weakGlobals_run (alive : Liveness) (rw : Rewrite) (sw : Sweep World) (j : Journal) :
    Scan.weakGlobals alive rw (sw, j) = .ok () (sw.weakGlobals alive rw, j) := rfl

/-! ### One worker call -/

/-- The groups of a weak pass. -/
inductive WeakGroup where
  | symbolTable
  | jniWeakHandles
  | jvmtiWeakExport
  | trace
  | stringTable
  deriving DecidableEq

/-- Whether the calls of a weak pass come to a group under a roots configuration. -/
def WeakGroup.reached (cfg : RootsConfig) : WeakGroup → Bool
  | .symbolTable => true
  | .jniWeakHandles => cfg.weakRoots && !cfg.concurrentWeakGlobals
  | _ => cfg.weakRoots

namespace WeakPass

/-- The claim of a group. -/
def group (it : WeakPass) : WeakGroup → Claim
  | .symbolTable => it.symbolTable
  | .jniWeakHandles => it.jniWeakHandles
  | .jvmtiWeakExport => it.jvmtiWeakExport
  | .trace => it.trace
  | .stringTable => it.stringTable

/-- Whether a call walks a group: it comes to the group, and the claim lets it run. -/
def walks (it : WeakPass) (cfg : RootsConfig) (g : WeakGroup) : Bool :=
  g.reached cfg && (it.group g).take.1

/-- The pass after a call: each group the call came to has run once more. -/
def after (it : WeakPass) (cfg : RootsConfig) : WeakPass :=
  let next (g : WeakGroup) := if g.reached cfg then (it.group g).take.2 else it.group g
  { it with symbolTable := next .symbolTable, jniWeakHandles := next .jniWeakHandles,
            jvmtiWeakExport := next .jvmtiWeakExport, trace := next .trace,
            stringTable := next .stringTable }

theorem group_after (it : WeakPass) (cfg : RootsConfig) (g : WeakGroup) :
    (it.after cfg).group g = if g.reached cfg then (it.group g).take.2 else it.group g := by
  cases g <;> rfl

/-- A call on the walk state: the groups it walks, in order. -/
def sweep (it : WeakPass) (cfg : RootsConfig) (alive : Liveness) (rw : Rewrite) (sw : Sweep World) :
    Sweep World :=
  let step (g : WeakGroup) (f : Sweep World → Sweep World) (sw : Sweep World) :=
    if it.walks cfg g then f sw else sw
  sw |> step .symbolTable (Sweep.sourceWeak .symbolTable alive rw)
    |> step .jniWeakHandles (Sweep.weakGlobals alive rw)
    |> step .jvmtiWeakExport (Sweep.sourceWeak .jvmtiWeakExport alive rw)
    |> step .trace (Sweep.sourceWeak .trace alive rw)
    |> step .stringTable (Sweep.sourceWeak .stringTable alive rw)

/-- A worker call walks the groups it comes to and their claims let it run. -/
theorem work_run (it : WeakPass) (alive : Liveness) (rw : Rewrite) (sw : Sweep World) (j : Journal) :
    ∃ j', it.work alive rw (sw, j) =
      .ok (it.after sw.state.roots) (it.sweep sw.state.roots alive rw sw, j') := by
  unfold work
  rw [Action.bind_ok (Action.emit_run _ _),
    Action.bind_ok (Claim.run_eq _ (Scan.source_weak_run _ _ _) _ _)]
  dsimp only
  rw [Action.bind_ok (Action.read_run _)]
  dsimp only
  -- the symbol table walk leaves the configuration alone
  have hroots : (if it.symbolTable.take.1 = true then Sweep.sourceWeak .symbolTable alive rw sw
      else sw).state.roots = sw.state.roots := by
    split
    · exact (Sweep.weakTouched_sourceWeak _ sw).roots
    · rfl
  rw [hroots]
  cases hwr : sw.state.roots.weakRoots <;> cases hcw : sw.state.roots.concurrentWeakGlobals <;>
    simp only [Bool.false_eq_true, if_false, if_true, Bool.not_true, Bool.not_false]
  · -- weak roots are walked as strong roots: the call walks the symbol table only
    rw [Action.pure_run]
    refine Action.ok_exists_journal _ ?_ ?_
    · simp [after, WeakGroup.reached, group, hwr]
    · simp [sweep, walks, WeakGroup.reached, group, hwr]
  · rw [Action.pure_run]
    refine Action.ok_exists_journal _ ?_ ?_
    · simp [after, WeakGroup.reached, group, hwr]
    · simp [sweep, walks, WeakGroup.reached, group, hwr]
  · -- the weak global handles too
    rw [Action.bind_ok (Claim.run_eq _ (Scan.weakGlobals_run _ _) _ _),
      Action.bind_ok (Action.pure_run _ _),
      Action.bind_ok (Claim.run_eq _ (Scan.source_weak_run _ _ _) _ _),
      Action.bind_ok (Claim.run_eq _ (Scan.source_weak_run _ _ _) _ _),
      Action.bind_ok (Claim.run_eq _ (Scan.source_weak_run _ _ _) _ _), Action.pure_run]
    refine Action.ok_exists_journal _ ?_ ?_
    · simp [after, WeakGroup.reached, group, hwr, hcw]
    · simp [sweep, walks, WeakGroup.reached, group, hwr, hcw]
  · -- the weak global handles are scanned concurrently
    rw [Action.bind_ok (Action.pure_run _ _),
      Action.bind_ok (Claim.run_eq _ (Scan.source_weak_run _ _ _) _ _),
      Action.bind_ok (Claim.run_eq _ (Scan.source_weak_run _ _ _) _ _),
      Action.bind_ok (Claim.run_eq _ (Scan.source_weak_run _ _ _) _ _), Action.pure_run]
    refine Action.ok_exists_journal _ ?_ ?_
    · simp [after, WeakGroup.reached, group, hwr, hcw]
    · simp [sweep, walks, WeakGroup.reached, group, hwr, hcw]

end WeakPass

/-! ### What a call changes -/

namespace Sweep

variable {alive : Liveness} {rw : Rewrite}

/-- A change of the walk state that changes the world and appends visits, both as functions of
the world alone. -/
def Appends (f : Sweep World → Sweep World) : Prop :=
  ∀ sw, f sw = { state := (f { state := sw.state }).state,
                 visits := sw.visits ++ (f { state := sw.state }).visits }

theorem Appends.comp {f g : Sweep World → Sweep World} (hf : Appends f) (hg : Appends g) :
    Appends (fun sw => g (f sw)) := by
  intro sw
  have h₁ := hg { state := (f { state := sw.state }).state,
                  visits := sw.visits ++ (f { state := sw.state }).visits }
  simp only
  rw [hf sw, h₁, hg (f { state := sw.state }), Array.append_assoc]

theorem Appends.ite (b : Bool) {f : Sweep World → Sweep World} (hf : Appends f) :
    Appends (fun sw => if b then f sw else sw) := by
  cases b
  · intro sw
    simp
  · exact hf

theorem appends_visitWeak (a : SlotAddr) : Appends (fun sw : Sweep World => sw.visitWeak alive rw a) := by
  intro sw
  by_cases h0 : sw.state.readSlot a = 0
  · simp [visitWeak, h0]
  · by_cases hl : alive.alive (sw.state.readSlot a) = true
    · simp [visitWeak, visitStrong, h0, hl]
    · simp [visitWeak, h0, hl]

theorem appends_weak (l : List SlotAddr) : Appends (fun sw : Sweep World => sw.weak alive rw l) := by
  induction l with
  | nil => intro sw; simp [weak]
  | cons a l ih => exact (appends_visitWeak a).comp ih

theorem appends_sourceWeak (c : Category) : Appends (sourceWeak c alive rw) := by
  intro sw
  have h₁ : ({ sw with state := sw.state.enter c } : Sweep World).weak alive rw (sw.state.sourceSlots c) =
      _ := appends_weak (sw.state.sourceSlots c) _
  have h₂ : ({ state := sw.state.enter c } : Sweep World).weak alive rw (sw.state.sourceSlots c) =
      _ := appends_weak (sw.state.sourceSlots c) _
  simp only [sourceWeak]
  rw [h₁, h₂]
  simp

theorem appends_weakGlobals : Appends (weakGlobals alive rw) :=
  fun sw => appends_weak sw.state.weakSlots sw

/-- A group step that walks a source leaves the registry alone and adds no weak global visit. -/
theorem registry_stepSource (b : Bool) (c : Category) (sw : Sweep World) :
    (if b then sw.sourceWeak c alive rw else sw).state.registry = sw.state.registry := by
  cases b
  · rfl
  · exact weaks_sourceWeak c sw

theorem weakVisits_stepSource (b : Bool) (c : Category) (sw : Sweep World) :
    (if b then sw.sourceWeak c alive rw else sw).visits.toList.filter (·.slot.isWeak) =
      sw.visits.toList.filter (·.slot.isWeak) := by
  cases b
  · rfl
  · exact weakVisits_sourceWeak c sw

theorem weakTouched_stepSource (b : Bool) (c : Category) (sw : Sweep World) :
    World.WeakTouched sw.state (if b then sw.sourceWeak c alive rw else sw).state := by
  cases b
  · exact World.WeakTouched.refl _
  · exact weakTouched_sourceWeak c sw

theorem weakTouched_stepWeak (b : Bool) (sw : Sweep World) :
    World.WeakTouched sw.state (if b then sw.weakGlobals alive rw else sw).state := by
  cases b
  · exact World.WeakTouched.refl _
  · exact weakTouched_weakGlobals sw

end Sweep

/-- The group of a weak pass that walks the root source of a category. -/
def Category.weakGroup? : Category → Option WeakGroup
  | .symbolTable => some .symbolTable
  | .jvmtiWeakExport => some .jvmtiWeakExport
  | .trace => some .trace
  | .stringTable => some .stringTable
  | _ => none

namespace WeakPass

variable (it : WeakPass) (cfg : RootsConfig) (alive : Liveness) (rw : Rewrite)

/-- How often a call enters the root source of a category: once if it walks the source's
group. -/
def entries (c : Category) : Nat :=
  match c.weakGroup? with
  | some g => if it.walks cfg g then 1 else 0
  | none => 0

theorem appends_sweep : Sweep.Appends (it.sweep cfg alive rw) :=
  ((((Sweep.Appends.ite _ (Sweep.appends_sourceWeak _)).comp
    (Sweep.Appends.ite _ Sweep.appends_weakGlobals)).comp
    (Sweep.Appends.ite _ (Sweep.appends_sourceWeak _))).comp
    (Sweep.Appends.ite _ (Sweep.appends_sourceWeak _))).comp
    (Sweep.Appends.ite _ (Sweep.appends_sourceWeak _))

/-- A call changes only root sources and the contents of weak global slots. -/
theorem weakTouched_sweep (sw : Sweep World) :
    World.WeakTouched sw.state (it.sweep cfg alive rw sw).state := by
  simp only [sweep]
  refine World.WeakTouched.trans ?_ (Sweep.weakTouched_stepSource _ _ _)
  refine World.WeakTouched.trans ?_ (Sweep.weakTouched_stepSource _ _ _)
  refine World.WeakTouched.trans ?_ (Sweep.weakTouched_stepSource _ _ _)
  refine World.WeakTouched.trans ?_ (Sweep.weakTouched_stepWeak _ _)
  exact Sweep.weakTouched_stepSource _ _ _

/-- A call enters the source of each group it walks once. -/
theorem counters_sweep (sw : Sweep World) (c : Category) :
    ((it.sweep cfg alive rw sw).state.sources.get c).counters =
      Nat.repeat Source.called (it.entries cfg c) (sw.state.sources.get c).counters := by
  have hsrc : ∀ (g : WeakGroup) (c' : Category) (sw : Sweep World),
      ((if it.walks cfg g then sw.sourceWeak c' alive rw else sw).state.sources.get c).counters =
        Nat.repeat Source.called (if it.walks cfg g = true ∧ c = c' then 1 else 0)
          (sw.state.sources.get c).counters := by
    intro g c' sw
    cases it.walks cfg g
    · rfl
    · rw [if_pos rfl, Sweep.counters_sourceWeak]
      by_cases hc : c = c' <;> simp [hc, Nat.repeat]
  have hjni : ∀ sw : Sweep World,
      ((if it.walks cfg .jniWeakHandles then sw.weakGlobals alive rw else sw).state.sources.get c).counters =
        (sw.state.sources.get c).counters := by
    intro sw
    cases it.walks cfg .jniWeakHandles
    · rfl
    · exact Sweep.counters_weakGlobals sw c
  simp only [sweep, hsrc, hjni, Nat.repeat_repeat]
  congr 1
  cases c <;> simp [entries, Category.weakGroup?]

end WeakPass

namespace World

/-- A weak global slot reads the same in worlds with the same registry. -/
theorem readSlot_weak_of_registry {w w' : World} (h : w'.registry = w.registry) (i : Nat) :
    w'.readSlot (.weak i) = w.readSlot (.weak i) := by
  simp only [readSlot, h]

theorem weakSlots_of_registry {w w' : World} (h : w'.registry = w.registry) :
    w'.weakSlots = w.weakSlots := by
  simp only [weakSlots, h]

end World

namespace Sweep

/-- The visits of a weak walk over the weak global slots are visits of weak global slots. -/
theorem filter_liveSeen_weakSlots (w w' : World) (alive : Liveness) :
    (liveSeen w alive w'.weakSlots).filter (·.slot.isWeak) = liveSeen w alive w'.weakSlots := by
  refine List.filter_eq_self.mpr fun v hv => ?_
  obtain ⟨a, ha, hv⟩ := List.mem_filterMap.mp hv
  obtain ⟨i, -, rfl⟩ := List.mem_map.mp ha
  split at hv
  · cases hv
    rfl
  · cases hv

/-- Over distinct slots, a slot is visited once exactly when it is in the list and holds a live
object. -/
theorem count_liveSeen (w : World) (alive : Liveness) {l : List SlotAddr} (hl : l.Nodup) (a : SlotAddr) :
    ((liveSeen w alive l).map Visit.slot).count a =
      if a ∈ l ∧ w.readSlot a ≠ 0 ∧ alive.alive (w.readSlot a) = true then 1 else 0 := by
  have hslots : (liveSeen w alive l).map Visit.slot =
      l.filter fun b => decide (w.readSlot b ≠ 0 ∧ alive.alive (w.readSlot b) = true) := by
    induction l with
    | nil => rfl
    | cons b l ih =>
      rw [liveSeen_cons, List.map_append, ih (List.nodup_cons.mp hl).2, List.filter_cons]
      by_cases hb : w.readSlot b ≠ 0 ∧ alive.alive (w.readSlot b) = true
      · simp [liveSeen, hb]
      · simp [liveSeen, hb]
  rw [hslots]
  by_cases ha : w.readSlot a ≠ 0 ∧ alive.alive (w.readSlot a) = true
  · rw [List.count_filter (by simpa using ha), hl.count]
    by_cases hm : a ∈ l <;> simp [hm, ha]
  · rw [List.count_eq_zero.mpr fun hm => ha (by simpa using (List.mem_filter.mp hm).2)]
    simp [ha]

end Sweep

namespace WeakPass

variable (it : WeakPass) (cfg : RootsConfig) (alive : Liveness) (rw : Rewrite)

/-- A call that does not walk the weak global handles leaves the registry as it was and visits no
weak global slot. -/
theorem sweep_of_not_walks (h : it.walks cfg .jniWeakHandles = false) (sw : Sweep World) :
    (it.sweep cfg alive rw sw).state.registry = sw.state.registry ∧
      (it.sweep cfg alive rw sw).visits.toList.filter (·.slot.isWeak) =
        sw.visits.toList.filter (·.slot.isWeak) := by
  simp only [sweep, h, Bool.false_eq_true, if_false]
  constructor
  · rw [Sweep.registry_stepSource, Sweep.registry_stepSource, Sweep.registry_stepSource,
      Sweep.registry_stepSource]
  · rw [Sweep.weakVisits_stepSource, Sweep.weakVisits_stepSource, Sweep.weakVisits_stepSource,
      Sweep.weakVisits_stepSource]

/-- A call that walks the weak global handles visits, among the weak global slots, each allocated
one that holds a live object once, with that object, whatever its visitor writes; and it leaves
every allocated slot of a dead object null. -/
theorem sweep_of_walks (h : it.walks cfg .jniWeakHandles = true) (sw : Sweep World) :
    (it.sweep cfg alive rw sw).visits.toList.filter (·.slot.isWeak) =
        sw.visits.toList.filter (·.slot.isWeak) ++ Sweep.liveSeen sw.state alive sw.state.weakSlots ∧
      ∀ i, sw.state.registry.table.weaks.isAllocated i = true → sw.state.readSlot (.weak i) ≠ 0 →
        alive.alive (sw.state.readSlot (.weak i)) = false →
        (it.sweep cfg alive rw sw).state.readSlot (.weak i) = 0 := by
  simp only [sweep, h, if_true]
  -- the symbol table walk before the weak global handles leaves the registry alone
  generalize hsw₁ : (if it.walks cfg .symbolTable = true then sw.sourceWeak .symbolTable alive rw
    else sw) = sw₁
  have hreg₁ : sw₁.state.registry = sw.state.registry := hsw₁ ▸ Sweep.registry_stepSource _ _ sw
  have hslots : sw₁.state.weakSlots = sw.state.weakSlots := World.weakSlots_of_registry hreg₁
  have hread : ∀ i, sw₁.state.readSlot (.weak i) = sw.state.readSlot (.weak i) :=
    World.readSlot_weak_of_registry hreg₁
  constructor
  · rw [Sweep.weakVisits_stepSource, Sweep.weakVisits_stepSource, Sweep.weakVisits_stepSource,
      Sweep.weakGlobals, Sweep.weak_visits (World.weakSlots_nodup _) (Sweep.separate_weakSlots _),
      Array.toList_append, List.filter_append, List.toList_toArray, Sweep.filter_liveSeen_weakSlots,
      ← hsw₁, Sweep.weakVisits_stepSource, hsw₁, hslots]
    congr 1
    refine Sweep.liveSeen_congr fun a ha => ?_
    obtain ⟨i, -, rfl⟩ := List.mem_map.mp ha
    exact hread i
  · intro i halloc h0 hdead
    rw [World.readSlot_weak_of_registry (Sweep.registry_stepSource _ _ _),
      World.readSlot_weak_of_registry (Sweep.registry_stepSource _ _ _),
      World.readSlot_weak_of_registry (Sweep.registry_stepSource _ _ _)]
    have hmem : SlotAddr.weak i ∈ sw₁.state.weakSlots := by
      rw [hslots]
      exact List.mem_map.mpr ⟨i, SlotStorage.mem_liveIndices.mpr halloc, rfl⟩
    exact Sweep.weak_cleared (World.weakSlots_nodup _) (Sweep.separate_weakSlots _) hmem
      (fun w => w.readSlot_writeSlot_weak_zero i) sw₁ (by rw [hread]; exact h0)
      (by rw [hread]; exact hdead)

end WeakPass

/-! ### The calls of a weak pass -/

theorem Claim.concurrency_take (c : Claim) : c.take.2.concurrency = c.concurrency := by
  unfold Claim.take
  split
  · split <;> rfl
  · rfl

/-- A serial group that has run once is not run again. -/
theorem Claim.take_take_serial {c : Claim} (hc : c.concurrency = .serial) : c.take.2.take.1 = false := by
  cases ht : c.taken <;> simp [Claim.take, hc, ht]

/-- How often the calls of a weak pass enter the root source of each category: the symbol table
in every call; when weak roots are weak, the string table in every call and the weak export and
the trace once. -/
def weakEntries (cfg : RootsConfig) (calls : Nat) : Category → Nat
  | .symbolTable => calls
  | .stringTable => if cfg.weakRoots then calls else 0
  | .jvmtiWeakExport | .trace => if cfg.weakRoots then 1 else 0
  | _ => 0

namespace WeakPass

/-- The law of the worker calls of a weak pass with liveness test `alive`, each call with its own
visitor. -/
def law (alive : Liveness) : CallLaw WeakPass Rewrite where
  next it _ w := it.after w.roots
  effect it rw w := (it.sweep w.roots alive rw { state := w }).state
  visits it rw w := (it.sweep w.roots alive rw { state := w }).visits.toList

variable (alive : Liveness)

theorem follows_law (rw : Rewrite) : (law alive).Follows (fun it rw => it.work alive rw) rw := by
  intro it sw j
  obtain ⟨j', h⟩ := it.work_run alive rw sw j
  refine ⟨j', ?_⟩
  show it.work alive rw (sw, j) = _
  rw [h, it.appends_sweep sw.state.roots alive rw sw]
  simp [law]

theorem roots_effect (it : WeakPass) (rw : Rewrite) (w : World) :
    ((law alive).effect it rw w).roots = w.roots :=
  (it.weakTouched_sweep w.roots alive rw { state := w }).roots

/-- The calls only touch root sources and the contents of weak global slots. -/
theorem weakTouched_run : ∀ (it : WeakPass) (w : World) (rws : List Rewrite),
    World.WeakTouched w ((law alive).run it w rws).2.1
  | _, w, [] => World.WeakTouched.refl w
  | it, w, rw :: rws =>
    (it.weakTouched_sweep w.roots alive rw { state := w }).trans (weakTouched_run _ _ rws)

/-- Over the calls, a quantity added by each call that walks group `g` sums to the number of
times the group runs. -/
theorem sum_walks (g : WeakGroup) (n : Nat) : ∀ (it : WeakPass) (w : World) (rws : List Rewrite),
    (law alive).sum (fun it _ w => if it.walks w.roots g then n else 0) it w rws =
      (it.group g).runs (rws.map fun _ => g.reached w.roots) * n
  | _, _, [] => by simp [CallLaw.sum, Claim.runs]
  | it, w, rw :: rws => by
    show (if it.walks w.roots g then n else 0) +
      (law alive).sum _ (it.after w.roots) ((law alive).effect it rw w) rws = _
    rw [sum_walks g n, roots_effect, group_after]
    have hmul : ∀ b : Bool, (if b = true then 1 else 0) * n = if b = true then n else 0 := by
      intro b
      cases b <;> simp
    simp only [List.map_cons, Claim.runs, walks, Nat.add_mul]
    rcases Bool.eq_false_or_eq_true (g.reached w.roots) with hr | hr <;> simp [hr, hmul]

/-- Over one or more calls of a pass as set up, how often each root source is entered. -/
theorem sum_entries (n : Nat) (w : World) {rws : List Rewrite} (hk : rws ≠ []) (c : Category) :
    (law alive).sum (fun it _ w => it.entries w.roots c) { scan := n } w rws =
      weakEntries w.roots rws.length c := by
  have hlen : rws.length ≠ 0 := fun h => hk (List.length_eq_zero_iff.mp h)
  cases hg : c.weakGroup? with
  | none =>
    have hf : (fun (it : WeakPass) (_ : Rewrite) (w : World) => it.entries w.roots c) =
        fun it _ w => if it.walks w.roots .symbolTable then 0 else 0 := by
      funext it _ w
      simp [entries, hg]
    rw [hf, sum_walks, Nat.mul_zero]
    cases c <;> simp_all [Category.weakGroup?, weakEntries]
  | some g =>
    have hf : (fun (it : WeakPass) (_ : Rewrite) (w : World) => it.entries w.roots c) =
        fun it _ w => if it.walks w.roots g then 1 else 0 := by
      funext it _ w
      simp [entries, hg]
    rw [hf, sum_walks, Nat.mul_one]
    cases c <;> simp only [Category.weakGroup?, reduceCtorEq, Option.some.injEq] at hg <;> subst hg <;>
      cases w.roots.weakRoots <;>
      simp [group, WeakGroup.reached, weakEntries, Claim.runs_serial, Claim.runs_parallel,
        Claim.serial, Claim.parallel, List.map_const', List.count_replicate, hlen]

/-- After a call the weak global handles are not walked again. -/
theorem walks_after_jni {it : WeakPass} (hser : it.jniWeakHandles.concurrency = .serial)
    (cfg : RootsConfig) : (it.after cfg).walks cfg .jniWeakHandles = false := by
  simp only [walks, group_after]
  cases hr : WeakGroup.reached cfg .jniWeakHandles
  · rfl
  · simp [group, Claim.take_take_serial hser]

theorem concurrency_after (it : WeakPass) (cfg : RootsConfig) :
    (it.after cfg).jniWeakHandles.concurrency = it.jniWeakHandles.concurrency := by
  have h := congrArg Claim.concurrency (it.group_after cfg .jniWeakHandles)
  simp only [group] at h
  rw [h]
  split
  · exact Claim.concurrency_take _
  · rfl

/-- Calls from a pass that does not walk the weak global handles leave the registry as it was
and visit no weak global slot. -/
theorem run_settled : ∀ (it : WeakPass) (w : World) (rws : List Rewrite),
    it.jniWeakHandles.concurrency = .serial → it.walks w.roots .jniWeakHandles = false →
    ((law alive).run it w rws).2.1.registry = w.registry ∧
      ∀ vs ∈ ((law alive).run it w rws).2.2, vs.filter (·.slot.isWeak) = []
  | _, _, [], _, _ => ⟨rfl, fun _ h => by cases h⟩
  | it, w, rw :: rws, hser, hw => by
    obtain ⟨hreg, hvis⟩ := it.sweep_of_not_walks w.roots alive rw hw { state := w }
    obtain ⟨ih₁, ih₂⟩ := run_settled (it.after w.roots) ((law alive).effect it rw w) rws
      (by rw [concurrency_after]; exact hser) (by rw [roots_effect]; exact walks_after_jni hser _)
    refine ⟨ih₁.trans hreg, fun vs hvs => ?_⟩
    rcases List.mem_cons.mp hvs with rfl | hvs
    · exact hvis
    · exact ih₂ vs hvs

end WeakPass

/-! ### Cleared weak handles -/

namespace SlotStorage

variable {s : SlotStorage} {i : Nat}

/-- An allocated slot that reads null holds null. -/
theorem live_zero (ha : s.isAllocated i = true) (h : (s.slot? i).getD 0 = 0) : s.Live i 0 := by
  refine ⟨ha, ?_⟩
  obtain ⟨g, hg, -⟩ := isAllocated_iff.mp ha
  simp only [slot?, hg, Option.map_some, Option.getD_some] at h ⊢
  rw [h]

/-- An allocated slot can be removed once, and then not again. -/
theorem remove_once (ha : s.isAllocated i = true) :
    ∃ s', s.remove i = .ok s' ∧ ∃ e, s'.remove i = .error e := by
  obtain ⟨g, hg, hused⟩ := isAllocated_iff.mp ha
  rcases hr : s.remove i with e | s'
  · simp [remove, hg, hused] at hr
  refine ⟨s', rfl, ?_⟩
  obtain ⟨g', hg', -, rfl⟩ := remove_eq hr
  rw [hg] at hg'
  cases hg'
  have hlt : i / segmentSlots < s.segments.size := (Array.getElem?_eq_some_iff.mp hg).1
  -- the removal cleared the slot's allocation bit
  refine ⟨.unallocatedSlot s.name i, ?_⟩
  simp only [remove, Array.getElem?_set!_of_lt hlt, if_true]
  by_cases hb : i % segmentSlots < g.used.size <;>
    simp [Array.getD_eq_getD_getElem?, Array.set!_eq_setIfInBounds, hb]

end SlotStorage

namespace Table

/-- A weak handle whose slot was cleared: it resolves to null, reads as cleared, and can be
destroyed once but not twice. -/
def ClearedWeak (t : Table) (i : Nat) : Prop :=
  t.resolve (some (.weak i)) = .ok 0 ∧ t.isWeakCleared (.weak i) = .ok true ∧
    ∃ t', t.destroyWeak (some (.weak i)) = .ok t' ∧ ∃ e, t'.destroyWeak (some (.weak i)) = .error e

/-- A weak handle whose slot is allocated and null is cleared. -/
theorem cleared_weak {t : Table} {i : Nat} (h : t.weaks.Live i 0) : t.ClearedWeak i := by
  obtain ⟨ha, hs⟩ := h
  obtain ⟨s', hs', e, he⟩ := SlotStorage.remove_once ha
  refine ⟨by simp [resolve, slot?, hs], by simp [isWeakCleared, weakRef, hs, bind, Except.bind, pure,
    Except.pure], { t with weaks := s' }, by simp [destroyWeak, weakRef, hs', bind, Except.bind, pure,
    Except.pure], e, by simp [destroyWeak, weakRef, he, bind, Except.bind]⟩

end Table

/-! ### A whole weak pass -/

/-- Among visits, those of a weak global slot. -/
theorem Visit.count_filter_isWeak (l : List Visit) {a : SlotAddr} (ha : a.isWeak = true) :
    ((l.filter (·.slot.isWeak)).map Visit.slot).count a = (l.map Visit.slot).count a := by
  induction l with
  | nil => rfl
  | cons v l ih =>
    by_cases hv : v.slot.isWeak = true
    · simp [hv, ih, List.count_cons]
    · have hne : v.slot ≠ a := fun h => hv (h ▸ ha)
      simp [hv, ih, hne]

namespace WeakPass

theorem start_run (w : World) (j : Journal) (hsp : w.registry.atSafepoint = true) :
    ∃ j', WeakPass.start false (w, j) =
      .ok { scan := j.scans + 1 }
        ({ w with
            sources := (w.sources.modify .symbolTable Source.prologue).modify .stringTable Source.prologue },
          j') := by
  unfold start Scan.prologue
  rw [Action.bind_ok (checkSafepoint_run w j hsp), Action.bind_ok (Action.update_run _ _),
    Action.bind_ok (Action.update_run _ _), Action.bind_ok (Action.nextScan_run _),
    Action.bind_ok (Action.emit_run _ _)]
  exact ⟨_, rfl⟩

theorem finish_run (it : WeakPass) (w : World) (j : Journal) :
    ∃ j', it.finish (w, j) =
      .ok () ({ w with
                  sources := (w.sources.modify .symbolTable Source.epilogue).modify .stringTable Source.epilogue },
                j') := by
  unfold finish Scan.epilogue
  rw [Action.bind_ok (Action.update_run _ _), Action.bind_ok (Action.update_run _ _)]
  exact ⟨_, rfl⟩

variable (alive : Liveness) {it : WeakPass} (hser : it.jniWeakHandles.concurrency = .serial)
include hser

/-- The calls of a pass visit, among the weak global slots, those the first call visits: the
allocated ones that hold live objects when it walks the weak global handles, and none
otherwise. -/
theorem weakVisits_run (w : World) (rw : Rewrite) (rws : List Rewrite) :
    ((law alive).run it w (rw :: rws)).2.2.flatten.filter (·.slot.isWeak) =
      if it.walks w.roots .jniWeakHandles then Sweep.liveSeen w alive w.weakSlots else [] := by
  obtain ⟨-, hrest⟩ := run_settled alive (it.after w.roots) ((law alive).effect it rw w) rws
    (by rw [concurrency_after]; exact hser) (by rw [roots_effect]; exact walks_after_jni hser _)
  have hnil : ((law alive).run (it.after w.roots) ((law alive).effect it rw w) rws).2.2.flatten.filter
      (·.slot.isWeak) = [] := by
    rw [List.filter_flatten, List.flatten_eq_nil_iff]
    intro l hl
    obtain ⟨vs, hvs, rfl⟩ := List.mem_map.mp hl
    exact hrest vs hvs
  show ((it.sweep w.roots alive rw { state := w }).visits.toList ++
    ((law alive).run (it.after w.roots) ((law alive).effect it rw w) rws).2.2.flatten).filter
      (·.slot.isWeak) = _
  rw [List.filter_append, hnil, List.append_nil]
  cases hw : it.walks w.roots .jniWeakHandles
  · simpa using (it.sweep_of_not_walks w.roots alive rw hw { state := w }).2
  · simpa using (it.sweep_of_walks w.roots alive rw hw { state := w }).1

/-- Calls of a pass whose first call does not walk the weak global handles leave the registry as
it was. -/
theorem registry_run (w : World) (rws : List Rewrite) (hw : it.walks w.roots .jniWeakHandles = false) :
    ((law alive).run it w rws).2.1.registry = w.registry :=
  (run_settled alive it w rws hser hw).1

/-- Calls of a pass whose first call walks the weak global handles leave every allocated slot of
a dead object null. -/
theorem cleared_run (w : World) (rw : Rewrite) (rws : List Rewrite)
    (hw : it.walks w.roots .jniWeakHandles = true) {i : Nat}
    (ha : w.registry.table.weaks.isAllocated i = true) (h0 : w.readSlot (.weak i) ≠ 0)
    (hdead : alive.alive (w.readSlot (.weak i)) = false) :
    ((law alive).run it w (rw :: rws)).2.1.readSlot (.weak i) = 0 := by
  obtain ⟨hreg, -⟩ := run_settled alive (it.after w.roots) ((law alive).effect it rw w) rws
    (by rw [concurrency_after]; exact hser) (by rw [roots_effect]; exact walks_after_jni hser _)
  show ((law alive).run (it.after w.roots) ((law alive).effect it rw w) rws).2.1.readSlot (.weak i) = 0
  rw [World.readSlot_weak_of_registry hreg]
  exact (it.sweep_of_walks w.roots alive rw hw { state := w }).2 i ha h0 hdead

end WeakPass

/-- A weak pass set up at the registry's safepoint, with one or more worker calls that all use
the liveness test `alive` and each its own visitor, and then torn down.

Setting up runs the prologues of the symbol table and then the string table, tearing down their
epilogues, and the calls enter each root source as often as `weakEntries` says. The calls change
only the root sources and the contents of weak global slots. When weak roots are weak and not
scanned concurrently, each allocated weak global slot that holds a live object is visited exactly
once, with that object, and each that holds a dead object is left null and allocated, so that it
resolves to null, reads as cleared and can be destroyed once; otherwise no weak global slot is
visited and the registry is left as it was. -/
theorem weak_pass_clears_dead_weaks (s : World × Journal) (alive : Liveness) (rws : List Rewrite)
    (hsp : s.1.registry.atSafepoint = true) (hk : rws ≠ []) :
    ∃ it s₁, WeakPass.start false s = .ok it s₁ ∧
      s₁.1 = { s.1 with
        sources := (s.1.sources.modify .symbolTable Source.prologue).modify .stringTable Source.prologue } ∧
      ∃ it' vs s₂, Scan.calls (fun it rw => it.work alive rw) it rws s₁ = .ok (it', vs) s₂ ∧
        (∀ c, (s₂.1.sources.get c).counters =
          Nat.repeat Source.called (weakEntries s.1.roots rws.length c) (s₁.1.sources.get c).counters) ∧
        World.WeakTouched s.1 s₂.1 ∧
        (∀ i, ((vs.flatMap Array.toList).map Visit.slot).count (.weak i) =
          if s.1.roots.weakRoots = true ∧ s.1.roots.concurrentWeakGlobals = false ∧
            s.1.registry.table.weaks.isAllocated i = true ∧ s.1.readSlot (.weak i) ≠ 0 ∧
            alive.alive (s.1.readSlot (.weak i)) = true then 1 else 0) ∧
        (∀ v ∈ vs.flatMap Array.toList, ∀ i, v.slot = .weak i → v.value = s.1.readSlot (.weak i)) ∧
        (s.1.roots.weakRoots = true → s.1.roots.concurrentWeakGlobals = false →
          ∀ i, s.1.registry.table.weaks.isAllocated i = true → s.1.readSlot (.weak i) ≠ 0 →
            alive.alive (s.1.readSlot (.weak i)) = false →
            s₂.1.registry.table.weaks.Live i 0 ∧ s₂.1.registry.table.ClearedWeak i) ∧
        ((s.1.roots.weakRoots && !s.1.roots.concurrentWeakGlobals) = false →
          s₂.1.registry = s.1.registry) ∧
        ∃ s₃, it'.finish s₂ = .ok () s₃ ∧
          s₃.1 = { s₂.1 with
            sources := (s₂.1.sources.modify .symbolTable Source.epilogue).modify .stringTable Source.epilogue } := by
  obtain ⟨w, j⟩ := s
  obtain ⟨rw₀, rws', rfl⟩ := List.exists_cons_of_ne_nil hk
  obtain ⟨j₁, hstart⟩ := WeakPass.start_run w j hsp
  generalize hw₁ : ({ w with
      sources := (w.sources.modify .symbolTable Source.prologue).modify .stringTable Source.prologue } :
    World) = w₁ at hstart
  -- setting up changes only the sources
  have hreg₁ : w₁.registry = w.registry := by rw [← hw₁]
  have hroots₁ : w₁.roots = w.roots := by rw [← hw₁]
  have htouched₁ : World.WeakTouched w w₁ := by rw [← hw₁]; exact ⟨rfl, rfl, rfl, fun _ => rfl⟩
  generalize hit : ({ scan := j.scans + 1 } : WeakPass) = it₀ at hstart
  have hser : it₀.jniWeakHandles.concurrency = .serial := by rw [← hit]; rfl
  have hwalks : it₀.walks w₁.roots .jniWeakHandles =
      (w.roots.weakRoots && !w.roots.concurrentWeakGlobals) := by
    rw [← hit, hroots₁]
    simp [WeakPass.walks, WeakPass.group, WeakGroup.reached, Claim.take, Claim.serial]
  obtain ⟨j₂, hcalls⟩ := (WeakPass.law alive).calls_eq (fun it rw => it.work alive rw) it₀
    (rw₀ :: rws') w₁ j₁ fun rw _ => WeakPass.follows_law alive rw
  generalize hrun : (WeakPass.law alive).run it₀ w₁ (rw₀ :: rws') = run at hcalls
  obtain ⟨j₃, hfinish⟩ := WeakPass.finish_run run.1 run.2.1 j₂
  have hflat : (run.2.2.map List.toArray).flatMap Array.toList = run.2.2.flatten := by
    simp [List.flatMap_map]
  have hweak := WeakPass.weakVisits_run alive hser w₁ rw₀ rws'
  rw [hrun, hwalks] at hweak
  refine ⟨it₀, (w₁, j₁), hstart, by rw [← hw₁], run.1, run.2.2.map List.toArray, (run.2.1, j₂), hcalls,
    fun c => ?_, htouched₁.trans (hrun ▸ WeakPass.weakTouched_run alive it₀ w₁ _), fun i => ?_,
    fun v hv i hvi => ?_, fun hwr hcw i ha h0 hdead => ?_, fun hw => ?_, _, hfinish, rfl⟩
  · -- the sources: each call enters those of the groups it walks
    have h := (WeakPass.law alive).repeat_run (fun w => (w.sources.get c).counters) Source.called
      (fun it _ w => it.entries w.roots c)
      (fun it rw w => it.counters_sweep w.roots alive rw { state := w } c) it₀ w₁ (rw₀ :: rws')
    rw [hrun, ← hit, WeakPass.sum_entries alive _ _ hk, hroots₁] at h
    exact h
  · -- the weak global slots: the visits of the first call's walk over them
    rw [hflat, ← Visit.count_filter_isWeak _ rfl, hweak]
    by_cases hb : w.roots.weakRoots = true ∧ w.roots.concurrentWeakGlobals = false
    · have hb' : (w.roots.weakRoots && !w.roots.concurrentWeakGlobals) = true := by simp [hb.1, hb.2]
      rw [if_pos hb', Sweep.count_liveSeen _ _ (World.weakSlots_nodup _), ← hw₁]
      simp [World.weakSlots, SlotStorage.mem_liveIndices, hb, World.readSlot]
    · have hb' : (w.roots.weakRoots && !w.roots.concurrentWeakGlobals) = false := by
        cases h₁ : w.roots.weakRoots <;> cases h₂ : w.roots.concurrentWeakGlobals <;> simp_all
      rw [if_neg (by simp [hb']), if_neg fun h => hb ⟨h.1, h.2.1⟩]
      rfl
  · have hv' : v ∈ run.2.2.flatten.filter (·.slot.isWeak) :=
      List.mem_filter.mpr ⟨hflat ▸ hv, by rw [hvi]; rfl⟩
    rw [hweak] at hv'
    split at hv'
    · obtain ⟨a, -, hva⟩ := List.mem_filterMap.mp hv'
      split at hva
      · cases hva
        simp only at hvi
        subst hvi
        exact World.readSlot_weak_of_registry hreg₁ i
      · cases hva
    · cases hv'
  · -- a dead object's slot: cleared by the first call, and allocated as before
    have hw : it₀.walks w₁.roots .jniWeakHandles = true := by rw [hwalks, hwr, hcw]; rfl
    have hread := WeakPass.cleared_run alive hser w₁ rw₀ rws' hw (i := i) (by rw [hreg₁]; exact ha)
      (by rw [World.readSlot_weak_of_registry hreg₁]; exact h0)
      (by rw [World.readSlot_weak_of_registry hreg₁]; exact hdead)
    rw [hrun] at hread
    have halloc : run.2.1.registry.table.weaks.isAllocated i = true := by
      rw [← hrun, (WeakPass.weakTouched_run alive it₀ w₁ _).allocated, hreg₁]
      exact ha
    have hlive := SlotStorage.live_zero halloc hread
    exact ⟨hlive, Table.cleared_weak hlive⟩
  · rw [← hwalks] at hw
    have h := WeakPass.registry_run alive hser w₁ (rw₀ :: rws') hw
    rw [hrun, hreg₁] at h
    exact h

/-- Weak global handles for objects 16 and 32, in a world whose weak pass walks the weak global
handles: one call that finds 32 dead clears its handle. -/
theorem weak_pass_clears_dead_handle :
    let s := Op.runAll [.makeWeak 16 .returnNull, .makeWeak 32 .returnNull, .beginSafepoint]
      ({ World.new Table.fresh with roots := { concurrentWeakGlobals := false } }, {})
    s.1.registry.atSafepoint = true ∧ [Rewrite.keep] ≠ [] ∧
      ∃ it s₁, WeakPass.start false s = .ok it s₁ ∧
        ∃ it' vs s₂, Scan.calls (fun it rw => it.work (.allBut [32]) rw) it [.keep] s₁ = .ok (it', vs) s₂ ∧
          s₂.1.registry.table.ClearedWeak 1 := by
  intro s
  have hs : s.1.registry.atSafepoint = true ∧ s.1.registry.table.weaks.isAllocated 1 = true ∧
      s.1.readSlot (.weak 1) = 32 := by
    decide +kernel
  obtain ⟨it, s₁, hstart, -, it', vs, s₂, hcalls, -, -, -, -, hdead, -⟩ :=
    weak_pass_clears_dead_weaks s (.allBut [32]) [.keep] hs.1 (List.cons_ne_nil _ _)
  refine ⟨hs.1, List.cons_ne_nil _ _, it, s₁, hstart, it', vs, s₂, hcalls, ?_⟩
  exact (hdead rfl rfl 1 hs.2.1 (by rw [hs.2.2]; decide) (by rw [hs.2.2]; rfl)).2

end GcRoots

import GcRoots.Proofs.Claiming

namespace GcRoots

/-!
# One worker call of a strong pass

A worker call of the strong pass runs thirteen groups in a fixed order. A serial group runs in
the first call that reaches it, a parallel group in every call. With a visitor that does not
write, each group only appends the visits of one list of slots and, besides, enters its root
source (a source group) or claims the threads (the threads group): `StrongPass.work_keep`
gives a whole call in that form, and `StrongPass.work_of_keeps` says that a visitor that leaves
every value as it is acts as the one that keeps.

`StrongGroup` names the groups. In its terms a call visits, group after group, the slots of each
group it walks (`StrongPass.keepVisits_eq`), enters the source of each source group it walks
(`StrongPass.sources_keepEffect`), and advances the claim of each group it comes to
(`StrongPass.group_after`).
-/

namespace World

/-- The slots of the root source of category `c`. -/
def sourceSlots (w : World) (c : Category) : List SlotAddr :=
  (List.range (w.sources.get c).slots.size).map (SlotAddr.source c)

/-- The allocated global handle slots, in storage order. -/
def globalSlots (w : World) : List SlotAddr :=
  w.registry.table.globals.liveIndices.map SlotAddr.global

/-- The allocated weak global handle slots, in storage order. -/
def weakSlots (w : World) : List SlotAddr :=
  w.registry.table.weaks.liveIndices.map SlotAddr.weak

/-- The world once the root source of category `c` has been entered. -/
def enter (w : World) (c : Category) : World :=
  { w with sources := w.sources.set c (w.sources.get c).called }

/-- The world changed by `f` when `b` holds. -/
def onlyIf (b : Bool) (f : World → World) (w : World) : World := if b then f w else w

/-- Two worlds with the same slots: the same table, roots configuration, stack roots, chains
and source slots. They may differ in claim parities and in the counters of the sources. -/
structure SameSlots (w w' : World) : Prop where
  table : w'.registry.table = w.registry.table
  roots : w'.roots = w.roots
  stack : w'.stackRoots = w.stackRoots
  chains : ∀ t : Nat, (w'.registry.contexts[t]?).bind Context.chain =
    (w.registry.contexts[t]?).bind Context.chain
  sources : ∀ c : Category, (w'.sources.get c).slots = (w.sources.get c).slots

namespace SameSlots

variable {w w' w'' : World}

theorem refl (w : World) : SameSlots w w := ⟨rfl, rfl, rfl, fun _ => rfl, fun _ => rfl⟩

theorem trans (h : SameSlots w w') (h' : SameSlots w' w'') : SameSlots w w'' :=
  ⟨h'.table.trans h.table, h'.roots.trans h.roots, h'.stack.trans h.stack,
    fun t => (h'.chains t).trans (h.chains t), fun c => (h'.sources c).trans (h.sources c)⟩

theorem readSlot (h : SameSlots w w') (a : SlotAddr) : w'.readSlot a = w.readSlot a := by
  cases a with
  | global i => simp only [World.readSlot, h.table]
  | weak i => simp only [World.readSlot, h.table]
  | threadLocal i => simp only [World.readSlot, h.table]
  | source c i => simp only [World.readSlot, h.sources]
  | stack t i => simp only [World.readSlot, h.stack]
  | storage i => rfl

theorem seen (h : SameSlots w w') (l : List SlotAddr) : Sweep.seen w' l = Sweep.seen w l := by
  unfold Sweep.seen
  simp only [h.readSlot]

theorem sourceSlots (h : SameSlots w w') (c : Category) : w'.sourceSlots c = w.sourceSlots c := by
  simp only [World.sourceSlots, h.sources]

theorem globalSlots (h : SameSlots w w') : w'.globalSlots = w.globalSlots := by
  simp only [World.globalSlots, h.table]

theorem weakSlots (h : SameSlots w w') : w'.weakSlots = w.weakSlots := by
  simp only [World.weakSlots, h.table]

end SameSlots

theorem Source.slots_called (s : Source) : s.called.slots = s.slots := by
  cases s <;> rfl

@[simp] theorem sameSlots_enter (w : World) (c : Category) : SameSlots w (w.enter c) := by
  refine ⟨rfl, rfl, rfl, fun _ => rfl, fun c' => ?_⟩
  simp only [enter, Sources.get_set]
  split
  · subst_vars
    exact Source.slots_called _
  · rfl

@[simp] theorem sameSlots_claimAll (w : World) (p : Nat) : SameSlots w (w.claimAll p) := by
  refine ⟨rfl, rfl, rfl, fun t => ?_, fun _ => rfl⟩
  simp only [claimAll_registry, Registry.getElem?_claimAll]
  cases w.registry.contexts[t]? <;> simp

theorem sameSlots_onlyIf {f : World → World} (hf : ∀ w, SameSlots w (f w)) (b : Bool) (w : World) :
    SameSlots w (onlyIf b f w) := by
  unfold onlyIf
  split
  · exact hf w
  · exact SameSlots.refl w

@[simp] theorem onlyIf_id (b : Bool) (w : World) : onlyIf b (fun w => w) w = w := by
  unfold onlyIf
  split <;> rfl

/-! A change that keeps the slots is invisible to the walks after it. -/

@[simp] theorem seen_onlyIf {f : World → World} (hf : ∀ w, SameSlots w (f w)) (b : Bool)
    (w : World) (l : List SlotAddr) : Sweep.seen (onlyIf b f w) l = Sweep.seen w l :=
  (sameSlots_onlyIf hf b w).seen l

@[simp] theorem sourceSlots_onlyIf {f : World → World} (hf : ∀ w, SameSlots w (f w)) (b : Bool)
    (w : World) (c : Category) : (onlyIf b f w).sourceSlots c = w.sourceSlots c :=
  (sameSlots_onlyIf hf b w).sourceSlots c

@[simp] theorem globalSlots_onlyIf {f : World → World} (hf : ∀ w, SameSlots w (f w)) (b : Bool)
    (w : World) : (onlyIf b f w).globalSlots = w.globalSlots :=
  (sameSlots_onlyIf hf b w).globalSlots

@[simp] theorem weakSlots_onlyIf {f : World → World} (hf : ∀ w, SameSlots w (f w)) (b : Bool)
    (w : World) : (onlyIf b f w).weakSlots = w.weakSlots :=
  (sameSlots_onlyIf hf b w).weakSlots

@[simp] theorem roots_onlyIf {f : World → World} (hf : ∀ w, SameSlots w (f w)) (b : Bool)
    (w : World) : (onlyIf b f w).roots = w.roots :=
  (sameSlots_onlyIf hf b w).roots

@[simp] theorem registry_onlyIf_enter (b : Bool) (c : Category) (w : World) :
    (onlyIf b (·.enter c) w).registry = w.registry := by
  unfold onlyIf
  split <;> rfl

@[simp] theorem registry_onlyIf_claimAll (b : Bool) (p : Nat) (w : World) :
    (onlyIf b (·.claimAll p) w).registry = if b then w.registry.claimAll p else w.registry := by
  unfold onlyIf
  split <;> rfl

@[simp] theorem sources_onlyIf_claimAll (b : Bool) (p : Nat) (w : World) :
    (onlyIf b (·.claimAll p) w).sources = w.sources := by
  unfold onlyIf
  split <;> rfl

@[simp] theorem sources_get_onlyIf_enter (b : Bool) (c' c : Category) (w : World) :
    (onlyIf b (·.enter c') w).sources.get c =
      if b ∧ c' = c then (w.sources.get c).called else w.sources.get c := by
  by_cases h : c' = c
  · subst h
    cases b <;> simp [onlyIf, enter, Sources.get_set]
  · cases b <;> simp [onlyIf, enter, Sources.get_set, h, Ne.symm h]

/-- Entering sources leaves the threads and their slots alone. -/
@[simp] theorem claimedSlots_onlyIf_enter (b : Bool) (c : Category) (w : World) (p : Nat) :
    (onlyIf b (·.enter c) w).claimedSlots p = w.claimedSlots p := by
  unfold onlyIf
  split <;> rfl

end World

/-- The slots of the visits of a walk that writes nothing: those of its list that are not
null. -/
theorem Sweep.slots_seen (w : World) (l : List SlotAddr) :
    (Sweep.seen w l).map Visit.slot = l.filter fun a => w.readSlot a != 0 := by
  induction l with
  | nil => rfl
  | cons a l ih =>
    rw [Sweep.seen_cons, List.map_append, ih, List.filter_cons]
    by_cases ha : w.readSlot a = 0 <;> simp [Sweep.seen, ha]

theorem Sweep.count_seen (w : World) (l : List SlotAddr) (a : SlotAddr) :
    ((Sweep.seen w l).map Visit.slot).count a = if w.readSlot a = 0 then 0 else l.count a := by
  rw [Sweep.slots_seen]
  split
  · rename_i ha
    exact List.count_eq_zero.mpr fun hm => by simp [List.mem_filter, ha] at hm
  · rename_i ha
    exact List.count_filter (by simpa using ha)

/-- In the lists of a family indexed by distinct keys, of which only the list of key `g` can
hold `a`, the concatenation holds `a` as often as that list. -/
theorem List.count_flatMap_of_only {γ α : Type} [BEq α] [LawfulBEq α] {gs : List γ}
    (hgs : gs.Nodup) (F : γ → List α) (a : α) {g : γ} (hg : g ∈ gs)
    (hF : ∀ g' ∈ gs, g' ≠ g → (F g').count a = 0) : (gs.flatMap F).count a = (F g).count a := by
  induction gs with
  | nil => cases hg
  | cons x xs ih =>
    obtain ⟨hx, hxs⟩ := List.nodup_cons.mp hgs
    rw [List.flatMap_cons, List.count_append]
    by_cases hxg : x = g
    · subst hxg
      have hrest : (xs.flatMap F).count a = 0 := by
        refine List.count_eq_zero.mpr fun hm => ?_
        obtain ⟨g', hg', hm⟩ := List.mem_flatMap.mp hm
        have hne : g' ≠ x := fun h => hx (h ▸ hg')
        exact List.count_eq_zero.mp (hF g' (List.mem_cons_of_mem x hg') hne) hm
      rw [hrest, Nat.add_zero]
    · have hgxs : g ∈ xs := (List.mem_cons.mp hg).resolve_left (Ne.symm hxg)
      rw [hF x List.mem_cons_self hxg, Nat.zero_add,
        ih hxs hgxs fun g' hg' hne => hF g' (List.mem_cons_of_mem x hg') hne]

namespace Scan

/-- Walking a source weakly with everything alive is walking it strongly. -/
theorem source_everything (c : Category) (rw : Rewrite) :
    source c (some .everything) rw = source c none rw := by
  unfold source
  congr 1
  funext sw
  simp only [Sweep.weak_everything]

/-! Each group of a strong pass, with a visitor that does not write. -/

theorem source_keep (c : Category) (sw : Sweep World) (j : Journal) :
    source c none .keep (sw, j) =
      .ok () ({ state := sw.state.enter c,
                visits := sw.visits ++ (Sweep.seen sw.state (sw.state.sourceSlots c)).toArray }, j) := by
  simp only [source, Action.update_run, Sweep.strong_keep]
  have h := (World.sameSlots_enter sw.state c).seen (sw.state.sourceSlots c)
  unfold World.enter World.sourceSlots at h
  rw [h]
  rfl

theorem globals_keep (sw : Sweep World) (j : Journal) :
    globals .keep (sw, j) =
      .ok () ({ state := sw.state,
                visits := sw.visits ++ (Sweep.seen sw.state sw.state.globalSlots).toArray }, j) := by
  simp only [globals, Action.update_run, Sweep.strong_keep]
  rfl

theorem weakGlobals_keep (sw : Sweep World) (j : Journal) :
    weakGlobals .everything .keep (sw, j) =
      .ok () ({ state := sw.state,
                visits := sw.visits ++ (Sweep.seen sw.state sw.state.weakSlots).toArray }, j) := by
  simp only [weakGlobals, Action.update_run, Sweep.weak_everything, Sweep.strong_keep]
  rfl

theorem threads_keep (p : Nat) (sw : Sweep World) (j : Journal) :
    threads p .keep (sw, j) =
      .ok () ({ state := sw.state.claimAll p,
                visits := sw.visits ++ (Sweep.seen sw.state (sw.state.claimedSlots p)).toArray }, j) := by
  rw [threads_run]
  simp only [Sweep.strong_keep]

end Scan

/-! A visitor that leaves every value as it is walks as the one that keeps. -/

theorem Sweep.visitStrong_of_keeps {rw : Rewrite} (hrw : ∀ v, rw.apply v = v) :
    Sweep.visitStrong (σ := World) rw = Sweep.visitStrong .keep := by
  funext sw a
  simp only [Sweep.visitStrong, hrw, Rewrite.apply.eq_1]

theorem Sweep.strong_of_keeps {rw : Rewrite} (hrw : ∀ v, rw.apply v = v) :
    Sweep.strong (σ := World) rw = Sweep.strong .keep := by
  funext sw l
  simp only [Sweep.strong, Sweep.visitStrong_of_keeps hrw]

theorem Sweep.weak_of_keeps {rw : Rewrite} (hrw : ∀ v, rw.apply v = v) (alive : Liveness) :
    Sweep.weak (σ := World) alive rw = Sweep.weak alive .keep := by
  have hv : Sweep.visitWeak (σ := World) alive rw = Sweep.visitWeak alive .keep := by
    funext sw a
    simp only [Sweep.visitWeak, Sweep.visitStrong_of_keeps hrw]
  funext sw l
  simp only [Sweep.weak, hv]

theorem Scan.claimedThread_of_keeps {rw : Rewrite} (hrw : ∀ v, rw.apply v = v) (p : Nat) :
    Scan.claimedThread p rw = Scan.claimedThread p .keep := by
  funext t
  simp only [Scan.claimedThread, Scan.threadLocals, Scan.stackRoots, Sweep.strong_of_keeps hrw]

/-- A worker call with a visitor that writes back every value it reads is a call with the
visitor that keeps. -/
theorem StrongPass.work_of_keeps (it : StrongPass) {rw : Rewrite} (hrw : ∀ v, rw.apply v = v)
    (we : Bool) : it.work rw we = it.work .keep we := by
  simp only [StrongPass.work, Scan.source, Scan.globals, Scan.threads, Scan.weakGlobals,
    Sweep.strong_of_keeps hrw, Sweep.weak_of_keeps hrw, Scan.claimedThread_of_keeps hrw]

/-- A result with some journal: its value and its state are what the statement names. -/
theorem Action.ok_exists_journal {σ α : Type} {a a' : α} {s s' : σ} (j : Journal) (ha : a = a')
    (hs : s = s') :
    ∃ j', (EStateM.Result.ok a (s, j) : EStateM.Result Fault (σ × Journal) α) = .ok a' (s', j') :=
  ⟨j, by rw [ha, hs]⟩

/-- A group whose body, with a visitor that does not write, appends the visits of one list and
changes the world by `E`: when the group lets this worker run it, both happen. -/
theorem Claim.run_keep (c : Claim) (E : World → World) (L : World → List SlotAddr) {body : Scan Unit}
    {b : Bool} {c' : Claim} (ht : c.take = (b, c'))
    (hb : ∀ sw j, body (sw, j) =
      .ok () ({ state := E sw.state,
                visits := sw.visits ++ (Sweep.seen sw.state (L sw.state)).toArray }, j))
    (sw : Sweep World) (j : Journal) :
    c.run body (sw, j) =
      .ok (b, c')
        ({ state := World.onlyIf b E sw.state,
           visits := sw.visits ++ (if b then Sweep.seen sw.state (L sw.state) else []).toArray },
          if b then { j with entries := j.entries.push (.rootGroup c.name) } else j) := by
  rw [Claim.run_eq c hb sw j, ht]
  cases b <;> rfl

theorem Claim.run_source_keep (c : Claim) (cat : Category) {b : Bool} {c' : Claim}
    (ht : c.take = (b, c')) (sw : Sweep World) (j : Journal) :
    c.run (Scan.source cat none .keep) (sw, j) =
      .ok (b, c')
        ({ state := World.onlyIf b (·.enter cat) sw.state,
           visits := sw.visits ++
             (if b then Sweep.seen sw.state (sw.state.sourceSlots cat) else []).toArray },
          if b then { j with entries := j.entries.push (.rootGroup c.name) } else j) :=
  Claim.run_keep c (·.enter cat) (·.sourceSlots cat) ht (Scan.source_keep cat) sw j

theorem Claim.run_globals_keep (c : Claim) {b : Bool} {c' : Claim} (ht : c.take = (b, c'))
    (sw : Sweep World) (j : Journal) :
    c.run (Scan.globals .keep) (sw, j) =
      .ok (b, c')
        ({ state := World.onlyIf b (fun w => w) sw.state,
           visits := sw.visits ++
             (if b then Sweep.seen sw.state sw.state.globalSlots else []).toArray },
          if b then { j with entries := j.entries.push (.rootGroup c.name) } else j) :=
  Claim.run_keep c (fun w => w) World.globalSlots ht Scan.globals_keep sw j

theorem Claim.run_weakGlobals_keep (c : Claim) {b : Bool} {c' : Claim} (ht : c.take = (b, c'))
    (sw : Sweep World) (j : Journal) :
    c.run (Scan.weakGlobals .everything .keep) (sw, j) =
      .ok (b, c')
        ({ state := World.onlyIf b (fun w => w) sw.state,
           visits := sw.visits ++
             (if b then Sweep.seen sw.state sw.state.weakSlots else []).toArray },
          if b then { j with entries := j.entries.push (.rootGroup c.name) } else j) :=
  Claim.run_keep c (fun w => w) World.weakSlots ht Scan.weakGlobals_keep sw j

theorem Claim.run_threads_keep (c : Claim) (p : Nat) {b : Bool} {c' : Claim}
    (ht : c.take = (b, c')) (sw : Sweep World) (j : Journal) :
    c.run (Scan.threads p .keep) (sw, j) =
      .ok (b, c')
        ({ state := World.onlyIf b (·.claimAll p) sw.state,
           visits := sw.visits ++
             (if b then Sweep.seen sw.state (sw.state.claimedSlots p) else []).toArray },
          if b then { j with entries := j.entries.push (.rootGroup c.name) } else j) :=
  Claim.run_keep c (·.claimAll p) (·.claimedSlots p) ht (Scan.threads_keep p) sw j

/-- The visits a group adds in a call: those of its list when the group lets the worker run it. -/
def Claim.seenIf (c : Claim) (w : World) (l : List SlotAddr) : List Visit :=
  if c.take.1 then Sweep.seen w l else []

namespace StrongPass

/-- The pass after a worker call: each group the call came to has run once more. -/
def after (it : StrongPass) (weakRoots weakExport : Bool) : StrongPass :=
  let it := { it with
    vmUniverse := it.vmUniverse.take.2, jniHandles := it.jniHandles.take.2,
    objectSynchronizer := it.objectSynchronizer.take.2, management := it.management.take.2,
    jvmtiExport := it.jvmtiExport.take.2, systemDictionary := it.systemDictionary.take.2,
    classLoaderDataGraph := it.classLoaderDataGraph.take.2, threads := it.threads.take.2,
    codeCache := it.codeCache.take.2 }
  if !weakRoots then
    { it with jniWeakHandles := it.jniWeakHandles.take.2,
              jvmtiWeakExport := it.jvmtiWeakExport.take.2,
              trace := it.trace.take.2, stringTable := it.stringTable.take.2 }
  else if weakExport then { it with jvmtiWeakExport := it.jvmtiWeakExport.take.2 }
  else it

/-- What a worker call with a visitor that does not write does to the world: it enters the
source of every source group it runs, and claims the threads when it runs the threads group. -/
def keepEffect (it : StrongPass) (weakExport : Bool) (w : World) : World :=
  let w' := w
    |>.onlyIf it.vmUniverse.take.1 (·.enter .vmUniverse)
    |>.onlyIf it.jniHandles.take.1 (fun w => w)
    |>.onlyIf it.objectSynchronizer.take.1 (·.enter .objectSynchronizer)
    |>.onlyIf it.management.take.1 (·.enter .management)
    |>.onlyIf it.jvmtiExport.take.1 (·.enter .jvmtiExport)
    |>.onlyIf it.systemDictionary.take.1 (·.enter .systemDictionary)
    |>.onlyIf it.classLoaderDataGraph.take.1 (·.enter .classLoaderDataGraph)
    |>.onlyIf it.threads.take.1 (·.claimAll it.parity)
    |>.onlyIf it.codeCache.take.1 (·.enter .codeCache)
  if !w.roots.weakRoots then
    w'
      |>.onlyIf it.jniWeakHandles.take.1 (fun w => w)
      |>.onlyIf it.jvmtiWeakExport.take.1 (·.enter .jvmtiWeakExport)
      |>.onlyIf it.trace.take.1 (·.enter .trace)
      |>.onlyIf it.stringTable.take.1 (·.enter .stringTable)
  else if weakExport then w'.onlyIf it.jvmtiWeakExport.take.1 (·.enter .jvmtiWeakExport)
  else w'

/-- The visits of a worker call with a visitor that does not write, group by group. -/
def keepVisits (it : StrongPass) (weakExport : Bool) (w : World) : List Visit :=
  it.vmUniverse.seenIf w (w.sourceSlots .vmUniverse) ++
    it.jniHandles.seenIf w w.globalSlots ++
    it.objectSynchronizer.seenIf w (w.sourceSlots .objectSynchronizer) ++
    it.management.seenIf w (w.sourceSlots .management) ++
    it.jvmtiExport.seenIf w (w.sourceSlots .jvmtiExport) ++
    it.systemDictionary.seenIf w (w.sourceSlots .systemDictionary) ++
    it.classLoaderDataGraph.seenIf w (w.sourceSlots .classLoaderDataGraph) ++
    it.threads.seenIf w (w.claimedSlots it.parity) ++
    it.codeCache.seenIf w (w.sourceSlots .codeCache) ++
    if !w.roots.weakRoots then
      it.jniWeakHandles.seenIf w w.weakSlots ++
        it.jvmtiWeakExport.seenIf w (w.sourceSlots .jvmtiWeakExport) ++
        it.trace.seenIf w (w.sourceSlots .trace) ++
        it.stringTable.seenIf w (w.sourceSlots .stringTable)
    else if weakExport then it.jvmtiWeakExport.seenIf w (w.sourceSlots .jvmtiWeakExport)
    else []

/-- A worker call with a visitor that does not write, group by group. -/
theorem work_keep (it : StrongPass) (we : Bool) (sw : Sweep World) (j : Journal) :
    ∃ j', it.work .keep we (sw, j) =
      .ok (it.after sw.state.roots.weakRoots we)
        ({ state := it.keepEffect we sw.state,
           visits := sw.visits ++ (it.keepVisits we sw.state).toArray }, j') := by
  obtain ⟨b₁, c₁, h₁⟩ : ∃ b c, it.vmUniverse.take = (b, c) := ⟨_, _, rfl⟩
  obtain ⟨b₂, c₂, h₂⟩ : ∃ b c, it.jniHandles.take = (b, c) := ⟨_, _, rfl⟩
  obtain ⟨b₃, c₃, h₃⟩ : ∃ b c, it.objectSynchronizer.take = (b, c) := ⟨_, _, rfl⟩
  obtain ⟨b₄, c₄, h₄⟩ : ∃ b c, it.management.take = (b, c) := ⟨_, _, rfl⟩
  obtain ⟨b₅, c₅, h₅⟩ : ∃ b c, it.jvmtiExport.take = (b, c) := ⟨_, _, rfl⟩
  obtain ⟨b₆, c₆, h₆⟩ : ∃ b c, it.systemDictionary.take = (b, c) := ⟨_, _, rfl⟩
  obtain ⟨b₇, c₇, h₇⟩ : ∃ b c, it.classLoaderDataGraph.take = (b, c) := ⟨_, _, rfl⟩
  obtain ⟨b₈, c₈, h₈⟩ : ∃ b c, it.threads.take = (b, c) := ⟨_, _, rfl⟩
  obtain ⟨b₉, c₉, h₉⟩ : ∃ b c, it.codeCache.take = (b, c) := ⟨_, _, rfl⟩
  unfold work
  rw [Action.bind_ok (Action.emit_run _ _), Action.bind_ok (Claim.run_source_keep _ _ h₁ _ _)]
  dsimp only
  rw [Action.bind_ok (Claim.run_globals_keep _ h₂ _ _)]
  dsimp only
  rw [Action.bind_ok (Claim.run_source_keep _ _ h₃ _ _)]
  dsimp only
  rw [Action.bind_ok (Claim.run_source_keep _ _ h₄ _ _)]
  dsimp only
  rw [Action.bind_ok (Claim.run_source_keep _ _ h₅ _ _)]
  dsimp only
  rw [Action.bind_ok (Claim.run_source_keep _ _ h₆ _ _)]
  dsimp only
  rw [Action.bind_ok (Claim.run_source_keep _ _ h₇ _ _)]
  dsimp only
  rw [Action.bind_ok (Claim.run_threads_keep _ _ h₈ _ _)]
  dsimp only
  rw [Action.bind_ok (Claim.run_source_keep _ _ h₉ _ _)]
  dsimp only
  rw [Action.bind_ok (Action.read_run _)]
  dsimp only
  simp only [World.roots_onlyIf, World.sameSlots_enter, World.sameSlots_claimAll,
    World.SameSlots.refl, implies_true]
  obtain ⟨b₁₀, c₁₀, h₁₀⟩ : ∃ b c, it.jniWeakHandles.take = (b, c) := ⟨_, _, rfl⟩
  obtain ⟨b₁₁, c₁₁, h₁₁⟩ : ∃ b c, it.jvmtiWeakExport.take = (b, c) := ⟨_, _, rfl⟩
  obtain ⟨b₁₂, c₁₂, h₁₂⟩ : ∃ b c, it.trace.take = (b, c) := ⟨_, _, rfl⟩
  obtain ⟨b₁₃, c₁₃, h₁₃⟩ : ∃ b c, it.stringTable.take = (b, c) := ⟨_, _, rfl⟩
  simp only [Scan.source_everything]
  cases hwr : sw.state.roots.weakRoots
  · -- the weak groups are walked as strong roots
    simp only [Bool.not_false, if_true]
    rw [Action.bind_ok (Claim.run_weakGlobals_keep _ h₁₀ _ _),
      Action.bind_ok (Claim.run_source_keep _ _ h₁₁ _ _),
      Action.bind_ok (Claim.run_source_keep _ _ h₁₂ _ _),
      Action.bind_ok (Claim.run_source_keep _ _ h₁₃ _ _)]
    refine Action.ok_exists_journal _ ?_ ?_
    · simp only [after, h₁, h₂, h₃, h₄, h₅, h₆, h₇, h₈, h₉, h₁₀, h₁₁, h₁₂, h₁₃,
        Bool.not_false, ↓reduceIte]
    · simp only [keepEffect, keepVisits, Claim.seenIf, h₁, h₂, h₃, h₄, h₅, h₆, h₇, h₈, h₉,
        h₁₀, h₁₁, h₁₂, h₁₃, hwr, Bool.not_false, ↓reduceIte, World.seen_onlyIf,
        World.sourceSlots_onlyIf, World.globalSlots_onlyIf, World.weakSlots_onlyIf,
        World.claimedSlots_onlyIf_enter, World.onlyIf_id, World.sameSlots_enter,
        World.sameSlots_claimAll, implies_true, Array.append_assoc,
        List.append_toArray, List.append_assoc]
  · simp only [Bool.not_true, Bool.false_eq_true, ↓reduceIte]
    cases we <;> simp only [Bool.false_eq_true, ↓reduceIte]
    · refine Action.ok_exists_journal _ ?_ ?_
      · simp only [after, h₁, h₂, h₃, h₄, h₅, h₆, h₇, h₈, h₉, Bool.not_true,
          Bool.false_eq_true, ↓reduceIte]
      · simp only [keepEffect, keepVisits, Claim.seenIf, h₁, h₂, h₃, h₄, h₅, h₆, h₇, h₈, h₉,
          hwr, Bool.not_true, Bool.false_eq_true, ↓reduceIte, World.seen_onlyIf,
          World.sourceSlots_onlyIf, World.globalSlots_onlyIf,
          World.claimedSlots_onlyIf_enter, World.onlyIf_id, World.sameSlots_enter,
          World.sameSlots_claimAll, implies_true, Array.append_assoc,
          List.append_toArray, List.append_assoc, List.append_nil]
    · rw [Action.bind_ok (Claim.run_source_keep _ _ h₁₁ _ _)]
      refine Action.ok_exists_journal _ ?_ ?_
      · simp only [after, h₁, h₂, h₃, h₄, h₅, h₆, h₇, h₈, h₉, h₁₁, Bool.not_true,
          Bool.false_eq_true, ↓reduceIte]
      · simp only [keepEffect, keepVisits, Claim.seenIf, h₁, h₂, h₃, h₄, h₅, h₆, h₇, h₈, h₉,
          h₁₁, hwr, Bool.not_true, Bool.false_eq_true, ↓reduceIte, World.seen_onlyIf,
          World.sourceSlots_onlyIf, World.globalSlots_onlyIf,
          World.claimedSlots_onlyIf_enter, World.onlyIf_id, World.sameSlots_enter,
          World.sameSlots_claimAll, implies_true, Array.append_assoc,
          List.append_toArray, List.append_assoc]

end StrongPass

/-! ### The groups of a strong pass -/

/-- The groups of a strong pass, in the order a call comes to them. -/
inductive StrongGroup where
  | vmUniverse
  | jniHandles
  | objectSynchronizer
  | management
  | jvmtiExport
  | systemDictionary
  | classLoaderDataGraph
  | threads
  | codeCache
  | jniWeakHandles
  | jvmtiWeakExport
  | trace
  | stringTable
  deriving DecidableEq

namespace StrongGroup

/-- Every group, in the order a call comes to them. -/
def all : List StrongGroup :=
  [vmUniverse, jniHandles, objectSynchronizer, management, jvmtiExport, systemDictionary,
    classLoaderDataGraph, threads, codeCache, jniWeakHandles, jvmtiWeakExport, trace, stringTable]

theorem mem_all (g : StrongGroup) : g ∈ all := by
  cases g <;> decide

theorem nodup_all : all.Nodup := by
  decide

/-- Whether a call comes to the group: to the weak groups only when weak roots are walked as
strong roots, to the weak export also when the call asks for it. -/
def reached (weakRoots weakExport : Bool) : StrongGroup → Bool
  | jniWeakHandles | trace | stringTable => !weakRoots
  | jvmtiWeakExport => !weakRoots || weakExport
  | _ => true

end StrongGroup

/-- The group that walks the root source of a category; a strong pass does not walk the symbol
table. -/
def Category.strongGroup : Category → Option StrongGroup
  | .vmUniverse => some .vmUniverse
  | .objectSynchronizer => some .objectSynchronizer
  | .management => some .management
  | .jvmtiExport => some .jvmtiExport
  | .systemDictionary => some .systemDictionary
  | .classLoaderDataGraph => some .classLoaderDataGraph
  | .codeCache => some .codeCache
  | .jvmtiWeakExport => some .jvmtiWeakExport
  | .trace => some .trace
  | .symbolTable => none
  | .stringTable => some .stringTable

/-- The group of a strong pass whose list a slot can lie in. -/
def SlotAddr.strongGroup : SlotAddr → Option StrongGroup
  | .global _ => some .jniHandles
  | .weak _ => some .jniWeakHandles
  | .threadLocal _ => some .threads
  | .stack _ _ => some .threads
  | .source c _ => c.strongGroup
  | .storage _ => none

/-- The slots a group walks in world `w`: the threads group walks the threads that parity `p`
lets it claim. -/
def World.groupSlots (w : World) (p : Nat) : StrongGroup → List SlotAddr
  | .vmUniverse => w.sourceSlots .vmUniverse
  | .jniHandles => w.globalSlots
  | .objectSynchronizer => w.sourceSlots .objectSynchronizer
  | .management => w.sourceSlots .management
  | .jvmtiExport => w.sourceSlots .jvmtiExport
  | .systemDictionary => w.sourceSlots .systemDictionary
  | .classLoaderDataGraph => w.sourceSlots .classLoaderDataGraph
  | .threads => w.claimedSlots p
  | .codeCache => w.sourceSlots .codeCache
  | .jniWeakHandles => w.weakSlots
  | .jvmtiWeakExport => w.sourceSlots .jvmtiWeakExport
  | .trace => w.sourceSlots .trace
  | .stringTable => w.sourceSlots .stringTable

theorem World.strongGroup_of_mem_threadSlots {w : World} {t : Nat} {a : SlotAddr}
    (ha : a ∈ w.threadSlots t) : a.strongGroup = some .threads := by
  simp only [threadSlots, Walk.slots, stackSlots, List.mem_append] at ha
  rcases ha with ha | ha <;> split at ha <;> try split at ha
  all_goals simp only [List.mem_map, List.not_mem_nil] at ha
  all_goals first | exact ha.elim | (obtain ⟨_, _, rfl⟩ := ha; rfl)

/-- A slot in a group's list names that group. -/
theorem World.strongGroup_of_mem_groupSlots {w : World} {p : Nat} {g : StrongGroup} {a : SlotAddr}
    (ha : a ∈ w.groupSlots p g) : a.strongGroup = some g := by
  cases g
  case threads =>
    obtain ⟨t, -, ht⟩ := List.mem_flatMap.mp ha
    exact strongGroup_of_mem_threadSlots ht
  all_goals
    simp only [groupSlots, sourceSlots, globalSlots, weakSlots, List.mem_map] at ha
    obtain ⟨_, _, rfl⟩ := ha
    rfl

namespace StrongPass

/-- The claim of a group. -/
def group (it : StrongPass) : StrongGroup → Claim
  | .vmUniverse => it.vmUniverse
  | .jniHandles => it.jniHandles
  | .objectSynchronizer => it.objectSynchronizer
  | .management => it.management
  | .jvmtiExport => it.jvmtiExport
  | .systemDictionary => it.systemDictionary
  | .classLoaderDataGraph => it.classLoaderDataGraph
  | .threads => it.threads
  | .codeCache => it.codeCache
  | .jniWeakHandles => it.jniWeakHandles
  | .jvmtiWeakExport => it.jvmtiWeakExport
  | .trace => it.trace
  | .stringTable => it.stringTable

/-- Whether a call walks a group: it comes to the group and the group's claim lets it run. -/
def walks (it : StrongPass) (weakRoots weakExport : Bool) (g : StrongGroup) : Bool :=
  g.reached weakRoots weakExport && (it.group g).take.1

/-- A call advances the claim of every group it comes to and of no other. -/
theorem group_after (it : StrongPass) (wr we : Bool) (g : StrongGroup) :
    (it.after wr we).group g = if g.reached wr we then (it.group g).take.2 else it.group g := by
  cases g <;> cases wr <;> cases we <;> rfl

@[simp] theorem parity_after (it : StrongPass) (wr we : Bool) : (it.after wr we).parity = it.parity := by
  cases wr <;> cases we <;> rfl

/-- A call visits, group after group, the slots of each group it walks that are not null. -/
theorem keepVisits_eq (it : StrongPass) (we : Bool) (w : World) :
    it.keepVisits we w = StrongGroup.all.flatMap fun g =>
      if it.walks w.roots.weakRoots we g then Sweep.seen w (w.groupSlots it.parity g) else [] := by
  cases hwr : w.roots.weakRoots <;> cases we <;>
    simp [keepVisits, Claim.seenIf, walks, group, StrongGroup.reached, StrongGroup.all,
      World.groupSlots, hwr]

/-- A call enters the source of each source group it walks, once. -/
theorem sources_keepEffect (it : StrongPass) (we : Bool) (w : World) (c : Category) :
    (it.keepEffect we w).sources.get c =
      if c.strongGroup.any (it.walks w.roots.weakRoots we) then (w.sources.get c).called
      else w.sources.get c := by
  cases hwr : w.roots.weakRoots <;> cases we <;> cases c <;>
    simp [keepEffect, walks, group, StrongGroup.reached, Category.strongGroup, hwr]

/-- A call claims the threads for the pass's parity when it walks the threads group. -/
theorem registry_keepEffect (it : StrongPass) (we : Bool) (w : World) :
    (it.keepEffect we w).registry =
      if it.threads.take.1 then w.registry.claimAll it.parity else w.registry := by
  cases hwr : w.roots.weakRoots <;> cases we <;> simp [keepEffect, hwr]

theorem sameSlots_keepEffect (it : StrongPass) (we : Bool) (w : World) :
    World.SameSlots w (it.keepEffect we w) := by
  have step : ∀ {w' : World} {f : World → World}, (∀ w, World.SameSlots w (f w)) → ∀ b,
      World.SameSlots w w' → World.SameSlots w (w'.onlyIf b f) :=
    fun hf b h => h.trans (World.sameSlots_onlyIf hf b _)
  unfold keepEffect
  dsimp only
  repeat' split
  all_goals
    repeat first
      | exact World.SameSlots.refl w
      | refine step (fun w => World.sameSlots_enter w _) _ ?_
      | refine step World.SameSlots.refl _ ?_
      | refine step (fun w => World.sameSlots_claimAll w _) _ ?_

/-- A call visits a slot as often as the group whose list holds it visits it, if the call walks
that group, and not at all otherwise. -/
theorem count_keepVisits (it : StrongPass) (we : Bool) (w : World) {a : SlotAddr}
    {g : StrongGroup} (ha : a.strongGroup = some g) :
    ((it.keepVisits we w).map Visit.slot).count a =
      if it.walks w.roots.weakRoots we g then
        ((Sweep.seen w (w.groupSlots it.parity g)).map Visit.slot).count a
      else 0 := by
  rw [keepVisits_eq, List.map_flatMap,
    List.count_flatMap_of_only StrongGroup.nodup_all _ a (StrongGroup.mem_all g)]
  · split <;> rfl
  · intro g' _ hne
    split
    · rw [Sweep.count_seen]
      split
      · rfl
      · exact List.count_eq_zero.mpr fun hm =>
          hne (Option.some.inj ((World.strongGroup_of_mem_groupSlots hm).symm.trans ha))
    · rfl

end StrongPass

end GcRoots

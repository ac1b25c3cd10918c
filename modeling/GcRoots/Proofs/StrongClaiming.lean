import GcRoots.Proofs.Coverage

namespace GcRoots

/-!
# Claiming threads in strong passes

A strong worker call walks thirteen groups of roots. Its threads group claims the threads for
the pass's parity and walks the slots of those it claims, just as the one group of a thread
pass's call does (`Scan.threads_run`). The other groups walk root sources and global handles and
leave the threads alone: they keep the contexts, the block pool and the stack roots
(`World.threadPart`) and visit no slot of a thread. `Sweep.SameThreads` says that two sweeps
agree on both.

Every group but the threads group keeps its sweep the same in this sense
(`Scan.KeepsThreads`). A walk over any slots takes sweeps that agree to sweeps that agree
(`Sweep.SameThreads.strong`). So a strong call agrees with the walk of its threads group alone
(`StrongPass.work_sameThreads`), whatever the visitor writes. Projected to the slots of threads,
the calls of a strong pass visit what the calls of a thread pass visit.

Main statement: `thread_pass_claims_by_parity`, for thread passes and strong passes alike.
-/

namespace World

/-- The part of the world that walks over threads read and change: the contexts, the block
pool and the stack roots. -/
def threadPart (w : World) : Array Context × BlockPool × Option (Array (Array Nat)) :=
  (w.registry.contexts, w.registry.table.pool, w.stackRoots)

theorem threadPart_eq_iff {w w' : World} :
    w.threadPart = w'.threadPart ↔ w.registry.contexts = w'.registry.contexts ∧
      w.registry.table.pool = w'.registry.table.pool ∧ w.stackRoots = w'.stackRoots := by
  simp [threadPart]

/-- Writing a slot outside the threads leaves their part alone. -/
theorem threadPart_writeSlot (w : World) {a : SlotAddr} (ha : a.strongGroup ≠ some .threads)
    (v : Nat) : (w.writeSlot a v).threadPart = w.threadPart := by
  cases a <;> first | rfl | exact absurd rfl ha

/-- Writing a slot keeps two worlds agreeing on the threads. -/
theorem threadPart_writeSlot_congr {w w' : World} (h : w.threadPart = w'.threadPart)
    (a : SlotAddr) (v : Nat) : (w.writeSlot a v).threadPart = (w'.writeSlot a v).threadPart := by
  obtain ⟨hc, hp, hs⟩ := threadPart_eq_iff.mp h
  cases a <;> simp only [writeSlot, threadPart, hc, hp, hs]

/-- A slot of a thread reads the same in two worlds that agree on the threads. -/
theorem readSlot_congr {w w' : World} (h : w.threadPart = w'.threadPart) {a : SlotAddr}
    (ha : a.strongGroup = some .threads) : w.readSlot a = w'.readSlot a := by
  obtain ⟨hc, hp, hs⟩ := threadPart_eq_iff.mp h
  cases a
  case threadLocal i => simp only [readSlot, hp]
  case stack t i => simp only [readSlot, hs]
  case source c i => cases c <;> cases ha
  all_goals cases ha

@[simp] theorem parity_writeSlot (w : World) (a : SlotAddr) (v : Nat) :
    (w.writeSlot a v).registry.parity = w.registry.parity := by
  cases a <;> rfl

theorem threadSlots_congr {w w' : World} (h : w.threadPart = w'.threadPart) (t : Nat) :
    w.threadSlots t = w'.threadSlots t := by
  obtain ⟨hc, hp, hs⟩ := threadPart_eq_iff.mp h
  simp only [threadSlots, Walk.slots, stackSlots, hc, hp, hs]

/-- Which threads a worker claims, and the slots it walks, depend only on the threads' part. -/
theorem claimedSlots_congr {w w' : World} (h : w.threadPart = w'.threadPart) (p : Nat) :
    w.claimedSlots p = w'.claimedSlots p := by
  have hclaimed : w.registry.claimed p = w'.registry.claimed p := by
    unfold Registry.claimed Registry.claims
    rw [(threadPart_eq_iff.mp h).1]
  rw [claimedSlots, claimedSlots, hclaimed, funext (threadSlots_congr h)]

theorem threadPart_claimAll_congr {w w' : World} (h : w.threadPart = w'.threadPart) (p : Nat) :
    (w.claimAll p).threadPart = (w'.claimAll p).threadPart := by
  obtain ⟨hc, hp, hs⟩ := threadPart_eq_iff.mp h
  simp only [threadPart, claimAll, Registry.claimAll, hc, hp, hs]

/-- Where every attached thread carries `p` already, a worker claims no thread. -/
theorem claimedSlots_of_claimed {w : World} {p : Nat}
    (h : (w.claimAll p).threadPart = w.threadPart) : w.claimedSlots p = [] := by
  rw [← claimedSlots_congr h, claimedSlots_claimAll]

end World

/-- A strong pass walks no slot of a thread in the group of a root source. -/
theorem Category.strongGroup_ne_threads (c : Category) : c.strongGroup ≠ some .threads := by
  cases c <;> decide

/-- The visits to slots of threads, local handles and stack roots, in order. -/
def Visit.ofThreads (vs : Array Visit) : List Visit :=
  vs.toList.filter fun v => v.slot.strongGroup == some .threads

namespace Visit

theorem ofThreads_push_of_ne (vs : Array Visit) {a : SlotAddr}
    (ha : a.strongGroup ≠ some .threads) (v : Nat) : ofThreads (vs.push ⟨a, v⟩) = ofThreads vs := by
  simp [ofThreads, ha]

theorem ofThreads_push_of_eq (vs : Array Visit) {a : SlotAddr}
    (ha : a.strongGroup = some .threads) (v : Nat) :
    ofThreads (vs.push ⟨a, v⟩) = ofThreads vs ++ [⟨a, v⟩] := by
  simp [ofThreads, ha]

end Visit

/-- Two sweeps that agree on the threads: their worlds have the same part for the threads, and
they have visited the same slots of threads, in the same order, with the same contents. -/
structure Sweep.SameThreads (sw sw' : Sweep World) : Prop where
  part : sw.state.threadPart = sw'.state.threadPart
  visits : Visit.ofThreads sw.visits = Visit.ofThreads sw'.visits

namespace Sweep.SameThreads

variable {sw sw' sw'' : Sweep World}

theorem refl (sw : Sweep World) : SameThreads sw sw := ⟨rfl, rfl⟩

theorem symm (h : SameThreads sw sw') : SameThreads sw' sw := ⟨h.part.symm, h.visits.symm⟩

theorem trans (h : SameThreads sw sw') (h' : SameThreads sw' sw'') : SameThreads sw sw'' :=
  ⟨h.part.trans h'.part, h.visits.trans h'.visits⟩

/-! Walks outside the threads. -/

theorem visitStrong_self (rw : Rewrite) (sw : Sweep World) {a : SlotAddr}
    (ha : a.strongGroup ≠ some .threads) : SameThreads (sw.visitStrong rw a) sw := by
  unfold Sweep.visitStrong
  dsimp only
  split
  · exact refl sw
  · exact ⟨World.threadPart_writeSlot _ ha _, Visit.ofThreads_push_of_ne _ ha _⟩

theorem visitWeak_self (alive : Liveness) (rw : Rewrite) (sw : Sweep World) {a : SlotAddr}
    (ha : a.strongGroup ≠ some .threads) : SameThreads (sw.visitWeak alive rw a) sw := by
  unfold Sweep.visitWeak
  dsimp only
  split
  · exact refl sw
  · split
    · exact visitStrong_self rw sw ha
    · exact ⟨World.threadPart_writeSlot _ ha _, rfl⟩

/-- A strong walk outside the threads keeps a sweep the same. -/
theorem strong_self (rw : Rewrite) {l : List SlotAddr}
    (hl : ∀ a ∈ l, a.strongGroup ≠ some .threads) (sw : Sweep World) :
    SameThreads (sw.strong rw l) sw := by
  induction l generalizing sw with
  | nil => exact refl sw
  | cons a l ih =>
    exact (ih (fun b hb => hl b (List.mem_cons_of_mem a hb)) (sw.visitStrong rw a)).trans
      (visitStrong_self rw sw (hl a List.mem_cons_self))

/-- A weak walk outside the threads keeps a sweep the same. -/
theorem weak_self (alive : Liveness) (rw : Rewrite) {l : List SlotAddr}
    (hl : ∀ a ∈ l, a.strongGroup ≠ some .threads) (sw : Sweep World) :
    SameThreads (sw.weak alive rw l) sw := by
  induction l generalizing sw with
  | nil => exact refl sw
  | cons a l ih =>
    exact (ih (fun b hb => hl b (List.mem_cons_of_mem a hb)) (sw.visitWeak alive rw a)).trans
      (visitWeak_self alive rw sw (hl a List.mem_cons_self))

/-! Walks over any slots. -/

/-- Visiting a slot takes sweeps that agree on the threads to sweeps that agree: a slot of a
thread reads the same in both, and any other slot is none of the threads' business. -/
theorem visitStrong (h : SameThreads sw sw') (rw : Rewrite) (a : SlotAddr) :
    SameThreads (sw.visitStrong rw a) (sw'.visitStrong rw a) := by
  by_cases ha : a.strongGroup = some .threads
  · have hv : sw.state.readSlot a = sw'.state.readSlot a := World.readSlot_congr h.part ha
    unfold Sweep.visitStrong
    simp only [World.slotMemory_read, World.slotMemory_write, hv]
    split
    · exact h
    · refine ⟨World.threadPart_writeSlot_congr h.part a _, ?_⟩
      rw [Visit.ofThreads_push_of_eq _ ha, Visit.ofThreads_push_of_eq _ ha, h.visits]
  · exact (visitStrong_self rw sw ha).trans (h.trans (visitStrong_self rw sw' ha).symm)

theorem strong (h : SameThreads sw sw') (rw : Rewrite) (l : List SlotAddr) :
    SameThreads (sw.strong rw l) (sw'.strong rw l) := by
  induction l generalizing sw sw' with
  | nil => exact h
  | cons a l ih => exact ih (h.visitStrong rw a)

end Sweep.SameThreads

/-- A strong walk over slots of threads, from visits of threads only, has visited slots of
threads only. -/
theorem Sweep.ofThreads_strong (rw : Rewrite) {l : List SlotAddr}
    (hl : ∀ a ∈ l, a.strongGroup = some .threads) (sw : Sweep World)
    (h : Visit.ofThreads sw.visits = sw.visits.toList) :
    Visit.ofThreads (sw.strong rw l).visits = (sw.strong rw l).visits.toList := by
  induction l generalizing sw with
  | nil => exact h
  | cons a l ih =>
    refine ih (fun b hb => hl b (List.mem_cons_of_mem a hb)) (sw.visitStrong rw a) ?_
    unfold Sweep.visitStrong
    dsimp only
    split
    · exact h
    · rw [Visit.ofThreads_push_of_eq _ (hl a List.mem_cons_self), h, Array.toList_push]

/-- A walk writes no claim parity. -/
theorem Sweep.parity_strong (rw : Rewrite) (sw : Sweep World) (l : List SlotAddr) :
    (sw.strong rw l).state.registry.parity = sw.state.registry.parity :=
  Sweep.strong_induct (fun w => w.registry.parity = sw.state.registry.parity)
    (fun w a v _ hw => by rw [World.parity_writeSlot, hw]) rfl

theorem Sweep.parity_weak (alive : Liveness) (rw : Rewrite) (sw : Sweep World) (l : List SlotAddr) :
    (sw.weak alive rw l).state.registry.parity = sw.state.registry.parity :=
  Sweep.weak_induct (fun w => w.registry.parity = sw.state.registry.parity)
    (fun w a v _ hw => by rw [World.parity_writeSlot, hw]) rfl

/-! The walk over the threads. -/

/-- What a worker's walk over the threads leaves for parity `p`: the slots of the threads it
claims walked, thread by thread in attach order, and every attached thread claimed. -/
def Sweep.claimThreads (p : Nat) (rw : Rewrite) (sw : Sweep World) : Sweep World :=
  let sw' := sw.strong rw (sw.state.claimedSlots p)
  { sw' with state := sw'.state.claimAll p }

theorem Scan.threads_eq_claimThreads (p : Nat) (rw : Rewrite) (sw : Sweep World) (j : Journal) :
    Scan.threads p rw (sw, j) = .ok () (sw.claimThreads p rw, j) :=
  Scan.threads_run p rw sw j

namespace Sweep

theorem SameThreads.claimThreads {sw sw' : Sweep World} (h : SameThreads sw sw') (p : Nat)
    (rw : Rewrite) : SameThreads (sw.claimThreads p rw) (sw'.claimThreads p rw) := by
  have hw := h.strong rw (sw'.state.claimedSlots p)
  simp only [Sweep.claimThreads]
  rw [World.claimedSlots_congr h.part]
  exact ⟨World.threadPart_claimAll_congr hw.part p, hw.visits⟩

/-- Where every attached thread carries `p` already, the walk over the threads visits nothing
and changes nothing the threads have. -/
theorem SameThreads.claimThreads_of_claimed {sw : Sweep World} {p : Nat}
    (h : (sw.state.claimAll p).threadPart = sw.state.threadPart) (rw : Rewrite) :
    SameThreads (sw.claimThreads p rw) sw := by
  simp only [Sweep.claimThreads, World.claimedSlots_of_claimed h, Sweep.strong_nil]
  exact ⟨h, rfl⟩

theorem claimAll_claimThreads (sw : Sweep World) (p : Nat) (rw : Rewrite) :
    ((sw.claimThreads p rw).state.claimAll p).threadPart = (sw.claimThreads p rw).state.threadPart := by
  simp only [Sweep.claimThreads, World.claimAll_claimAll]

theorem parity_claimThreads (sw : Sweep World) (p : Nat) (rw : Rewrite) :
    (sw.claimThreads p rw).state.registry.parity = sw.state.registry.parity :=
  parity_strong rw sw _

/-- The visits of threads a walk over the threads makes from a sweep without visits. -/
theorem ofThreads_claimThreads (w : World) (p : Nat) (rw : Rewrite) :
    Visit.ofThreads (({ state := w } : Sweep World).claimThreads p rw).visits =
      (Sweep.strong rw { state := w } (w.claimedSlots p)).visits.toList :=
  ofThreads_strong rw (fun _ ha => by
    obtain ⟨t, -, ht⟩ := List.mem_flatMap.mp ha
    exact World.strongGroup_of_mem_threadSlots ht) _ rfl

end Sweep

/-! Worker calls of a strong pass. -/

/-- A walk that acts on the sweep as a function keeping the threads and the claim parity. -/
def Scan.KeepsThreads (m : Scan Unit) : Prop :=
  ∃ f : Sweep World → Sweep World, (∀ s j, m (s, j) = .ok () (f s, j)) ∧
    ∀ s, (f s).SameThreads s ∧ (f s).state.registry.parity = s.state.registry.parity

namespace Scan

theorem keepsThreads_update {g : Sweep World → Sweep World}
    (hg : ∀ s, (g s).SameThreads s ∧ (g s).state.registry.parity = s.state.registry.parity) :
    KeepsThreads (Action.update g) :=
  ⟨g, fun _ _ => rfl, hg⟩

theorem globals_keepsThreads (rw : Rewrite) : KeepsThreads (globals rw) :=
  keepsThreads_update fun sw => ⟨Sweep.SameThreads.strong_self rw (fun a ha => by
    obtain ⟨i, _, rfl⟩ := List.mem_map.mp ha
    simp [SlotAddr.strongGroup]) sw, Sweep.parity_strong rw sw _⟩

theorem weakGlobals_keepsThreads (alive : Liveness) (rw : Rewrite) :
    KeepsThreads (weakGlobals alive rw) :=
  keepsThreads_update fun sw => ⟨Sweep.SameThreads.weak_self alive rw (fun a ha => by
    obtain ⟨i, _, rfl⟩ := List.mem_map.mp ha
    simp [SlotAddr.strongGroup]) sw, Sweep.parity_weak alive rw sw _⟩

/-- Walking a root source marks the source called and walks its slots; neither touches a
thread. -/
theorem source_keepsThreads (c : Category) (alive : Option Liveness) (rw : Rewrite) :
    KeepsThreads (source c alive rw) := by
  refine keepsThreads_update fun sw => ?_
  -- the walk marks the source called, then goes over the source's own slots
  have hl : ∀ a ∈ (List.range (sw.state.sources.get c).slots.size).map (SlotAddr.source c),
      a.strongGroup ≠ some .threads := fun a ha => by
    obtain ⟨i, _, rfl⟩ := List.mem_map.mp ha
    exact Category.strongGroup_ne_threads c
  cases alive with
  | none => exact ⟨(Sweep.SameThreads.strong_self rw hl _).trans ⟨rfl, rfl⟩, Sweep.parity_strong rw _ _⟩
  | some a => exact ⟨(Sweep.SameThreads.weak_self a rw hl _).trans ⟨rfl, rfl⟩, Sweep.parity_weak a rw _ _⟩

end Scan

/-- A group whose body keeps the threads keeps them too, whether it runs or not. -/
theorem Claim.run_keepsThreads (c : Claim) {m : Scan Unit} (hm : Scan.KeepsThreads m) {b : Bool}
    {c' : Claim} (ht : c.take = (b, c')) (sw : Sweep World) (j : Journal) :
    ∃ sw' j', c.run m (sw, j) = .ok (b, c') (sw', j') ∧ sw'.SameThreads sw ∧
      sw'.state.registry.parity = sw.state.registry.parity := by
  obtain ⟨f, hf, hs⟩ := hm
  rw [Claim.run_eq c hf, ht]
  cases b
  · exact ⟨_, _, rfl, .refl sw, rfl⟩
  · exact ⟨_, _, rfl, hs sw⟩

/-- A group whose body keeps the threads, then the rest of a call: the rest starts from a sweep
that still agrees with the target on the threads and the claim parity. -/
theorem Claim.bind_keepsThreads {α : Type} (c : Claim) {m : Scan Unit} (hm : Scan.KeepsThreads m)
    {b : Bool} {c' : Claim} (ht : c.take = (b, c')) {k : Bool × Claim → Scan α}
    {Q : α → Sweep World → Prop} {T sw : Sweep World} {j : Journal}
    (hsw : sw.SameThreads T ∧ sw.state.registry.parity = T.state.registry.parity)
    (hk : ∀ sw' j', sw'.SameThreads T ∧ sw'.state.registry.parity = T.state.registry.parity →
      ∃ a sw'' j'', k (b, c') (sw', j') = .ok a (sw'', j'') ∧ Q a sw'') :
    ∃ a sw'' j'', (c.run m >>= k) (sw, j) = .ok a (sw'', j'') ∧ Q a sw'' := by
  obtain ⟨sw₁, j₁, h₁, e₁, q₁⟩ := Claim.run_keepsThreads c hm ht sw j
  rw [Action.bind_ok h₁]
  exact hk sw₁ j₁ ⟨e₁.trans hsw.1, q₁.trans hsw.2⟩

/-- The threads group of a pass, parallel, runs in every call. -/
theorem Claim.run_threads (c : Claim) (hc : c.concurrency = .parallel) (p : Nat) (rw : Rewrite)
    (sw : Sweep World) (j : Journal) :
    ∃ j', c.run (Scan.threads p rw) (sw, j) =
      .ok (true, { c with taken := true }) (sw.claimThreads p rw, j') := by
  rw [Claim.run_eq c (Scan.threads_eq_claimThreads p rw), Claim.take_parallel hc]
  exact ⟨_, rfl⟩

/-- Worker calls whose first call returns: the pass and visits of the rest, after that call's
visits. -/
theorem Scan.calls_cons_ok {ι β : Type} {work : ι → β → Scan ι} {it it₁ it' : ι} {b : β}
    {bs : List β} {w w' : World} {j j₁ j' : Journal} {sw : Sweep World} {vs : List (Array Visit)}
    (h₁ : work it b ({ state := w }, j) = .ok it₁ (sw, j₁))
    (h : Scan.calls work it₁ bs (sw.state, j₁) = .ok (it', vs) (w', j')) :
    Scan.calls work it (b :: bs) (w, j) = .ok (it', sw.visits :: vs) (w', j') := by
  unfold Scan.calls
  rw [Action.bind_ok (Scan.visitsOf_ok h₁)]
  dsimp only
  rw [Action.bind_ok h]
  rfl

namespace StrongPass

/-- One worker call of a strong pass, with any visitor, agrees on the threads with its threads
group alone: the slots of the threads it claims walked, and every attached thread claimed. The
pass keeps its parity and its parallel threads group, and the call keeps the claim parity. -/
theorem work_sameThreads (it : StrongPass) (hpar : it.threads.concurrency = .parallel)
    (rw : Rewrite) (we : Bool) (sw : Sweep World) (j : Journal) :
    ∃ it' sw' j', it.work rw we (sw, j) = .ok it' (sw', j') ∧ it'.parity = it.parity ∧
      it'.threads.concurrency = .parallel ∧ sw'.SameThreads (sw.claimThreads it.parity rw) ∧
      sw'.state.registry.parity = sw.state.registry.parity := by
  unfold work
  rw [Action.bind_ok (Action.emit_run _ _)]
  -- the groups before the threads agree with the sweep the call starts from
  have h₀ : sw.SameThreads sw ∧ sw.state.registry.parity = sw.state.registry.parity :=
    ⟨.refl sw, rfl⟩
  refine Claim.bind_keepsThreads _ (Scan.source_keepsThreads .vmUniverse none rw) rfl h₀
    fun s j h => ?_
  refine Claim.bind_keepsThreads _ (Scan.globals_keepsThreads rw) rfl h fun s j h => ?_
  refine Claim.bind_keepsThreads _ (Scan.source_keepsThreads .objectSynchronizer none rw) rfl h
    fun s j h => ?_
  refine Claim.bind_keepsThreads _ (Scan.source_keepsThreads .management none rw) rfl h
    fun s j h => ?_
  refine Claim.bind_keepsThreads _ (Scan.source_keepsThreads .jvmtiExport none rw) rfl h
    fun s j h => ?_
  refine Claim.bind_keepsThreads _ (Scan.source_keepsThreads .systemDictionary none rw) rfl h
    fun s j h => ?_
  refine Claim.bind_keepsThreads _ (Scan.source_keepsThreads .classLoaderDataGraph none rw) rfl h
    fun s j h => ?_
  dsimp only
  -- the threads group: from here on the target is the walk of the threads alone
  obtain ⟨j₈, h₈⟩ := Claim.run_threads it.threads hpar it.parity rw s j
  rw [Action.bind_ok h₈]
  dsimp only
  have hth : (s.claimThreads it.parity rw).SameThreads (sw.claimThreads it.parity rw) ∧
      (s.claimThreads it.parity rw).state.registry.parity =
        (sw.claimThreads it.parity rw).state.registry.parity := by
    refine ⟨h.1.claimThreads it.parity rw, ?_⟩
    rw [Sweep.parity_claimThreads, Sweep.parity_claimThreads, h.2]
  have hq := Sweep.parity_claimThreads sw it.parity rw
  refine Claim.bind_keepsThreads _ (Scan.source_keepsThreads .codeCache none rw) rfl hth
    fun s j h => ?_
  dsimp only
  rw [Action.bind_ok (Action.read_run _)]
  dsimp only
  split
  · -- the weak groups, walked as strong roots
    refine Claim.bind_keepsThreads _ (Scan.weakGlobals_keepsThreads .everything rw) rfl h
      fun s j h => ?_
    refine Claim.bind_keepsThreads _
      (Scan.source_keepsThreads .jvmtiWeakExport (some .everything) rw) rfl h fun s j h => ?_
    refine Claim.bind_keepsThreads _ (Scan.source_keepsThreads .trace (some .everything) rw) rfl h
      fun s j h => ?_
    refine Claim.bind_keepsThreads _
      (Scan.source_keepsThreads .stringTable (some .everything) rw) rfl h fun s j h => ?_
    exact ⟨_, _, _, rfl, rfl, hpar, h.1, h.2.trans hq⟩
  · split
    · -- the weak export alone
      refine Claim.bind_keepsThreads _
        (Scan.source_keepsThreads .jvmtiWeakExport (some .everything) rw) rfl h fun s j h => ?_
      exact ⟨_, _, _, rfl, rfl, hpar, h.1, h.2.trans hq⟩
    · exact ⟨_, _, _, rfl, rfl, hpar, h.1, h.2.trans hq⟩

/-- Later calls of a strong pass once every attached thread carries its parity: they visit no
slot of a thread, and keep the threads' part of the world and the claim parity. -/
theorem calls_claimed (it : StrongPass) (hpar : it.threads.concurrency = .parallel) :
    ∀ (cs : List (Rewrite × Bool)) (w : World) (j : Journal),
      (w.claimAll it.parity).threadPart = w.threadPart →
      ∃ it' vs w' j', Scan.calls (fun it c => it.work c.1 c.2) it cs (w, j) = .ok (it', vs) (w', j') ∧
        vs.map Visit.ofThreads = cs.map (fun _ => []) ∧ w'.threadPart = w.threadPart ∧
        w'.registry.parity = w.registry.parity
  | [], w, j, _ => ⟨it, [], w, j, rfl, rfl, rfl, rfl⟩
  | c :: cs, w, j, hw => by
    obtain ⟨it₁, s₁, j₁, h₁, hp₁, hc₁, e₁, q₁⟩ := it.work_sameThreads hpar c.1 c.2 { state := w } j
    -- the call claims nothing, so it keeps what the threads have
    have e : s₁.SameThreads { state := w } := e₁.trans (.claimThreads_of_claimed hw c.1)
    have hw₁ : (s₁.state.claimAll it₁.parity).threadPart = s₁.state.threadPart := by
      rw [hp₁, World.threadPart_claimAll_congr e.part, hw, e.part]
    obtain ⟨it', vs, w', j', h, hvs, hpart, hq⟩ := calls_claimed it₁ hc₁ cs s₁.state j₁ hw₁
    refine ⟨it', s₁.visits :: vs, w', j', Scan.calls_cons_ok h₁ h, ?_, hpart.trans e.part,
      hq.trans q₁⟩
    rw [List.map_cons, hvs, e.visits]
    rfl

/-- The worker calls of a strong pass, projected to the slots of threads: the first call walks
the slots of the threads it claims and leaves every attached thread claimed; every later call
visits no slot of a thread. The calls keep the claim parity. -/
theorem calls_run (it : StrongPass) (hpar : it.threads.concurrency = .parallel)
    (c : Rewrite × Bool) (cs : List (Rewrite × Bool)) (w : World) (j : Journal) :
    ∃ it' vs w' j', Scan.calls (fun it c => it.work c.1 c.2) it (c :: cs) (w, j) =
        .ok (it', vs) (w', j') ∧
      vs.map Visit.ofThreads = (Sweep.strong c.1 { state := w } (w.claimedSlots it.parity)).visits.toList ::
        cs.map (fun _ => []) ∧
      w'.threadPart = (({ state := w } : Sweep World).claimThreads it.parity c.1).state.threadPart ∧
      w'.registry.parity = w.registry.parity := by
  obtain ⟨it₁, s₁, j₁, h₁, hp₁, hc₁, e₁, q₁⟩ := it.work_sameThreads hpar c.1 c.2 { state := w } j
  have hw₁ : (s₁.state.claimAll it₁.parity).threadPart = s₁.state.threadPart := by
    rw [hp₁, World.threadPart_claimAll_congr e₁.part, Sweep.claimAll_claimThreads, e₁.part]
  obtain ⟨it', vs, w', j', h, hvs, hpart, hq⟩ := calls_claimed it₁ hc₁ cs s₁.state j₁ hw₁
  refine ⟨it', s₁.visits :: vs, w', j', Scan.calls_cons_ok h₁ h, ?_, hpart.trans e₁.part,
    hq.trans q₁⟩
  rw [List.map_cons, hvs, e₁.visits, Sweep.ofThreads_claimThreads]

/-- Tearing a strong pass down succeeds exactly when every attached thread carries the
registry's parity: the epilogues before the check change only the sources. -/
theorem finish_ok_iff (it : StrongPass) (w : World) (j : Journal) :
    (∃ s, it.finish (w, j) = .ok () s) ↔ ∀ c ∈ w.registry.attached, c.parity = w.registry.parity := by
  unfold finish Scan.epilogue
  rw [Action.bind_ok (Action.update_run _ _), Action.bind_ok (Action.update_run _ _)]
  dsimp only
  have hcheck := checkAllClaimed_ok_iff { w with sources :=
    (w.sources.modify .codeCache Source.epilogue).modify .jvmtiExport Source.epilogue }
    { j with entries := j.entries }
  dsimp only at hcheck
  rw [← hcheck]
  rcases h : checkAllClaimed ({ w with sources :=
      (w.sources.modify .codeCache Source.epilogue).modify .jvmtiExport Source.epilogue }, j)
    with ⟨u, s⟩ | ⟨e, s⟩
  · rw [Action.bind_ok h, Action.emit_run]
    exact ⟨fun _ => ⟨u, s, rfl⟩, fun _ => ⟨_, rfl⟩⟩
  · rw [Action.bind_error h]
    constructor
    · rintro ⟨s', h'⟩
      cases h'
    · rintro ⟨u, s', h'⟩
      cases h'

end StrongPass

/-- A thread pass set up at the registry's safepoint, with any number of worker calls and any
visitors. Its parity `p` is the one after the registry's. The first call claims exactly the
attached threads that carry another parity than `p`, and walks their local handles of all
frames and their stack roots, thread by thread in attach order; every later call visits
nothing. The teardown check passes exactly when some call was made or every attached thread
already carried `p`: a thread that carried `p` already is neither walked nor reported. -/
theorem ThreadPass.claims_by_parity (w : World) (j : Journal) (rws : List Rewrite)
    (hsp : w.registry.atSafepoint = true) :
    ∃ it s, ThreadPass.start false (w, j) = .ok it s ∧ it.parity = nextParity w.registry.parity ∧
      (∀ t, t ∈ w.registry.claimed it.parity ↔
        ∃ c, w.registry.contexts[t]? = some c ∧ c.attached = true ∧ c.parity ≠ it.parity) ∧
      ∃ it' s', Scan.calls ThreadPass.work it rws s =
          .ok (it', (rws.take 1).map (fun rw =>
              (Sweep.strong rw { state := w } (w.claimedSlots it.parity)).visits) ++
            (rws.drop 1).map fun _ => #[]) s' ∧
        ((∃ s'', it'.finish s' = .ok () s'') ↔
          rws ≠ [] ∨ ∀ c ∈ w.registry.attached, c.parity = it.parity) := by
  obtain ⟨j₀, hstart⟩ := ThreadPass.start_run w j hsp
  refine ⟨_, _, hstart, rfl, fun t => Registry.mem_claimed, ?_⟩
  cases rws with
  | nil =>
    refine ⟨_, _, rfl, ?_⟩
    rw [ThreadPass.finish_ok_iff]
    simp only [ne_eq, not_true_eq_false, false_or]
    rfl
  | cons rw rws =>
    obtain ⟨it', j', h⟩ := ThreadPass.calls_run
      { parity := nextParity w.registry.parity, scan := j.scans + 1 } rfl rw rws
      { w with registry := { w.registry with parity := nextParity w.registry.parity } } j₀
    rw [Sweep.strong_withParity] at h
    simp only [List.take_succ_cons, List.take_zero, List.drop_succ_cons, List.drop_zero,
      List.map_cons, List.map_nil, List.cons_append, List.nil_append]
    refine ⟨it', _, h, ?_⟩
    rw [ThreadPass.finish_ok_iff]
    simp only [ne_eq, reduceCtorEq, not_false_eq_true, true_or, iff_true]
    intro c hc
    exact Registry.parity_claimAll _ _ c hc

/-- After the walk over the threads, every attached thread carries the parity it claimed for. -/
theorem Sweep.parity_of_claimThreads {w : World} {sw : Sweep World} {p : Nat} {rw : Rewrite}
    (h : w.threadPart = (sw.claimThreads p rw).state.threadPart) :
    ∀ c ∈ w.registry.attached, c.parity = p := by
  have hatt : w.registry.attached =
      ((sw.strong rw (sw.state.claimedSlots p)).state.registry.claimAll p).attached := by
    unfold Registry.attached
    rw [(World.threadPart_eq_iff.mp h).1]
    rfl
  rw [hatt]
  exact Registry.parity_claimAll _ p

/-- The walk over the threads a worker claims visits the same from worlds that agree on the
threads. -/
theorem Sweep.strong_claimedSlots_congr {w w' : World} (h : w.threadPart = w'.threadPart)
    (rw : Rewrite) (p : Nat) :
    (Sweep.strong rw { state := w } (w.claimedSlots p)).visits.toList =
      (Sweep.strong rw { state := w' } (w'.claimedSlots p)).visits.toList := by
  rw [← ofThreads_claimThreads, ← ofThreads_claimThreads]
  have hs : SameThreads ({ state := w } : Sweep World) { state := w' } := ⟨h, rfl⟩
  exact (hs.claimThreads p rw).visits

/-- A strong pass set up at the registry's safepoint, with any number of worker calls and any
visitors. Its parity is the one after the registry's. Projected to the slots of threads, the
first call visits what a thread pass's first call visits: the local handles of all frames and
the stack roots of the attached threads that carry another parity, thread by thread in attach
order. Every later call visits no slot of a thread. The teardown check passes exactly when some
call was made or every attached thread already carried the pass's parity. -/
theorem StrongPass.claims_by_parity (w : World) (j : Journal) (calls : List (Rewrite × Bool))
    (hsp : w.registry.atSafepoint = true) :
    ∃ it s, StrongPass.start false (w, j) = .ok it s ∧ it.parity = nextParity w.registry.parity ∧
      ∃ it' vs s', Scan.calls (fun it c => it.work c.1 c.2) it calls s = .ok (it', vs) s' ∧
        vs.map Visit.ofThreads = (calls.take 1).map (fun c =>
            (Sweep.strong c.1 { state := w } (w.claimedSlots it.parity)).visits.toList) ++
          (calls.drop 1).map (fun _ => []) ∧
        ((∃ s'', it'.finish s' = .ok () s'') ↔
          calls ≠ [] ∨ ∀ c ∈ w.registry.attached, c.parity = it.parity) := by
  obtain ⟨j₁, hstart⟩ := StrongPass.start_run w j hsp
  refine ⟨_, _, hstart, rfl, ?_⟩
  cases calls with
  | nil =>
    refine ⟨_, [], _, rfl, rfl, ?_⟩
    rw [StrongPass.finish_ok_iff]
    simp only [ne_eq, not_true_eq_false, false_or]
    rfl
  | cons c cs =>
    obtain ⟨it', vs, w', j', h, hvs, hpart, hq⟩ := StrongPass.calls_run
      { parity := nextParity w.registry.parity, scan := j.scans + 1 } rfl c cs _ j₁
    refine ⟨it', vs, _, h, ?_, ?_⟩
    · -- setting the pass up changes nothing the threads have
      rw [hvs]
      simp only [List.take_succ_cons, List.take_zero, List.drop_succ_cons, List.drop_zero,
        List.map_cons, List.map_nil, List.cons_append, List.nil_append]
      exact congrArg (· :: _) (Sweep.strong_claimedSlots_congr (by rfl) c.1 _)
    · rw [StrongPass.finish_ok_iff, hq]
      simp only [ne_eq, reduceCtorEq, not_false_eq_true, true_or, iff_true]
      exact Sweep.parity_of_claimThreads hpart

/-- Thread claiming in a pass of either kind set up at the registry's safepoint, with any number
of worker calls and any visitors. The pass's parity is the one after the registry's, and its
calls claim exactly the attached threads that carry another parity. A thread pass's first call
walks their local handles of all frames and their stack roots, thread by thread in attach
order, and every later call visits nothing. A strong pass's first call visits the same slots of
threads with the same contents among its other groups, and every later call visits no slot of a
thread. The teardown check of either pass passes exactly when some call was made or every
attached thread already carried the pass's parity: a thread that carried it already is neither
walked nor reported. -/
theorem thread_pass_claims_by_parity (w : World) (j : Journal) (rws : List Rewrite)
    (calls : List (Rewrite × Bool)) (hsp : w.registry.atSafepoint = true) :
    (∃ it s, ThreadPass.start false (w, j) = .ok it s ∧ it.parity = nextParity w.registry.parity ∧
      (∀ t, t ∈ w.registry.claimed it.parity ↔
        ∃ c, w.registry.contexts[t]? = some c ∧ c.attached = true ∧ c.parity ≠ it.parity) ∧
      ∃ it' s', Scan.calls ThreadPass.work it rws s =
          .ok (it', (rws.take 1).map (fun rw =>
              (Sweep.strong rw { state := w } (w.claimedSlots it.parity)).visits) ++
            (rws.drop 1).map fun _ => #[]) s' ∧
        ((∃ s'', it'.finish s' = .ok () s'') ↔
          rws ≠ [] ∨ ∀ c ∈ w.registry.attached, c.parity = it.parity)) ∧
    ∃ it s, StrongPass.start false (w, j) = .ok it s ∧ it.parity = nextParity w.registry.parity ∧
      ∃ it' vs s', Scan.calls (fun it c => it.work c.1 c.2) it calls s = .ok (it', vs) s' ∧
        vs.map Visit.ofThreads = (calls.take 1).map (fun c =>
            (Sweep.strong c.1 { state := w } (w.claimedSlots it.parity)).visits.toList) ++
          (calls.drop 1).map (fun _ => []) ∧
        ((∃ s'', it'.finish s' = .ok () s'') ↔
          calls ≠ [] ∨ ∀ c ∈ w.registry.attached, c.parity = it.parity) :=
  ⟨ThreadPass.claims_by_parity w j rws hsp, StrongPass.claims_by_parity w j calls hsp⟩

theorem thread_pass_claims_attached_thread :
    let s := Op.runAll [.attach, .makeLocal 0 16, .beginSafepoint] (World.new Table.fresh, {})
    let calls : List (Rewrite × Bool) := [(.keep, false)]
    s.1.registry.atSafepoint = true ∧
    (∃ it s', ThreadPass.start false s = .ok it s' ∧ it.parity = nextParity s.1.registry.parity ∧
      (∀ t, t ∈ s.1.registry.claimed it.parity ↔
        ∃ c, s.1.registry.contexts[t]? = some c ∧ c.attached = true ∧ c.parity ≠ it.parity) ∧
      ∃ it' s'', Scan.calls ThreadPass.work it [.keep] s' =
          .ok (it', (([.keep] : List Rewrite).take 1).map (fun rw =>
              (Sweep.strong rw { state := s.1 } (s.1.claimedSlots it.parity)).visits) ++
            (([.keep] : List Rewrite).drop 1).map fun _ => #[]) s'' ∧
        ((∃ s₃, it'.finish s'' = .ok () s₃) ↔
          [Rewrite.keep] ≠ [] ∨ ∀ c ∈ s.1.registry.attached, c.parity = it.parity)) ∧
    ∃ it s', StrongPass.start false s = .ok it s' ∧ it.parity = nextParity s.1.registry.parity ∧
      ∃ it' vs s'', Scan.calls (fun it c => it.work c.1 c.2) it calls s' = .ok (it', vs) s'' ∧
        vs.map Visit.ofThreads = (calls.take 1).map (fun c =>
            (Sweep.strong c.1 { state := s.1 } (s.1.claimedSlots it.parity)).visits.toList) ++
          (calls.drop 1).map (fun _ => []) ∧
        ((∃ s₃, it'.finish s'' = .ok () s₃) ↔
          calls ≠ [] ∨ ∀ c ∈ s.1.registry.attached, c.parity = it.parity) :=
  ⟨rfl, thread_pass_claims_by_parity _ _ _ _ rfl⟩

/-- A pass without worker calls leaves a thread on a stale parity, which a pass two advances
later takes for claimed. Thread 0 holds one local handle, for object 16. The first thread pass
claims it; the second makes no call, and its teardown fails; the third, whose parity is the
first one's again, makes one call, which visits nothing, and its teardown passes. -/
theorem stale_parity_skips_thread :
    let s := Op.runAll [.attach, .makeLocal 0 16, .beginSafepoint, .startThread false,
      .workThread { parity := 1, scan := 1 } .keep, .finishThread { parity := 1, scan := 1 },
      .startThread false, .finishThread { parity := 2, scan := 2 }] (World.new Table.fresh, {})
    s.1.registry.contexts[0]?.map Context.attached = some true ∧
      s.1.threadSlots 0 = [.threadLocal 0] ∧ s.1.readSlot (.threadLocal 0) = 16 ∧
      ∃ it s₁, ThreadPass.start false s = .ok it s₁ ∧
        ∃ it' s₂, Scan.calls ThreadPass.work it [.keep] s₁ = .ok (it', [#[]]) s₂ ∧
          ∃ s₃, it'.finish s₂ = .ok () s₃ :=
  ⟨rfl, rfl, rfl, _, _, rfl, _, _, rfl, _, rfl⟩


end GcRoots

import GcRoots.Proofs.Ops
import GcRoots.Proofs.Scans

namespace GcRoots

/-!
# Block conservation

Every handle block the pool's arena has handed out is in exactly one place: in one frame of
one attached thread's chain, or queued in the pool. This is `Registry.Sound`, and every
operation keeps it (`Op.evolves`, `Op.sound_after`). The arena grows only when the queue is
empty, so it never holds more blocks than the threads held at some moment of the run
(`Registry.Evolves`). Queued blocks have handed out nothing; they hold only null slots as long
as nobody writes a slot through a handle that no thread holds (`Op.Tidy`).
-/

/-- The change that leaves a part of the state as it was. -/
def Change.same (ρ : Type) : Change ρ where
  inv := fun _ => True
  rel := Eq
  refl := fun _ => rfl
  trans := fun h h' => h.trans h'
  keeps := fun h _ => h

namespace Table

/-- Making a global handle leaves the block pool as it was. -/
theorem makeGlobal_pool (obj : Nat) (strategy : FailStrategy) :
    Action.Within Table.pool (Change.same BlockPool) (makeGlobal obj strategy) := by
  unfold makeGlobal
  refine Action.Within.ite (Action.Within.pure _) ?_
  refine Action.Within.bind (Action.Within.focusOther _ fun _ _ => ?_) fun x => ?_
  · rfl
  rcases x with _ | i
  · refine Action.Within.read.bind fun _ => ?_
    cases strategy
    · exact Action.Within.fail _
    · exact Action.Within.pure _
  · exact Action.Within.pure _

theorem makeWeak_pool (obj : Nat) (strategy : FailStrategy) :
    Action.Within Table.pool (Change.same BlockPool) (makeWeak obj strategy) := by
  unfold makeWeak
  refine Action.Within.ite (Action.Within.pure _) ?_
  refine Action.Within.bind (Action.Within.focusOther _ fun _ _ => ?_) fun x => ?_
  · rfl
  rcases x with _ | i
  · refine Action.Within.read.bind fun _ => ?_
    cases strategy
    · exact Action.Within.fail _
    · exact Action.Within.pure _
  · exact Action.Within.pure _

theorem destroyGlobal_pool {t t' : Table} {h : Option Handle} (hd : t.destroyGlobal h = .ok t') :
    t'.pool = t.pool := by
  rcases h with _ | h
  · cases hd
    rfl
  · rcases hs : strongRef h with e | s
    · simp [destroyGlobal, hs, bind, Except.bind] at hd
    · rcases s with i | i
      · simp [destroyGlobal, hs, bind, Except.bind] at hd
      · rcases hr : t.globals.remove i with e | g
        · simp [destroyGlobal, hs, hr, bind, Except.bind] at hd
        · simp only [destroyGlobal, hs, hr, bind, Except.bind, pure, Except.pure,
            Except.ok.injEq] at hd
          rw [← hd]

theorem destroyWeak_pool {t t' : Table} {h : Option Handle} (hd : t.destroyWeak h = .ok t') :
    t'.pool = t.pool := by
  rcases h with _ | h
  · cases hd
    rfl
  · rcases hs : weakRef h with e | i
    · simp [destroyWeak, hs, bind, Except.bind] at hd
    · rcases hr : t.weaks.remove i with e | g
      · simp [destroyWeak, hs, hr, bind, Except.bind] at hd
      · simp only [destroyWeak, hs, hr, bind, Except.bind, pure, Except.pure,
          Except.ok.injEq] at hd
        rw [← hd]

end Table

namespace Registry

/-- What an operation does to a sound registry's blocks: the registry stays sound, and the
arena only grows, and only when the queue is empty; a clean pool stays clean. -/
structure Evolves (r r' : Registry) : Prop where
  sound : r'.Sound
  size_le : r.table.pool.blocks.size ≤ r'.table.pool.blocks.size
  fresh : r'.table.pool.blocks.size = r.table.pool.blocks.size ∨ r'.table.pool.queue = []
  clean : r.table.pool.Clean → r'.table.pool.Clean

variable {r r' : Registry}

theorem Evolves.of_step {t : Nat} (hs : r'.Sound ∧ Confined t r r') : Evolves r r' :=
  ⟨hs.1, hs.2.spares.size_le, hs.2.spares.fresh, hs.2.spares.clean⟩

theorem Evolves.of_retouched (h : r.Sound) (hr : Retouched r r') : Evolves r r' :=
  ⟨h.retouched hr, Nat.le_of_eq hr.size.symm, Or.inl hr.size, hr.clean⟩

theorem Evolves.of_same (h : r.Sound) (hs : SameBlocks r r') : Evolves r r' :=
  .of_retouched h hs.retouched

/-- A world action that only retouches the registry. -/
theorem Evolves.of_within {α : Type} {m : Action World α} (hm : Action.Within World.registry retouch m)
    {w : World} (h : w.registry.Sound) (j : Journal) :
    Evolves w.registry (Action.final (m (w, j))).registry :=
  .of_retouched h (hm w j h)

/-- A walk that only retouches the registry. -/
theorem Evolves.of_scan {α : Type} {m : Scan α} (hm : Scan.Within retouch m) {w : World}
    (h : w.registry.Sound) (j : Journal) : Evolves w.registry (Action.final (Op.scan m (w, j))).registry := by
  rw [Op.final_scan]
  exact .of_retouched h (hm { state := w } j h)

end Registry

/-- A walk outside a pass, with any visitor, only retouches a sound registry. -/
theorem Op.walkWorld_retouched (target : Walk) (rw : Rewrite) (alive : Option Liveness) {w : World}
    (h : w.registry.Sound) : Registry.Retouched w.registry (Op.walkWorld target rw alive w).registry := by
  have hs : ∀ a ∈ target.slots w, w.Writable a := by
    intro a ha
    cases target with
    | globals segs =>
      obtain ⟨i, _, rfl⟩ := List.mem_map.mp ha
      trivial
    | weaks segs =>
      obtain ⟨i, _, rfl⟩ := List.mem_map.mp ha
      trivial
    | locals t =>
      simp only [Walk.slots] at ha
      split at ha
      · obtain ⟨i, hi, rfl⟩ := List.mem_map.mp ha
        obtain ⟨_, _, _, hblk⟩ := Chain.mem_handedOut h.pool hi
        exact hblk
      · cases ha
  cases alive with
  | none => exact Sweep.strong_retouched rw { state := w } hs
  | some a => exact Sweep.weak_retouched a rw { state := w } hs

/-- A write through a handle that changes a block slot only where a thread handed it out, or
writes null. -/
def Op.Tidy (w : World) : Op → Prop
  | .storeSlot (.strong (.threadLocal i)) obj => obj = 0 ∨ w.registry.HandsOut i
  | _ => True

/-- Writing a slot through a handle: the handle's storage gets the write. -/
theorem Table.store?_local {t t' : Table} {i obj : Nat}
    (hs : t.store? (.strong (.threadLocal i)) obj = some t') :
    t' = { t with pool := t.pool.store i obj } := by
  simp only [store?, Option.map_eq_some_iff] at hs
  obtain ⟨p, hp, rfl⟩ := hs
  simp [BlockPool.store, hp]

theorem Table.store?_pool {t t' : Table} {h : Handle} {obj : Nat} (hs : t.store? h obj = some t')
    (hh : ∀ i, h ≠ .strong (.threadLocal i)) : t'.pool = t.pool := by
  rcases h with s | i
  · rcases s with i | i
    · exact absurd rfl (hh i)
    · simp only [store?, Option.map_eq_some_iff] at hs
      obtain ⟨g, _, rfl⟩ := hs
      rfl
  · simp only [store?, Option.map_eq_some_iff] at hs
    obtain ⟨g, _, rfl⟩ := hs
    rfl

namespace Op

open Registry

theorem parity_retouch (r : Registry) : retouch.rel r { r with parity := nextParity r.parity } :=
  (show SameBlocks r { r with parity := nextParity r.parity } from ⟨rfl, rfl⟩).retouched

/-- Every tidy operation keeps a sound registry sound, grows the arena only when the queue is
empty, and keeps a clean pool clean. -/
theorem evolves (op : Op) (w : World) (j : Journal) (h : w.registry.Sound) (ht : op.Tidy w) :
    Evolves w.registry (op.after (w, j)).1.registry := by
  cases op with
  | attach => rw [after_attach_fst]; exact .of_step (attach_step h j)
  | detach t => rw [after_detach_fst]; exact .of_step (detach_step h t j)
  | makeLocal t obj => rw [after_makeLocal_fst]; exact .of_step (makeLocal_step h t obj j)
  | destroyLocal t hd => rw [after_destroyLocal_fst]; exact .of_step (destroyLocal_step h t hd j)
  | ensureCapacity t n => rw [after_ensureCapacity_fst]; exact .of_step (ensureCapacity_step h t n j)
  | pushFrame t n => rw [after_pushFrame_fst]; exact .of_step (pushFrame_step h t n j)
  | popFrame t result => rw [after_popFrame_fst]; exact .of_step (popFrame_step h t result j)
  | claim t p => rw [after_claim_fst]; exact .of_same h (claim_same t p _ j)
  | advanceParity => rw [after_advanceParity_fst]; exact .of_same h (advanceParity_same _ j)
  | beginSafepoint => rw [after_beginSafepoint_fst]; exact .of_same h (beginSafepoint_same _ j)
  | endSafepoint => rw [after_endSafepoint_fst]; exact .of_same h (endSafepoint_same _)
  | makeGlobal obj strategy =>
    rw [after_makeGlobal_fst]
    exact .of_same h ⟨((Table.makeGlobal_pool obj strategy) w.registry.table j trivial).symm, rfl⟩
  | makeWeak obj strategy =>
    rw [after_makeWeak_fst]
    exact .of_same h ⟨((Table.makeWeak_pool obj strategy) w.registry.table j trivial).symm, rfl⟩
  | destroyGlobal hd =>
    rw [after_destroyGlobal_fst]
    split
    next t' hg => exact .of_same h ⟨Table.destroyGlobal_pool hg, rfl⟩
    next => exact .of_same h (SameBlocks.refl _)
  | destroyWeak hd =>
    rw [after_destroyWeak_fst]
    split
    next t' hg => exact .of_same h ⟨Table.destroyWeak_pool hg, rfl⟩
    next => exact .of_same h (SameBlocks.refl _)
  | walk target rw alive =>
    rw [after_walk_fst]
    exact .of_retouched h (walkWorld_retouched target rw alive h)
  | threads p rw => rw [after_fst]; exact .of_scan (Scan.threads_retouch p rw) h j
  | startStrong foreign =>
    rw [after_fst]
    exact .of_within ((StrongPass.start_within parity_retouch foreign).bind fun _ => .pure _) h j
  | workStrong it rw weakExport =>
    rw [after_fst]
    exact .of_scan (it.work_within rw weakExport (Scan.globals_retouch rw)
      (Scan.threads_retouch _ rw) (Scan.weakGlobals_retouch _ rw)) h j
  | finishStrong it => rw [after_fst]; exact .of_within (StrongPass.finish_within it) h j
  | startWeak foreign =>
    rw [after_fst]
    exact .of_within ((WeakPass.start_within foreign).bind fun _ => .pure _) h j
  | workWeak it alive rw =>
    rw [after_fst]
    exact .of_scan (it.work_within alive rw (Scan.weakGlobals_retouch alive rw)) h j
  | finishWeak it => rw [after_fst]; exact .of_within (WeakPass.finish_within it) h j
  | startConcurrent =>
    rw [after_fst]
    exact .of_within (ConcurrentWeakPass.start_within.bind fun _ => .pure _) h j
  | workConcurrent it alive rw =>
    rw [after_fst]
    exact .of_scan (it.work_within alive rw (fun a _ segs => Scan.weakSegments_retouch a rw segs)
      (fun _ => Scan.weakSegmentsStrong_retouch rw)) h j
  | finishConcurrent it => rw [after_fst]; exact .of_within (ConcurrentWeakPass.finish_within it) h j
  | startThread foreign =>
    rw [after_fst]
    exact .of_within ((ThreadPass.start_within parity_retouch foreign).bind fun _ => .pure _) h j
  | workThread it rw =>
    rw [after_fst]
    exact .of_scan (it.work_within rw (Scan.threads_retouch _ rw)) h j
  | finishThread it => rw [after_fst]; exact .of_within (ThreadPass.finish_within it) h j
  | storeSlot hd obj =>
    rw [after_storeSlot_fst]
    split
    next t' hs =>
      -- a write into a block slot retouches the pool; any other write leaves it alone
      by_cases hl : ∃ i, hd = .strong (.threadLocal i)
      · obtain ⟨i, rfl⟩ := hl
        rw [Table.store?_local hs]
        exact .of_retouched h (retouched_store _ ht)
      · simp only [not_exists] at hl
        exact .of_same h ⟨Table.store?_pool hs hl, rfl⟩
    next => exact .of_same h (SameBlocks.refl _)
  | storeSource c i obj =>
    rw [after_storeSource_fst]
    split <;> exact .of_same h (SameBlocks.refl _)

/-- Every operation keeps a sound registry sound, and grows the arena only when the queue is
empty; an untidy write only changes what a slot holds. -/
theorem grows (op : Op) (w : World) (j : Journal) (h : w.registry.Sound) :
    (op.after (w, j)).1.registry.Sound ∧
      w.registry.table.pool.blocks.size ≤ (op.after (w, j)).1.registry.table.pool.blocks.size ∧
      ((op.after (w, j)).1.registry.table.pool.blocks.size = w.registry.table.pool.blocks.size ∨
        (op.after (w, j)).1.registry.table.pool.queue = []) := by
  by_cases ht : op.Tidy w
  · have he := evolves op w j h ht
    exact ⟨he.sound, he.size_le, he.fresh⟩
  cases op with
  | storeSlot hd obj =>
    rw [after_storeSlot_fst]
    split
    next t' hs =>
      by_cases hl : ∃ i, hd = .strong (.threadLocal i)
      · obtain ⟨i, rfl⟩ := hl
        rw [Table.store?_local hs]
        exact ⟨h.store i obj, by simp, Or.inl (by simp)⟩
      · simp only [not_exists] at hl
        have hsame := Evolves.of_same h
          (show SameBlocks w.registry { w.registry with table := t' } from ⟨Table.store?_pool hs hl, rfl⟩)
        exact ⟨hsame.sound, hsame.size_le, hsame.fresh⟩
    next => exact ⟨h, Nat.le_refl _, Or.inl rfl⟩
  | _ => exact absurd trivial ht

end Op

/-- A new table's pool has no blocks and an empty queue. -/
theorem Table.create_pool {c : Config} {t : Table} (ht : Table.create c = .ok t) :
    t.pool = { capacity := c.maxHandleBlocks } := by
  unfold Table.create at ht
  split at ht
  · cases ht
  split at ht
  · cases ht
  split at ht
  · cases ht
  cases ht
  rfl

namespace Registry

/-- The registry of a new world holds nothing, and is sound with a clean pool. -/
theorem initial_sound {w : World} (h : w.Initial) :
    w.registry.Sound ∧ w.registry.table.pool.Clean ∧ w.registry.table.pool.blocks.size = 0 ∧
      w.registry.held = [] := by
  obtain ⟨c, t, ht, hr⟩ := h
  rw [hr]
  refine ⟨⟨⟨?_, ?_⟩, ?_, ?_⟩, ?_, ?_, ?_⟩ <;>
    simp [Table.create_pool ht, held, BlockPool.Custody, BlockPool.Clean]

/-- Held blocks and queued blocks together are the blocks of the arena. -/
theorem Sound.length {r : Registry} (h : r.Sound) :
    r.held.length + r.table.pool.queue.length = r.table.pool.blocks.size := by
  have := h.custody.length_eq
  simpa using this

/-- A block lies in the chain of one thread at most. -/
theorem Sound.unique {r : Registry} (h : r.Sound) {t u : Nat} {c c' : Context}
    (hc : r.contexts[t]? = some c) (hc' : r.contexts[u]? = some c') {b : Nat}
    (hb : b ∈ c.blocks) (hb' : b ∈ c'.blocks) : t = u := by
  by_cases htu : t = u
  · exact htu
  exfalso
  have hnd := (h.custody.perm (held_perm hc)).nodup
  have hother : b ∈ r.heldBut t := mem_heldBut (Ne.symm htu) hc' hb'
  exact (List.nodup_append.mp (List.nodup_append.mp hnd).1).2.2 _ hother _ hb rfl

/-- A local index is a handle of one thread at most. -/
theorem Sound.isLocal_unique {r : Registry} (h : r.Sound) {t u i : Nat}
    (ht : r.isLocal t (.strong (.threadLocal i)) = true)
    (hu : r.isLocal u (.strong (.threadLocal i)) = true) : t = u := by
  obtain ⟨c, ch, hc, hch, f, hf, hb, _⟩ := isLocal_local.mp ht
  obtain ⟨c', ch', hc', hch', f', hf', hb', _⟩ := isLocal_local.mp hu
  refine h.unique hc hc' (b := i / blockSlots) ?_ ?_
  · simp only [Context.blocks, hch]
    exact Chain.mem_blocks.mpr ⟨f, hf, hb⟩
  · simp only [Context.blocks, hch']
    exact Chain.mem_blocks.mpr ⟨f', hf', hb'⟩

/-- Detaching an attached thread outside a safepoint queues exactly its blocks, from all its
frames, in order, and leaves it without a chain. -/
theorem Sound.detach_returns {r : Registry} (h : r.Sound) {t : Nat} {c : Context} {ch : Chain}
    (hc : r.contexts[t]? = some c) (hch : c.chain = some ch) (hs : r.atSafepoint = false)
    (j : Journal) :
    (Action.final (detach t (r, j))).table.pool.queue = r.table.pool.queue ++ ch.blocks ∧
      (Action.final (detach t (r, j))).table.pool.blocks.size = r.table.pool.blocks.size ∧
      ((Action.final (detach t (r, j))).contexts[t]?.bind Context.chain) = none := by
  obtain ⟨p', hrel, hr, -⟩ := (h.chain hc hch).release
  have ht : t < r.contexts.size := (Array.getElem?_eq_some_iff.mp hc).1
  have hfinal : Action.final (detach t (r, j)) =
      { r with contexts := r.contexts.set! t { c with chain := none },
               table := { r.table with pool := p' } } := by
    unfold detach
    simp [bind, EStateM.bind, Action.read_run, hs, hc, hch, hrel]
  rw [hfinal]
  refine ⟨hr.queue_eq, hr.size_eq, ?_⟩
  rw [Array.getElem?_set!_of_lt ht, if_pos rfl]
  rfl

end Registry

namespace Op

/-- The number of blocks in the arena of a state's pool. -/
abbrev arena (s : World × Journal) : Nat := s.1.registry.table.pool.blocks.size

theorem runAll_sound (ops : List Op) (s : World × Journal) (h : s.1.registry.Sound) :
    (runAll ops s).1.registry.Sound :=
  runAll_invariant (fun s => s.1.registry.Sound) (fun s op h => (grows op s.1 s.2 h).1) ops s h

/-- The arena only grows. -/
theorem arena_le_runAll (ops : List Op) (s : World × Journal) (h : s.1.registry.Sound) :
    arena s ≤ arena (runAll ops s) := by
  induction ops generalizing s with
  | nil => exact Nat.le_refl _
  | cons op ops ih =>
    have hop := grows op s.1 s.2 h
    exact Nat.le_trans hop.2.1 (ih (op.after s) hop.1)

/-- The arena grows only when every block it has is held by a thread, so it is as large as it
was at the start or as the blocks held at some moment of the run. -/
theorem arena_peak (ops : List Op) (s : World × Journal) (h : s.1.registry.Sound) :
    arena (runAll ops s) = arena s ∨
      ∃ n ≤ ops.length, (runAll (ops.take n) s).1.registry.held.length = arena (runAll ops s) := by
  induction ops generalizing s with
  | nil => exact Or.inl rfl
  | cons op ops ih =>
    obtain ⟨hsound, -, hfresh⟩ := grows op s.1 s.2 h
    rcases ih (op.after s) hsound with hsame | ⟨n, hn, hheld⟩
    · rcases hfresh with hsize | hempty
      · exact Or.inl (hsame.trans hsize)
      · -- the queue is empty after this operation: every block of the arena is held
        refine Or.inr ⟨1, by simp, ?_⟩
        have hlen := hsound.length
        rw [hempty, List.length_nil, Nat.add_zero] at hlen
        simp only [List.take_succ_cons, List.take_zero, runAll_cons, runAll_nil]
        rw [hsame]
        exact hlen
    · exact Or.inr ⟨n + 1, by simpa using hn, by simpa [runAll] using hheld⟩

/-- A run of tidy operations keeps a sound registry's pool clean. -/
theorem runAll_clean (ops : List Op) (s : World × Journal) (ha : Allowed (fun w op => op.Tidy w) ops s)
    (h : s.1.registry.Sound) (hc : s.1.registry.table.pool.Clean) :
    (runAll ops s).1.registry.table.pool.Clean :=
  (runAll_induct (fun s => s.1.registry.Sound ∧ s.1.registry.table.pool.Clean)
    (fun s op ht hs => let he := evolves op s.1 s.2 hs.1 ht; ⟨he.sound, he.clean hs.2⟩)
    ops s ha ⟨h, hc⟩).2

end Op

namespace Registry

/-- Block conservation in one state. Each block of the arena is held once: at one position of
one thread's chain, or once in the queue, never both. Queued blocks have handed out nothing,
and the queue is the arena less the held blocks. A local index is a handle of one thread at
most, and detaching a thread outside a safepoint queues exactly the blocks of all its frames. -/
structure Conserves (r : Registry) : Prop where
  custody : (r.held ++ r.table.pool.queue).Perm (List.range r.table.pool.blocks.size)
  queued_top : ∀ b ∈ r.table.pool.queue, ∀ blk : Block, r.table.pool.blocks[b]? = some blk →
    blk.top = 0
  pooled : r.table.pool.queue.length = r.table.pool.blocks.size - r.held.length
  local_unique : ∀ t u i, r.isLocal t (.strong (.threadLocal i)) = true →
    r.isLocal u (.strong (.threadLocal i)) = true → t = u
  detach_returns : ∀ (t : Nat) (c : Context) (ch : Chain) (j : Journal), r.contexts[t]? = some c →
    c.chain = some ch → r.atSafepoint = false →
    (Action.final (detach t (r, j))).table.pool.queue = r.table.pool.queue ++ ch.blocks ∧
    (Action.final (detach t (r, j))).table.pool.blocks.size = r.table.pool.blocks.size ∧
    (Action.final (detach t (r, j))).contexts[t]?.bind Context.chain = none

/-- Every queued block holds only null slots. -/
def QueuedNull (r : Registry) : Prop :=
  ∀ b ∈ r.table.pool.queue, ∀ blk : Block, r.table.pool.blocks[b]? = some blk →
    ∀ k, blk.slots.getD k 0 = 0

theorem Sound.conserves {r : Registry} (h : r.Sound) : r.Conserves where
  custody := h.custody
  queued_top := fun b hb blk hblk => h.pool.queued b hb blk hblk
  pooled := by
    have := h.length
    omega
  local_unique := fun _ _ _ ht hu => h.isLocal_unique ht hu
  detach_returns := fun _ _ _ j hc hch hsp => h.detach_returns hc hch hsp j

end Registry

/-- The arena after a run is exactly as large as the most blocks the threads held at any
moment of it. -/
def Op.ArenaPeak (s₀ : World × Journal) (ops : List Op) : Prop :=
  (∀ n ≤ ops.length,
    (Op.runAll (ops.take n) s₀).1.registry.held.length ≤ Op.arena (Op.runAll ops s₀)) ∧
  (∃ n ≤ ops.length,
    (Op.runAll (ops.take n) s₀).1.registry.held.length = Op.arena (Op.runAll ops s₀))

/-- Block conservation along every run from a new world: every state it reaches conserves
blocks, the arena is as large as the peak of held blocks, and queued blocks hold only null
slots as long as the run writes block slots only where they were handed out. -/
theorem blocks_conserved {s₀ : World × Journal} (h₀ : s₀.1.Initial) (ops : List Op) :
    (Op.runAll ops s₀).1.registry.Conserves ∧ Op.ArenaPeak s₀ ops ∧
      (Op.Allowed (fun w op => op.Tidy w) ops s₀ → (Op.runAll ops s₀).1.registry.QueuedNull) := by
  obtain ⟨hs₀, hc₀, harena₀, hheld₀⟩ := Registry.initial_sound h₀
  have hs := Op.runAll_sound ops s₀ hs₀
  refine ⟨hs.conserves, ⟨fun n hn => ?_, ?_⟩,
    fun ha b hb blk hblk k => (Op.runAll_clean ops s₀ ha hs₀ hc₀).queued_null hs.pool hb hblk k⟩
  · -- the run splits at the moment `n`; the arena only grows after it
    have hsn := Op.runAll_sound (ops.take n) s₀ hs₀
    have hrest := Op.arena_le_runAll (ops.drop n) _ hsn
    rw [← Op.runAll_append, List.take_append_drop] at hrest
    exact Nat.le_trans (Nat.le.intro hsn.length) hrest
  · rcases Op.arena_peak ops s₀ hs₀ with hsame | hpeak
    · -- an arena that never grew is empty, as are the threads of the new world
      refine ⟨0, Nat.zero_le _, ?_⟩
      rw [List.take_zero, Op.runAll_nil, hheld₀, List.length_nil]
      exact (hsame.trans harena₀).symm
    · exact hpeak

/-- Block conservation for a run that attaches a thread, makes a handle, and opens and closes a
frame with a handle in it. -/
theorem blocks_conserved_frame :
    (World.new Table.fresh).Initial ∧
      (Op.runAll [.attach, .makeLocal 0 16, .pushFrame 0 4, .makeLocal 0 32, .popFrame 0 none]
        (World.new Table.fresh, {})).1.registry.Conserves ∧
      Op.ArenaPeak (World.new Table.fresh, {})
        [.attach, .makeLocal 0 16, .pushFrame 0 4, .makeLocal 0 32, .popFrame 0 none] ∧
      (Op.Allowed (fun w op => op.Tidy w)
        [.attach, .makeLocal 0 16, .pushFrame 0 4, .makeLocal 0 32, .popFrame 0 none]
        (World.new Table.fresh, {}) →
        (Op.runAll [.attach, .makeLocal 0 16, .pushFrame 0 4, .makeLocal 0 32, .popFrame 0 none]
          (World.new Table.fresh, {})).1.registry.QueuedNull) :=
  ⟨World.new_fresh_initial, blocks_conserved World.new_fresh_initial _⟩

/-- A write through a handle whose frame was closed reaches the queued block: the handle of a
closed frame still names a slot, and nothing checks who holds it. -/
theorem stale_write_reaches_queue :
    ¬ (Op.runAll [.attach, .makeLocal 0 16, .pushFrame 0 16, .makeLocal 0 32, .popFrame 0 none,
      .storeSlot (.strong (.threadLocal 32)) 48] (World.new Table.fresh, {})).1.registry.QueuedNull := by
  intro h
  generalize hr : (Op.runAll [.attach, .makeLocal 0 16, .pushFrame 0 16, .makeLocal 0 32,
    .popFrame 0 none, .storeSlot (.strong (.threadLocal 32)) 48] (World.new Table.fresh, {})).1.registry = r at h
  have hq : r.table.pool.queue = [1] := by rw [← hr]; rfl
  have hs : r.table.pool.slot? 32 = some 48 := by rw [← hr]; rfl
  -- local index 32 is the first slot of block 1, the queued block
  simp only [BlockPool.slot?, Option.map_eq_some_iff] at hs
  obtain ⟨blk, hblk, hv⟩ := hs
  have hnull := h 1 (by simp [hq]) blk hblk 0
  have hv' : blk.slots.getD 0 0 = 48 := hv
  rw [hnull] at hv'
  exact absurd hv' (by decide)

end GcRoots

import GcRoots.Proofs.Storage

namespace GcRoots

/-!
# The arenas stay within their capacities

The block pool and the two slot storages draw from arenas of fixed capacity. The pool takes a
fresh block only while its arena holds fewer blocks than its capacity, a storage opens a segment
only while it has fewer segments than its segment capacity, and no operation changes a capacity.
`Table.create` sets the capacities from a configuration it accepted, so they are at most
`maxHandleIndex / blockSlots` blocks and `maxHandleIndex / segmentSlots + 1` segments.

* `BlockPool.Bounded`, `SlotStorage.Bounded`, `Registry.Provisioned`: an arena within its
  capacity, and the capacity within what handle words can address.
* `Frame.allocate_bounded`, `Chain.pushFrame_bounded`, `Chain.popFrame_bounded` and the
  registry operations after them: every action on the pool keeps it bounded, whichever way it
  ends (`Action.Within` with the invariant as the change).
* `Op.provisioned_after`: every operation keeps a registry provisioned.
* `World.provisioned_of_reachable`: in every reachable state the arenas are within their
  capacities.
-/

namespace Action

variable {σ τ ρ α : Type} {k : Change ρ}

/-- An action on a part of the state that holds the watched part changes it as the action
does. -/
theorem Within.focusOn {get : τ → σ} {put : τ → σ → τ} {reg : τ → ρ} {reg' : σ → ρ}
    {m : Action σ α} (hm : Within reg' k m) (hget : ∀ s, reg' (get s) = reg s)
    (hput : ∀ s x, reg (put s x) = reg' x) : Within reg k (Action.focus get put m) := by
  intro s j hi
  rw [final_focus, hput, ← hget]
  exact hm (get s) j (by rw [hget]; exact hi)

end Action

namespace BlockPool

/-- The pool's arena holds at most its capacity, and the capacity is at most the number of
blocks whose slots handle words can address. -/
def Bounded (p : BlockPool) : Prop :=
  p.blocks.size ≤ p.capacity ∧ p.capacity ≤ maxHandleIndex / blockSlots

variable {p p' : BlockPool}

@[simp] theorem capacity_store (p : BlockPool) (i v : Nat) : (p.store i v).capacity = p.capacity := by
  rcases store_cases p i v with h | ⟨_, _, h⟩ <;> rw [h]

theorem Bounded.of_shape (h : p.Bounded) (hs : p'.blocks.size = p.blocks.size)
    (hc : p'.capacity = p.capacity) : p'.Bounded := by
  unfold Bounded
  rw [hs, hc]
  exact h

theorem Bounded.store (h : p.Bounded) (i v : Nat) : (p.store i v).Bounded :=
  h.of_shape (size_store p i v) (capacity_store p i v)

/-- Releasing a block keeps the arena and its capacity. -/
theorem release_shape {b : Nat} (h : p.release b = .ok p') :
    p'.blocks.size = p.blocks.size ∧ p'.capacity = p.capacity := by
  unfold release at h
  split at h
  · cases h
    exact ⟨Array.size_set! .., rfl⟩
  · cases h

/-- Releasing blocks in order keeps the arena and its capacity. -/
theorem releaseAll_shape {bs : List Nat} (h : p.releaseAll bs = .ok p') :
    p'.blocks.size = p.blocks.size ∧ p'.capacity = p.capacity := by
  induction bs generalizing p with
  | nil =>
    cases h
    exact ⟨rfl, rfl⟩
  | cons b bs ih =>
    rcases hr : p.release b with e | p₁
    · simp [releaseAll, hr, bind, Except.bind] at h
    · simp only [releaseAll, hr, bind, Except.bind] at h
      obtain ⟨hs₁, hc₁⟩ := release_shape hr
      obtain ⟨hs, hc⟩ := ih h
      exact ⟨hs.trans hs₁, hc.trans hc₁⟩

/-- Taking a block keeps the pool bounded: a fresh block comes only while the arena has room. -/
theorem allocate_bounded : Action.Within id (Change.invariant Bounded) allocate := by
  rintro p j - (h : p.Bounded)
  show (Action.final (allocate (p, j))).Bounded
  rcases allocate_cases p j with ⟨b, rest, _, ha⟩ | ⟨_, hlt, j', ha⟩ | ⟨_, _, ha⟩ <;> rw [ha]
  · exact h
  · exact ⟨by simp only [Action.final_ok, Array.size_push]; omega, h.2⟩
  · exact h

/-- A block taken from a bounded pool leaves it bounded. -/
theorem Bounded.allocate (h : p.Bounded) {j j' : Journal} {b : Nat}
    (ha : BlockPool.allocate (p, j) = .ok b (p', j')) : p'.Bounded := by
  have hb := allocate_bounded p j h h
  rw [ha] at hb
  exact hb

end BlockPool

namespace Frame

open BlockPool (Bounded)

/-- One allocation step keeps the pool bounded, whichever way it ends. -/
theorem allocateStep_bounded (obj : Nat) :
    Action.Within Prod.snd (Change.invariant Bounded) (allocateStep obj) := by
  rintro ⟨f, p⟩ j - (h : p.Bounded)
  show (Action.final (allocateStep obj ((f, p), j))).2.Bounded
  rcases allocateStep_cases obj f p j with
    ⟨_, hr⟩ | ⟨blk, blk', k, _, _, hr⟩ | ⟨i, _, ⟨_, hr⟩ | ⟨e, hr⟩⟩ | ⟨_, _, hr⟩ |
    ⟨_, _, _, hr⟩ | ⟨_, _, _, ⟨b, p', j', ha, hr⟩ | ⟨e, j', hr⟩⟩
  · rw [hr]
    exact h
  · rw [hr]
    exact h.of_shape (Array.size_set! ..) rfl
  · rw [hr]
    exact h.store i obj
  · rw [hr]
    exact h
  · rw [hr]
    exact h
  · -- a rebuild leaves the pool as it was
    obtain ⟨E, -, abr, hreb⟩ := rebuild_final f p j
    rw [final_of_rebuild_step hr, hreb]
    exact h
  · rw [hr]
    exact h.allocate ha
  · rw [hr]
    exact h

/-- The allocation loop keeps the pool bounded, however many steps it takes. -/
theorem allocateLoop_bounded (obj : Nat) :
    ∀ n, Action.Within Prod.snd (Change.invariant Bounded) (allocateLoop obj n)
  | 0 => Action.Within.read.bind fun _ => Action.Within.fail _
  | n + 1 => (allocateStep_bounded obj).bind fun
    | .done _ => Action.Within.pure _
    | .again => allocateLoop_bounded obj n

theorem allocate_bounded (obj : Nat) :
    Action.Within Prod.snd (Change.invariant Bounded) (allocate obj) :=
  Action.Within.readBind fun s j h => allocateLoop_bounded obj _ s j h

theorem create_bounded : Action.Within id (Change.invariant Bounded) create :=
  BlockPool.allocate_bounded.bind fun _ => Action.Within.pure _

end Frame

namespace Chain

open BlockPool (Bounded)

theorem allocate_bounded (obj : Nat) :
    Action.Within Prod.snd (Change.invariant Bounded) (Chain.allocate obj) :=
  Action.Within.focusOn (Frame.allocate_bounded obj) (fun _ => rfl) (fun _ _ => rfl)

theorem pushFrame_bounded : Action.Within Prod.snd (Change.invariant Bounded) pushFrame :=
  (Action.Within.focusOn Frame.create_bounded (fun _ => rfl) (fun _ _ => rfl)).bind fun _ =>
    Action.Within.update fun _ _ h => h

/-- Closing a frame keeps the pool bounded: releasing blocks keeps the arena. -/
theorem popFrame_bounded : Action.Within Prod.snd (Change.invariant Bounded) popFrame := by
  rintro ⟨c, p⟩ j - (h : p.Bounded)
  show (Action.final (popFrame ((c, p), j))).2.Bounded
  unfold popFrame
  simp only [bind, EStateM.bind, Action.read_run]
  cases c.outer with
  | nil => exact h
  | cons f rest =>
    rcases hr : p.releaseAll c.top.blocks.toList with e | p'
    · exact h
    · obtain ⟨hs, hc⟩ := BlockPool.releaseAll_shape hr
      exact h.of_shape hs hc

theorem create_bounded : Action.Within id (Change.invariant Bounded) Chain.create :=
  Frame.create_bounded.bind fun _ => Action.Within.pure _

end Chain

namespace Registry

open BlockPool (Bounded)

/-- The pool of a registry. -/
abbrev pool (r : Registry) : BlockPool := r.table.pool

/-- An action on a thread's chain changes the registry's pool as it changes the chain's. -/
theorem onChain_bounded {α : Type} (t : Nat) {m : Action (Chain × BlockPool) α}
    (hm : Action.Within Prod.snd (Change.invariant Bounded) m) :
    Action.Within pool (Change.invariant Bounded) (onChain t m) := by
  rintro r j - (h : r.table.pool.Bounded)
  show (Action.final (onChain t m (r, j))).table.pool.Bounded
  rw [onChain_final]
  rcases hc : r.contexts[t]? with _ | c
  · exact h
  · dsimp only
    rcases hch : c.chain with _ | ch
    · exact h
    · exact hm (ch, r.table.pool) j h h

theorem makeLocal_bounded (t obj : Nat) :
    Action.Within pool (Change.invariant Bounded) (makeLocal t obj) := by
  unfold makeLocal
  exact Action.Within.ite (Action.Within.pure _)
    ((onChain_bounded t (Chain.allocate_bounded obj)).bind fun _ => Action.Within.pure _)

theorem ensureCapacity_bounded (t n : Nat) :
    Action.Within pool (Change.invariant Bounded) (ensureCapacity t n) := by
  unfold ensureCapacity
  refine Action.Within.read.bind fun _ => Action.Within.ite (Action.Within.pure _) (onChain_bounded t ?_)
  -- announcing a capacity changes the frame's plan, never the pool
  refine Action.Within.readBind fun s j _ h => ?_
  obtain ⟨c, p⟩ := s
  dsimp only
  cases checkedAdd (c.top.live p) n with
  | some planned => exact h
  | none => exact h

theorem pushFrame_bounded (t n : Nat) :
    Action.Within pool (Change.invariant Bounded) (pushFrame t n) := by
  unfold pushFrame
  exact Action.Within.read.bind fun _ => Action.Within.ite (Action.Within.pure _)
    (onChain_bounded t (Chain.pushFrame_bounded.bind fun _ =>
      (Action.Within.update fun _ _ h => h).bind fun _ => Action.Within.pure _))

theorem popFrame_bounded (t : Nat) (result : Option Handle) :
    Action.Within pool (Change.invariant Bounded) (popFrame t result) := by
  unfold popFrame
  exact Action.Within.read.bind fun _ => (Action.Within.ofExcept _).bind fun obj =>
    (onChain_bounded t Chain.popFrame_bounded).bind fun _ => makeLocal_bounded t obj

theorem destroyLocal_bounded (t : Nat) (hd : Option Handle) :
    Action.Within pool (Change.invariant Bounded) (destroyLocal t hd) := by
  rintro r j - (h : r.table.pool.Bounded)
  show (Action.final (destroyLocal t hd (r, j))).table.pool.Bounded
  rcases destroyLocal_final t hd r j with hr | ⟨i, _, _, hr⟩ <;> rw [hr]
  · exact h
  · exact h.store i 0

theorem attach_bounded : Action.Within pool (Change.invariant Bounded) attach := by
  rintro r j - (h : r.table.pool.Bounded)
  show (Action.final (attach (r, j))).table.pool.Bounded
  rcases attach_final r j with hr | hr | ⟨b, p', j', ha, hr⟩ <;> rw [hr]
  · exact h
  · exact h
  · exact h.allocate ha

theorem detach_bounded (t : Nat) : Action.Within pool (Change.invariant Bounded) (detach t) := by
  rintro r j - (h : r.table.pool.Bounded)
  show (Action.final (detach t (r, j))).table.pool.Bounded
  rcases detach_final t r j with hr | ⟨c, ch, p', _, _, hrel, hr⟩ <;> rw [hr]
  · exact h
  · obtain ⟨hs, hc⟩ := BlockPool.releaseAll_shape hrel
    exact h.of_shape hs hc

end Registry

namespace SlotStorage

/-- The storage has at most its segment capacity of segments, and that capacity is at most the
number of segments whose slots handle words can address, rounded up. -/
def Bounded (s : SlotStorage) : Prop :=
  s.segments.size ≤ s.segmentCapacity ∧ s.segmentCapacity ≤ maxHandleIndex / segmentSlots + 1

variable {s s' : SlotStorage}

theorem Bounded.store (h : s.Bounded) (k v : Nat) : (s.store k v).Bounded := by
  rcases store_cases s k v with hs | ⟨g, _, hs⟩ <;> rw [hs]
  · exact h
  · simpa [Bounded] using h

/-- A segment is opened only while the storage has fewer than its capacity. -/
theorem openSegment?_lt (h : s.openSegment? = some s') : s.segments.size < s.segmentCapacity := by
  unfold openSegment? at h
  split at h
  · assumption
  · cases h

theorem Bounded.insert (h : s.Bounded) {obj k : Nat} (hi : s.insert? obj = some (s', k)) :
    s'.Bounded := by
  obtain ⟨s₀, hs₀, seg, hp⟩ := insert?_eq hi
  -- the storage before placing: the same, or one more segment opened within the capacity
  have h₀ : s₀.Bounded := by
    rcases hs₀ with rfl | hs₀
    · exact h
    · have hlt := openSegment?_lt hs₀
      rw [openSegment?_eq hs₀]
      exact ⟨by simp only [Array.size_push]; omega, h.2⟩
  obtain ⟨g, b, _, _, _, _, rfl⟩ := placeIn_eq hp
  simpa [Bounded] using h₀

theorem Bounded.remove (h : s.Bounded) {k : Nat} (hr : s.remove k = .ok s') : s'.Bounded := by
  obtain ⟨g, _, _, rfl⟩ := remove_eq hr
  simpa [Bounded] using h

end SlotStorage

namespace Registry

/-- The arenas of the handle table within their capacities. -/
structure Provisioned (r : Registry) : Prop where
  pool : r.table.pool.Bounded
  globals : r.table.globals.Bounded
  weaks : r.table.weaks.Bounded

variable {r r' : Registry}

/-- An operation on threads: the pool stays bounded and the storages as they were. -/
theorem Provisioned.of_thread (h : r.Provisioned) (hp : r'.table.pool.Bounded)
    (hs : r.storages = r'.storages) : r'.Provisioned := by
  obtain ⟨hg, hw⟩ := Prod.mk.inj hs
  exact ⟨hp, hg ▸ h.globals, hw ▸ h.weaks⟩

theorem Provisioned.of_same (h : r.Provisioned) (hs : SameBlocks r r')
    (hst : r.storages = r'.storages) : r'.Provisioned :=
  h.of_thread (by rw [hs.pool]; exact h.pool) hst

/-- Any write of a root slot keeps the arenas: it changes a slot, never a segment count. -/
theorem Provisioned.writeSlot {w : World} (h : w.registry.Provisioned) (a : SlotAddr) (v : Nat) :
    (w.writeSlot a v).registry.Provisioned := by
  cases a with
  | global i => exact ⟨h.pool, h.globals.store i v, h.weaks⟩
  | weak i => exact ⟨h.pool, h.globals, h.weaks.store i v⟩
  | threadLocal i => exact ⟨h.pool.store i v, h.globals, h.weaks⟩
  | source c i => exact h
  | stack t i => exact h
  | storage i => exact h

theorem provisioned_passStable : PassStable Provisioned :=
  ⟨fun _ _ _ _ _ _ h => ⟨h.pool, h.globals, h.weaks⟩, fun _ h => ⟨h.pool, h.globals, h.weaks⟩⟩

theorem provisioned_keeps (rw : Rewrite) (alive : Liveness) : Sweep.Keeps Provisioned rw alive :=
  Sweep.Keeps.of_writes fun _ a v h => h.writeSlot a v

end Registry

namespace Table

/-- A table made from a configuration the checks accept starts with its arenas empty and its
capacities within what handle words can address. -/
theorem create_provisioned {c : Config} {t : Table} (ht : Table.create c = .ok t) :
    ({ table := t } : Registry).Provisioned := by
  have hmax : maxHandleIndex = 4611686018427387902 := rfl
  unfold Table.create at ht
  split at ht
  · cases ht
  split at ht
  · cases ht
  split at ht
  · cases ht
  cases ht
  rename_i hg hw hb
  have hseg : segmentSlots = 64 := rfl
  refine ⟨⟨Nat.zero_le _, Nat.le_of_not_lt hb⟩, ⟨Nat.zero_le _, ?_⟩, ⟨Nat.zero_le _, ?_⟩⟩ <;>
    simp only [SlotStorage.create, hseg, hmax] at hg hw ⊢ <;> omega

end Table

namespace Op

open Registry

/-- Every operation keeps the arenas of a registry within their capacities. -/
theorem provisioned_after (op : Op) (s : World × Journal) (h : s.1.registry.Provisioned) :
    (op.after s).1.registry.Provisioned := by
  obtain ⟨w, j⟩ := s
  have hscan : op.Scans Provisioned → (op.after (w, j)).1.registry.Provisioned :=
    fun hs => scans_keep provisioned_passStable hs (w, j) h
  -- operations on threads touch the pool alone, operations on the table one storage alone
  cases op with
  | attach =>
    rw [after_attach_fst]
    exact h.of_thread (attach_bounded w.registry j h.pool h.pool) (attach_storages w.registry j trivial)
  | detach t =>
    rw [after_detach_fst]
    exact h.of_thread (detach_bounded t w.registry j h.pool h.pool)
      (detach_storages t w.registry j trivial)
  | makeLocal t obj =>
    rw [after_makeLocal_fst]
    exact h.of_thread (makeLocal_bounded t obj w.registry j h.pool h.pool)
      (makeLocal_storages t obj w.registry j trivial)
  | destroyLocal t hd =>
    rw [after_destroyLocal_fst]
    exact h.of_thread (destroyLocal_bounded t hd w.registry j h.pool h.pool)
      (destroyLocal_storages t hd w.registry j trivial)
  | ensureCapacity t n =>
    rw [after_ensureCapacity_fst]
    exact h.of_thread (ensureCapacity_bounded t n w.registry j h.pool h.pool)
      (ensureCapacity_storages t n w.registry j trivial)
  | pushFrame t n =>
    rw [after_pushFrame_fst]
    exact h.of_thread (pushFrame_bounded t n w.registry j h.pool h.pool)
      (pushFrame_storages t n w.registry j trivial)
  | popFrame t result =>
    rw [after_popFrame_fst]
    exact h.of_thread (popFrame_bounded t result w.registry j h.pool h.pool)
      (popFrame_storages t result w.registry j trivial)
  | claim t p =>
    rw [after_claim_fst]
    exact h.of_same (claim_same t p _ j) (claim_storages t p w.registry j trivial)
  | advanceParity =>
    rw [after_advanceParity_fst]
    exact h.of_same (advanceParity_same _ j) (advanceParity_storages w.registry j trivial)
  | beginSafepoint =>
    rw [after_beginSafepoint_fst]
    exact h.of_same (beginSafepoint_same _ j) (beginSafepoint_storages w.registry j trivial)
  | endSafepoint => rw [after_endSafepoint_fst]; exact ⟨h.pool, h.globals, h.weaks⟩
  | makeGlobal obj strategy =>
    rw [after_makeGlobal_fst]
    rcases Table.makeGlobal_cases obj strategy w.registry.table j with
      ⟨r, hr⟩ | ⟨e, r, hr⟩ | ⟨k, g, r, -, hi, hr⟩ <;> rw [hr]
    · exact h
    · exact h
    · exact ⟨h.pool, h.globals.insert hi, h.weaks⟩
  | makeWeak obj strategy =>
    rw [after_makeWeak_fst]
    rcases Table.makeWeak_cases obj strategy w.registry.table j with
      ⟨r, hr⟩ | ⟨e, r, hr⟩ | ⟨k, g, r, -, hi, hr⟩ <;> rw [hr]
    · exact h
    · exact h
    · exact ⟨h.pool, h.globals, h.weaks.insert hi⟩
  | destroyGlobal hd =>
    rw [after_destroyGlobal_fst]
    split
    next t' hg =>
      rcases Table.destroyGlobal_eq hg with rfl | ⟨k, g, _, hrem, rfl⟩
      · exact h
      · exact ⟨h.pool, h.globals.remove hrem, h.weaks⟩
    next => exact h
  | destroyWeak hd =>
    rw [after_destroyWeak_fst]
    split
    next t' hg =>
      rcases Table.destroyWeak_eq hg with rfl | ⟨k, g, _, hrem, rfl⟩
      · exact h
      · exact ⟨h.pool, h.globals, h.weaks.remove hrem⟩
    next => exact h
  | storeSlot hd obj =>
    rw [after_storeSlot_fst]
    split
    next t' hs =>
      rcases hd with (i | i) | i <;> simp only [Table.store?, Option.map_eq_some_iff] at hs <;>
        obtain ⟨x, hx, rfl⟩ := hs
      · exact ⟨by simpa [BlockPool.store, hx] using h.pool.store i obj, h.globals, h.weaks⟩
      · exact ⟨h.pool, SlotStorage.store_eq_of_store? hx ▸ h.globals.store i obj, h.weaks⟩
      · exact ⟨h.pool, h.globals, SlotStorage.store_eq_of_store? hx ▸ h.weaks.store i obj⟩
    next => exact h
  | storeSource c i obj =>
    rw [after_storeSource_fst]
    split <;> exact h
  | walk target rw alive => exact hscan (provisioned_keeps rw _)
  | threads p rw => exact hscan (provisioned_keeps rw _)
  | startStrong foreign => exact hscan trivial
  | workStrong it rw we => exact hscan (provisioned_keeps rw _)
  | finishStrong it => exact hscan trivial
  | startWeak foreign => exact hscan trivial
  | workWeak it alive rw => exact hscan (provisioned_keeps rw _)
  | finishWeak it => exact hscan trivial
  | startConcurrent => exact hscan trivial
  | workConcurrent it alive rw => exact hscan (provisioned_keeps rw _)
  | finishConcurrent it => exact hscan trivial
  | startThread foreign => exact hscan trivial
  | workThread it rw => exact hscan (provisioned_keeps rw _)
  | finishThread it => exact hscan trivial

end Op

/-- In every reachable world the block pool and both storages are within their capacities, and
the capacities within what handle words can address. -/
theorem World.provisioned_of_reachable {s : World × Journal} (hs : Reachable s) :
    s.1.registry.Provisioned := by
  refine Reachable.induct (fun s => s.1.registry.Provisioned) (fun s hi => ?_)
    (fun s op _ h => Op.provisioned_after op s h) hs
  obtain ⟨c, t, ht, hr⟩ := hi
  rw [hr]
  exact Table.create_provisioned ht

end GcRoots

import GcRoots.Proofs.Scoping

namespace GcRoots

/-!
# What a failed call leaves

An operation that stops with a fault keeps the state as far as it got: a check that fails after
a change leaves the change in place. Most operations check everything before they change
anything, so a failed call leaves the world as it was: detaching a thread, destroying a local
handle, announcing local capacity, opening a frame, making and destroying global and weak global
handles, beginning a safepoint, and setting up a strong, weak, thread or concurrent weak pass
(`Op.ChecksFirst`).

Attaching a thread takes the next context id before it takes the thread's first block, so an
attach that finds the pool exhausted has used up an id, and changed nothing else. Making a local
handle rebuilds the frame's free list before it asks the pool for another block, so a failed
call can leave the frame's free list and rebuild counter changed (`failed_calls_change_state`).
Closing a frame ends by making the result's handle in the frame around it, after the frame has
closed: a fault there leaves the frame closed, its blocks queued, and the frame around it
changed as a failed local handle changes it. At depth 0 nothing closes, and the call fails as
making a local handle does. What a failed allocation keeps
is the pool and the frame's blocks: the allocation loop adds a block only when the next step
hands out that block's first slot, and `Frame.allocNeed` counts the steps it may still take, so
the loop never runs out of steps in between (`Frame.allocateLoop_error`).

Main statement: `failed_call_leaves_world`.
-/

namespace Action

variable {σ τ α : Type}

/-- An action that, whenever it stops with a fault, leaves the state it started from. -/
def FailsCleanly (m : Action σ α) : Prop :=
  ∀ (s : σ) (j : Journal) (e : Fault) (s' : σ × Journal), m (s, j) = .error e s' → s'.1 = s

theorem FailsCleanly.fail (f : Fault) : FailsCleanly (fail f : Action σ α) := by
  intro s j e s' h
  cases h
  rfl

/-- A focused action that fails cleanly, on a state that putting back its own part restores. -/
theorem FailsCleanly.focus {get : τ → σ} {put : τ → σ → τ} {m : Action σ α} (hm : FailsCleanly m)
    {s : τ} {j : Journal} {e : Fault} {s' : τ × Journal} (hput : put s (get s) = s)
    (h : focus get put m (s, j) = .error e s') : s'.1 = s := by
  rcases hms : m (get s, j) with ⟨a, x, j'⟩ | ⟨e', x, j'⟩
  · rw [focus_ok (s := (s, j)) hms] at h
    cases h
  · rw [focus_error (s := (s, j)) hms] at h
    cases h
    have hx : x = get s := hm _ _ _ _ hms
    show put s x = s
    rw [hx]
    exact hput

/-- A focus whose put restores every state from its own part fails cleanly with its action. -/
theorem FailsCleanly.focus_of_put {get : τ → σ} {put : τ → σ → τ} {m : Action σ α}
    (hm : FailsCleanly m) (hput : ∀ s, put s (get s) = s) : FailsCleanly (Action.focus get put m) :=
  fun _ _ _ _ h => hm.focus (hput _) h

/-- Running an action for its effect fails cleanly when the action does. -/
theorem FailsCleanly.drop {m : Action σ α} (hm : FailsCleanly m) : FailsCleanly (Op.drop m) := by
  intro s j e s' h
  unfold Op.drop at h
  rcases hms : m (s, j) with ⟨a, s₁⟩ | ⟨e', s₁⟩
  · rw [bind_ok hms] at h
    cases h
  · rw [bind_error hms] at h
    cases h
    exact hm _ _ _ _ hms

end Action

/-- Writing back the element an array holds changes nothing. -/
theorem Array.set!_getElem? {α : Type} {xs : Array α} {i : Nat} {a : α} (h : xs[i]? = some a) :
    xs.set! i a = xs := by
  obtain ⟨hi, rfl⟩ := Array.getElem?_eq_some_iff.mp h
  simp [Array.set!_eq_setIfInBounds, Array.setIfInBounds, hi]

namespace BlockPool

/-- Taking a block fails only when the pool has none, and then changes nothing. -/
theorem allocate_fails_cleanly : Action.FailsCleanly allocate := by
  intro p j e s' h
  rcases allocate_cases p j with ⟨b, rest, _, ha⟩ | ⟨_, _, j', ha⟩ | ⟨_, _, ha⟩ <;> rw [ha] at h
  · cases h
  · cases h
  · cases h
    rfl

end BlockPool

namespace Frame

/-- The steps an allocation in the frame may still take: one when a free entry waits, and
otherwise one per block from the current one on, one more to add a block and use it, and one
more to rebuild first when the frame may add no block. -/
def allocNeed (f : Frame) : Nat :=
  if f.free.size ≠ 0 then 1
  else f.blocks.size - f.last + if f.allocBeforeRebuild = 0 then 2 else 1

theorem allocNeed_of_back?_eq_none {f : Frame} (hfree : f.free.back? = none) :
    f.allocNeed = f.blocks.size - f.last + if f.allocBeforeRebuild = 0 then 2 else 1 := by
  have hsize : f.free.size = 0 := by simp_all
  simp [allocNeed, hsize]

/-- A frame on its last block that has a free entry or may add a block ends its allocation in
two steps. -/
theorem allocNeed_le_two {f : Frame} (hlast : f.last + 1 = f.blocks.size)
    (h : f.free.size ≠ 0 ∨ f.allocBeforeRebuild ≠ 0) : f.allocNeed ≤ 2 := by
  unfold allocNeed
  split
  · omega
  · rename_i hsize
    rw [if_neg (h.resolve_left hsize)]
    omega

/-- The fuel an allocation starts with covers the steps it may take. -/
theorem allocNeed_le_stepBound (f : Frame) (p : BlockPool) : f.allocNeed ≤ stepBound f p := by
  unfold allocNeed stepBound
  split
  · omega
  · split <;> omega

/-- A finished rebuild of a frame with a block leaves it a free entry or a block it may add. -/
theorem rebuild_ok_ready {f : Frame} {p : BlockPool} {j : Journal} {s : (Frame × BlockPool) × Journal}
    (hb : 0 < f.blocks.size) (hr : rebuild ((f, p), j) = .ok () s) :
    s.1.1.free.size ≠ 0 ∨ s.1.1.allocBeforeRebuild ≠ 0 := by
  obtain ⟨E, -, hfin⟩ := collectFree_final f.blocks.toList f p j
  simp only [rebuild, bind, EStateM.bind, Action.read_run] at hr
  rcases hc : collectFree f.blocks.toList ((f, p), j) with ⟨_, ⟨⟨f₁, p₁⟩, j₁⟩⟩ | ⟨e, s₁⟩ <;>
    rw [hc] at hr hfin
  · rw [Action.final_ok, Prod.mk.injEq] at hfin
    obtain ⟨rfl, rfl⟩ := hfin
    simp only [Action.write_run, Action.emit_run] at hr
    cases hr
    -- with no free entry found, the counter is set from the frame's slots, of which it has some
    by_cases hz : (f.free ++ E.toArray).size = 0
    · right
      have hpos : f.blocks.size * blockSlots > 2 * 0 := Nat.mul_pos hb (by decide)
      simp only [hz, if_pos hpos, growthAfterRebuild]
      unfold blockSlots at hpos ⊢
      omega
    · exact Or.inl hz
  · cases hr

/-- Right after the frame adds a block just taken from the pool, the next step hands out the
block's first slot. -/
theorem allocateStep_grown {f : Frame} {p : BlockPool} {b : Nat} (hlast : f.last + 1 = f.blocks.size)
    (ht : ∃ blk, p.blocks[b]? = some blk ∧ blk.Sound ∧ blk.top = 0) (obj : Nat) (j : Journal) :
    ∃ i s, allocateStep obj ((f.grow b, p), j) = .ok (.done i) s := by
  obtain ⟨blk, hb, -, htop⟩ := ht
  have hcur : (f.grow b).blocks.getD (f.grow b).last 0 = b := by
    simp [hlast]
  have hbump : blk.bump obj = some ({ blk with slots := blk.slots.set! 0 obj, top := 1 }, 0) := by
    simp [Block.bump, htop, blockSlots]
  have hstep : allocateStep obj ((f.grow b, p), j) = .ok (.done (b * blockSlots + 0))
      ((f.grow b, { p with blocks := p.blocks.set! b { blk with slots := blk.slots.set! 0 obj, top := 1 } }), j) := by
    simp only [allocateStep, bind, EStateM.bind, Action.read_run, hcur, BlockPool.block?, hb, hbump,
      Action.write_run, Action.pure_run]
  exact ⟨_, _, hstep⟩

section Failure

variable {others : List Nat}

/-- A failed allocation loop with enough fuel keeps the pool, the frame's blocks and its planned
capacity: the steps that fail change at most the frame's position, free list and rebuild counter,
and a step that adds a block is followed by one that hands out its first slot. -/
theorem allocateLoop_error (obj : Nat) :
    ∀ (n : Nat) (f : Frame) (p : BlockPool) (j : Journal) (e : Fault) (s : (Frame × BlockPool) × Journal),
      Holds others (f, p) → f.allocNeed ≤ n → allocateLoop obj n ((f, p), j) = .error e s →
        s.1.2 = p ∧ s.1.1.blocks = f.blocks ∧ s.1.1.planned = f.planned
  | 0, f, p, j, e, s, _, _, hr => by
    rw [allocateLoop_zero] at hr
    cases hr
    exact ⟨rfl, rfl, rfl⟩
  | n + 1, f, p, j, e, s, h, hn, hr => by
    have hstep := (allocateStep_holds h obj j).1
    have hlt : f.last < f.blocks.size := h.frame.last_lt
    rw [allocateLoop_succ] at hr
    rcases allocateStep_cases obj f p j with
      ⟨_, hs⟩ | ⟨_, _, _, _, _, hs⟩ | ⟨_, _, ⟨_, hs⟩ | ⟨_, hs⟩⟩ | ⟨hfree, hnext, hs⟩ |
      ⟨hfree, hnext, habr, hs⟩ | ⟨hfree, hnext, habr, ⟨b, p', j', ha, hs⟩ | ⟨_, _, hs⟩⟩ <;>
      simp only [hs] at hr hstep
    · -- an unknown block stops the loop where it is
      cases hr
      exact ⟨rfl, rfl, rfl⟩
    · cases hr
    · cases hr
    · cases hr
      exact ⟨rfl, rfl, rfl⟩
    · -- moving to the next block lowers the need by one
      have hneed : ({ f with last := f.last + 1 } : Frame).allocNeed ≤ n := by
        rw [allocNeed_of_back?_eq_none (f := { f with last := f.last + 1 }) hfree]
        rw [allocNeed_of_back?_eq_none hfree] at hn
        dsimp only
        omega
      rw [Action.final_ok] at hstep
      exact allocateLoop_error obj n { f with last := f.last + 1 } p j e s hstep hneed hr
    · -- a rebuild keeps the blocks; a finished one leaves a free entry or a block to add
      obtain ⟨E, -, abr, hfin⟩ := rebuild_final f p j
      rcases hreb : rebuild ((f, p), j) with ⟨_, ⟨⟨f₁, p₁⟩, j₁⟩⟩ | ⟨e₁, s₁⟩ <;>
        simp only [hreb] at hfin hr hstep
      · rw [Action.final_ok, Prod.mk.injEq] at hfin
        obtain ⟨rfl, rfl⟩ := hfin
        have hready := rebuild_ok_ready (by omega) hreb
        have hneed : ({ f with free := f.free ++ E.toArray, allocBeforeRebuild := abr } : Frame).allocNeed ≤ n := by
          have h2 := allocNeed_le_two (f := { f with free := f.free ++ E.toArray, allocBeforeRebuild := abr })
            (by dsimp only; omega) hready
          rw [allocNeed_of_back?_eq_none hfree, if_pos habr] at hn
          omega
        rw [Action.final_ok] at hstep
        exact allocateLoop_error obj n { f with free := f.free ++ E.toArray, allocBeforeRebuild := abr }
          _ j₁ e s hstep hneed hr
      · cases hr
        rw [Action.final_error] at hfin
        rw [hfin]
        exact ⟨rfl, rfl, rfl⟩
    · -- a block was added: the fuel left covers the step that uses it
      have hq : ∀ c ∈ p.queue, c < p.blocks.size := fun c hc => h.custody.lt_of_mem (Or.inr hc)
      rw [allocNeed_of_back?_eq_none hfree, if_neg habr] at hn
      cases n with
      | zero => omega
      | succ m =>
        obtain ⟨i, s', hdone⟩ := allocateStep_grown (f := f) (by omega)
          (BlockPool.allocate_took h.pool hq ha).taken obj j'
        rw [allocateLoop_succ, hdone] at hr
        cases hr
    · cases hr
      exact ⟨rfl, rfl, rfl⟩

/-- A failed allocation keeps the pool, the frame's blocks and its planned capacity. -/
theorem allocate_error {f : Frame} {p : BlockPool} (h : Holds others (f, p)) {obj : Nat} {j : Journal}
    {e : Fault} {s : (Frame × BlockPool) × Journal} (hr : allocate obj ((f, p), j) = .error e s) :
    s.1.2 = p ∧ s.1.1.blocks = f.blocks ∧ s.1.1.planned = f.planned := by
  rw [allocate_run] at hr
  exact allocateLoop_error obj _ f p j e s h (allocNeed_le_stepBound f p) hr

end Failure

end Frame

namespace Chain

/-- Opening a frame fails only when the pool has no block, and then changes nothing. -/
theorem pushFrame_fails_cleanly : Action.FailsCleanly pushFrame := by
  intro s j e s' h
  obtain ⟨c, p⟩ := s
  unfold pushFrame at h
  simp only [bind, EStateM.bind, Action.focus] at h
  -- only taking the block can fail; what follows rearranges the chain and returns
  rcases Frame.create_cases p j with ⟨b, p', j', _, hc⟩ | ⟨e', hc⟩ <;> rw [hc] at h
  · cases h
  · cases h
    rfl

/-- A failed allocation in a chain keeps the pool and every frame but the innermost, and of that
one its blocks and planned capacity. -/
theorem allocate_error {others : List Nat} {c : Chain} {p : BlockPool}
    (h : Holds others (c, p)) {obj : Nat} {j : Journal} {e : Fault}
    {s : (Chain × BlockPool) × Journal} (hr : allocate obj ((c, p), j) = .error e s) :
    s.1.2 = p ∧ ∃ f : Frame, f.blocks = c.top.blocks ∧ f.planned = c.top.planned ∧
      s.1.1 = { c with top := f } := by
  unfold allocate at hr
  simp only [Action.focus] at hr
  rcases ha : Frame.allocate obj ((c.top, p), j) with ⟨i, ⟨⟨f, p'⟩, j'⟩⟩ | ⟨e', ⟨⟨f, p'⟩, j'⟩⟩ <;>
    simp only [ha] at hr
  · cases hr
  · cases hr
    obtain ⟨hp, hb, hpl⟩ := Frame.allocate_error h.top ha
    exact ⟨hp, f, hb, hpl, rfl⟩

/-- Starting a chain fails only when the pool has no block, and then changes nothing. -/
theorem create_fails_cleanly : Action.FailsCleanly create := by
  intro p j e s' h
  rcases Frame.create_cases p j with ⟨b, p', j', _, hc⟩ | ⟨e', hc⟩
  · simp only [create, bind, EStateM.bind, hc] at h
    cases h
  · simp only [create, bind, EStateM.bind, hc] at h
    cases h
    rfl

end Chain

namespace Registry

/-- Running an action on a thread's chain fails cleanly when the action does: a detached thread
is refused before anything changes, and putting back the thread's own chain and the pool
restores the registry. -/
theorem onChain_fails_cleanly {α : Type} {m : Action (Chain × BlockPool) α}
    (hm : Action.FailsCleanly m) (t : Nat) : Action.FailsCleanly (onChain t m) := by
  intro r j e s' h
  unfold onChain at h
  simp only [bind, EStateM.bind, Action.read_run] at h
  rcases hc : r.contexts[t]? with _ | c
  · simp only [hc, Action.fail_run] at h
    cases h
    rfl
  rcases hch : c.chain with _ | ch
  · simp only [hc, hch, Action.fail_run] at h
    cases h
    rfl
  simp only [hc, hch] at h
  refine hm.focus ?_ h
  have hself : { c with chain := some ch } = c := by rw [← hch]
  simp only [hself, Array.set!_getElem? hc]

/-- Announcing local capacity checks the limit and the sum before it writes the planned
capacity. -/
theorem ensureCapacity_fails_cleanly (t n : Nat) : Action.FailsCleanly (ensureCapacity t n) := by
  intro r j e s' h
  unfold ensureCapacity at h
  simp only [bind, EStateM.bind, Action.read_run] at h
  split at h
  · cases h
  refine onChain_fails_cleanly ?_ t r j e s' h
  intro ⟨c, p⟩ j' e' s'' h'
  simp only [EStateM.bind, Action.read_run] at h'
  rcases hadd : checkedAdd (c.top.live p) n with _ | planned <;> simp only [hadd] at h'
  · cases h'
    rfl
  · cases h'

/-- Opening a frame fails only when the pool has no block, before anything changes. -/
theorem pushFrame_fails_cleanly (t n : Nat) : Action.FailsCleanly (pushFrame t n) := by
  intro r j e s' h
  unfold pushFrame at h
  simp only [bind, EStateM.bind, Action.read_run] at h
  split at h
  · cases h
  refine onChain_fails_cleanly ?_ t r j e s' h
  intro cp j' e' s'' h'
  simp only [EStateM.bind] at h'
  rcases hp : Chain.pushFrame (cp, j') with ⟨a, s₁⟩ | ⟨e₁, s₁⟩ <;> rw [hp] at h'
  · cases h'
  · cases h'
    exact Chain.pushFrame_fails_cleanly _ _ _ _ hp

/-- Detaching checks the safepoint and releases the thread's blocks before it writes anything. -/
theorem detach_fails_cleanly (t : Nat) : Action.FailsCleanly (detach t) := by
  intro r j e s' h
  unfold detach at h
  simp only [bind, EStateM.bind, Action.read_run] at h
  by_cases hs : r.atSafepoint = true
  · simp only [hs, if_true] at h
    cases h
    rfl
  simp only [hs, Bool.false_eq_true, if_false, pure] at h
  -- past the safepoint check only releasing the blocks can fail, before the write
  rcases hc : r.contexts[t]? with _ | c
  · simp only [hc] at h
    cases h
  rcases hch : c.chain with _ | ch
  · simp only [hc, hch] at h
    cases h
  rcases hrel : ch.release r.table.pool with e' | p <;> simp only [hc, hch, hrel] at h
  · cases h
    rfl
  · cases h

/-- Destroying a local handle makes every check before it clears the slot. -/
theorem destroyLocal_fails_cleanly (t : Nat) (hd : Option Handle) :
    Action.FailsCleanly (destroyLocal t hd) := by
  intro r j e s' h
  rcases hd with _ | ((i | i) | i)
  · cases h
  · -- a local handle: the ownership check and the slot check come before the slot is cleared
    simp only [destroyLocal, Table.strongRef, bind, EStateM.bind, Action.ofExcept_ok,
      Action.read_run] at h
    by_cases hl : r.isLocal t (.strong (.threadLocal i)) = true
    · simp only [hl, Bool.not_true, Bool.false_eq_true, if_false, pure] at h
      rcases hv : r.table.pool.slot? i with _ | v <;> simp only [hv] at h
      · cases h
      · by_cases h0 : v = 0
        · simp only [h0, if_true] at h
          cases h
          rfl
        · simp only [h0, if_false] at h
          cases h
    · simp only [hl, Bool.not_false, if_true] at h
      cases h
      rfl
  · simp only [destroyLocal, Table.strongRef, bind, EStateM.bind, Action.ofExcept_ok,
      Action.fail_run] at h
    cases h
    rfl
  · simp only [destroyLocal, Table.strongRef, bind, EStateM.bind, Action.ofExcept_error] at h
    cases h
    rfl

/-- Beginning a safepoint sets the flag, which a failing call found set already. -/
theorem beginSafepoint_fails_cleanly : Action.FailsCleanly beginSafepoint := by
  intro r j e s' h
  unfold beginSafepoint at h
  simp only [bind, EStateM.bind, Action.read_run, Action.write_run] at h
  by_cases hs : r.atSafepoint = true
  · simp only [hs, if_true, Action.fail_run] at h
    cases h
    show { r with atSafepoint := true } = r
    rw [← hs]
  · simp [hs, pure, EStateM.pure] at h

/-- A failed attach leaves the registry as it was, except that past the safepoint check it has
taken the next context id. -/
theorem attach_error {r : Registry} {j : Journal} {e : Fault} {s' : Registry × Journal}
    (h : attach (r, j) = .error e s') :
    s'.1 = if r.atSafepoint then r else { r with nextId := r.nextId + 1 } := by
  unfold attach at h
  simp only [bind, EStateM.bind, Action.read_run] at h
  by_cases hs : r.atSafepoint = true
  · simp only [hs, if_true] at h ⊢
    cases h
    rfl
  rw [if_neg hs] at h ⊢
  simp only [pure, EStateM.pure, EStateM.bind, Action.write_run] at h
  -- the id is taken; after it only taking the thread's first block can fail
  have hcreate : Action.FailsCleanly (onTable (Action.focus (fun t => t.pool)
      (fun t p => { t with pool := p }) Chain.create)) :=
    (Chain.create_fails_cleanly.focus_of_put fun _ => rfl).focus_of_put fun _ => rfl
  rcases hct : onTable (Action.focus (fun t => t.pool) (fun t p => { t with pool := p })
      Chain.create) ({ r with nextId := r.nextId + 1 }, j) with ⟨ch, s₁⟩ | ⟨e₁, s₁⟩ <;>
    rw [hct] at h
  · cases h
  · cases h
    exact hcreate _ _ _ _ hct

/-- `r'` is `r` but for thread `t`'s innermost frame, of which at most the position, the free
list and the rebuild counter changed: the frame keeps its blocks and its planned capacity. -/
def SameButInnerFrame (r : Registry) (t : Nat) (r' : Registry) : Prop :=
  r' = r ∨ ∃ c ch f, r.contexts[t]? = some c ∧ c.chain = some ch ∧ f.blocks = ch.top.blocks ∧
    f.planned = ch.top.planned ∧
    r' = { r with contexts := r.contexts.set! t { c with chain := some { ch with top := f } } }

/-- A failed `makeLocal` on a sound registry leaves it as it was, or changes only the thread's
innermost frame, keeping that frame's blocks and planned capacity. -/
theorem makeLocal_error {r : Registry} (h : r.Sound) {t obj : Nat} {j : Journal} {e : Fault}
    {s : Registry × Journal} (hr : makeLocal t obj (r, j) = .error e s) :
    r.SameButInnerFrame t s.1 := by
  unfold makeLocal at hr
  by_cases h0 : obj = 0
  · simp only [h0, if_true, pure, EStateM.pure] at hr
    cases hr
  simp only [h0, if_false] at hr
  rcases hcc : r.chainOf t with e₁ | ch
  · -- a thread without a chain is refused before anything changes
    rw [Action.bind_error (onChain_of_chainOf_error hcc j)] at hr
    cases hr
    exact Or.inl rfl
  obtain ⟨c, hc, hch⟩ := chainOf_eq_ok.mp hcc
  rcases ha : Chain.allocate obj ((ch, r.table.pool), j) with
    ⟨i, ⟨⟨ch', p'⟩, j'⟩⟩ | ⟨e', ⟨⟨ch', p'⟩, j'⟩⟩
  · rw [Action.bind_ok (onChain_ok hc hch ha)] at hr
    cases hr
  · -- a failed allocation keeps the pool and changes the innermost frame's position alone
    rw [Action.bind_error (onChain_error hc hch ha)] at hr
    cases hr
    obtain ⟨hp, f, hb, hpl, hch'⟩ := Chain.allocate_error (h.chain hc hch) ha
    cases hp
    cases hch'
    exact Or.inr ⟨c, ch, f, hc, hch, hb, hpl, rfl⟩

/-- A failed closing of thread `t`'s innermost frame, in a sound registry. It stops before the
frame closes and leaves the registry as it was (the result does not resolve, or the thread has
no chain), or it closes the frame and then fails to make the result's handle in the frame
around it. Closing puts the chain around the frame in place and releases the frame's blocks
to the end of the queue, and at depth 0 it changes nothing; the failed handle then changes at
most the new innermost frame. -/
theorem popFrame_error {r : Registry} (h : r.Sound) {t : Nat} {result : Option Handle}
    {j : Journal} {e : Fault} {s : Registry × Journal} (hr : popFrame t result (r, j) = .error e s) :
    s.1 = r ∨ ∃ c ch p', r.contexts[t]? = some c ∧ c.chain = some ch ∧
      (ch.outer = [] → p' = r.table.pool) ∧
      (ch.outer ≠ [] → BlockPool.Released r.table.pool ch.top.blocks.toList p') ∧
      SameButInnerFrame { r with
        contexts := r.contexts.set! t { c with chain := some ch.popped },
        table := { r.table with pool := p' } } t s.1 := by
  rcases hres : r.table.resolve result with e₁ | obj
  · -- the result is resolved first
    rw [popFrame_of_unresolved hres] at hr
    cases hr
    exact Or.inl rfl
  rw [popFrame_of_resolve hres] at hr
  rcases hch : r.chainOf t with e₁ | ch
  · rw [Action.bind_error (onChain_of_chainOf_error hch j)] at hr
    cases hr
    exact Or.inl rfl
  -- the frame closes, and only making the handle can fail
  obtain ⟨c, hc, hchc⟩ := chainOf_eq_ok.mp hch
  obtain ⟨b, p', hpop, hsame, hrel⟩ := Chain.popFrame_run (h.chain hc hchc) j
  have hrun := onChain_ok hc hchc hpop
  have hs' := (onChain_step Chain.popFrame_safe h t j).1
  rw [hrun, Action.final_ok] at hs'
  rw [Action.bind_ok hrun] at hr
  exact Or.inr ⟨c, ch, p', hc, hchc, hsame, hrel, makeLocal_error hs' hr⟩

end Registry

namespace Table

/-- Making a global handle fails only where adding the object changed nothing. -/
theorem makeGlobal_fails_cleanly (obj : Nat) (st : FailStrategy) :
    Action.FailsCleanly (makeGlobal obj st) := by
  intro t j e s' h
  rcases makeGlobal_cases obj st t j with ⟨r, hr⟩ | ⟨e', r, hr⟩ | ⟨k, g, r, -, -, hr⟩ <;>
    rw [hr] at h
  · cases h
  · cases h
    rfl
  · cases h

/-- Making a weak global handle fails only where adding the object changed nothing. -/
theorem makeWeak_fails_cleanly (obj : Nat) (st : FailStrategy) :
    Action.FailsCleanly (makeWeak obj st) := by
  intro t j e s' h
  rcases makeWeak_cases obj st t j with ⟨r, hr⟩ | ⟨e', r, hr⟩ | ⟨k, g, r, -, -, hr⟩ <;>
    rw [hr] at h
  · cases h
  · cases h
    rfl
  · cases h

end Table

/-- Replacing the table by what a check on it returns fails only where the check does. -/
theorem Registry.replaceTable_fails_cleanly (f : Table → Except Fault Table) :
    Action.FailsCleanly (do
      let r ← Action.read
      let t ← Action.ofExcept (f r.table)
      Action.write { r with table := t } : Action Registry Unit) := by
  intro r j e s' h
  simp only [bind, EStateM.bind, Action.read_run] at h
  rcases hf : f r.table with e' | t <;> simp only [hf, Action.ofExcept_error, Action.ofExcept_ok] at h
  · cases h
    rfl
  · cases h

/-- The safepoint check changes nothing, whichever way it ends. -/
theorem checkSafepoint_cases (foreign : Bool) (w : World) (j : Journal) :
    checkSafepoint foreign (w, j) = .ok () (w, j) ∨ ∃ e, checkSafepoint foreign (w, j) = .error e (w, j) := by
  unfold checkSafepoint
  cases foreign <;> cases hs : w.registry.atSafepoint <;>
    simp [hs, bind, EStateM.bind, Action.read_run, pure, EStateM.pure]

/-- An action that begins with the safepoint check and cannot fail after it fails cleanly. -/
theorem checkSafepoint_then_fails_cleanly {α : Type} (foreign : Bool) {m : Unit → Action World α}
    (hm : ∀ s e s', m () s ≠ .error e s') : Action.FailsCleanly (checkSafepoint foreign >>= m) := by
  intro w j e s' h
  rcases checkSafepoint_cases foreign w j with hc | ⟨e', hc⟩
  · rw [Action.bind_ok hc] at h
    exact absurd h (hm _ _ _)
  · rw [Action.bind_error hc] at h
    cases h
    rfl

/-- Setting up a strong pass fails only at the safepoint check, before the parity moves. -/
theorem StrongPass.start_fails_cleanly (foreign : Bool) :
    Action.FailsCleanly (StrongPass.start foreign) :=
  checkSafepoint_then_fails_cleanly foreign fun _ _ _ h => by cases h

/-- Setting up a weak pass fails only at the safepoint check. -/
theorem WeakPass.start_fails_cleanly (foreign : Bool) :
    Action.FailsCleanly (WeakPass.start foreign) :=
  checkSafepoint_then_fails_cleanly foreign fun _ _ _ h => by cases h

/-- Setting up a thread pass fails only at the safepoint check, before the parity moves. -/
theorem ThreadPass.start_fails_cleanly (foreign : Bool) :
    Action.FailsCleanly (ThreadPass.start foreign) :=
  checkSafepoint_then_fails_cleanly foreign fun _ _ _ h => by cases h

/-- Setting up a concurrent weak pass never fails. -/
theorem ConcurrentWeakPass.start_fails_cleanly : Action.FailsCleanly ConcurrentWeakPass.start := by
  intro w j e s' h
  cases h

namespace Op

/-- The operations that make every check before they change anything. -/
def ChecksFirst : Op → Prop
  | .detach _ | .destroyLocal _ _ | .ensureCapacity _ _ | .pushFrame _ _ | .beginSafepoint
  | .makeGlobal _ _ | .makeWeak _ _ | .destroyGlobal _ | .destroyWeak _
  | .startStrong _ | .startWeak _ | .startThread _ | .startConcurrent => True
  | _ => False

/-- Every operation that checks first fails cleanly, one case per operation. -/
theorem ChecksFirst.fails_cleanly {op : Op} (hop : op.ChecksFirst) : Action.FailsCleanly op.run := by
  -- handing the registry or the table to an operation is a focus that puts back what it took
  have hreg : ∀ {α : Type} {m : Action Registry α}, Action.FailsCleanly m →
      Action.FailsCleanly (onRegistry m) := fun hm => hm.focus_of_put fun _ => rfl
  have htab : ∀ {α : Type} {m : Action Table α}, Action.FailsCleanly m →
      Action.FailsCleanly (Registry.onTable m) := fun hm => hm.focus_of_put fun _ => rfl
  cases op with
  | detach t => exact hreg (Registry.detach_fails_cleanly t)
  | destroyLocal t hd => exact hreg (Registry.destroyLocal_fails_cleanly t hd)
  | ensureCapacity t n => exact (hreg (Registry.ensureCapacity_fails_cleanly t n)).drop
  | pushFrame t n => exact (hreg (Registry.pushFrame_fails_cleanly t n)).drop
  | beginSafepoint => exact hreg Registry.beginSafepoint_fails_cleanly
  | makeGlobal obj st => exact (hreg (htab (Table.makeGlobal_fails_cleanly obj st))).drop
  | makeWeak obj st => exact (hreg (htab (Table.makeWeak_fails_cleanly obj st))).drop
  | destroyGlobal hd => exact hreg (Registry.replaceTable_fails_cleanly fun t => t.destroyGlobal hd)
  | destroyWeak hd => exact hreg (Registry.replaceTable_fails_cleanly fun t => t.destroyWeak hd)
  | startStrong foreign => exact (StrongPass.start_fails_cleanly foreign).drop
  | startWeak foreign => exact (WeakPass.start_fails_cleanly foreign).drop
  | startThread foreign => exact (ThreadPass.start_fails_cleanly foreign).drop
  | startConcurrent => exact ConcurrentWeakPass.start_fails_cleanly.drop
  | _ => exact (hop : False).elim

/-- A failed attach leaves the world as it was, except that past the safepoint check the
registry has taken the next context id. -/
theorem attach_error {w : World} {j : Journal} {e : Fault} {s : World × Journal}
    (h : Op.attach.run (w, j) = .error e s) :
    s.1 = { w with registry := if w.registry.atSafepoint then w.registry
      else { w.registry with nextId := w.registry.nextId + 1 } } := by
  change drop (onRegistry Registry.attach) (w, j) = _ at h
  rcases ha : Registry.attach (w.registry, j) with ⟨i, x, j'⟩ | ⟨e', x, j'⟩ <;>
    simp only [drop, onRegistry, bind, EStateM.bind, Action.focus, ha] at h
  · cases h
  · cases h
    show { w with registry := x } = _
    rw [← Registry.attach_error ha]

/-- A failed `makeLocal` on a sound registry changes the world only in its registry, and
there at most the thread's innermost frame, keeping that frame's blocks and planned capacity. -/
theorem makeLocal_error {w : World} {j : Journal} {t obj : Nat} {e : Fault} {s : World × Journal}
    (hs : w.registry.Sound) (h : (Op.makeLocal t obj).run (w, j) = .error e s) :
    ∃ r', s.1 = { w with registry := r' } ∧ w.registry.SameButInnerFrame t r' := by
  change drop (onRegistry (Registry.makeLocal t obj)) (w, j) = _ at h
  rcases hm : Registry.makeLocal t obj (w.registry, j) with ⟨i, x, j'⟩ | ⟨e', x, j'⟩ <;>
    simp only [drop, onRegistry, bind, EStateM.bind, Action.focus, hm] at h
  · cases h
  · cases h
    exact ⟨x, rfl, Registry.makeLocal_error hs hm⟩

/-- A failed closing of a frame changes the world only in its registry, as
`Registry.popFrame_error` says. -/
theorem popFrame_error {w : World} {j : Journal} {t : Nat} {result : Option Handle} {e : Fault}
    {s : World × Journal} (hs : w.registry.Sound) (h : (Op.popFrame t result).run (w, j) = .error e s) :
    ∃ r', s.1 = { w with registry := r' } ∧ (r' = w.registry ∨ ∃ c ch p',
      w.registry.contexts[t]? = some c ∧ c.chain = some ch ∧
      (ch.outer = [] → p' = w.registry.table.pool) ∧
      (ch.outer ≠ [] → BlockPool.Released w.registry.table.pool ch.top.blocks.toList p') ∧
      Registry.SameButInnerFrame { w.registry with
        contexts := w.registry.contexts.set! t { c with chain := some ch.popped },
        table := { w.registry.table with pool := p' } } t r') := by
  change drop (onRegistry (Registry.popFrame t result)) (w, j) = _ at h
  rcases hm : Registry.popFrame t result (w.registry, j) with ⟨i, x, j'⟩ | ⟨e', x, j'⟩ <;>
    simp only [drop, onRegistry, bind, EStateM.bind, Action.focus, hm] at h
  · cases h
  · cases h
    exact ⟨x, rfl, Registry.popFrame_error hs hm⟩

/-- A call that fails ends where its state after is. -/
theorem after_of_error {op : Op} {s s' : World × Journal} {e : Fault} (h : op.run s = .error e s') :
    op.after s = s' := by
  unfold after
  rw [h]

/-- A call seen to fail, whose state after differs from the state before in some reading, failed
and changed the world. -/
theorem error_changes {op : Op} {s : World × Journal} {β : Type} (f : World → β)
    (hfail : (match op.run s with | .ok _ _ => false | .error _ _ => true) = true)
    (hdiff : f (op.after s).1 ≠ f s.1) : ∃ e s', op.run s = .error e s' ∧ s'.1 ≠ s.1 := by
  rcases hr : op.run s with ⟨a, s'⟩ | ⟨e, s'⟩ <;> rw [hr] at hfail
  · cases hfail
  · exact ⟨e, s', rfl, fun hs => hdiff (by rw [after_of_error hr, hs])⟩

end Op

/-- What a failed call leaves. A failed call of an operation that checks first (detaching,
destroying a local handle, announcing local capacity, opening a frame, beginning a safepoint,
making and destroying global and weak global handles, setting up a pass) leaves the world as it
was. A failed attach leaves it as it was except for the registry's next context id, which it
has advanced once past the safepoint check. In a reachable state, a failed call making a local
handle changes at most the thread's innermost frame, and of that frame neither its blocks nor
its planned capacity: only its position, free list and rebuild counter. A failed closing of a
frame either stops before the frame closes and leaves the world as it was, or closes it (the
chain around it put back, its blocks released to the end of the queue, nothing at depth 0) and
then changes the new innermost frame as a failed local handle does. -/
theorem failed_call_leaves_world (w : World) (j : Journal) (e : Fault) (s : World × Journal) :
    (∀ op : Op, op.ChecksFirst → op.run (w, j) = .error e s → s.1 = w) ∧
      (Op.attach.run (w, j) = .error e s →
        s.1 = { w with registry := if w.registry.atSafepoint then w.registry
          else { w.registry with nextId := w.registry.nextId + 1 } }) ∧
      (Reachable (w, j) → ∀ t obj, (Op.makeLocal t obj).run (w, j) = .error e s →
        ∃ r', s.1 = { w with registry := r' } ∧ w.registry.SameButInnerFrame t r') ∧
      (Reachable (w, j) → ∀ t result, (Op.popFrame t result).run (w, j) = .error e s →
        ∃ r', s.1 = { w with registry := r' } ∧ (r' = w.registry ∨ ∃ c ch p',
          w.registry.contexts[t]? = some c ∧ c.chain = some ch ∧
          (ch.outer = [] → p' = w.registry.table.pool) ∧
          (ch.outer ≠ [] → BlockPool.Released w.registry.table.pool ch.top.blocks.toList p') ∧
          Registry.SameButInnerFrame { w.registry with
            contexts := w.registry.contexts.set! t { c with chain := some ch.popped },
            table := { w.registry.table with pool := p' } } t r')) :=
  ⟨fun _ hop h => hop.fails_cleanly w j e s h, fun h => Op.attach_error h,
    fun hr _ _ h => Op.makeLocal_error (World.sound_of_reachable hr) h,
    fun hr _ _ h => Op.popFrame_error (World.sound_of_reachable hr) h⟩

/-- Beginning a safepoint while one is in progress fails and leaves the world as it was. -/
theorem nested_safepoint_leaves_world :
    ∃ s, Op.beginSafepoint.run (Op.runAll [.beginSafepoint] (World.new Table.fresh, {})) =
        .error .safepointInProgress s ∧
      s.1 = (Op.runAll [.beginSafepoint] (World.new Table.fresh, {})).1 :=
  ⟨_, rfl, (failed_call_leaves_world _ _ _ _).1 .beginSafepoint trivial rfl⟩

/-- The table with room for a single block of handles. -/
def Table.oneBlock : Table :=
  { Table.fresh with config := { maxHandleBlocks := 1 }, pool := { capacity := 1 } }

/-- Attaching one thread and filling its first block with live local handles. -/
def Op.fillFirstBlock : List Op :=
  .attach :: (List.range blockSlots).map fun k => .makeLocal 0 (16 * (k + 1))

/-- Three failed calls that change the world. With the one block of the pool held by a thread,
attaching another thread fails after taking a context id. With that block full of live handles,
making one more fails after rebuilding the frame's free list, and leaves the frame's rebuild
counter set, so that the next call adds a block instead of rebuilding. Closing the frame at
depth 0 with a result makes that handle last, and fails the same way. -/
theorem failed_calls_change_state :
    (World.new Table.oneBlock).Initial ∧
      (∃ e s, Op.attach.run (Op.runAll [.attach] (World.new Table.oneBlock, {})) = .error e s ∧
        s.1 ≠ (Op.runAll [.attach] (World.new Table.oneBlock, {})).1) ∧
      (∃ e s, (Op.makeLocal 0 16).run (Op.runAll Op.fillFirstBlock (World.new Table.oneBlock, {})) =
          .error e s ∧ s.1 ≠ (Op.runAll Op.fillFirstBlock (World.new Table.oneBlock, {})).1) ∧
      (∃ e s, (Op.popFrame 0 (some (.strong (.threadLocal 0)))).run
          (Op.runAll Op.fillFirstBlock (World.new Table.oneBlock, {})) = .error e s ∧
        s.1 ≠ (Op.runAll Op.fillFirstBlock (World.new Table.oneBlock, {})).1) :=
  ⟨⟨{ maxHandleBlocks := 1 }, _, rfl, rfl⟩,
    Op.error_changes (fun w => w.registry.nextId) (by decide +kernel) (by decide +kernel),
    Op.error_changes
      (fun w => (w.registry.contexts[0]?.bind Context.chain).map fun ch => ch.top.allocBeforeRebuild)
      (by decide +kernel) (by decide +kernel),
    Op.error_changes
      (fun w => (w.registry.contexts[0]?.bind Context.chain).map fun ch => ch.top.allocBeforeRebuild)
      (by decide +kernel) (by decide +kernel)⟩

end GcRoots

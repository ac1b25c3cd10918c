import GcRoots.Proofs.Allocation

namespace GcRoots

/-!
# A frame grows with its peak live count

A frame adds blocks only after a rebuild of its free list allowed it to, and a rebuild allows
just enough blocks to bring the frame to twice the handles live at that moment
(`Frame.rebuild_fits`). So a frame never holds more than one block per sixteen of the most
handles it ever held live at once, and at least one block.

`Frame.Call` is what a frame can be asked to do on its own: allocate a handle, or null a slot
as destroying a handle does. `Frame.Fits L f` bounds the frame's blocks together with the
blocks it may still add before its next rebuild by `max 1 ⌈L / 16⌉`. Every allocation step
keeps it for any `L` at least the live count when the allocation started
(`Frame.allocateStep_fits`), and clearing a slot changes no block.

Main statement: `frame_blocks_within_peak`.
-/

namespace Block

/-- A block's handed-out slots are its live slots and its null ones. -/
theorem live_add_nulls (b : Block) :
    b.live + ((List.range b.top).filter fun i => b.slots.getD i 0 == 0).length = b.top := by
  have hsplit : (List.range b.top).length = _ :=
    List.length_eq_countP_add_countP fun i => b.slots.getD i 0 != 0
  have hnull : ((List.range b.top).filter fun i => b.slots.getD i 0 == 0).length =
      (List.range b.top).countP fun i => ¬ (b.slots.getD i 0 != 0) := by
    rw [List.countP_eq_length_filter]
    congr 1
    exact List.filter_congr fun i _ => by cases b.slots.getD i 0 <;> rfl
  rw [hnull, live, livePositions, ← List.countP_eq_length_filter, ← hsplit, List.length_range]

/-- A block that has handed out nothing has no live slot. -/
theorem live_of_top_zero {b : Block} (h : b.top = 0) : b.live = 0 := by
  simp [live, livePositions, h]

end Block

namespace Frame

/-- The live count of the listed blocks, added to `a`. -/
abbrev liveFrom (p : BlockPool) (l : List Nat) (a : Nat) : Nat :=
  l.foldl (fun n b => n + ((p.block? b).map Block.live).getD 0) a

theorem live_eq (f : Frame) (p : BlockPool) : f.live p = liveFrom p f.blocks.toList 0 := by
  rw [live, ← Array.foldl_toList]

/-- Full blocks hand out all their slots, so their live and null slots make up whole blocks. -/
theorem liveFrom_add_nullSlots {p : BlockPool} :
    ∀ (l : List Nat), (∀ b ∈ l, ∃ blk, p.blocks[b]? = some blk ∧ blk.top = blockSlots) →
      ∀ a, liveFrom p l a + (p.nullSlots l).length = a + blockSlots * l.length
  | [], _, a => by simp [BlockPool.nullSlots]
  | b :: l, hfull, a => by
    obtain ⟨blk, hblk, htop⟩ := hfull b List.mem_cons_self
    have hrest := liveFrom_add_nullSlots l (fun c hc => hfull c (List.mem_cons_of_mem b hc))
      (a + blk.live)
    have hblock := blk.live_add_nulls
    have hcur : p.block? b = some blk := hblk
    simp only [liveFrom, List.foldl_cons, hcur, Option.map_some, Option.getD_some] at hrest ⊢
    simp only [BlockPool.nullSlots, List.flatMap_cons, List.length_append, BlockPool.blockNulls,
      hcur, List.length_map, List.length_cons] at hrest ⊢
    rw [Nat.mul_succ]
    omega

/-- The live count reads only the blocks it counts. -/
theorem liveFrom_congr {p p' : BlockPool} :
    ∀ (l : List Nat), (∀ b ∈ l, p'.blocks[b]? = p.blocks[b]?) → ∀ a, liveFrom p' l a = liveFrom p l a
  | [], _, _ => rfl
  | b :: l, h, a => by
    have hb : p'.block? b = p.block? b := h b List.mem_cons_self
    simp only [liveFrom, List.foldl_cons, hb]
    exact liveFrom_congr l (fun c hc => h c (List.mem_cons_of_mem b hc)) _

/-- A frame's blocks and the blocks it may still add before its next rebuild fit in one block
per sixteen of `peak` live handles, and at least one block. -/
def Fits (peak : Nat) (f : Frame) : Prop :=
  f.blocks.size + f.allocBeforeRebuild ≤ max 1 ((peak + 15) / 16)

theorem Fits.mono {L L' : Nat} {f : Frame} (h : f.Fits L) (hL : L ≤ L') : f.Fits L' := by
  unfold Fits at h ⊢
  have : (L + 15) / 16 ≤ (L' + 15) / 16 := Nat.div_le_div_right (by omega)
  omega

/-- The rebuild counter a rebuild from the frame's blocks sets: when fewer than half of the
frame's slots would be free, enough blocks to bring it to twice its free slots; otherwise the
counter as it was. -/
def rebuildCounter (f : Frame) (p : BlockPool) : Nat :=
  let free := f.free.size + (p.nullSlots f.blocks.toList).length
  if f.blocks.size * blockSlots > 2 * free then growthAfterRebuild (f.blocks.size * blockSlots) free
  else f.allocBeforeRebuild

section Steps

variable {others : List Nat} {f : Frame} {p : BlockPool} {L : Nat}

/-- A rebuild from full blocks: the free list gains the null slots, and when fewer than half of
the frame's slots are then free, the frame may add blocks up to twice its free shortfall. -/
theorem rebuild_full_run
    (hfull : ∀ b ∈ f.blocks.toList, ∃ blk, p.blocks[b]? = some blk ∧ blk.top = blockSlots)
    (j : Journal) :
    ∃ j', rebuild ((f, p), j) = .ok () ((f.rebuilt p
      (f.rebuildCounter p), p), j') := by
  simp only [rebuild, bind, EStateM.bind, Action.read_run, collectFree_full p j _ f hfull,
    Action.write_run, Action.emit_run, Array.size_append, List.size_toArray]
  exact ⟨_, rfl⟩

/-- A rebuild of an empty free list from full blocks, due because the frame may add no block,
keeps the bound: it allows blocks up to twice the live handles, which `L` bounds. -/
theorem rebuild_fits (hf : f.Fits L) (hl : f.live p ≤ L) (hfree : f.free = #[])
    (habr : f.allocBeforeRebuild = 0)
    (hfull : ∀ b ∈ f.blocks.toList, ∃ blk, p.blocks[b]? = some blk ∧ blk.top = blockSlots) :
    (f.rebuilt p (f.rebuildCounter p)).Fits L := by
  -- the frame's slots are its live handles and the null slots the rebuild finds
  have hsum := liveFrom_add_nullSlots f.blocks.toList hfull 0
  rw [← live_eq, (Array.length_toList : f.blocks.toList.length = f.blocks.size)] at hsum
  unfold Fits at hf ⊢
  simp only [rebuilt_blocks, rebuilt_allocBeforeRebuild, rebuildCounter, hfree, habr,
    Array.size_empty, Nat.zero_add, growthAfterRebuild]
  simp only [habr, Nat.add_zero] at hf
  unfold blockSlots at hsum ⊢
  split_ifs <;> omega

/-- When a rebuild is due in a packed frame, the step rebuilds the free list from the full
blocks and goes on. -/
theorem allocateStep_rebuild (hp : f.Packed p) {blk : Block}
    (hblk : p.blocks[f.blocks.getD f.last 0]? = some blk) (hfull : blk.top = blockSlots)
    (hfree : f.free = #[]) (habr : f.allocBeforeRebuild = 0) (obj : Nat) (j : Journal) :
    ∃ j', allocateStep obj ((f, p), j) = .ok .again ((f.rebuilt p
      (f.rebuildCounter p), p), j') := by
  have hcur : p.block? (f.blocks.getD f.last 0) = some blk := hblk
  have hbump : blk.bump obj = none := by simp [Block.bump, hfull]
  have hback : f.free.back? = none := by simp [hfree]
  have hnext : ¬ f.last + 1 < f.blocks.size := by
    rw [hp.last_eq]
    exact Nat.lt_irrefl _
  obtain ⟨j', hreb⟩ := rebuild_full_run (hp.all_full hblk hfull) j
  refine ⟨j', ?_⟩
  simp only [allocateStep, bind, EStateM.bind, Action.read_run, hcur, hbump, hback, hnext, habr,
    if_false, if_true, hreb, Action.pure_run]

/-- A block taken from the pool has handed out nothing, so adding it keeps the live count. -/
theorem live_grow {p' : BlockPool} {b : Nat} (ht : BlockPool.Took p b p')
    (hb : b ∉ f.blocks.toList) : (f.grow b).live p' = f.live p := by
  obtain ⟨blk, hblk, -, htop⟩ := ht.taken
  have hnew : p'.block? b = some blk := hblk
  have hkept : liveFrom p' f.blocks.toList 0 = liveFrom p f.blocks.toList 0 :=
    liveFrom_congr _ (fun c hc => ht.others c fun hcb => hb (hcb ▸ hc)) 0
  rw [live_eq, live_eq, grow_blocks, Array.toList_push, ← hkept]
  simp [liveFrom, List.foldl_append, hnew, Block.live_of_top_zero htop]

/-- One allocation step of a packed frame keeps the bound for any `L` at least its live count,
and a step that goes on leaves the live count as it was. -/
theorem allocateStep_fits (h : Holds others (f, p)) (hp : f.Packed p) (hf : f.Fits L)
    (hl : f.live p ≤ L) (obj : Nat) (j : Journal) :
    (Action.final (allocateStep obj ((f, p), j))).1.Fits L ∧
      ∀ s', allocateStep obj ((f, p), j) = .ok .again s' → s'.1.1.live s'.1.2 ≤ L := by
  obtain ⟨blk, hblk⟩ := h.current
  rcases allocateStep_packed_cases h hp hblk obj j with
    ⟨blk', -, hr⟩ | ⟨-, i, -, -, hr⟩ | ⟨hfull, hfree, habr, -⟩ |
    ⟨-, -, habr, ⟨b, p', j', ha, hr⟩ | ⟨-, -, hr⟩⟩
  · rw [hr]
    exact ⟨hf, fun _ hs => by cases hs⟩
  · rw [hr]
    exact ⟨hf, fun _ hs => by cases hs⟩
  · -- a rebuild: the bound comes from the live count, which the rebuild keeps
    obtain ⟨j', hr⟩ := allocateStep_rebuild hp hblk hfull hfree habr obj j
    rw [hr]
    refine ⟨rebuild_fits hf hl hfree habr (hp.all_full hblk hfull), fun _ hs => ?_⟩
    cases hs
    exact hl
  · -- a block added: the frame may add one block fewer, and the new block is empty
    have ht := BlockPool.allocate_took h.pool (fun c hc => h.custody.lt_of_mem (Or.inr hc)) ha
    have hnot : b ∉ f.blocks.toList :=
      fun hm => h.custody.not_mem_took ht (List.mem_append_right _ hm)
    rw [hr]
    refine ⟨?_, fun _ hs => ?_⟩
    · show (f.grow b).Fits L
      unfold Fits at hf ⊢
      simp only [grow_blocks, Array.size_push]
      show f.blocks.size + 1 + (f.allocBeforeRebuild - 1) ≤ _
      omega
    · cases hs
      rw [live_grow ht hnot]
      exact hl
  · rw [hr]
    exact ⟨hf, fun _ hs => by cases hs⟩

/-- The allocation loop of a packed frame keeps the bound, whichever way it ends. -/
theorem allocateLoop_fits (obj : Nat) :
    ∀ (n : Nat) (f : Frame) (p : BlockPool) (j : Journal), Holds others (f, p) → f.Packed p →
      f.Fits L → f.live p ≤ L → (Action.final (allocateLoop obj n ((f, p), j))).1.Fits L
  | 0, f, p, j, _, _, hf, _ => by
    rw [allocateLoop_zero]
    exact hf
  | n + 1, f, p, j, h, hp, hf, hl => by
    have hh := (allocateStep_holds h obj j).1
    have hk := allocateStep_packed h hp obj j
    have hfit := allocateStep_fits h hp hf hl obj j
    rw [allocateLoop_succ]
    rcases hs : allocateStep obj ((f, p), j) with ⟨_ | _, ⟨⟨f', p'⟩, j'⟩⟩ | ⟨e, s'⟩ <;>
      rw [hs] at hh hk hfit
    · exact hfit.1
    · exact allocateLoop_fits obj n f' p' j' hh hk hfit.1 (hfit.2 _ rfl)
    · exact hfit.1

/-- Allocating a handle in a packed frame keeps the bound, whichever way it ends. -/
theorem allocate_fits (h : Holds others (f, p)) (hp : f.Packed p) (hf : f.Fits L)
    (hl : f.live p ≤ L) (obj : Nat) (j : Journal) :
    (Action.final (allocate obj ((f, p), j))).1.Fits L := by
  rw [allocate_run]
  exact allocateLoop_fits obj _ f p j h hp hf hl

/-- Writing a slot keeps a frame inside its pool: no block moves and no top changes. -/
theorem Holds.store (h : Holds others (f, p)) (i v : Nat) : Holds others (f, p.store i v) := by
  refine ⟨h.pool.store i v, h.custody.congr (p.queue_store i v) (p.size_store i v),
    h.frame.of_tops fun b _ blk hblk => ?_⟩
  obtain ⟨blk', hblk', htop, -⟩ := p.top_store i v b blk hblk
  exact ⟨blk', hblk', Nat.le_of_eq htop.symm⟩

end Steps

/-- A call on one frame: allocate a handle for an object, or null a slot, as destroying a local
handle does. -/
inductive Call where
  | allocate (obj : Nat)
  | clear (i : Nat)

namespace Call

/-- The state a call leaves, whether it returned or stopped. -/
def after : Call → (Frame × BlockPool) × Journal → (Frame × BlockPool) × Journal
  | allocate obj, s =>
    match Frame.allocate obj s with
    | .ok _ s' => s'
    | .error _ s' => s'
  | clear i, ((f, p), j) => ((f, p.store i 0), j)

/-- Runs calls in order, each on the state the one before left. -/
def runAll (cs : List Call) (s : (Frame × BlockPool) × Journal) : (Frame × BlockPool) × Journal :=
  cs.foldl (fun s c => c.after s) s

/-- The most live handles the frame holds at any point of a run, its start included. -/
def peak : List Call → (Frame × BlockPool) × Journal → Nat
  | [], s => s.1.1.live s.1.2
  | c :: cs, s => max (s.1.1.live s.1.2) (peak cs (c.after s))

theorem after_allocate_fst (obj : Nat) (s : (Frame × BlockPool) × Journal) :
    ((allocate obj).after s).1 = Action.final (Frame.allocate obj s) := by
  simp only [after]
  cases Frame.allocate obj s <;> rfl

variable {others : List Nat}

/-- One call keeps a packed frame inside its pool and, for any `L` at least its live count,
keeps the bound. -/
theorem after_fits (c : Call) {s : (Frame × BlockPool) × Journal} {L : Nat}
    (h : Holds others s.1) (hp : s.1.1.Packed s.1.2) (hf : s.1.1.Fits L)
    (hl : s.1.1.live s.1.2 ≤ L) :
    Holds others (c.after s).1 ∧ (c.after s).1.1.Packed (c.after s).1.2 ∧
      (c.after s).1.1.Fits L := by
  obtain ⟨⟨f, p⟩, j⟩ := s
  cases c with
  | allocate obj =>
    rw [after_allocate_fst]
    exact ⟨(allocate_holds h obj j).1, allocate_packed h hp obj j, allocate_fits h hp hf hl obj j⟩
  | clear i => exact ⟨h.store i 0, hp.store_zero i, hf⟩

/-- A run of calls on a packed frame keeps the bound for the larger of `L` and the run's
peak. -/
theorem runAll_fits :
    ∀ (cs : List Call) (s : (Frame × BlockPool) × Journal) (L : Nat), Holds others s.1 →
      s.1.1.Packed s.1.2 → s.1.1.Fits L → (runAll cs s).1.1.Fits (max L (peak cs s))
  | [], s, L, _, _, hf => hf.mono (Nat.le_max_left _ _)
  | c :: cs, s, L, h, hp, hf => by
    -- the live count at the start joins the bound before the call runs
    have hf' : s.1.1.Fits (max L (s.1.1.live s.1.2)) := hf.mono (Nat.le_max_left _ _)
    obtain ⟨h₁, hp₁, hf₁⟩ := c.after_fits h hp hf' (Nat.le_max_right _ _)
    have hrest := runAll_fits cs (c.after s) _ h₁ hp₁ hf₁
    rw [Nat.max_assoc] at hrest
    exact hrest

end Call

end Frame

/-- A frame that starts as a new chain, with one block from the pool, and then serves any run
of allocations and slot clears, never holds more than `max 1 ⌈L / 16⌉` blocks, where `L` is the
most handles it held live at any point of the run: at most twice the peak live count in slots,
plus one block. -/
theorem frame_blocks_within_peak {others : List Nat} {p : BlockPool} (hp : p.Sound)
    (hc : p.Custody others) {f : Frame} {p₀ : BlockPool} {j j₀ : Journal}
    (hnew : Frame.create (p, j) = .ok f (p₀, j₀)) (cs : List Frame.Call) :
    (Frame.Call.runAll cs ((f, p₀), j₀)).1.1.blocks.size ≤
        max 1 ((Frame.Call.peak cs ((f, p₀), j₀) + 15) / 16) ∧
      blockSlots * (Frame.Call.runAll cs ((f, p₀), j₀)).1.1.blocks.size ≤
        2 * Frame.Call.peak cs ((f, p₀), j₀) + blockSlots := by
  rcases Frame.create_cases p j with ⟨b, p', j', ha, hcr⟩ | ⟨e, hcr⟩ <;> rw [hcr] at hnew
  · cases hnew
    have ht := BlockPool.allocate_took hp (fun c hc' => hc.lt_of_mem (Or.inr hc')) ha
    -- a new frame has one block and may add none before its first rebuild
    have hf₀ : ({ blocks := #[b] } : Frame).Fits 0 := by simp [Frame.Fits]
    have hfit := Frame.Call.runAll_fits cs (({ blocks := #[b] }, p₀), j₀) 0
      (Frame.holds_create hp hc ht) (Frame.packed_create b p₀) hf₀
    unfold Frame.Fits at hfit
    rw [Nat.zero_max] at hfit
    unfold blockSlots
    constructor <;> omega
  · cases hnew

/-- A new frame on an empty pool of four blocks, serving thirty-three allocations. -/
theorem thirty_three_handles_within_peak :
    ({ capacity := 4 } : BlockPool).Sound ∧ BlockPool.Custody [] { capacity := 4 } ∧
      Frame.create ({ capacity := 4 }, {}) = .ok { blocks := #[0] }
        ({ capacity := 4, blocks := #[{}] }, { entries := #[.arenaChunk 0 16, .blockAllocated 0] }) ∧
      (Frame.Call.runAll ((List.range 33).map .allocate) (({ blocks := #[0] },
          { capacity := 4, blocks := #[{}] }), { entries := #[.arenaChunk 0 16, .blockAllocated 0] })
        ).1.1.blocks.size ≤ max 1 ((Frame.Call.peak ((List.range 33).map .allocate)
          (({ blocks := #[0] }, { capacity := 4, blocks := #[{}] }),
            { entries := #[.arenaChunk 0 16, .blockAllocated 0] }) + 15) / 16) ∧
      blockSlots * (Frame.Call.runAll ((List.range 33).map .allocate) (({ blocks := #[0] },
          { capacity := 4, blocks := #[{}] }), { entries := #[.arenaChunk 0 16, .blockAllocated 0] })
        ).1.1.blocks.size ≤ 2 * Frame.Call.peak ((List.range 33).map .allocate)
          (({ blocks := #[0] }, { capacity := 4, blocks := #[{}] }),
            { entries := #[.arenaChunk 0 16, .blockAllocated 0] }) + blockSlots := by
  have hp : ({ capacity := 4 } : BlockPool).Sound :=
    ⟨fun _ _ h => by simp at h, fun _ h => by simp at h⟩
  have hc : BlockPool.Custody [] { capacity := 4 } := List.Perm.refl _
  have hnew : Frame.create ({ capacity := 4 }, {}) = .ok { blocks := #[0] }
      ({ capacity := 4, blocks := #[{}] }, { entries := #[.arenaChunk 0 16, .blockAllocated 0] }) :=
    rfl
  exact ⟨hp, hc, hnew, frame_blocks_within_peak hp hc hnew _⟩

end GcRoots

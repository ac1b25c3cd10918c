import GcRoots.Proofs.Scoping

namespace GcRoots

/-!
# Local allocation takes at most three steps

A frame allocates a handle by a loop of steps whose fuel is generous. In every chain that the
thread operations build, the loop needs at most three steps, and the slot it hands out is fixed
in advance (`Frame.choice`): the next slot of the block in use; else the last free entry; else,
when a rebuild is due, the last null slot of the frame's blocks; else the first slot of the
block the pool gives next.

This rests on one invariant of frames, `Frame.Packed`: the frame is on its last block, each of
its other blocks is full, and its free entries are distinct slots that read null. So the step
that moves on to a later block never runs, a free entry is never in use, and a rebuild never
meets a block with slots left. Every allocation step keeps the invariant
(`Frame.allocateStep_packed`), and so does every operation on threads and their frames
(`Op.packed_after`).

`Frame.EndsWithin obj n s` says that the loop started from `s` stops, with an index or a fault,
within `n` steps; more fuel then changes nothing (`Frame.allocateLoop_of_endsWithin`).

Main statements: `Frame.allocate_packed_result` (in a packed frame of a clean pool, allocation
stops within three steps with the chosen slot or an exhausted pool) and
`local_allocation_within_three_steps` (the same in every chain the thread operations reach).
-/

namespace BlockPool

/-- The slots of a pool after block `c` was replaced: those of block `c` come from the new
block. -/
theorem slot?_set_block {p : BlockPool} {c : Nat} (hc : c < p.blocks.size) (x : Block) (k : Nat) :
    ({ p with blocks := p.blocks.set! c x } : BlockPool).slot? k =
      if k / blockSlots = c then some (x.slots.getD (k % blockSlots) 0) else p.slot? k := by
  simp only [slot?, Array.getElem?_set!_of_lt hc]
  by_cases hk : k / blockSlots = c
  · simp [hk]
  · rw [if_neg (Ne.symm hk), if_neg hk]

/-- Writing a slot leaves every other slot as it was. -/
theorem slot?_store_ne (p : BlockPool) {i k : Nat} (v : Nat) (hk : k ≠ i) :
    (p.store i v).slot? k = p.slot? k := by
  rcases store_cases p i v with h | ⟨blk, hblk, h⟩ <;> rw [h]
  have hlt : i / blockSlots < p.blocks.size := (Array.getElem?_eq_some_iff.mp hblk).1
  rw [slot?_set_block hlt]
  split
  · rename_i hb
    -- the same block, so another position in it
    have hm : i % blockSlots ≠ k % blockSlots := fun hm =>
      hk (by rw [← Nat.div_add_mod k blockSlots, ← Nat.div_add_mod i blockSlots, hb, hm])
    rw [Array.getD_set!, if_neg fun h => hm h.1]
    simp [slot?, hb, hblk]
  · rfl

/-- Nulling a slot keeps every slot that read null reading null. -/
theorem slot?_store_zero {p : BlockPool} {i : Nat} (hi : p.slot? i = some 0) (k : Nat) :
    (p.store k 0).slot? i = some 0 := by
  by_cases hik : i = k
  · subst hik
    rcases store_cases p i 0 with h | ⟨blk, hblk, h⟩ <;> rw [h]
    · exact hi
    · have hlt : i / blockSlots < p.blocks.size := (Array.getElem?_eq_some_iff.mp hblk).1
      have hnull : blk.slots.getD (i % blockSlots) 0 = 0 := by simpa [slot?, hblk] using hi
      rw [slot?_set_block hlt, if_pos rfl, Array.getD_set!]
      split <;> simp [hnull]
  · rw [slot?_store_ne p 0 hik]
    exact hi

/-- Handing out the next slot of block `c` changes that slot alone. -/
theorem slot?_bump {p : BlockPool} {c : Nat} {blk blk' : Block} {obj k : Nat}
    (hblk : p.blocks[c]? = some blk) (hb : blk.bump obj = some (blk', k)) {i : Nat}
    (hi : i ≠ c * blockSlots + k) :
    ({ p with blocks := p.blocks.set! c blk' } : BlockPool).slot? i = p.slot? i := by
  obtain ⟨rfl, -, rfl⟩ := Block.bump_eq_some hb
  have hlt : c < p.blocks.size := (Array.getElem?_eq_some_iff.mp hblk).1
  rw [slot?_set_block hlt]
  split
  · rename_i hic
    have hm : blk.top ≠ i % blockSlots := fun hm =>
      hi (by rw [← Nat.div_add_mod i blockSlots, hic, ← hm, Nat.mul_comm])
    rw [Array.getD_set!, if_neg fun h => hm h.1]
    simp [slot?, hic, hblk]
  · rfl

/-- In a clean pool the next slot of a block reads null. -/
theorem Clean.slot?_top {p : BlockPool} (hc : p.Clean) {c : Nat} {blk : Block}
    (hblk : p.blocks[c]? = some blk) (htop : blk.top < blockSlots) :
    p.slot? (c * blockSlots + blk.top) = some 0 := by
  simp only [slot?, index_div htop, index_mod htop, hblk, Option.map_some]
  rw [hc c blk hblk blk.top (Nat.le_refl _)]

/-- The null slots block `b` has handed out, in order. -/
def blockNulls (p : BlockPool) (b : Nat) : List Nat :=
  match p.block? b with
  | some blk => ((List.range blk.top).filter fun i => blk.slots.getD i 0 == 0).map
      fun i => b * blockSlots + i
  | none => []

/-- The null slots the given blocks have handed out, block by block: what a rebuild of the free
list from these blocks finds. -/
def nullSlots (p : BlockPool) (bs : List Nat) : List Nat := bs.flatMap p.blockNulls

/-- A null slot that block `b` handed out lies in block `b`, below its top, and reads null. -/
theorem mem_blockNulls {p : BlockPool} (hp : p.Sound) {b i : Nat} (hi : i ∈ p.blockNulls b) :
    i / blockSlots = b ∧ ∃ blk, p.blocks[b]? = some blk ∧ i % blockSlots < blk.top ∧
      blk.slots.getD (i % blockSlots) 0 = 0 := by
  unfold blockNulls block? at hi
  rcases hblk : p.blocks[b]? with _ | blk <;> rw [hblk] at hi
  · cases hi
  · obtain ⟨k, hk, rfl⟩ := List.mem_map.mp hi
    obtain ⟨hk, hnull⟩ := List.mem_filter.mp hk
    have hk' : k < blk.top := List.mem_range.mp hk
    have hk32 : k < blockSlots := Nat.lt_of_lt_of_le hk' (hp.blocks b blk hblk).top_le
    rw [index_div hk32, index_mod hk32]
    exact ⟨rfl, blk, rfl, hk', by simpa using hnull⟩

/-- A null slot of the given blocks lies in one of them, below its top, and reads null. -/
theorem mem_nullSlots {p : BlockPool} (hp : p.Sound) {bs : List Nat} {i : Nat}
    (hi : i ∈ p.nullSlots bs) :
    i / blockSlots ∈ bs ∧ ∃ blk, p.blocks[i / blockSlots]? = some blk ∧
      i % blockSlots < blk.top ∧ blk.slots.getD (i % blockSlots) 0 = 0 := by
  obtain ⟨b, hb, hi⟩ := List.mem_flatMap.mp hi
  obtain ⟨rfl, rest⟩ := mem_blockNulls hp hi
  exact ⟨hb, rest⟩

/-- The null slots of distinct blocks are distinct. -/
theorem nullSlots_nodup {p : BlockPool} (hp : p.Sound) {bs : List Nat} (hbs : bs.Nodup) :
    (p.nullSlots bs).Nodup := by
  unfold nullSlots List.Nodup
  refine List.pairwise_flatMap.mpr ⟨fun b _ => ?_, hbs.imp ?_⟩
  · unfold blockNulls
    split
    · exact List.pairwise_map.mpr ((List.nodup_range.filter _).imp fun hne heq => hne (by omega))
    · exact List.Pairwise.nil
  · -- a slot lies in one block
    intro b₁ b₂ hne x hx y hy hxy
    exact hne (by rw [← (mem_blockNulls hp hx).1, ← (mem_blockNulls hp hy).1, hxy])

/-- The block the pool gives next: the head of its queue, else the next block of its arena. -/
def nextBlock (p : BlockPool) : Nat :=
  match p.queue with
  | b :: _ => b
  | [] => p.blocks.size

/-- The block taken from the pool is the one it gives next. -/
theorem Took.eq_nextBlock {p p' : BlockPool} {b : Nat} (ht : Took p b p') : b = p.nextBlock := by
  unfold nextBlock
  rcases ht.source with ⟨hq, _⟩ | ⟨hq, _, hb, _⟩ <;> rw [hq]
  exact hb

/-- In a sound and clean pool the block given next reads null: a queued block was cleared, and
the next block of the arena does not exist yet. -/
theorem slot?_nextBlock {p : BlockPool} (hp : p.Sound) (hc : p.Clean) {k : Nat}
    (hk : k / blockSlots = p.nextBlock) : (p.slot? k).getD 0 = 0 := by
  unfold slot?
  rw [hk]
  unfold nextBlock
  split
  · rename_i b rest hq
    rcases hblk : p.blocks[b]? with _ | blk
    · rfl
    · simp only [Option.map_some, Option.getD_some]
      exact hc.queued_null hp (by rw [hq]; exact List.mem_cons_self) hblk _
  · simp

/-- Taking a block from a sound and clean pool changes what no slot reads. -/
theorem Took.slot?_getD {p p' : BlockPool} {b : Nat} (hp : p.Sound) (hc : p.Clean)
    (ht : Took p b p') (k : Nat) : (p'.slot? k).getD 0 = (p.slot? k).getD 0 := by
  by_cases hk : k / blockSlots = b
  · have h0 := slot?_nextBlock hp hc (hk.trans ht.eq_nextBlock)
    rw [h0]
    rcases ht.block with hb | hb
    · have hsame : p'.slot? k = p.slot? k := by simp only [slot?, hk, hb]
      rw [hsame]
      exact h0
    · simp only [slot?, hk, hb, Option.map_some, Option.getD_some]
      exact Block.clean_empty _ (Nat.zero_le _)
  · simp only [slot?, ht.others _ hk]

end BlockPool

namespace Frame

/-- A packed frame: it is on its last block, each of its other blocks is full, and its free
entries are distinct slots that read null. -/
structure Packed (f : Frame) (p : BlockPool) : Prop where
  last_eq : f.last + 1 = f.blocks.size
  full : ∀ b ∈ f.blocks.toList, b ≠ f.blocks.getD f.last 0 →
    ∃ blk, p.blocks[b]? = some blk ∧ blk.top = blockSlots
  free_null : ∀ i ∈ f.free.toList, p.slot? i = some 0
  free_nodup : f.free.toList.Nodup

/-- The local index allocation hands out in a packed frame, by the first rule that applies:
the next slot of the block in use; the last free entry; when a rebuild is due, the last null
slot of the frame's blocks; the first slot of the block the pool gives next. -/
def choice (f : Frame) (p : BlockPool) : Nat :=
  let cur := f.blocks.getD f.last 0
  let top := ((p.block? cur).map Block.top).getD blockSlots
  if top < blockSlots then cur * blockSlots + top
  else (f.free.back?.or (if f.allocBeforeRebuild = 0 then (p.nullSlots f.blocks.toList).getLast?
    else none)).getD (p.nextBlock * blockSlots)

/-- The allocation loop started from `s` stops, with a local index or a fault, within `n`
steps. -/
def EndsWithin (obj : Nat) : Nat → (Frame × BlockPool) × Journal → Prop
  | 0, _ => False
  | n + 1, s =>
    match allocateStep obj s with
    | .ok (.done _) _ => True
    | .ok .again s' => EndsWithin obj n s'
    | .error _ _ => True

/-- Allocation result `r` hands out local index `i` for `obj`: the slot read null in `p`, it is
now a handed-out slot of the frame holding `obj`, and every other slot reads as it did in `p`. -/
def Fills (p : BlockPool) (i obj : Nat)
    (r : EStateM.Result Fault ((Frame × BlockPool) × Journal) Nat) : Prop :=
  ∃ s, r = .ok i s ∧ (p.slot? i).getD 0 = 0 ∧ Gave s.1 i obj ∧
    ∀ k ≠ i, (s.1.2.slot? k).getD 0 = (p.slot? k).getD 0

/-- Allocation result `r` is the fault of a pool without a block to give: its queue was empty
and its arena full. -/
def Exhausts (p : BlockPool) (r : EStateM.Result Fault ((Frame × BlockPool) × Journal) Nat) :
    Prop :=
  ∃ s, r = .error (.blocksExhausted p.capacity) s ∧ p.queue = [] ∧ p.capacity ≤ p.blocks.size

/-- The frame after a rebuild of its free list from its full blocks, with rebuild counter
`abr`. -/
def rebuilt (f : Frame) (p : BlockPool) (abr : Nat) : Frame :=
  { f with free := f.free ++ (p.nullSlots f.blocks.toList).toArray, allocBeforeRebuild := abr }

@[simp] theorem rebuilt_blocks (f : Frame) (p : BlockPool) (abr : Nat) :
    (f.rebuilt p abr).blocks = f.blocks := rfl

@[simp] theorem rebuilt_free (f : Frame) (p : BlockPool) (abr : Nat) :
    (f.rebuilt p abr).free = f.free ++ (p.nullSlots f.blocks.toList).toArray := rfl

@[simp] theorem rebuilt_allocBeforeRebuild (f : Frame) (p : BlockPool) (abr : Nat) :
    (f.rebuilt p abr).allocBeforeRebuild = abr := rfl

section Choice

variable {f : Frame} {p : BlockPool} {blk : Block}

/-- While the block in use has a slot left, allocation chooses that slot. -/
theorem choice_bump (hblk : p.blocks[f.blocks.getD f.last 0]? = some blk)
    (htop : blk.top < blockSlots) : f.choice p = f.blocks.getD f.last 0 * blockSlots + blk.top := by
  simp only [choice, BlockPool.block?, hblk, Option.map_some, Option.getD_some, if_pos htop]

/-- Once the block in use is full, allocation chooses the last free entry, else the last null
slot when a rebuild is due, else the first slot of the block the pool gives next. -/
theorem choice_full (hblk : p.blocks[f.blocks.getD f.last 0]? = some blk)
    (hfull : blk.top = blockSlots) :
    f.choice p = (f.free.back?.or (if f.allocBeforeRebuild = 0
      then (p.nullSlots f.blocks.toList).getLast? else none)).getD (p.nextBlock * blockSlots) := by
  simp only [choice, BlockPool.block?, hblk, Option.map_some, Option.getD_some, hfull,
    Nat.lt_irrefl, if_false]

end Choice

section Loop

variable {obj n i : Nat} {s s' : (Frame × BlockPool) × Journal}

theorem endsWithin_done (h : allocateStep obj s = .ok (.done i) s') : EndsWithin obj (n + 1) s := by
  simp only [EndsWithin, h]

theorem endsWithin_again (h : allocateStep obj s = .ok .again s') :
    EndsWithin obj (n + 1) s ↔ EndsWithin obj n s' := by
  simp only [EndsWithin, h]

theorem endsWithin_error {e : Fault} (h : allocateStep obj s = .error e s') :
    EndsWithin obj (n + 1) s := by
  simp only [EndsWithin, h]

theorem allocateLoop_done (h : allocateStep obj s = .ok (.done i) s') :
    allocateLoop obj (n + 1) s = .ok i s' := by
  rw [allocateLoop_succ, h]

theorem allocateLoop_again (h : allocateStep obj s = .ok .again s') :
    allocateLoop obj (n + 1) s = allocateLoop obj n s' := by
  rw [allocateLoop_succ, h]

theorem allocateLoop_fails {e : Fault} (h : allocateStep obj s = .error e s') :
    allocateLoop obj (n + 1) s = .error e s' := by
  rw [allocateLoop_succ, h]

end Loop

/-- A loop that stops within `k` steps gives the same result with any more fuel. -/
theorem allocateLoop_of_endsWithin (obj : Nat) :
    ∀ (k n : Nat) (s : (Frame × BlockPool) × Journal), EndsWithin obj k s → k ≤ n →
      allocateLoop obj n s = allocateLoop obj k s
  | 0, _, _, h, _ => h.elim
  | k + 1, n, s, h, hk => by
    obtain ⟨m, rfl⟩ : ∃ m, n = m + 1 := ⟨n - 1, by omega⟩
    rcases hs : allocateStep obj s with ⟨_ | _, s'⟩ | ⟨e, s'⟩
    · rw [allocateLoop_done hs, allocateLoop_done hs]
    · rw [allocateLoop_again hs, allocateLoop_again hs]
      exact allocateLoop_of_endsWithin obj k m s' ((endsWithin_again hs).mp h) (by omega)
    · rw [allocateLoop_fails hs, allocateLoop_fails hs]

/-- A loop that stops within `k` steps stops within any larger number of steps. -/
theorem EndsWithin.mono {obj : Nat} :
    ∀ {k n : Nat} {s : (Frame × BlockPool) × Journal}, EndsWithin obj k s → k ≤ n → EndsWithin obj n s
  | 0, _, _, h, _ => h.elim
  | k + 1, n, s, h, hk => by
    obtain ⟨m, rfl⟩ : ∃ m, n = m + 1 := ⟨n - 1, by omega⟩
    rcases hs : allocateStep obj s with ⟨_ | _, s'⟩ | ⟨e, s'⟩
    · exact endsWithin_done hs
    · exact (endsWithin_again hs).mpr (EndsWithin.mono ((endsWithin_again hs).mp h) (by omega))
    · exact endsWithin_error hs

section Packed

variable {others : List Nat} {f : Frame} {p : BlockPool}

/-- The block in use exists in the pool. -/
theorem Holds.current (h : Holds others (f, p)) :
    ∃ blk, p.blocks[f.blocks.getD f.last 0]? = some blk :=
  ⟨_, Array.getElem?_eq_getElem
    (h.custody.lt_of_mem (Or.inl (List.mem_append_right others h.frame.current_mem)))⟩

/-- A frame holds each of its blocks once. -/
theorem Holds.blocks_nodup (h : Holds others (f, p)) : f.blocks.toList.Nodup :=
  (List.nodup_append.mp (List.nodup_append.mp h.custody.nodup).1).2.1

/-- A frame of one block is packed. -/
theorem packed_create (b : Nat) (p : BlockPool) : ({ blocks := #[b] } : Frame).Packed p := by
  refine ⟨rfl, fun c hc hne => ?_, by simp, by simp⟩
  simp at hc
  simp [hc] at hne

namespace Packed

variable {p' : BlockPool}

/-- In a packed frame whose block in use is full, every block is full. -/
theorem all_full (hp : f.Packed p) {blk : Block} (hblk : p.blocks[f.blocks.getD f.last 0]? = some blk)
    (hfull : blk.top = blockSlots) :
    ∀ b ∈ f.blocks.toList, ∃ blk, p.blocks[b]? = some blk ∧ blk.top = blockSlots := by
  intro b hb
  by_cases hcur : b = f.blocks.getD f.last 0
  · exact ⟨blk, by rw [hcur]; exact hblk, hfull⟩
  · exact hp.full b hb hcur

/-- Writing a slot keeps the full blocks full. -/
theorem full_store (hp : f.Packed p) (i v : Nat) :
    ∀ b ∈ f.blocks.toList, b ≠ f.blocks.getD f.last 0 →
      ∃ blk, (p.store i v).blocks[b]? = some blk ∧ blk.top = blockSlots := by
  intro b hb hne
  obtain ⟨blk, hblk, htop⟩ := hp.full b hb hne
  obtain ⟨blk', hblk', htop', -⟩ := p.top_store i v b blk hblk
  exact ⟨blk', hblk', htop'.trans htop⟩

/-- A packed frame stays packed in a pool that left its blocks as they were. -/
theorem untouched (hp : f.Packed p) (hs : f.Sound p)
    (hu : ∀ b ∈ f.blocks.toList, p'.blocks[b]? = p.blocks[b]?) : f.Packed p' := by
  refine ⟨hp.last_eq, fun b hb hne => ?_, fun i hi => ?_, hp.free_nodup⟩
  · rw [hu b hb]
    exact hp.full b hb hne
  · have hsame : p'.slot? i = p.slot? i := by simp only [BlockPool.slot?, hu _ (hs.free i hi).1]
    rw [hsame]
    exact hp.free_null i hi

/-- Nulling any slot keeps a frame packed. -/
theorem store_zero (hp : f.Packed p) (k : Nat) : f.Packed (p.store k 0) :=
  ⟨hp.last_eq, hp.full_store k 0, fun i hi => BlockPool.slot?_store_zero (hp.free_null i hi) k,
    hp.free_nodup⟩

/-- Handing out the next slot of the block in use keeps a frame packed. -/
theorem bump (hp : f.Packed p) (hs : f.Sound p) {blk blk' : Block} {obj k : Nat}
    (hblk : p.blocks[f.blocks.getD f.last 0]? = some blk) (hb : blk.bump obj = some (blk', k)) :
    f.Packed { p with blocks := p.blocks.set! (f.blocks.getD f.last 0) blk' } := by
  have hlt := (Array.getElem?_eq_some_iff.mp hblk).1
  refine ⟨hp.last_eq, fun b hb hne => ?_, fun i hi => ?_, hp.free_nodup⟩
  · rw [Array.getElem?_set!_of_lt hlt, if_neg (Ne.symm hne)]
    exact hp.full b hb hne
  · rw [BlockPool.slot?_bump hblk hb]
    · exact hp.free_null i hi
    -- a free entry lies below its block's top, so it is not the slot handed out
    · intro hik
      obtain ⟨-, blk₀, hblk₀, htop⟩ := hs.free i hi
      obtain ⟨rfl, hk, -⟩ := Block.bump_eq_some hb
      rw [hik, BlockPool.index_div hk, hblk] at hblk₀
      cases hblk₀
      rw [hik, BlockPool.index_mod hk] at htop
      exact Nat.lt_irrefl _ htop

/-- Handing out the last free entry keeps a frame packed. -/
theorem fill (hp : f.Packed p) {i : Nat} (hi : f.free.back? = some i) (obj : Nat) :
    ({ f with free := f.free.pop } : Frame).Packed (p.store i obj) := by
  have hsplit : f.free.toList = f.free.pop.toList ++ [i] := by
    rw [Array.toList_pop]
    exact (List.dropLast_append_getLast? i (by simpa using hi)).symm
  have hnd := hp.free_nodup
  rw [hsplit] at hnd
  refine ⟨hp.last_eq, hp.full_store i obj, fun k hk => ?_, (List.nodup_append.mp hnd).1⟩
  -- the entries left are distinct from the one handed out
  have hki : k ≠ i := (List.nodup_append.mp hnd).2.2 k hk i (List.mem_singleton_self i)
  rw [BlockPool.slot?_store_ne p obj hki]
  exact hp.free_null k (by rw [hsplit]; exact List.mem_append_left _ hk)

/-- Rebuilding an empty free list from full blocks leaves a packed frame. -/
theorem rebuilt (hp : f.Packed p) (hps : p.Sound) (hnd : f.blocks.toList.Nodup)
    (hfree : f.free = #[]) (abr : Nat) :
    (f.rebuilt p abr).Packed p := by
  refine ⟨hp.last_eq, hp.full, fun i hi => ?_, ?_⟩
  · have hi' : i ∈ p.nullSlots f.blocks.toList := by simpa [rebuilt, hfree] using hi
    obtain ⟨-, blk, hblk, -, hnull⟩ := BlockPool.mem_nullSlots hps hi'
    simp only [BlockPool.slot?, hblk, Option.map_some, hnull]
  · simpa [rebuilt, hfree] using BlockPool.nullSlots_nodup hps hnd

/-- Adding a block taken from the pool, once the block in use is full and no free entry is
left, keeps a frame packed. -/
theorem grow (hp : f.Packed p) {blk : Block} (hblk : p.blocks[f.blocks.getD f.last 0]? = some blk)
    (hfull : blk.top = blockSlots) (hfree : f.free = #[]) {b : Nat} (ht : BlockPool.Took p b p') :
    (f.grow b).Packed p' := by
  have hcur : (f.grow b).blocks.getD (f.grow b).last 0 = b := by simp [hp.last_eq]
  refine ⟨by simp [hp.last_eq], fun c hc hne => ?_, by simp [hfree], by simp [hfree]⟩
  rw [hcur] at hne
  have hc' : c ∈ f.blocks.toList := by simpa [hne] using hc
  rw [ht.others c hne]
  exact hp.all_full hblk hfull c hc'

end Packed

/-- A rebuild of the free list from full blocks finds their null slots, block by block. -/
theorem collectFree_full (p : BlockPool) (j : Journal) : ∀ (bs : List Nat) (f : Frame),
    (∀ b ∈ bs, ∃ blk, p.blocks[b]? = some blk ∧ blk.top = blockSlots) →
      collectFree bs ((f, p), j) =
        .ok () (({ f with free := f.free ++ (p.nullSlots bs).toArray }, p), j)
  | [], f, _ => by simp [collectFree, BlockPool.nullSlots]
  | b :: bs, f, hfull => by
    obtain ⟨blk, hblk, htop⟩ := hfull b List.mem_cons_self
    have hcur : p.block? b = some blk := hblk
    simp only [collectFree, bind, EStateM.bind, Action.read_run, hcur, if_pos htop, Action.write_run]
    rw [collectFree_full p j bs _ fun c hc => hfull c (List.mem_cons_of_mem b hc)]
    simp [BlockPool.nullSlots, BlockPool.blockNulls, hcur, Array.append_assoc]

/-- A rebuild of a frame whose blocks are all full finishes: the free list gains the null slots
of the frame's blocks, and a frame without free entries that found none may add a block. -/
theorem rebuild_full (hb : 0 < f.blocks.size) (hfree : f.free = #[])
    (hfull : ∀ b ∈ f.blocks.toList, ∃ blk, p.blocks[b]? = some blk ∧ blk.top = blockSlots)
    (j : Journal) :
    ∃ abr j', rebuild ((f, p), j) = .ok () ((f.rebuilt p abr, p), j') ∧
      (p.nullSlots f.blocks.toList = [] → abr ≠ 0) := by
  simp only [rebuild, bind, EStateM.bind, Action.read_run, collectFree_full p j _ f hfull,
    Action.write_run, Action.emit_run]
  refine ⟨_, _, rfl, fun hz => ?_⟩
  -- with nothing found, the counter is set from the frame's slots, of which it has some
  have hpos : f.blocks.size * blockSlots > 2 * 0 := Nat.mul_pos hb (by decide)
  have hsize : (f.free ++ (p.nullSlots f.blocks.toList).toArray).size = 0 := by simp [hfree, hz]
  simp only [hsize, if_pos hpos, growthAfterRebuild]
  unfold blockSlots at hpos ⊢
  omega

/-- Everything one allocation step can do in a packed frame whose block in use is `blk`: hand
out the block's next slot; hand out the last free entry, which reads null; rebuild the free list
from the full blocks; or take a block from the pool, which fails only when the pool is
exhausted. -/
theorem allocateStep_packed_cases (h : Holds others (f, p)) (hp : f.Packed p) {blk : Block}
    (hblk : p.blocks[f.blocks.getD f.last 0]? = some blk) (obj : Nat) (j : Journal) :
    (∃ blk', blk.bump obj = some (blk', blk.top) ∧ allocateStep obj ((f, p), j) =
      .ok (.done (f.blocks.getD f.last 0 * blockSlots + blk.top))
        ((f, { p with blocks := p.blocks.set! (f.blocks.getD f.last 0) blk' }), j)) ∨
    (blk.top = blockSlots ∧ ∃ i, f.free.back? = some i ∧ p.slot? i = some 0 ∧
      allocateStep obj ((f, p), j) =
        .ok (.done i) (({ f with free := f.free.pop }, p.store i obj), j)) ∨
    (blk.top = blockSlots ∧ f.free = #[] ∧ f.allocBeforeRebuild = 0 ∧ ∃ abr j',
      allocateStep obj ((f, p), j) = .ok .again ((f.rebuilt p abr, p), j') ∧
      (p.nullSlots f.blocks.toList = [] → abr ≠ 0)) ∨
    (blk.top = blockSlots ∧ f.free = #[] ∧ f.allocBeforeRebuild ≠ 0 ∧
      ((∃ b p' j', BlockPool.allocate (p, j) = .ok b (p', j') ∧
        allocateStep obj ((f, p), j) = .ok .again ((f.grow b, p'), j')) ∨
       (p.queue = [] ∧ p.capacity ≤ p.blocks.size ∧
        allocateStep obj ((f, p), j) = .error (.blocksExhausted p.capacity) ((f, p), j)))) := by
  have hcur : p.block? (f.blocks.getD f.last 0) = some blk := hblk
  rcases hbump : blk.bump obj with _ | ⟨blk', k⟩
  swap
  · -- the block in use has a slot left
    obtain ⟨rfl, -, -⟩ := Block.bump_eq_some hbump
    exact Or.inl ⟨blk', rfl, by simp only [allocateStep, bind, EStateM.bind, Action.read_run, hcur,
      hbump, Action.write_run, Action.pure_run]⟩
  right
  have hfull : blk.top = blockSlots := by
    have hle := (h.pool.blocks _ blk hblk).top_le
    by_contra hne
    simp [Block.bump, Nat.lt_of_le_of_ne hle hne] at hbump
  rcases hfree : f.free.back? with _ | i
  · -- no free entry: the frame is on its last block, so it rebuilds or takes a block
    have hempty : f.free = #[] := Array.back?_eq_none_iff.mp hfree
    have hnext : ¬ f.last + 1 < f.blocks.size := by
      rw [hp.last_eq]
      exact Nat.lt_irrefl _
    right
    by_cases habr : f.allocBeforeRebuild = 0
    · left
      have hbs : 0 < f.blocks.size := by
        rw [← hp.last_eq]
        exact Nat.succ_pos _
      obtain ⟨abr, j', hreb, habr'⟩ := rebuild_full hbs hempty (hp.all_full hblk hfull) j
      refine ⟨hfull, hempty, habr, abr, j', ?_, habr'⟩
      simp only [allocateStep, bind, EStateM.bind, Action.read_run, hcur, hbump, hfree, hnext, habr,
        if_false, if_true, hreb, Action.pure_run]
    · right
      refine ⟨hfull, hempty, habr, ?_⟩
      simp only [allocateStep, bind, EStateM.bind, Action.read_run, hcur, hbump, hfree, hnext, habr,
        if_false]
      rcases BlockPool.allocate_cases p j with ⟨b, rest, _, ha⟩ | ⟨_, _, j', ha⟩ | ⟨hq, hcap, ha⟩
      · exact Or.inl ⟨b, _, j, ha, by rw [Action.focus_ok ha]; rfl⟩
      · exact Or.inl ⟨_, _, j', ha, by rw [Action.focus_ok ha]; rfl⟩
      · exact Or.inr ⟨hq, Nat.le_of_not_lt hcap, by rw [Action.focus_error ha]⟩
  · have hv : p.slot? i = some 0 := hp.free_null i (by simpa using Array.mem_of_back? hfree)
    exact Or.inl ⟨hfull, i, rfl, hv, by simp only [allocateStep, bind, EStateM.bind, Action.read_run,
      hcur, hbump, hfree, hv, if_true, Action.write_run, Action.pure_run]⟩

/-- One allocation step keeps a frame packed, whichever way it ends. -/
theorem allocateStep_packed (h : Holds others (f, p)) (hp : f.Packed p) (obj : Nat) (j : Journal) :
    (Action.final (allocateStep obj ((f, p), j))).1.Packed
      (Action.final (allocateStep obj ((f, p), j))).2 := by
  obtain ⟨blk, hblk⟩ := h.current
  rcases allocateStep_packed_cases h hp hblk obj j with
    ⟨blk', hb, hr⟩ | ⟨_, i, hi, _, hr⟩ | ⟨hfull, hfree, _, abr, j', hr, _⟩ |
    ⟨hfull, hfree, _, ⟨b, p', j', ha, hr⟩ | ⟨_, _, hr⟩⟩ <;> rw [hr]
  · exact hp.bump h.frame hblk hb
  · exact hp.fill hi obj
  · exact hp.rebuilt h.pool h.blocks_nodup hfree abr
  · exact hp.grow hblk hfull hfree
      (BlockPool.allocate_took h.pool (fun c hc => h.custody.lt_of_mem (Or.inr hc)) ha)
  · exact hp

/-- The allocation loop keeps a frame packed, whichever way it ends. -/
theorem allocateLoop_packed (obj : Nat) :
    ∀ (n : Nat) (f : Frame) (p : BlockPool) (j : Journal), Holds others (f, p) → f.Packed p →
      (Action.final (allocateLoop obj n ((f, p), j))).1.Packed
        (Action.final (allocateLoop obj n ((f, p), j))).2
  | 0, f, p, j, _, hp => by
    rw [allocateLoop_zero]
    exact hp
  | n + 1, f, p, j, h, hp => by
    have hh := (allocateStep_holds h obj j).1
    have hk := allocateStep_packed h hp obj j
    rw [allocateLoop_succ]
    rcases hs : allocateStep obj ((f, p), j) with ⟨_ | _, ⟨⟨f', p'⟩, j'⟩⟩ | ⟨e, s'⟩ <;>
      rw [hs] at hh hk
    · exact hk
    · exact allocateLoop_packed obj n f' p' j' hh hk
    · exact hk

/-- Allocating a handle keeps a frame packed, whichever way it ends. -/
theorem allocate_packed (h : Holds others (f, p)) (hp : f.Packed p) (obj : Nat) (j : Journal) :
    (Action.final (allocate obj ((f, p), j))).1.Packed (Action.final (allocate obj ((f, p), j))).2 := by
  rw [allocate_run]
  exact allocateLoop_packed obj _ f p j h hp

/-- A step that hands out the next slot of the block in use fills that slot, which reads null
in a clean pool; `q` is any pool whose slots read as this one's. -/
theorem fills_bump (h : Holds others (f, p)) (hc : p.Clean) {blk blk' : Block} {obj n : Nat}
    {j : Journal} (hblk : p.blocks[f.blocks.getD f.last 0]? = some blk)
    (hb : blk.bump obj = some (blk', blk.top))
    (hr : allocateStep obj ((f, p), j) = .ok (.done (f.blocks.getD f.last 0 * blockSlots + blk.top))
      ((f, { p with blocks := p.blocks.set! (f.blocks.getD f.last 0) blk' }), j))
    {q : BlockPool} (hq : ∀ k, (p.slot? k).getD 0 = (q.slot? k).getD 0) :
    Fills q (f.blocks.getD f.last 0 * blockSlots + blk.top) obj
      (allocateLoop obj (n + 1) ((f, p), j)) := by
  refine ⟨_, allocateLoop_done hr, ?_, allocateStep_gave h hr, fun k hk => ?_⟩
  · rw [← hq, hc.slot?_top hblk (Block.bump_eq_some hb).2.1]
    rfl
  · rw [← hq]
    dsimp only
    rw [BlockPool.slot?_bump hblk hb hk]

/-- A step that hands out the last free entry fills that slot. -/
theorem fills_fill (h : Holds others (f, p)) {i obj n : Nat} {j : Journal}
    (hr : allocateStep obj ((f, p), j) =
      .ok (.done i) (({ f with free := f.free.pop }, p.store i obj), j))
    (hv : p.slot? i = some 0) : Fills p i obj (allocateLoop obj (n + 1) ((f, p), j)) := by
  refine ⟨_, allocateLoop_done hr, by rw [hv]; rfl, allocateStep_gave h hr, fun k hk => ?_⟩
  dsimp only
  rw [BlockPool.slot?_store_ne p obj hk]

/-- Right after a packed frame takes a block from a clean pool, the next step hands out the
first slot of the block the pool gave, which is the block it gives next. -/
theorem fills_grown (h : Holds others (f, p)) (hp : f.Packed p) (hc : p.Clean) {blk : Block}
    (hblk : p.blocks[f.blocks.getD f.last 0]? = some blk) (hfull : blk.top = blockSlots)
    (hfree : f.free = #[]) {b : Nat} {p' : BlockPool} {j j' : Journal}
    (ha : BlockPool.allocate (p, j) = .ok b (p', j')) (obj n : Nat) :
    EndsWithin obj (n + 1) ((f.grow b, p'), j') ∧
      Fills p (p.nextBlock * blockSlots) obj (allocateLoop obj (n + 1) ((f.grow b, p'), j')) := by
  have ht := BlockPool.allocate_took h.pool (fun c hc => h.custody.lt_of_mem (Or.inr hc)) ha
  have hh := (h.grow ht).1
  have hp' := hp.grow hblk hfull hfree ht
  obtain ⟨blk₀, hblk₀, -, htop₀⟩ := ht.taken
  have hcur : (f.grow b).blocks.getD (f.grow b).last 0 = b := by simp [hp.last_eq]
  rw [← hcur] at hblk₀
  have hidx : (f.grow b).blocks.getD (f.grow b).last 0 * blockSlots + blk₀.top =
      p.nextBlock * blockSlots := by
    rw [hcur, htop₀, Nat.add_zero, ht.eq_nextBlock]
  -- the new block has handed out nothing, so the step bumps it
  rcases allocateStep_packed_cases hh hp' hblk₀ obj j' with
    ⟨blk', hb, hr⟩ | ⟨hfull', -⟩ | ⟨hfull', -⟩ | ⟨hfull', -⟩
  · have hfill := fills_bump hh (hc.took ht) hblk₀ hb hr (n := n) (ht.slot?_getD h.pool hc)
    rw [hidx] at hfill
    exact ⟨endsWithin_done hr, hfill⟩
  all_goals
    rw [htop₀] at hfull'
    exact absurd hfull' (by decide)

/-- Taking a block from the pool in a packed frame: the next step hands out the block's first
slot, or the pool is exhausted. -/
theorem grow_result (h : Holds others (f, p)) (hp : f.Packed p) (hc : p.Clean) {blk : Block}
    (hblk : p.blocks[f.blocks.getD f.last 0]? = some blk) (hfull : blk.top = blockSlots)
    (hfree : f.free = #[]) {obj : Nat} {j : Journal}
    (hgrow : (∃ b p' j', BlockPool.allocate (p, j) = .ok b (p', j') ∧
        allocateStep obj ((f, p), j) = .ok .again ((f.grow b, p'), j')) ∨
      (p.queue = [] ∧ p.capacity ≤ p.blocks.size ∧
        allocateStep obj ((f, p), j) = .error (.blocksExhausted p.capacity) ((f, p), j)))
    (n : Nat) :
    EndsWithin obj (n + 2) ((f, p), j) ∧
      (Fills p (p.nextBlock * blockSlots) obj (allocateLoop obj (n + 2) ((f, p), j)) ∨
        Exhausts p (allocateLoop obj (n + 2) ((f, p), j))) := by
  rcases hgrow with ⟨b, p', j', ha, hr⟩ | ⟨hq, hcap, hr⟩
  · rw [endsWithin_again hr, allocateLoop_again hr]
    obtain ⟨hend, hfill⟩ := fills_grown h hp hc hblk hfull hfree ha obj n
    exact ⟨hend, Or.inl hfill⟩
  · exact ⟨endsWithin_error hr, Or.inr ⟨_, allocateLoop_fails hr, hq, hcap⟩⟩


/-- When no rebuild is due, allocating in a packed frame of a clean pool stops within two
steps, with the slot `choice` names or with the pool exhausted. -/
theorem packed_result_two (h : Holds others (f, p)) (hp : f.Packed p) (hc : p.Clean) {blk : Block}
    (hblk : p.blocks[f.blocks.getD f.last 0]? = some blk)
    (hready : blk.top = blockSlots → f.free = #[] → f.allocBeforeRebuild ≠ 0) (obj : Nat)
    (j : Journal) :
    EndsWithin obj 2 ((f, p), j) ∧
      (Fills p (f.choice p) obj (allocateLoop obj 2 ((f, p), j)) ∨
        Exhausts p (allocateLoop obj 2 ((f, p), j))) := by
  rcases allocateStep_packed_cases h hp hblk obj j with
    ⟨blk', hb, hr⟩ | ⟨hfull, i, hi, hv, hr⟩ | ⟨hfull, hfree, habr, -⟩ | ⟨hfull, hfree, habr, hgrow⟩
  · -- the block in use has a slot left
    rw [choice_bump hblk (Block.bump_eq_some hb).2.1]
    exact ⟨endsWithin_done hr, Or.inl (fills_bump h hc hblk hb hr fun _ => rfl)⟩
  · -- the last free entry
    have hch : f.choice p = i := by rw [choice_full hblk hfull, hi]; rfl
    rw [hch]
    exact ⟨endsWithin_done hr, Or.inl (fills_fill h hr hv)⟩
  · exact absurd habr (hready hfull hfree)
  · -- a block from the pool
    have hback : f.free.back? = none := by simp [hfree]
    have hch : f.choice p = p.nextBlock * blockSlots := by
      rw [choice_full hblk hfull, hback, if_neg habr]
      rfl
    rw [hch]
    exact grow_result h hp hc hblk hfull hfree hgrow 0

/-- A rebuild from full blocks keeps the slot allocation chooses: the last null slot found
becomes the last free entry, and when none is found the frame may add a block. -/
theorem choice_rebuilt {blk : Block}
    (hblk : p.blocks[f.blocks.getD f.last 0]? = some blk) (hfull : blk.top = blockSlots)
    (hfree : f.free = #[]) (habr : f.allocBeforeRebuild = 0) (abr : Nat) :
    (f.rebuilt p abr).choice p = f.choice p := by
  have hback : (f.rebuilt p abr).free.back? = (p.nullSlots f.blocks.toList).getLast? := by
    simp [hfree]
  have hback₀ : f.free.back? = none := by simp [hfree]
  rw [choice_full (f := f.rebuilt p abr) hblk hfull, choice_full hblk hfull, hback, hback₀,
    if_pos habr, rebuilt_blocks, rebuilt_allocBeforeRebuild]
  cases (p.nullSlots f.blocks.toList).getLast? <;> simp

/-- Allocating in a packed frame of a clean pool stops within three steps, with the slot
`choice` names or with the pool exhausted. -/
theorem allocateLoop_packed_result (h : Holds others (f, p)) (hp : f.Packed p) (hc : p.Clean)
    (obj : Nat) (j : Journal) :
    EndsWithin obj 3 ((f, p), j) ∧
      (Fills p (f.choice p) obj (allocateLoop obj 3 ((f, p), j)) ∨
        Exhausts p (allocateLoop obj 3 ((f, p), j))) := by
  obtain ⟨blk, hblk⟩ := h.current
  by_cases hdue : blk.top = blockSlots ∧ f.free = #[] ∧ f.allocBeforeRebuild = 0
  swap
  · -- no rebuild is due: two steps suffice
    obtain ⟨hend, hres⟩ :=
      packed_result_two h hp hc hblk (fun h₁ h₂ h₃ => hdue ⟨h₁, h₂, h₃⟩) obj j
    rw [allocateLoop_of_endsWithin obj 2 3 _ hend (by omega)]
    exact ⟨hend.mono (by omega), hres⟩
  -- a rebuild is due: it leaves a free entry, or no null slot and a block to add
  obtain ⟨hfull, hfree, habr⟩ := hdue
  rcases allocateStep_packed_cases h hp hblk obj j with
    ⟨blk', hb, -⟩ | ⟨-, i, hi, -⟩ | ⟨-, -, -, abr, j', hr, habr'⟩ | ⟨-, -, habr₀, -⟩
  · exact absurd hfull (Nat.ne_of_lt (Block.bump_eq_some hb).2.1)
  · simp [hfree] at hi
  · have hcollect : Collected f.blocks.toList p (p.nullSlots f.blocks.toList) := fun i hi =>
      let ⟨hmem, blk, hblk, htop, _⟩ := BlockPool.mem_nullSlots h.pool hi
      ⟨hmem, blk, hblk, htop⟩
    have hh : Holds others (f.rebuilt p abr, p) := (h.collect hcollect abr).1
    have hready₁ : blk.top = blockSlots → (f.rebuilt p abr).free = #[] →
        (f.rebuilt p abr).allocBeforeRebuild ≠ 0 := fun _ hz =>
      habr' (by simpa [rebuilt, hfree] using hz)
    rw [endsWithin_again hr, allocateLoop_again hr, ← choice_rebuilt hblk hfull hfree habr abr]
    exact packed_result_two hh (hp.rebuilt h.pool h.blocks_nodup hfree abr) hc hblk hready₁ obj j'
  · exact absurd habr habr₀

/-- Allocating a handle in a packed frame of a clean pool stops within three steps, so the
loop's fuel does not matter, and it hands out the slot `choice` names or finds the pool
exhausted. -/
theorem allocate_packed_result (h : Holds others (f, p)) (hp : f.Packed p) (hc : p.Clean)
    (obj : Nat) (j : Journal) :
    EndsWithin obj 3 ((f, p), j) ∧ allocate obj ((f, p), j) = allocateLoop obj 3 ((f, p), j) ∧
      (Fills p (f.choice p) obj (allocate obj ((f, p), j)) ∨
        Exhausts p (allocate obj ((f, p), j))) := by
  obtain ⟨hend, hres⟩ := allocateLoop_packed_result h hp hc obj j
  have heq : allocate obj ((f, p), j) = allocateLoop obj 3 ((f, p), j) := by
    rw [allocate_run]
    exact allocateLoop_of_endsWithin obj 3 _ _ hend (by unfold stepBound; omega)
  rw [heq]
  exact ⟨hend, rfl, hres⟩

end Packed

end Frame

namespace Chain

/-- Every frame of the chain is packed. -/
def Packed (s : Chain × BlockPool) : Prop := ∀ f ∈ s.1.frames, f.Packed s.2

/-- A chain action that spares the blocks held elsewhere and keeps chains packed, whichever way
it ends. -/
def KeepsPacked {α : Type} (m : Action (Chain × BlockPool) α) : Prop :=
  ∀ (others : List Nat) (s : Chain × BlockPool) (j : Journal), Holds others s → Packed s →
    Spares others s.2 (Action.final (m (s, j))).2 ∧ Packed (Action.final (m (s, j)))

section Packed

variable {others : List Nat} {c : Chain} {p p' : BlockPool}

theorem Packed.top (hp : Packed (c, p)) : c.top.Packed p := hp c.top List.mem_cons_self

/-- A chain of one frame with one block is packed. -/
theorem packed_create (b : Nat) (p : BlockPool) : Packed ({ top := { blocks := #[b] } }, p) := by
  intro f hf
  simp only [Chain.frames, List.mem_cons, List.not_mem_nil, or_false] at hf
  subst hf
  exact Frame.packed_create b p

/-- A packed chain stays packed in a pool that left its blocks as they were. -/
theorem Packed.untouched (hp : Packed (c, p)) (h : Holds others (c, p))
    (hu : ∀ b ∈ c.blocks, p'.blocks[b]? = p.blocks[b]?) : Packed (c, p') := fun f hf =>
  (hp f hf).untouched (h.frames f hf) fun b hb => hu b (mem_blocks.mpr ⟨f, hf, hb⟩)

/-- Nulling any slot keeps a chain packed. -/
theorem Packed.store_zero (hp : Packed (c, p)) (k : Nat) : Packed (c, p.store k 0) :=
  fun f hf => (hp f hf).store_zero k

theorem Packed.setPlanned (hp : Packed (c, p)) (n : Nat) : Packed (c.setPlanned n, p) := by
  intro f hf
  rcases List.mem_cons.mp hf with rfl | hf
  · exact ⟨hp.top.last_eq, hp.top.full, hp.top.free_null, hp.top.free_nodup⟩
  · exact hp f (List.mem_cons_of_mem _ hf)

/-- Opening a frame with a block taken from the pool keeps a chain packed. -/
theorem Packed.push (hp : Packed (c, p)) (h : Holds others (c, p)) {b : Nat}
    (ht : BlockPool.Took p b p') :
    Packed ({ top := { blocks := #[b] }, outer := c.top :: c.outer }, p') := by
  have hnot : b ∉ others ++ c.blocks := h.custody.not_mem_took ht
  intro g hg
  rcases List.mem_cons.mp hg with rfl | hg
  · exact Frame.packed_create b p'
  · refine (hp g hg).untouched (h.frames g hg) fun d hd => ht.others d ?_
    rintro rfl
    exact hnot (List.mem_append_right _ (mem_blocks.mpr ⟨g, hg, hd⟩))

/-- Closing the innermost frame keeps the frames outside it packed: their blocks are not the
ones released. -/
theorem Packed.pop (hp : Packed (c, p)) (h : Holds others (c, p)) {f : Frame} {rest : List Frame}
    (ho : c.outer = f :: rest) (hr : BlockPool.Released p c.top.blocks.toList p') :
    Packed ({ top := f, outer := rest }, p') := by
  have hnd : (c.top.blocks.toList ++ c.outerBlocks).Nodup := by
    rw [← blocks_eq]
    exact (List.nodup_append.mp h.nodup).2.1
  intro g hg
  have hg' : g ∈ c.outer := by
    rw [ho]
    exact hg
  refine (hp g (List.mem_cons_of_mem _ hg')).untouched (h.frames g (List.mem_cons_of_mem _ hg'))
    fun b hb => hr.others b fun hbt => ?_
  exact (List.nodup_append.mp hnd).2.2 b hbt b (List.mem_flatMap.mpr ⟨g, hg', hb⟩) rfl

/-- Allocating a handle keeps a chain packed, whichever way it ends: the innermost frame stays
packed, and the outer frames' blocks are not the ones it touches. -/
theorem allocate_packed (h : Holds others (c, p)) (hp : Packed (c, p)) (obj : Nat) (j : Journal) :
    Packed (Action.final (Chain.allocate obj ((c, p), j))) := by
  rw [allocate_final]
  obtain ⟨hf, hg⟩ := Frame.allocate_holds h.top obj j
  have hnd := (List.nodup_append.mp hf.custody.nodup).1
  intro g hg'
  rcases List.mem_cons.mp hg' with rfl | hg'
  · exact Frame.allocate_packed h.top hp.top obj j
  · have hgc : g ∈ c.frames := List.mem_cons_of_mem _ hg'
    refine (hp g hgc).untouched (h.frames g hgc) fun b hb => hg.others b fun hb' => ?_
    exact (List.nodup_append.mp hnd).2.2 b
      (List.mem_append_right _ (List.mem_flatMap.mpr ⟨g, hg', hb⟩)) b hb' rfl

theorem allocate_keepsPacked (obj : Nat) : KeepsPacked (Chain.allocate obj) :=
  fun _ _ j h hp => ⟨(allocate_safe obj _ _ j h).2, allocate_packed h hp obj j⟩

theorem popFrame_keepsPacked : KeepsPacked Chain.popFrame := by
  intro others ⟨c, p⟩ j h hp
  rcases popFrame_cases h j with ⟨_, hr⟩ | ⟨f, rest, p', ho, hrel, hr⟩ <;> rw [hr]
  · exact ⟨Spares.refl _ _, hp⟩
  · exact ⟨(h.pop ho hrel).2, hp.pop h ho hrel⟩

end Packed

end Chain

namespace Registry

/-- Every frame of every thread's chain is packed. -/
def Packed (r : Registry) : Prop :=
  ∀ (u : Nat) (c : Context), r.contexts[u]? = some c → ∀ ch : Chain, c.chain = some ch →
    Chain.Packed (ch, r.table.pool)

/-- A new world's registry has no threads. -/
theorem initial_packed {w : World} (h : w.Initial) : w.registry.Packed := by
  obtain ⟨_, t, _, hr⟩ := h
  rw [hr]
  intro u c hc
  simp at hc

section Packed

variable {r : Registry}

/-- A thread other than `t` keeps its chain packed in a pool that spared the blocks held by the
threads but `t`. -/
theorem Packed.other (hp : r.Packed) (h : r.Sound) {t u : Nat} (hu : u ≠ t) {c : Context}
    (hc : r.contexts[u]? = some c) {ch : Chain} (hch : c.chain = some ch) {p' : BlockPool}
    (hs : ∀ b ∈ r.heldBut t, p'.blocks[b]? = r.table.pool.blocks[b]?) : Chain.Packed (ch, p') :=
  (hp u c hc ch hch).untouched (h.chain hc hch) fun b hb =>
    hs b (mem_heldBut hu hc (by simp only [Context.blocks, hch]; exact hb))

/-- An action on thread `t`'s chain that keeps chains packed keeps the registry packed. -/
theorem Packed.onChain {α : Type} {m : Action (Chain × BlockPool) α} (hm : Chain.KeepsPacked m)
    (hp : r.Packed) (h : r.Sound) (t : Nat) (j : Journal) :
    (Action.final (onChain t m (r, j))).Packed := by
  rw [onChain_final]
  rcases hc : r.contexts[t]? with _ | c
  · exact hp
  · dsimp only
    rcases hch : c.chain with _ | ch
    · exact hp
    · dsimp only
      have hh := h.chain hc hch
      obtain ⟨hs, hpk⟩ := hm _ _ j hh (hp t c hc ch hch)
      have hread := Array.getElem?_set!_of_lt (Array.getElem?_eq_some_iff.mp hc).1
        { c with chain := some (Action.final (m ((ch, r.table.pool), j))).1 }
      intro u c' hu ch' hch'
      simp only [hread] at hu
      split at hu
      · cases hu
        cases hch'
        exact hpk
      · rename_i htu
        exact hp.other h (Ne.symm htu) hu hch' hs.others

/-- Making a local handle keeps the registry packed. -/
theorem Packed.makeLocal (hp : r.Packed) (h : r.Sound) (t obj : Nat) (j : Journal) :
    (Action.final (makeLocal t obj (r, j))).Packed := by
  unfold Registry.makeLocal
  by_cases h0 : obj = 0
  · simp only [h0, if_true]
    exact hp
  · simp only [h0, if_false]
    rw [Action.final_bind_pure]
    exact hp.onChain (Chain.allocate_keepsPacked obj) h t j

/-- Announcing a capacity keeps the registry packed. -/
theorem Packed.ensureCapacity (hp : r.Packed) (h : r.Sound) (t n : Nat) (j : Journal) :
    (Action.final (ensureCapacity t n (r, j))).Packed := by
  unfold Registry.ensureCapacity
  simp only [bind, EStateM.bind, Action.read_run]
  split
  · exact hp
  · refine hp.onChain ?_ h t j
    intro others ⟨c, p⟩ j' _ hpc
    simp only [EStateM.bind, Action.read_run]
    cases checkedAdd (c.top.live p) n with
    | some planned => exact ⟨Chain.Spares.refl _ _, hpc.setPlanned planned⟩
    | none => exact ⟨Chain.Spares.refl _ _, hpc⟩

/-- Opening a frame keeps the registry packed. -/
theorem Packed.pushFrame (hp : r.Packed) (h : r.Sound) (t n : Nat) (j : Journal) :
    (Action.final (pushFrame t n (r, j))).Packed := by
  unfold Registry.pushFrame
  simp only [bind, EStateM.bind, Action.read_run]
  split
  · exact hp
  · refine hp.onChain ?_ h t j
    intro others ⟨c, p⟩ j' hc hpc
    rcases Chain.pushFrame_cases c p j' with ⟨b, p', j'', ha, hr⟩ | ⟨e, hr⟩
    · simp only [EStateM.bind, hr, Action.update_run, Action.pure_run]
      have ht := BlockPool.allocate_took hc.pool (fun d hd => hc.custody.lt_of_mem (Or.inr hd)) ha
      exact ⟨(hc.push ht).2, (hpc.push hc ht).setPlanned n⟩
    · simp only [EStateM.bind, hr]
      exact ⟨Chain.Spares.refl _ _, hpc⟩

/-- Closing a frame and handing the result to the frame outside keeps the registry packed. -/
theorem Packed.popFrame (hp : r.Packed) (h : r.Sound) (t : Nat) (result : Option Handle)
    (j : Journal) : (Action.final (popFrame t result (r, j))).Packed := by
  unfold Registry.popFrame
  simp only [bind, EStateM.bind, Action.read_run]
  cases r.table.resolve result with
  | error e => exact hp
  | ok obj =>
    simp only [Action.ofExcept_ok]
    have hs₁ := (onChain_step Chain.popFrame_safe h t j).1
    have hp₁ := hp.onChain Chain.popFrame_keepsPacked h t j
    rcases h₁ : Registry.onChain t Chain.popFrame (r, j) with ⟨_, ⟨r₁, j₁⟩⟩ | ⟨e, ⟨r₁, j₁⟩⟩
    · rw [h₁] at hs₁ hp₁
      exact hp₁.makeLocal hs₁ t obj j₁
    · rw [h₁] at hp₁
      exact hp₁

/-- Destroying a local handle nulls at most one slot, so it keeps the registry packed. -/
theorem Packed.destroyLocal (hp : r.Packed) (t : Nat) (handle : Option Handle) (j : Journal) :
    (Action.final (destroyLocal t handle (r, j))).Packed := by
  rcases destroyLocal_final t handle r j with hr | ⟨i, _, _, hr⟩ <;> rw [hr]
  · exact hp
  · exact fun u c hc ch hch => (hp u c hc ch hch).store_zero i

/-- Attaching a thread keeps the registry packed: the new thread's chain is one frame of one
block, and that block is no other thread's. -/
theorem Packed.attach (hp : r.Packed) (h : r.Sound) (j : Journal) :
    (Action.final (attach (r, j))).Packed := by
  rcases attach_final r j with hr | hr | ⟨b, p', j', ha, hr⟩ <;> rw [hr]
  · exact hp
  · exact hp
  have ht := BlockPool.allocate_took h.pool (fun d hd => h.custody.lt_of_mem (Or.inr hd)) ha
  have hnot : b ∉ r.held := h.custody.not_mem_took ht
  intro u c hc ch hch
  simp only [Array.getElem?_push] at hc
  split at hc
  · cases hc
    cases hch
    exact Chain.packed_create b p'
  · refine (hp u c hc ch hch).untouched (h.chain hc hch) fun d hd => ht.others d ?_
    rintro rfl
    exact hnot (List.mem_flatMap.mpr ⟨c, by simpa using Array.mem_of_getElem? hc,
      by simp only [Context.blocks, hch]; exact hd⟩)

/-- Detaching a thread keeps the registry packed: the blocks it returns are no other
thread's. -/
theorem Packed.detach (hp : r.Packed) (h : r.Sound) (t : Nat) (j : Journal) :
    (Action.final (detach t (r, j))).Packed := by
  rcases detach_final t r j with hr | ⟨c, ch, p', hc, hch, hrel, hr⟩ <;> rw [hr]
  · exact hp
  obtain ⟨p'', hrel', -, -, -, hsp⟩ := (h.chain hc hch).release
  rw [hrel] at hrel'
  cases hrel'
  have hread := Array.getElem?_set!_of_lt (Array.getElem?_eq_some_iff.mp hc).1 { c with chain := none }
  intro u c' hu ch' hch'
  simp only [hread] at hu
  split at hu
  · cases hu
    cases hch'
  · rename_i htu
    exact hp.other h (Ne.symm htu) hu hch' hsp.others

end Packed

end Registry

namespace Op

/-- The operations on threads and their local handles: attaching and detaching threads, making
and destroying local handles, announcing local capacity, and opening and closing frames. -/
def OnThreads : Op → Prop
  | .attach | .detach _ | .makeLocal _ _ | .destroyLocal _ _ | .ensureCapacity _ _
  | .pushFrame _ _ | .popFrame _ _ => True
  | _ => False

/-- The operations on threads write no slot through a handle. -/
theorem OnThreads.tidy {op : Op} (hop : op.OnThreads) (w : World) : op.Tidy w := by
  cases op <;> trivial

/-- Every operation on threads keeps a sound registry packed. -/
theorem packed_after (op : Op) (hop : op.OnThreads) (w : World) (j : Journal)
    (h : w.registry.Sound) (hp : w.registry.Packed) : (op.after (w, j)).1.registry.Packed := by
  cases op with
  | attach => rw [after_attach_fst]; exact hp.attach h j
  | detach t => rw [after_detach_fst]; exact hp.detach h t j
  | makeLocal t obj => rw [after_makeLocal_fst]; exact hp.makeLocal h t obj j
  | destroyLocal t hd => rw [after_destroyLocal_fst]; exact hp.destroyLocal t hd j
  | ensureCapacity t n => rw [after_ensureCapacity_fst]; exact hp.ensureCapacity h t n j
  | pushFrame t n => rw [after_pushFrame_fst]; exact hp.pushFrame h t n j
  | popFrame t result => rw [after_popFrame_fst]; exact hp.popFrame h t result j
  | _ => exact hop.elim

/-- A run of operations on threads keeps a sound registry sound, its pool clean and every
chain packed. -/
theorem runAll_packed :
    ∀ (ops : List Op), (∀ op ∈ ops, op.OnThreads) → ∀ s : World × Journal,
      s.1.registry.Sound → s.1.registry.table.pool.Clean → s.1.registry.Packed →
        (runAll ops s).1.registry.Sound ∧ (runAll ops s).1.registry.table.pool.Clean ∧
          (runAll ops s).1.registry.Packed
  | [], _, _, h, hc, hp => ⟨h, hc, hp⟩
  | op :: ops, hops, s, h, hc, hp => by
    have hop := hops op List.mem_cons_self
    have he := evolves op s.1 s.2 h (hop.tidy s.1)
    exact runAll_packed ops (fun o ho => hops o (List.mem_cons_of_mem _ ho)) (op.after s) he.sound
      (he.clean hc) (packed_after op hop s.1 s.2 h hp)

end Op

/-- Local allocation in every chain the operations on threads reach from a new world: every
frame is on its last block, and allocating a handle in the innermost frame stops within three
steps, so the loop's fuel does not matter. It hands out the slot `Frame.choice` names, which
read null, now holds the object in one of the frame's blocks, and is the only slot whose
reading changed; or it stops because the pool has no block left. -/
theorem local_allocation_within_three_steps {s₀ : World × Journal} (h₀ : s₀.1.Initial)
    {ops : List Op} (hops : ∀ op ∈ ops, op.OnThreads) {r : Registry}
    (hr : (Op.runAll ops s₀).1.registry = r) {t : Nat} {ch : Chain} (hch : r.chainOf t = .ok ch)
    (obj : Nat) (j : Journal) :
    (∀ f ∈ ch.frames, f.last + 1 = f.blocks.size) ∧
      Frame.EndsWithin obj 3 ((ch.top, r.table.pool), j) ∧
      Frame.allocate obj ((ch.top, r.table.pool), j) =
        Frame.allocateLoop obj 3 ((ch.top, r.table.pool), j) ∧
      (Frame.Fills r.table.pool (ch.top.choice r.table.pool) obj
          (Frame.allocate obj ((ch.top, r.table.pool), j)) ∨
        Frame.Exhausts r.table.pool (Frame.allocate obj ((ch.top, r.table.pool), j))) := by
  obtain ⟨hs₀, hc₀, -⟩ := Registry.initial_sound h₀
  obtain ⟨h, hc, hp⟩ := Op.runAll_packed ops hops s₀ hs₀ hc₀ (Registry.initial_packed h₀)
  rw [hr] at h hc hp
  obtain ⟨c, hct, hchc⟩ := Registry.chainOf_eq_ok.mp hch
  have hpc := hp t c hct ch hchc
  exact ⟨fun f hf => (hpc f hf).last_eq,
    Frame.allocate_packed_result (h.chain hct hchc).top hpc.top hc obj j⟩

/-- The second handle of a new thread: its frame is on its only block, and allocation stops
within three steps, handing out slot 1 of that block. -/
theorem second_local_handle_within_three_steps :
    let r := (Op.runAll [.attach, .makeLocal 0 16] (World.new Table.fresh, {})).1.registry
    let f : Frame := { blocks := #[0] }
    r.chainOf 0 = .ok { top := f } ∧ Frame.EndsWithin 32 3 ((f, r.table.pool), {}) ∧
      Frame.Fills r.table.pool 1 32 (Frame.allocate 32 ((f, r.table.pool), {})) := by
  intro r f
  have hch : r.chainOf 0 = .ok { top := f } := rfl
  obtain ⟨-, hend, -, hres⟩ := local_allocation_within_three_steps World.new_fresh_initial
    (show ∀ op ∈ [Op.attach, .makeLocal 0 16], op.OnThreads by simp [Op.OnThreads]) rfl hch 32 {}
  have hchoice : f.choice r.table.pool = 1 := by decide +kernel
  have hroom : ¬ r.table.pool.capacity ≤ r.table.pool.blocks.size := by decide +kernel
  rw [hchoice] at hres
  exact ⟨hch, hend, hres.resolve_right fun ⟨_, _, _, hcap⟩ => hroom hcap⟩

end GcRoots

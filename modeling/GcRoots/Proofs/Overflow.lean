import GcRoots.Proofs.Isolation
import GcRoots.Proofs.Capacity
import Mathlib.Logic.Relation

namespace GcRoots

/-!
# Where word arithmetic overflows

Counts, capacities and indices are machine words, and a sum or a product that leaves the word
traps. Four computations could leave it.

* Setting up an arena of capacity `c` computes `c - 1 + 16`, which leaves the word exactly for the
  fifteen largest capacities (`Arena.withCapacity_overflow_iff`). A block pool may be asked for
  one of them; a storage counts its capacity in segments of `segmentSlots` slots, so any word-sized
  capacity fits (`SlotStorage.create_capacityFits`). The arenas of every reachable state stay
  within capacities the configuration check bounds, so they were set up without trapping and
  locate every index below their capacity within the word.
* Rebuilding a frame's free list computes the frame's slot count `blocks · blockSlots` and twice
  the free entries it collects. A frame holds distinct blocks of the arena, and a rebuild starts
  from an empty free list and collects at most a block's worth of entries per block, so both
  products are at most twice `maxHandleIndex` (`Frame.rebuild_products_lt`). Every state an
  allocation passes through keeps the frame invariant and the pool's bound
  (`Frame.Holds.continues`).
* Encoding a handle computes its index plus one, which traps only for the largest word. Every
  slot a reachable table holds lies in a block or segment of an arena within its capacity
  (`Registry.Provisioned.index_succ_lt`).
* Announcing room for `n` more local handles computes the frame's live count plus `n`, and traps
  exactly when `n` is within the configured limit and that sum reaches the word size
  (`Registry.ensureCapacity_overflow_iff`). The live count is at most a full block per block of
  the arena in every reachable state (`live_le_arena`), so a limit below the word size less that
  many slots never traps. The limit itself is not bounded by the configuration check, and the
  largest admitted limit makes the announcement trap on any thread that holds a handle
  (`planned_capacity_overflows`).

Main statement: `word_overflow_sites`.
-/

namespace Block

/-- A block has no more live slots than it has handed out. -/
theorem live_le_top (b : Block) : b.live ≤ b.top := by
  unfold live livePositions
  exact Nat.le_trans (List.length_filter_le _ _) (by simp)

end Block

namespace Frame

/-- A running sum of terms of at most `k` grows by at most `k` per term. -/
theorem foldl_add_le {g : Nat → Nat} {k : Nat} (l : List Nat) (hg : ∀ b ∈ l, g b ≤ k) (a : Nat) :
    l.foldl (fun n b => n + g b) a ≤ a + k * l.length := by
  induction l generalizing a with
  | nil => simp
  | cons b l ih =>
    have hb := hg b List.mem_cons_self
    have hrest := ih (fun c hc => hg c (List.mem_cons_of_mem b hc)) (a + g b)
    rw [List.foldl_cons, List.length_cons, Nat.mul_succ]
    omega

/-- Over a sound pool, a frame has at most a full block of live handles per block. -/
theorem live_le {p : BlockPool} (hp : p.Sound) (f : Frame) : f.live p ≤ blockSlots * f.blocks.size := by
  unfold live
  rw [← Array.foldl_toList, ← Array.length_toList]
  refine Nat.le_trans (foldl_add_le (k := blockSlots) _ (fun b _ => ?_) 0) (by omega)
  -- a block's live slots lie below its top, which is at most a block
  rcases hb : p.block? b with _ | blk
  · simp
  · simp only [Option.map_some, Option.getD_some]
    exact Nat.le_trans blk.live_le_top (hp.blocks b blk hb).top_le

end Frame

namespace BlockPool

/-- The blocks held outside the pool are no more than the arena has. -/
theorem Custody.length_le {held : List Nat} {p : BlockPool} (h : Custody held p) :
    held.length ≤ p.blocks.size := by
  have hlen := h.length_eq
  simp only [List.length_append, List.length_range] at hlen
  omega

end BlockPool

namespace Frame

/-- A frame holds distinct blocks of the arena, so no more than it has. -/
theorem Holds.blocks_le {others : List Nat} {s : Frame × BlockPool} (h : Holds others s) :
    s.1.blocks.size ≤ s.2.blocks.size := by
  have hlen := h.custody.length_le
  simp only [List.length_append, Array.length_toList] at hlen
  omega

/-- A rebuild collects at most a block's worth of free entries from each block it reads. -/
theorem collectFree_size_le (p : BlockPool) (j : Journal) : ∀ (bs : List Nat) (f : Frame),
    (Action.final (collectFree bs ((f, p), j))).1.free.size ≤ f.free.size + blockSlots * bs.length
  | [], f => by simp [collectFree]
  | b :: bs, f => by
    cases hblk : p.block? b with
    | none =>
      simp only [collectFree, bind, EStateM.bind, Action.read_run, hblk, Action.fail_run,
        Action.final_error]
      omega
    | some blk =>
      by_cases hfull : blk.top = blockSlots
      · -- a full block adds the null slots among its `blockSlots` slots
        let found := ((List.range blk.top).filter fun i => blk.slots.getD i 0 == 0).map
          fun i => b * blockSlots + i
        have hfound : found.length ≤ blockSlots := by
          simp only [found, List.length_map]
          have hf := List.length_filter_le (fun i => blk.slots.getD i 0 == 0) (List.range blk.top)
          rw [List.length_range] at hf
          omega
        have ih := collectFree_size_le p j bs { f with free := f.free ++ found.toArray }
        simp only [collectFree, bind, EStateM.bind, Action.read_run, hblk, if_pos hfull,
          Action.write_run]
        simp only [found, Array.size_append, List.size_toArray] at ih hfound
        simp only [List.length_cons, Nat.mul_succ]
        omega
      · simp only [collectFree, bind, EStateM.bind, Action.read_run, hblk, hfull, if_false,
          Action.fail_run, Action.final_error]
        omega

/-- The frame a rebuild reads after collecting: the same blocks, and the entries collected. -/
theorem collectFree_blocks (bs : List Nat) (f : Frame) (p : BlockPool) (j : Journal) :
    (Action.final (collectFree bs ((f, p), j))).1.blocks = f.blocks := by
  obtain ⟨E, -, hfin⟩ := collectFree_final bs f p j
  rw [hfin]

/-- The two products a rebuild computes stay below the word size: the frame's slot count, and
twice the free entries it collects into an empty free list. Both are at most `blockSlots` per
block of the arena, and a bounded pool has at most `maxHandleIndex / blockSlots` blocks. -/
theorem rebuild_products_lt {others : List Nat} {f : Frame} {p : BlockPool} (h : Holds others (f, p))
    (hp : p.Bounded) (hfree : f.free = #[]) (j : Journal) :
    (Action.final (collectFree f.blocks.toList ((f, p), j))).1.blocks.size * blockSlots < wordModulus ∧
      2 * (Action.final (collectFree f.blocks.toList ((f, p), j))).1.free.size < wordModulus := by
  have hmax : maxHandleIndex = 4611686018427387902 := rfl
  have hmod : wordModulus = 18446744073709551616 := rfl
  have hbs : blockSlots = 32 := rfl
  have hsize := collectFree_size_le p j f.blocks.toList f
  have hle : f.blocks.size ≤ p.blocks.size := h.blocks_le
  rw [collectFree_blocks]
  simp only [hfree, Array.size_empty, Array.length_toList] at hsize
  obtain ⟨hcap, hlim⟩ := hp
  rw [hmax, hbs] at hlim
  rw [hbs] at hsize ⊢
  rw [hmod]
  omega

/-- One allocation step that goes on to another: the frame moved to its next block, rebuilt
its free list or added a block. -/
def Continues (obj : Nat) (s s' : Frame × BlockPool) : Prop :=
  ∃ j j', allocateStep obj (s, j) = .ok .again (s', j')

/-- Every state an allocation passes through keeps the frame invariant and the pool bounded. -/
theorem Holds.continues {others : List Nat} {obj : Nat} {s s' : Frame × BlockPool}
    (h : Holds others s ∧ s.2.Bounded) (hc : Relation.ReflTransGen (Continues obj) s s') :
    Holds others s' ∧ s'.2.Bounded := by
  induction hc with
  | refl => exact h
  | tail _ hstep ih =>
    obtain ⟨j, j', hs⟩ := hstep
    have hh := (allocateStep_holds ih.1 obj j).1
    have hb := allocateStep_bounded obj _ j ih.2 ih.2
    rw [hs] at hh hb
    exact ⟨hh, hb⟩

end Frame

namespace Registry

/-- A thread's innermost frame holds distinct blocks of the arena, so no more than it has. -/
theorem Sound.top_blocks_le {r : Registry} (h : r.Sound) {t : Nat} {c : Context} {ch : Chain}
    (hc : r.contexts[t]? = some c) (hch : c.chain = some ch) :
    ch.top.blocks.size ≤ r.table.pool.blocks.size :=
  (h.chain hc hch).top.blocks_le

/-- Announcing room for `n` more local handles traps exactly when `n` is within the configured
limit, the thread has a chain, and its innermost frame's live count plus `n` leaves the word. -/
theorem ensureCapacity_overflow_iff (r : Registry) (j : Journal) (t n : Nat) :
    (∃ s, ensureCapacity t n (r, j) = .error .additionOverflow s) ↔
      n ≤ r.table.config.maxLocalCapacity ∧ ∃ c ch, r.contexts[t]? = some c ∧ c.chain = some ch ∧
        wordModulus ≤ ch.top.live r.table.pool + n := by
  unfold ensureCapacity onChain
  simp only [bind, EStateM.bind, Action.read_run]
  by_cases hn : n > r.table.config.maxLocalCapacity
  · constructor
    · rintro ⟨s, hs⟩
      rw [if_pos hn] at hs
      cases hs
    · rintro ⟨hle, -⟩
      omega
  rw [if_neg hn]
  -- past the limit check, only a detached thread and the sum itself can stop the call
  rcases hc : r.contexts[t]? with _ | c
  · simp [EStateM.bind, Action.read, hc, Action.fail]
  rcases hch : c.chain with _ | ch
  · simp [EStateM.bind, Action.read, hc, hch, Action.fail]
  simp only [EStateM.bind, Action.read, hc, hch, Action.focus, checkedAdd]
  by_cases hw : ch.top.live r.table.pool + n < wordModulus
  · simp [hw, hch, Action.write, pure, EStateM.pure, EStateM.bind]
  · simp [hw, hch, Action.fail]
    omega

end Registry

/-- In every reachable state a thread's innermost frame has at most a full block of live handles
per block of the arena. -/
theorem live_le_arena {s : World × Journal} (hs : Reachable s) {t : Nat} {c : Context} {ch : Chain}
    (hc : s.1.registry.contexts[t]? = some c) (hch : c.chain = some ch) :
    ch.top.live s.1.registry.table.pool ≤ blockSlots * s.1.registry.table.pool.blocks.size := by
  have h := World.sound_of_reachable hs
  calc ch.top.live s.1.registry.table.pool
      ≤ blockSlots * ch.top.blocks.size := ch.top.live_le h.pool
    _ ≤ blockSlots * s.1.registry.table.pool.blocks.size :=
      Nat.mul_le_mul_left _ (h.top_blocks_le hc hch)

namespace Arena

/-- An arena of capacity `c` can be set up exactly when `c + 15` fits in a word. -/
theorem capacityFits_iff (c : Nat) : capacityFits c = true ↔ c + 15 < wordModulus := by
  have hmod : wordModulus = 18446744073709551616 := rfl
  unfold capacityFits
  by_cases h0 : c = 0
  · simp [h0, hmod]
  · simp only [Bool.or_eq_true, beq_iff_eq, h0, false_or, decide_eq_true_eq]
    omega

/-- Setting up an arena traps exactly for the fifteen largest capacities. -/
theorem withCapacity_overflow_iff {α : Type} (c : Nat) :
    (withCapacity c : Except Fault (Arena α)) = .error .additionOverflow ↔ wordModulus ≤ c + 15 := by
  unfold withCapacity
  by_cases hc : capacityFits c = true
  · have hlt := (capacityFits_iff c).mp hc
    simp only [hc, if_true, reduceCtorEq, false_iff]
    omega
  · have hge : wordModulus ≤ c + 15 := by
      rw [capacityFits_iff] at hc
      omega
    simp only [hc, Bool.false_eq_true, if_false, hge]

end Arena

/-- A bounded pool's arena can be set up, and then no index below its capacity leaves the word
when the arena locates it. -/
theorem BlockPool.Bounded.capacityFits {p : BlockPool} (h : p.Bounded) :
    Arena.capacityFits p.capacity = true := by
  have hmax : maxHandleIndex = 4611686018427387902 := rfl
  have hmod : wordModulus = 18446744073709551616 := rfl
  have hbs : blockSlots = 32 := rfl
  have hcap := h.2
  rw [hmax, hbs] at hcap
  rw [Arena.capacityFits_iff, hmod]
  omega

/-- A bounded storage's arena of segments can be set up. -/
theorem SlotStorage.Bounded.capacityFits {s : SlotStorage} (h : s.Bounded) :
    Arena.capacityFits s.segmentCapacity = true := by
  have hmax : maxHandleIndex = 4611686018427387902 := rfl
  have hmod : wordModulus = 18446744073709551616 := rfl
  have hseg : segmentSlots = 64 := rfl
  have hcap := h.2
  rw [hmax, hseg] at hcap
  rw [Arena.capacityFits_iff, hmod]
  omega

/-- A storage made for any word-sized capacity can set up its arena of segments: the capacity
is counted in segments of `segmentSlots` slots. -/
theorem SlotStorage.create_capacityFits (name : String) {c : Nat} (hc : c < wordModulus) :
    Arena.capacityFits (SlotStorage.create name c).segmentCapacity = true := by
  have hmod : wordModulus = 18446744073709551616 := rfl
  have hseg : segmentSlots = 64 := rfl
  simp only [SlotStorage.create, hseg]
  rw [Arena.capacityFits_iff, hmod]
  omega

/-- An index whose block lies in a bounded pool's arena is at most `maxHandleIndex`, so its
successor fits in a word. -/
theorem BlockPool.Bounded.index_succ_lt {p : BlockPool} (h : p.Bounded) {i : Nat}
    (hi : i / blockSlots < p.blocks.size) : i + 1 < wordModulus := by
  have hmax : maxHandleIndex = 4611686018427387902 := rfl
  have hmod : wordModulus = 18446744073709551616 := rfl
  have hbs : blockSlots = 32 := rfl
  obtain ⟨hsize, hcap⟩ := h
  rw [hmax, hbs] at hcap
  rw [hbs] at hi
  rw [hmod]
  omega

/-- An index whose segment lies in a bounded storage is below `2^62`, so its successor fits in
a word. -/
theorem SlotStorage.Bounded.index_succ_lt {s : SlotStorage} (h : s.Bounded) {i : Nat}
    (hi : i / segmentSlots < s.segments.size) : i + 1 < wordModulus := by
  have hmax : maxHandleIndex = 4611686018427387902 := rfl
  have hmod : wordModulus = 18446744073709551616 := rfl
  have hseg : segmentSlots = 64 := rfl
  obtain ⟨hsize, hcap⟩ := h
  rw [hmax, hseg] at hcap
  rw [hseg] at hi
  rw [hmod]
  omega

/-- Every handle whose slot a provisioned table holds carries an index whose successor fits in
a word, so encoding it never traps: a local index lies in a block of the pool's arena, a global
or weak one in a segment of its storage. -/
theorem Registry.Provisioned.index_succ_lt {r : Registry} (h : r.Provisioned) {hd : Handle}
    (hs : (r.table.slot? hd).isSome) : hd.index + 1 < wordModulus := by
  rcases hd with (i | i) | i <;>
    simp only [Table.slot?, BlockPool.slot?, SlotStorage.slot?, Option.isSome_map,
      Option.isSome_iff_exists, Array.getElem?_eq_some_iff] at hs <;>
    obtain ⟨_, hlt, -⟩ := hs
  · exact h.pool.index_succ_lt hlt
  · exact h.globals.index_succ_lt hlt
  · exact h.weaks.index_succ_lt hlt

/-- Where word arithmetic traps, in every reachable state.

* Announcing room for `n` local handles traps exactly when `n` is within the configured limit,
  the thread has a chain, and its innermost frame's live count plus `n` reaches the word size;
  since the live count is at most a full block per block of the arena, a limit that stays below
  the word size with that many slots added never traps.
* Setting up an arena traps exactly for the fifteen largest capacities; a block pool asked for
  one of them traps, a storage made for any word-sized capacity does not, and the arenas of
  every reachable state were set up without trapping.
* A rebuild of the free list, in any state an allocation of the thread passes through, computes
  the frame's slot count and twice its collected free entries within the word.
* Encoding a handle whose slot the table holds never traps. -/
theorem word_overflow_sites (s : World × Journal) (hs : Reachable s) (t n : Nat) :
    ((∃ e, Registry.ensureCapacity t n (s.1.registry, s.2) = .error .additionOverflow e) ↔
        n ≤ s.1.registry.table.config.maxLocalCapacity ∧ ∃ c ch, s.1.registry.contexts[t]? = some c ∧
          c.chain = some ch ∧ wordModulus ≤ ch.top.live s.1.registry.table.pool + n) ∧
      (s.1.registry.table.config.maxLocalCapacity + blockSlots * s.1.registry.table.pool.blocks.size <
          wordModulus →
        ∀ e, Registry.ensureCapacity t n (s.1.registry, s.2) ≠ .error .additionOverflow e) ∧
      (∀ c : Nat, (Arena.withCapacity c : Except Fault (Arena Block)) = .error .additionOverflow ↔
        wordModulus ≤ c + 15) ∧
      (∀ (name : String) (c : Nat), c < wordModulus →
        Arena.capacityFits (SlotStorage.create name c).segmentCapacity = true) ∧
      (Arena.capacityFits s.1.registry.table.pool.capacity = true ∧
        Arena.capacityFits s.1.registry.table.globals.segmentCapacity = true ∧
        Arena.capacityFits s.1.registry.table.weaks.segmentCapacity = true) ∧
      (∀ (c : Context) (ch : Chain) (obj : Nat) (fp : Frame × BlockPool) (j : Journal),
        s.1.registry.contexts[t]? = some c → c.chain = some ch →
        Relation.ReflTransGen (Frame.Continues obj) (ch.top, s.1.registry.table.pool) fp →
        fp.1.free = #[] →
        (Action.final (Frame.collectFree fp.1.blocks.toList (fp, j))).1.blocks.size * blockSlots <
            wordModulus ∧
          2 * (Action.final (Frame.collectFree fp.1.blocks.toList (fp, j))).1.free.size <
            wordModulus) ∧
      ∀ hd : Handle, (s.1.registry.table.slot? hd).isSome → hd.index + 1 < wordModulus := by
  have hsound := World.sound_of_reachable hs
  have hprov := World.provisioned_of_reachable hs
  have hiff := Registry.ensureCapacity_overflow_iff s.1.registry s.2 t n
  refine ⟨hiff, fun hfit e he => ?_, Arena.withCapacity_overflow_iff,
    fun name _ hc => SlotStorage.create_capacityFits name hc,
    ⟨hprov.pool.capacityFits, hprov.globals.capacityFits, hprov.weaks.capacityFits⟩,
    fun c ch obj fp j hc hch hsteps hfree => ?_, fun hd => hprov.index_succ_lt⟩
  · -- a trap needs the live count past what the arena's blocks can hold
    obtain ⟨hn, c, ch, hc, hch, hw⟩ := hiff.mp ⟨e, he⟩
    have hlive := live_le_arena hs hc hch
    omega
  · -- the thread's innermost frame holds in a bounded pool, and every step keeps that
    have hstart := (hsound.chain hc hch).top
    obtain ⟨hh, hb⟩ := Frame.Holds.continues ⟨hstart, hprov.pool⟩ hsteps
    obtain ⟨f, p⟩ := fp
    exact Frame.rebuild_products_lt hh hb hfree j

/-- In a new world with one handle made, announcing room for sixteen more stays within the
word. -/
theorem planned_capacity_fits_default :
    Reachable (Op.runAll [.attach, .makeLocal 0 16] (World.new Table.fresh, {})) ∧
      ∀ e, Registry.ensureCapacity 0 16
        ((Op.runAll [.attach, .makeLocal 0 16] (World.new Table.fresh, {})).1.registry,
          (Op.runAll [.attach, .makeLocal 0 16] (World.new Table.fresh, {})).2) ≠
          .error .additionOverflow e := by
  have hs : Reachable (Op.runAll [.attach, .makeLocal 0 16] (World.new Table.fresh, {})) :=
    ⟨_, _, World.new_fresh_initial, rfl⟩
  have hmax : (Op.runAll [.attach, .makeLocal 0 16]
      (World.new Table.fresh, {})).1.registry.table.config.maxLocalCapacity = 65536 := rfl
  have harena : (Op.runAll [.attach, .makeLocal 0 16]
      (World.new Table.fresh, {})).1.registry.table.pool.blocks.size = 1 := rfl
  have hmod : wordModulus = 18446744073709551616 := rfl
  have hbs : blockSlots = 32 := rfl
  exact ⟨hs, (word_overflow_sites _ hs 0 16).2.1 (by rw [hmax, harena, hmod, hbs]; decide)⟩

/-- The table the configuration with the largest local capacity makes. -/
def Table.wideLocal : Table := { Table.fresh with config := { maxLocalCapacity := wordModulus - 1 } }

/-- The configuration check admits the largest local capacity, and announcing it on a thread that
holds one handle traps. -/
theorem planned_capacity_overflows :
    Table.create { maxLocalCapacity := wordModulus - 1 } = .ok Table.wideLocal ∧
      ∃ s, Registry.ensureCapacity 0 (wordModulus - 1)
        ((Op.runAll [.attach, .makeLocal 0 16] (World.new Table.wideLocal, {})).1.registry, {}) =
          .error .additionOverflow s := by
  refine ⟨rfl, (Registry.ensureCapacity_overflow_iff _ _ _ _).mpr ?_⟩
  generalize hr : (Op.runAll [.attach, .makeLocal 0 16] (World.new Table.wideLocal, {})).1.registry = r
  have hcfg : r.table.config.maxLocalCapacity = wordModulus - 1 := by rw [← hr]; rfl
  -- thread 0 has a chain whose frame holds the one handle made
  have hlive : (r.contexts[0]?.bind Context.chain).map (fun ch => ch.top.live r.table.pool) = some 1 := by
    rw [← hr]; rfl
  rcases hc : r.contexts[0]? with _ | c
  · rw [hc] at hlive
    cases hlive
  rcases hch : c.chain with _ | ch
  · simp [hc, hch] at hlive
  simp only [hc, hch, Option.bind_some, Option.map_some, Option.some.injEq] at hlive
  have hmod : wordModulus = 18446744073709551616 := rfl
  exact ⟨by omega, c, ch, rfl, hch, by omega⟩

end GcRoots

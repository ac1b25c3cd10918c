import GcRoots.Proofs.Pool
import GcRoots.Block.Chain

namespace GcRoots

/-!
# Allocating handles in a frame

A frame allocates a handle by a loop of steps (bump the block in use, take a free entry, move
on, rebuild the free list, add a block). `Frame.Holds others` is the invariant of a frame in its
pool: the pool and the frame are sound, and the frame's blocks, the blocks `others` held
elsewhere and the queue list each handed-out block once. A sound frame keeps its position on
one of its blocks and its free entries on handed-out slots of its blocks.

`Frame.Grows` is what allocation may do to a frame and its pool: blocks are only added, the
frame's blocks keep every object they hold, blocks outside the frame are untouched, and the
arena grows only once the queue is empty.

Main statements: `Frame.allocateStep_cases` (everything one step can do),
`Frame.allocate_holds` (allocation keeps the invariant and only grows the frame, however it
ends) and `Frame.allocate_gave` (a handed-out index is a slot of the frame holding the object).
-/

namespace Frame

/-- The frame after it took block `b` from the pool. -/
def grow (f : Frame) (b : Nat) : Frame :=
  { f with blocks := f.blocks.push b, last := f.last + 1,
           allocBeforeRebuild := f.allocBeforeRebuild - 1 }

@[simp] theorem grow_blocks (f : Frame) (b : Nat) : (f.grow b).blocks = f.blocks.push b := rfl
@[simp] theorem grow_last (f : Frame) (b : Nat) : (f.grow b).last = f.last + 1 := rfl
@[simp] theorem grow_free (f : Frame) (b : Nat) : (f.grow b).free = f.free := rfl

/-- A sound frame: its position names one of its blocks, and each free entry is a handed-out
slot of one of its blocks. -/
structure Sound (f : Frame) (p : BlockPool) : Prop where
  last_lt : f.last < f.blocks.size
  free : ∀ i ∈ f.free.toList, i / blockSlots ∈ f.blocks.toList ∧
    ∃ blk, p.blocks[i / blockSlots]? = some blk ∧ i % blockSlots < blk.top

/-- A frame inside its pool: the pool and the frame are sound, and the frame's blocks, the
blocks `others` held elsewhere and the queue list each handed-out block once. -/
structure Holds (others : List Nat) (s : Frame × BlockPool) : Prop where
  pool : s.2.Sound
  custody : s.2.Custody (others ++ s.1.blocks.toList)
  frame : s.1.Sound s.2

/-- What allocating in a frame may do: the frame only adds blocks, its blocks keep what they
handed out, every block outside it is untouched, the queue only loses blocks at its head, and
the arena grows only when the queue is empty. -/
structure Grows (s s' : Frame × BlockPool) : Prop where
  start : s.1.blocks.toList <+: s'.1.blocks.toList
  retains : ∀ b ∈ s.1.blocks.toList, ∀ blk, s.2.blocks[b]? = some blk →
    ∃ blk', s'.2.blocks[b]? = some blk' ∧ blk.Retains blk'
  others : ∀ b, b ∉ s'.1.blocks.toList → s'.2.blocks[b]? = s.2.blocks[b]?
  queue : s'.2.queue <:+ s.2.queue
  fresh : s'.2.blocks.size = s.2.blocks.size ∨ s'.2.queue = []
  size_le : s.2.blocks.size ≤ s'.2.blocks.size
  clean : s.2.Clean → s'.2.Clean

theorem Grows.refl (s : Frame × BlockPool) : Grows s s :=
  ⟨List.prefix_refl _, fun _ _ blk h => ⟨blk, h, Block.Retains.refl blk⟩, fun _ _ => rfl,
    List.suffix_refl _, Or.inl rfl, Nat.le_refl _, id⟩

theorem Grows.trans {s s' s'' : Frame × BlockPool} (h : Grows s s') (h' : Grows s' s'') :
    Grows s s'' := by
  refine ⟨h.start.trans h'.start, fun b hb blk hblk => ?_, fun b hb => ?_,
    h'.queue.trans h.queue, ?_, Nat.le_trans h.size_le h'.size_le, h'.clean ∘ h.clean⟩
  · obtain ⟨blk', hblk', hr⟩ := h.retains b hb blk hblk
    obtain ⟨blk'', hblk'', hr'⟩ := h'.retains b (h.start.subset hb) blk' hblk'
    exact ⟨blk'', hblk'', hr.trans hr'⟩
  · rw [h'.others b hb, h.others b (fun hm => hb (h'.start.subset hm))]
  · rcases h.fresh with hs | hq
    · rcases h'.fresh with hs' | hq'
      · exact Or.inl (hs'.trans hs)
      · exact Or.inr hq'
    · obtain ⟨l, hl⟩ := h'.queue
      rw [hq, List.append_eq_nil_iff] at hl
      exact Or.inr hl.2

/-- Allocation facts read only the blocks of the frame. -/
theorem Grows.congr {s s' t : Frame × BlockPool} (h : Grows s s') (hb : t.1.blocks = s'.1.blocks)
    (hp : t.2 = s'.2) : Grows s t where
  start := hb ▸ h.start
  retains := hp ▸ h.retains
  others := by rw [hb, hp]; exact h.others
  queue := hp ▸ h.queue
  fresh := hp ▸ h.fresh
  size_le := hp ▸ h.size_le
  clean := hp ▸ h.clean

/-- A frame stays sound in a pool whose blocks of the frame have handed out no fewer slots. -/
theorem Sound.of_tops {f : Frame} {p p' : BlockPool} (hf : f.Sound p)
    (hr : ∀ b ∈ f.blocks.toList, ∀ blk, p.blocks[b]? = some blk →
      ∃ blk', p'.blocks[b]? = some blk' ∧ blk.top ≤ blk'.top) : f.Sound p' := by
  refine ⟨hf.last_lt, fun i hi => ?_⟩
  obtain ⟨hmem, blk, hblk, htop⟩ := hf.free i hi
  obtain ⟨blk', hblk', hle⟩ := hr _ hmem blk hblk
  exact ⟨hmem, blk', hblk', Nat.lt_of_lt_of_le htop hle⟩

/-- A frame stays sound in a pool whose blocks keep what the frame's blocks handed out. -/
theorem Sound.retain {f : Frame} {p p' : BlockPool} (hf : f.Sound p)
    (hr : ∀ b ∈ f.blocks.toList, ∀ blk, p.blocks[b]? = some blk →
      ∃ blk', p'.blocks[b]? = some blk' ∧ blk.Retains blk') : f.Sound p' :=
  hf.of_tops fun b hb blk hblk =>
    let ⟨blk', hblk', hret⟩ := hr b hb blk hblk
    ⟨blk', hblk', hret.top_le⟩

/-- The block in use is one of the frame's blocks. -/
theorem Sound.current_mem {f : Frame} {p : BlockPool} (hf : f.Sound p) :
    f.blocks.getD f.last 0 ∈ f.blocks.toList := by
  rw [Array.getD_eq_getD_getElem?, Array.getElem?_eq_getElem hf.last_lt, Option.getD_some]
  exact Array.getElem_mem_toList hf.last_lt

/-- Local index `i` is a handed-out slot of one of the frame's blocks and holds `obj`. -/
def Gave (s : Frame × BlockPool) (i obj : Nat) : Prop :=
  i / blockSlots ∈ s.1.blocks.toList ∧ s.2.Issued i obj

/-- A frame stays sound in a pool that left its blocks as they were. -/
theorem Sound.untouched {f : Frame} {p p' : BlockPool} (hf : f.Sound p)
    (hu : ∀ b ∈ f.blocks.toList, p'.blocks[b]? = p.blocks[b]?) : f.Sound p' :=
  hf.retain fun b hb blk hblk => ⟨blk, (hu b hb).trans hblk, Block.Retains.refl blk⟩

/-- A slot of the frame that holds an object still holds it after the frame grew. -/
theorem Grows.issued {s s' : Frame × BlockPool} (hg : Grows s s') {i obj : Nat}
    (hb : i / blockSlots ∈ s.1.blocks.toList) (hi : s.2.Issued i obj) (ho : obj ≠ 0) :
    s'.2.Issued i obj := by
  obtain ⟨blk, hblk, htop, hslot⟩ := hi
  obtain ⟨blk', hblk', hret⟩ := hg.retains _ hb blk hblk
  refine ⟨blk', hblk', Nat.lt_of_lt_of_le htop hret.top_le, ?_⟩
  rw [hret.live _ htop (by rw [hslot]; exact ho), hslot]

section Steps

variable {others : List Nat} {f : Frame} {p : BlockPool}

/-- Replacing one of the frame's blocks by a sound block that keeps what it handed out. -/
theorem Holds.set (h : Holds others (f, p)) {c : Nat} {blk x : Block} (hc : c ∈ f.blocks.toList)
    (hblk : p.blocks[c]? = some blk) (hx : x.Sound) (hr : blk.Retains x)
    (hcl : blk.Clean → x.Clean) :
    Holds others (f, { p with blocks := p.blocks.set! c x }) ∧
      Grows (f, p) (f, { p with blocks := p.blocks.set! c x }) := by
  have held : c ∈ others ++ f.blocks.toList := List.mem_append_right others hc
  have hlt : c < p.blocks.size := h.custody.lt_of_mem (Or.inl held)
  have hread := Array.getElem?_set!_of_lt hlt x
  have hg : Grows (f, p) (f, { p with blocks := p.blocks.set! c x }) := by
    refine ⟨List.prefix_refl _, fun d _ b hb => ?_, fun d hd => ?_, List.suffix_refl _,
      Or.inl (by simp), by simp, fun hp => hp.set hlt (hcl (hp c blk hblk))⟩
    · rw [hread]
      split
      · rename_i hcd
        subst hcd
        rw [hblk] at hb
        cases hb
        exact ⟨x, rfl, hr⟩
      · exact ⟨b, hb, Block.Retains.refl b⟩
    · rw [hread, if_neg]
      rintro rfl
      exact hd hc
  refine ⟨⟨h.pool.set hlt (h.custody.not_queued held) hx, ?_, h.frame.retain hg.retains⟩, hg⟩
  -- custody reads only the queue and the number of blocks, which stay
  show (others ++ f.blocks.toList ++ p.queue).Perm (List.range (p.blocks.set! c x).size)
  rw [Array.size_set!]
  exact h.custody

/-- Dropping the last free entry keeps a frame sound. -/
theorem Sound.pop (hf : f.Sound p) : ({ f with free := f.free.pop } : Frame).Sound p :=
  ⟨hf.last_lt, fun i hi => hf.free i (List.dropLast_subset _ (by simpa using hi))⟩

/-- Moving on to the next block keeps a frame sound when there is one. -/
theorem Sound.next (hf : f.Sound p) (hn : f.last + 1 < f.blocks.size) :
    ({ f with last := f.last + 1 } : Frame).Sound p :=
  ⟨hn, hf.free⟩

/-- Adding a block keeps a frame sound. -/
theorem Sound.grow (hf : f.Sound p) (b : Nat) : (f.grow b).Sound p := by
  refine ⟨by simpa using hf.last_lt, fun i hi => ?_⟩
  obtain ⟨hmem, blk, hblk, htop⟩ := hf.free i hi
  exact ⟨by simp [hmem], blk, hblk, htop⟩

/-- Handing out the next slot of one of the frame's blocks. -/
theorem Holds.bump (h : Holds others (f, p)) {c : Nat} (hc : c ∈ f.blocks.toList) {blk blk' : Block}
    {obj k : Nat} (hblk : p.blocks[c]? = some blk) (hb : blk.bump obj = some (blk', k)) :
    Holds others (f, { p with blocks := p.blocks.set! c blk' }) ∧
      Grows (f, p) (f, { p with blocks := p.blocks.set! c blk' }) ∧
      Gave (f, { p with blocks := p.blocks.set! c blk' }) (c * blockSlots + k) obj := by
  obtain ⟨hsound, hret, hslot, htop⟩ := (h.pool.blocks c blk hblk).bump hb
  obtain ⟨hh, hg⟩ := h.set hc hblk hsound hret fun hcl => hcl.bump hb
  have hk : k < blockSlots := (Block.bump_eq_some hb).2.1 |> fun hlt => (Block.bump_eq_some hb).1 ▸ hlt
  have hlt : c < p.blocks.size := h.custody.lt_of_mem (Or.inl (List.mem_append_right others hc))
  refine ⟨hh, hg, by rw [BlockPool.index_div hk]; exact hc, blk', ?_, ?_, ?_⟩
  · rw [BlockPool.index_div hk, Array.getElem?_set!_of_lt hlt, if_pos rfl]
  · rw [BlockPool.index_mod hk]; exact htop
  · rw [BlockPool.index_mod hk]; exact hslot

/-- Handing out the last free entry, whose slot is null. -/
theorem Holds.fill (h : Holds others (f, p)) {i : Nat} (hi : f.free.back? = some i)
    (hv : p.slot? i = some 0) (obj : Nat) :
    Holds others ({ f with free := f.free.pop }, p.store i obj) ∧
      Grows (f, p) ({ f with free := f.free.pop }, p.store i obj) ∧
      Gave ({ f with free := f.free.pop }, p.store i obj) i obj := by
  obtain ⟨hmem, blk, hblk, htop⟩ := h.frame.free i (by simpa using Array.mem_of_back? hi)
  have hnull : blk.slots.getD (i % blockSlots) 0 = 0 := by
    simpa [BlockPool.slot?, hblk] using hv
  have hsound := h.pool.blocks _ blk hblk
  have hlt : i / blockSlots < p.blocks.size :=
    h.custody.lt_of_mem (Or.inl (List.mem_append_right others hmem))
  have hmod : i % blockSlots < blk.slots.size := by
    rw [hsound.size_eq]
    exact Nat.mod_lt _ (by decide)
  rw [BlockPool.store_eq hblk]
  obtain ⟨hh, hg⟩ := h.set hmem hblk (hsound.store _ _) (Block.Retains.fill hnull)
    fun hcl => hcl.store (Or.inl htop)
  refine ⟨⟨hh.pool, hh.custody, hh.frame.pop⟩, hg.congr rfl rfl, hmem,
    { blk with slots := blk.slots.set! (i % blockSlots) obj }, ?_, htop, ?_⟩
  · rw [Array.getElem?_set!_of_lt hlt, if_pos rfl]
  · rw [Array.getD_set!, if_pos ⟨rfl, hmod⟩]

/-- Adding a block taken from the pool. -/
theorem Holds.grow (h : Holds others (f, p)) {b : Nat} {p' : BlockPool}
    (ht : BlockPool.Took p b p') :
    Holds others (f.grow b, p') ∧ Grows (f, p) (f.grow b, p') := by
  have hnot : b ∉ f.blocks.toList :=
    fun hm => h.custody.not_mem_took ht (List.mem_append_right _ hm)
  have hg : Grows (f, p) (f.grow b, p') := by
    refine ⟨by simp, fun c hc blk hblk => ⟨blk, ?_, Block.Retains.refl blk⟩, fun c hc => ?_,
      ht.queue_suffix, ht.fresh_empty, ht.size_le, fun hc => hc.took ht⟩
    · rw [ht.others c (by rintro rfl; exact hnot hc)]
      exact hblk
    · refine ht.others c ?_
      rintro rfl
      simp at hc
  refine ⟨⟨h.pool.took ht, ?_, (h.frame.retain hg.retains).grow b⟩, hg⟩
  have hc := BlockPool.custody_took h.custody ht
  simpa [List.append_assoc] using hc

end Steps

/-- Entries a rebuild may add to the free list: handed-out slots of the listed blocks. -/
def Collected (bs : List Nat) (p : BlockPool) (E : List Nat) : Prop :=
  ∀ i ∈ E, i / blockSlots ∈ bs ∧ ∃ blk, p.blocks[i / blockSlots]? = some blk ∧ i % blockSlots < blk.top

/-- A rebuild of the free list from blocks `bs`, finished or stopped, appends handed-out slots
of those blocks and changes nothing else. -/
theorem collectFree_final (bs : List Nat) (f : Frame) (p : BlockPool) (j : Journal) :
    ∃ E, Collected bs p E ∧
      Action.final (collectFree bs ((f, p), j)) = ({ f with free := f.free ++ E.toArray }, p) := by
  induction bs generalizing f j with
  | nil => exact ⟨[], by simp [Collected], by simp [collectFree]⟩
  | cons b bs ih =>
    have hstop : ({ f with free := f.free ++ ([] : List Nat).toArray } : Frame) = f := by simp
    cases hblk : p.block? b with
    | none =>
      refine ⟨[], by simp [Collected], ?_⟩
      simp only [collectFree, bind, EStateM.bind, Action.read_run, hblk, Action.fail_run,
        Action.final_error, hstop]
    | some blk =>
      by_cases hfull : blk.top = blockSlots
      · let found := ((List.range blk.top).filter fun i => blk.slots.getD i 0 == 0).map
          fun i => b * blockSlots + i
        obtain ⟨E, hE, hfin⟩ := ih { f with free := f.free ++ found.toArray } j
        refine ⟨found ++ E, fun i hi => ?_, ?_⟩
        · rcases List.mem_append.mp hi with hi | hi
          · obtain ⟨k, hk, rfl⟩ := List.mem_map.mp hi
            have hk' : k < blk.top := List.mem_range.mp (List.mem_filter.mp hk).1
            have hk32 : k < blockSlots := hfull ▸ hk'
            rw [BlockPool.index_div hk32, BlockPool.index_mod hk32]
            exact ⟨List.mem_cons_self, blk, hblk, hk'⟩
          · obtain ⟨hmem, rest⟩ := hE i hi
            exact ⟨List.mem_cons_of_mem b hmem, rest⟩
        · simp only [collectFree, bind, EStateM.bind, Action.read_run, hblk, if_pos hfull,
            Action.write_run]
          rw [hfin]
          simp [found, Array.append_assoc]
      · refine ⟨[], by simp [Collected], ?_⟩
        simp only [collectFree, bind, EStateM.bind, Action.read_run, hblk, hfull, if_false,
          Action.fail_run, Action.final_error, hstop]

/-- A rebuild, finished or stopped, appends handed-out slots of the frame's own blocks to its
free list and may reset how many blocks the frame adds next; the pool is untouched. -/
theorem rebuild_final (f : Frame) (p : BlockPool) (j : Journal) :
    ∃ E, Collected f.blocks.toList p E ∧ ∃ abr, Action.final (rebuild ((f, p), j)) =
      ({ f with free := f.free ++ E.toArray, allocBeforeRebuild := abr }, p) := by
  obtain ⟨E, hE, hfin⟩ := collectFree_final f.blocks.toList f p j
  refine ⟨E, hE, ?_⟩
  simp only [rebuild, bind, EStateM.bind, Action.read_run]
  rcases hc : collectFree f.blocks.toList ((f, p), j) with ⟨_, s⟩ | ⟨e, s⟩
  · rw [hc, Action.final_ok] at hfin
    obtain ⟨s1, js⟩ := s
    subst hfin
    exact ⟨_, rfl⟩
  · rw [hc, Action.final_error] at hfin
    exact ⟨f.allocBeforeRebuild, hfin⟩

/-- Adding collected entries to the free list keeps the frame invariant. -/
theorem Holds.collect {others : List Nat} {f : Frame} {p : BlockPool} (h : Holds others (f, p))
    {E : List Nat} (hE : Collected f.blocks.toList p E) (abr : Nat) :
    Holds others ({ f with free := f.free ++ E.toArray, allocBeforeRebuild := abr }, p) ∧
      Grows (f, p) ({ f with free := f.free ++ E.toArray, allocBeforeRebuild := abr }, p) := by
  refine ⟨⟨h.pool, h.custody, h.frame.last_lt, fun i hi => ?_⟩, (Grows.refl _).congr rfl rfl⟩
  have hi' : i ∈ f.free ∨ i ∈ E := by simpa using hi
  rcases hi' with hi | hi
  · exact h.frame.free i (by simpa using hi)
  · exact hE i hi

/-- Everything one allocation step can do, with the conditions under which it does it. -/
theorem allocateStep_cases (obj : Nat) (f : Frame) (p : BlockPool) (j : Journal) :
    (p.block? (f.blocks.getD f.last 0) = none ∧
      allocateStep obj ((f, p), j) = .error (.unknownBlock (f.blocks.getD f.last 0)) ((f, p), j)) ∨
    (∃ blk blk' k, p.block? (f.blocks.getD f.last 0) = some blk ∧ blk.bump obj = some (blk', k) ∧
      allocateStep obj ((f, p), j) = .ok (.done (f.blocks.getD f.last 0 * blockSlots + k))
        ((f, { p with blocks := p.blocks.set! (f.blocks.getD f.last 0) blk' }), j)) ∨
    (∃ i, f.free.back? = some i ∧
      ((p.slot? i = some 0 ∧
        allocateStep obj ((f, p), j) = .ok (.done i) (({ f with free := f.free.pop }, p.store i obj), j)) ∨
       (∃ e, allocateStep obj ((f, p), j) = .error e (({ f with free := f.free.pop }, p), j)))) ∨
    (f.free.back? = none ∧ f.last + 1 < f.blocks.size ∧
      allocateStep obj ((f, p), j) = .ok .again (({ f with last := f.last + 1 }, p), j)) ∨
    (f.free.back? = none ∧ ¬ f.last + 1 < f.blocks.size ∧ f.allocBeforeRebuild = 0 ∧
      allocateStep obj ((f, p), j) = match rebuild ((f, p), j) with
        | .ok _ s => .ok .again s
        | .error e s => .error e s) ∨
    (f.free.back? = none ∧ ¬ f.last + 1 < f.blocks.size ∧ f.allocBeforeRebuild ≠ 0 ∧
      ((∃ b p' j', BlockPool.allocate (p, j) = .ok b (p', j') ∧
        allocateStep obj ((f, p), j) = .ok .again ((f.grow b, p'), j')) ∨
       (∃ e j', allocateStep obj ((f, p), j) = .error e ((f, p), j')))) := by
  rcases hblk : p.block? (f.blocks.getD f.last 0) with _ | blk
  · left
    exact ⟨rfl, by simp only [allocateStep, bind, EStateM.bind, Action.read_run, hblk, Action.fail_run]⟩
  right
  rcases hbump : blk.bump obj with _ | ⟨blk', k⟩
  · right
    rcases hfree : f.free.back? with _ | i
    · right
      by_cases hnext : f.last + 1 < f.blocks.size
      · left
        exact ⟨rfl, hnext, by simp only [allocateStep, bind, EStateM.bind, Action.read_run, hblk, hbump,
          hfree, hnext, if_true, Action.write_run, Action.pure_run]⟩
      right
      by_cases habr : f.allocBeforeRebuild = 0
      · left
        refine ⟨rfl, hnext, habr, ?_⟩
        simp only [allocateStep, bind, EStateM.bind, Action.read_run, hblk, hbump, hfree, hnext, habr,
          if_false, if_true]
        cases rebuild ((f, p), j) <;> rfl
      · right
        refine ⟨rfl, hnext, habr, ?_⟩
        simp only [allocateStep, bind, EStateM.bind, Action.read_run, hblk, hbump, hfree, hnext, habr,
          if_false]
        rcases BlockPool.allocate_cases p j with ⟨b, rest, _, ha⟩ | ⟨_, _, j', ha⟩ | ⟨_, _, ha⟩
        · exact Or.inl ⟨b, _, j, ha, by rw [Action.focus_ok ha]; rfl⟩
        · exact Or.inl ⟨_, _, j', ha, by rw [Action.focus_ok ha]; rfl⟩
        · exact Or.inr ⟨_, j, by rw [Action.focus_error ha]⟩
    · left
      refine ⟨i, rfl, ?_⟩
      rcases hslot : p.slot? i with _ | v
      · exact Or.inr ⟨.unknownBlock (i / blockSlots), by simp only [allocateStep, bind, EStateM.bind,
          Action.read_run, hblk, hbump, hfree, hslot, Action.write_run, Action.fail_run]⟩
      by_cases hv : v = 0
      · subst hv
        exact Or.inl ⟨rfl, by simp only [allocateStep, bind, EStateM.bind, Action.read_run, hblk, hbump,
          hfree, hslot, if_true, Action.write_run, Action.pure_run]⟩
      · exact Or.inr ⟨.freeEntryInUse i, by simp only [allocateStep, bind, EStateM.bind,
          Action.read_run, hblk, hbump, hfree, hslot, hv, if_false, Action.write_run, Action.fail_run]⟩
  · exact Or.inl ⟨blk, blk', k, rfl, hbump, by simp only [allocateStep, bind, EStateM.bind,
      Action.read_run, hblk, hbump, Action.write_run, Action.pure_run]⟩

/-- A step that rebuilds the free list ends where the rebuild ends. -/
theorem final_of_rebuild_step {obj : Nat} {f : Frame} {p : BlockPool} {j : Journal}
    (hr : allocateStep obj ((f, p), j) = match rebuild ((f, p), j) with
      | .ok _ s => .ok .again s
      | .error e s => .error e s) :
    Action.final (allocateStep obj ((f, p), j)) = Action.final (rebuild ((f, p), j)) := by
  rw [hr]
  cases rebuild ((f, p), j) <;> rfl

section Run

variable {others : List Nat} {f : Frame} {p : BlockPool}

/-- One allocation step keeps the frame invariant and only grows the frame, whichever way it
ends. -/
theorem allocateStep_holds (h : Holds others (f, p)) (obj : Nat) (j : Journal) :
    Holds others (Action.final (allocateStep obj ((f, p), j))) ∧
      Grows (f, p) (Action.final (allocateStep obj ((f, p), j))) := by
  have hq : ∀ c ∈ p.queue, c < p.blocks.size := fun c hc => h.custody.lt_of_mem (Or.inr hc)
  rcases allocateStep_cases obj f p j with
    ⟨_, hr⟩ | ⟨blk, blk', k, hblk, hb, hr⟩ | ⟨i, hi, ⟨hv, hr⟩ | ⟨e, hr⟩⟩ | ⟨_, hn, hr⟩ |
    ⟨_, _, _, hr⟩ | ⟨_, _, _, ⟨b, p', j', ha, hr⟩ | ⟨e, j', hr⟩⟩
  · rw [hr]
    exact ⟨h, Grows.refl _⟩
  · rw [hr]
    obtain ⟨hh, hg, _⟩ := h.bump h.frame.current_mem hblk hb
    exact ⟨hh, hg⟩
  · rw [hr]
    obtain ⟨hh, hg, _⟩ := h.fill hi hv obj
    exact ⟨hh, hg⟩
  · rw [hr]
    exact ⟨⟨h.pool, h.custody, h.frame.pop⟩, (Grows.refl _).congr rfl rfl⟩
  · rw [hr]
    exact ⟨⟨h.pool, h.custody, h.frame.next hn⟩, (Grows.refl _).congr rfl rfl⟩
  · -- a rebuild: the step ends where the rebuild ends
    obtain ⟨E, hE, abr, hreb⟩ := rebuild_final f p j
    rw [final_of_rebuild_step hr, hreb]
    exact h.collect hE abr
  · rw [hr]
    exact h.grow (BlockPool.allocate_took h.pool hq ha)
  · rw [hr]
    exact ⟨h, Grows.refl _⟩

/-- A step that hands out a slot gives a slot of one of the frame's blocks, holding the object. -/
theorem allocateStep_gave (h : Holds others (f, p)) {obj i : Nat} {j : Journal}
    {s : (Frame × BlockPool) × Journal} (hs : allocateStep obj ((f, p), j) = .ok (.done i) s) :
    Gave s.1 i obj := by
  rcases allocateStep_cases obj f p j with
    ⟨_, hr⟩ | ⟨blk, blk', k, hblk, hb, hr⟩ | ⟨i, hi, ⟨hv, hr⟩ | ⟨e, hr⟩⟩ | ⟨_, hn, hr⟩ |
    ⟨_, _, _, hr⟩ | ⟨_, _, _, ⟨b, p', j', ha, hr⟩ | ⟨e, j', hr⟩⟩ <;> rw [hr] at hs
  · cases hs
  · cases hs
    exact (h.bump h.frame.current_mem hblk hb).2.2
  · cases hs
    exact (h.fill hi hv obj).2.2
  · cases hs
  · cases hs
  · split at hs <;> cases hs
  · cases hs
  · cases hs

theorem allocateLoop_zero (obj : Nat) (s : (Frame × BlockPool) × Journal) :
    allocateLoop obj 0 s = .error (.blocksExhausted s.1.2.capacity) s := rfl

/-- A further round of the allocation loop: stop at a handed-out slot, go on after any other
step. -/
theorem allocateLoop_succ (obj n : Nat) (s : (Frame × BlockPool) × Journal) :
    allocateLoop obj (n + 1) s =
      match allocateStep obj s with
      | .ok (.done i) s' => .ok i s'
      | .ok .again s' => allocateLoop obj n s'
      | .error e s' => .error e s' := by
  simp only [allocateLoop, bind, EStateM.bind]
  rcases allocateStep obj s with ⟨_ | _, _⟩ | _ <;> rfl

/-- The allocation loop keeps the frame invariant and only grows the frame, whichever way it
ends. -/
theorem allocateLoop_holds (obj : Nat) :
    ∀ (n : Nat) (f : Frame) (p : BlockPool) (j : Journal), Holds others (f, p) →
      Holds others (Action.final (allocateLoop obj n ((f, p), j))) ∧
        Grows (f, p) (Action.final (allocateLoop obj n ((f, p), j)))
  | 0, f, p, j, h => by
    rw [allocateLoop_zero]
    exact ⟨h, Grows.refl _⟩
  | n + 1, f, p, j, h => by
    have hstep := allocateStep_holds h obj j
    rw [allocateLoop_succ]
    rcases hs : allocateStep obj ((f, p), j) with ⟨_ | _, ⟨⟨f', p'⟩, j'⟩⟩ | ⟨e, s'⟩ <;>
      rw [hs] at hstep
    · exact hstep
    · obtain ⟨hh, hg⟩ := allocateLoop_holds obj n f' p' j' hstep.1
      exact ⟨hh, hstep.2.trans hg⟩
    · exact hstep

/-- When the allocation loop returns a local index, that index is a slot of one of the frame's
blocks holding the object. -/
theorem allocateLoop_gave (obj : Nat) :
    ∀ (n : Nat) (f : Frame) (p : BlockPool) (j : Journal) (i : Nat) (s : (Frame × BlockPool) × Journal),
      Holds others (f, p) → allocateLoop obj n ((f, p), j) = .ok i s → Gave s.1 i obj
  | 0, f, p, j, i, s, _, hr => by
    rw [allocateLoop_zero] at hr
    cases hr
  | n + 1, f, p, j, i, s, h, hr => by
    have hstep := (allocateStep_holds h obj j).1
    rw [allocateLoop_succ] at hr
    rcases hs : allocateStep obj ((f, p), j) with ⟨_ | _, ⟨⟨f', p'⟩, j'⟩⟩ | ⟨e, s'⟩ <;>
      rw [hs] at hr hstep
    · cases hr
      exact allocateStep_gave h hs
    · exact allocateLoop_gave obj n f' p' j' i s hstep hr
    · cases hr

theorem allocate_run (obj : Nat) (f : Frame) (p : BlockPool) (j : Journal) :
    allocate obj ((f, p), j) = allocateLoop obj (stepBound f p) ((f, p), j) := rfl

/-- Allocating a handle keeps the frame invariant and only grows the frame, whichever way it
ends. -/
theorem allocate_holds (h : Holds others (f, p)) (obj : Nat) (j : Journal) :
    Holds others (Action.final (allocate obj ((f, p), j))) ∧
      Grows (f, p) (Action.final (allocate obj ((f, p), j))) := by
  rw [allocate_run]
  exact allocateLoop_holds obj _ f p j h

/-- A handle the frame hands out names a slot of one of its blocks holding the object. -/
theorem allocate_gave (h : Holds others (f, p)) {obj i : Nat} {j : Journal}
    {s : (Frame × BlockPool) × Journal} (hs : allocate obj ((f, p), j) = .ok i s) :
    Gave s.1 i obj := by
  rw [allocate_run] at hs
  exact allocateLoop_gave obj _ f p j i s h hs

end Run

/-- Creating a frame takes one block from the pool, or fails and changes nothing. -/
theorem create_cases (p : BlockPool) (j : Journal) :
    (∃ b p' j', BlockPool.allocate (p, j) = .ok b (p', j') ∧
      create (p, j) = .ok { blocks := #[b] } (p', j')) ∨
    (∃ e, create (p, j) = .error e (p, j)) := by
  rcases BlockPool.allocate_cases p j with ⟨b, rest, _, ha⟩ | ⟨_, _, j', ha⟩ | ⟨_, _, ha⟩
  · exact Or.inl ⟨b, _, j, ha, by rw [create, Action.bind_ok ha]; rfl⟩
  · exact Or.inl ⟨_, _, j', ha, by rw [create, Action.bind_ok ha]; rfl⟩
  · exact Or.inr ⟨_, by rw [create, Action.bind_error ha]⟩

/-- A frame made of a block just taken from the pool holds. -/
theorem holds_create {held : List Nat} {p p' : BlockPool} {b : Nat} (hp : p.Sound)
    (hc : p.Custody held) (ht : BlockPool.Took p b p') : Holds held ({ blocks := #[b] }, p') :=
  ⟨hp.took ht, by simpa using BlockPool.custody_took hc ht, ⟨by simp, by simp⟩⟩

end Frame

end GcRoots

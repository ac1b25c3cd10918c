import GcRoots.Proofs.Frame

namespace GcRoots

/-!
# Chains of frames in the pool

A chain is a stack of frames; the frame opened at depth `d` (the outermost at depth 0) is
`Chain.atDepth d`. `Chain.Holds others` is the invariant of a chain in its pool: the pool and
every frame are sound, and the chain's blocks, the blocks `others` held elsewhere and the
queue list each handed-out block once.

Every chain operation keeps the invariant and leaves the blocks held elsewhere as they were
(`Chain.Spares`). `Chain.Owns s d i obj` says that local index `i` is a handed-out slot of the
frame at depth `d` holding `obj`: allocating, opening frames and closing frames other than the
one at depth `d` keep it.

Main statements: `Chain.allocate_holds`, `Chain.Holds.push`, `Chain.Holds.pop`,
`Chain.Holds.release` and the `Owns` lemmas beside them.
-/

namespace Chain

/-- The blocks of every frame, innermost frame first. -/
def blocks (c : Chain) : List Nat := c.frames.flatMap fun f => f.blocks.toList

/-- The blocks of the frames outside the innermost one. -/
def outerBlocks (c : Chain) : List Nat := c.outer.flatMap fun f => f.blocks.toList

theorem blocks_eq (c : Chain) : c.blocks = c.top.blocks.toList ++ c.outerBlocks := by
  simp [blocks, outerBlocks, frames]

theorem mem_blocks {c : Chain} {b : Nat} : b ∈ c.blocks ↔ ∃ f ∈ c.frames, b ∈ f.blocks.toList := by
  simp [blocks]

/-- The number of frames outside the innermost one. -/
def depth (c : Chain) : Nat := c.outer.length

/-- The frame opened at depth `d`: the outermost frame is at depth 0, the innermost at
`depth`. -/
def atDepth (c : Chain) (d : Nat) : Option Frame := c.frames.reverse[d]?

theorem frames_reverse (c : Chain) : c.frames.reverse = c.outer.reverse ++ [c.top] := by
  simp [frames]

/-- The innermost frame is the frame at the chain's depth. -/
theorem atDepth_depth (c : Chain) : c.atDepth c.depth = some c.top := by
  simp [atDepth, frames_reverse, depth]

/-- Below the chain's depth, the frames are the outer frames. -/
theorem atDepth_lt (c : Chain) {d : Nat} (hd : d < c.depth) : c.atDepth d = c.outer.reverse[d]? := by
  rw [atDepth, frames_reverse, List.getElem?_append_left (by simpa [depth] using hd)]

theorem le_depth_of_atDepth {c : Chain} {d : Nat} {f : Frame} (h : c.atDepth d = some f) :
    d ≤ c.depth := by
  have hlt := (List.getElem?_eq_some_iff.mp h).1
  simp only [List.length_reverse, frames, List.length_cons] at hlt
  exact Nat.le_of_lt_succ hlt

theorem mem_frames_of_atDepth {c : Chain} {d : Nat} {f : Frame} (h : c.atDepth d = some f) :
    f ∈ c.frames :=
  List.mem_reverse.mp (List.mem_of_getElem? h)

/-- A chain inside its pool: the pool and every frame are sound, and the chain's blocks, the
blocks `others` held elsewhere and the queue list each handed-out block once. -/
structure Holds (others : List Nat) (s : Chain × BlockPool) : Prop where
  pool : s.2.Sound
  custody : s.2.Custody (others ++ s.1.blocks)
  frames : ∀ f ∈ s.1.frames, f.Sound s.2

/-- What a chain operation leaves alone: every block held elsewhere, and the arena, which it
only grows, and then only once the queue is empty. -/
structure Spares (others : List Nat) (p p' : BlockPool) : Prop where
  others : ∀ b ∈ others, p'.blocks[b]? = p.blocks[b]?
  fresh : p'.blocks.size = p.blocks.size ∨ p'.queue = []
  size_le : p.blocks.size ≤ p'.blocks.size
  clean : p.Clean → p'.Clean

theorem Spares.refl (others : List Nat) (p : BlockPool) : Spares others p p :=
  ⟨fun _ _ => rfl, Or.inl rfl, Nat.le_refl _, id⟩

section Ops

variable {others : List Nat} {c : Chain} {p : BlockPool}

theorem Holds.nodup (h : Holds others (c, p)) : (others ++ c.blocks).Nodup :=
  (List.nodup_append.mp h.custody.nodup).1

/-- The innermost frame holds with the outer frames' blocks counted as held elsewhere. -/
theorem Holds.top (h : Holds others (c, p)) : Frame.Holds (others ++ c.outerBlocks) (c.top, p) := by
  refine ⟨h.pool, h.custody.perm ?_, h.frames c.top List.mem_cons_self⟩
  rw [blocks_eq, List.append_assoc]
  exact List.Perm.append_left others List.perm_append_comm

/-- Replacing the innermost frame by a frame it grew into keeps the chain invariant and spares
the blocks held elsewhere. -/
theorem Holds.regrow (h : Holds others (c, p)) {f' : Frame} {p' : BlockPool}
    (hf : Frame.Holds (others ++ c.outerBlocks) (f', p')) (hg : Frame.Grows (c.top, p) (f', p')) :
    Holds others ({ c with top := f' }, p') ∧ Spares others p p' := by
  have hnd := (List.nodup_append.mp hf.custody.nodup).1
  -- a block held elsewhere or by an outer frame is not one of the new innermost frame's blocks
  have hout : ∀ b ∈ others ++ c.outerBlocks, b ∉ f'.blocks.toList :=
    fun b hb hb' => (List.nodup_append.mp hnd).2.2 b hb b hb' rfl
  refine ⟨⟨hf.pool, hf.custody.perm ?_, fun g hg' => ?_⟩, ⟨fun b hb => ?_, hg.fresh, hg.size_le, hg.clean⟩⟩
  · rw [blocks_eq, List.append_assoc]
    exact List.Perm.append_left others List.perm_append_comm
  · rcases List.mem_cons.mp hg' with rfl | hg'
    · exact hf.frame
    · refine (h.frames g (List.mem_cons_of_mem _ hg')).untouched fun b hb => hg.others b ?_
      exact hout b (List.mem_append_right _ (List.mem_flatMap.mpr ⟨g, hg', hb⟩))
  · exact hg.others b (hout b (List.mem_append_left _ hb))

theorem allocate_final (obj : Nat) (c : Chain) (p : BlockPool) (j : Journal) :
    Action.final (Chain.allocate obj ((c, p), j)) =
      ({ c with top := (Action.final (Frame.allocate obj ((c.top, p), j))).1 },
        (Action.final (Frame.allocate obj ((c.top, p), j))).2) :=
  Action.final_focus _ _ _ _

/-- Allocating a handle keeps the chain invariant, spares the blocks held elsewhere and only
grows the innermost frame, whichever way it ends. -/
theorem allocate_holds (h : Holds others (c, p)) (obj : Nat) (j : Journal) :
    Holds others (Action.final (Chain.allocate obj ((c, p), j))) ∧
      Spares others p (Action.final (Chain.allocate obj ((c, p), j))).2 ∧
      (Action.final (Chain.allocate obj ((c, p), j))).1.outer = c.outer ∧
      Frame.Grows (c.top, p) ((Action.final (Chain.allocate obj ((c, p), j))).1.top,
        (Action.final (Chain.allocate obj ((c, p), j))).2) := by
  rw [allocate_final]
  obtain ⟨hf, hg⟩ := Frame.allocate_holds h.top obj j
  obtain ⟨hh, hs⟩ := h.regrow hf hg
  exact ⟨hh, hs, rfl, hg⟩

/-- A handle the chain hands out names a slot of its innermost frame holding the object. -/
theorem allocate_gave (h : Holds others (c, p)) {obj i : Nat} {j : Journal}
    {s : (Chain × BlockPool) × Journal} (hs : Chain.allocate obj ((c, p), j) = .ok i s) :
    i / blockSlots ∈ s.1.1.top.blocks.toList ∧ s.1.2.Issued i obj := by
  unfold Chain.allocate at hs
  rcases hr : Frame.allocate obj ((c.top, p), j) with ⟨k, ⟨⟨f', p'⟩, j'⟩⟩ | ⟨e, ⟨⟨f', p'⟩, j'⟩⟩
  · rw [Action.focus_ok hr] at hs
    cases hs
    exact Frame.allocate_gave h.top hr
  · rw [Action.focus_error hr] at hs
    cases hs

/-- Opening a frame takes one block from the pool for a new innermost frame, or fails and
changes nothing. -/
theorem pushFrame_cases (c : Chain) (p : BlockPool) (j : Journal) :
    (∃ b p' j', BlockPool.allocate (p, j) = .ok b (p', j') ∧
      pushFrame ((c, p), j) = .ok () (({ top := { blocks := #[b] }, outer := c.top :: c.outer }, p'), j')) ∨
    (∃ e, pushFrame ((c, p), j) = .error e ((c, p), j)) := by
  unfold pushFrame
  rcases Frame.create_cases p j with ⟨b, p', j', ha, hc⟩ | ⟨e, hc⟩
  · exact Or.inl ⟨b, p', j', ha, by rw [Action.bind_ok (Action.focus_ok hc)]; rfl⟩
  · exact Or.inr ⟨e, by rw [Action.bind_error (Action.focus_error hc)]⟩

/-- A new innermost frame made of a block taken from the pool. -/
theorem Holds.push (h : Holds others (c, p)) {b : Nat} {p' : BlockPool}
    (ht : BlockPool.Took p b p') :
    Holds others ({ top := { blocks := #[b] }, outer := c.top :: c.outer }, p') ∧
      Spares others p p' := by
  have hnot : b ∉ others ++ c.blocks := h.custody.not_mem_took ht
  have hc := BlockPool.custody_took h.custody ht
  refine ⟨⟨h.pool.took ht, hc.perm ?_, fun g hg => ?_⟩, ⟨fun d hd => ?_, ht.fresh_empty, ht.size_le,
    fun hc => hc.took ht⟩⟩
  · have hnew : ({ top := { blocks := #[b] }, outer := c.top :: c.outer } : Chain).blocks =
        b :: c.blocks := by
      simp [blocks, Chain.frames]
    rw [hnew, List.append_assoc]
    exact List.Perm.append_left others (List.perm_append_singleton b c.blocks)
  · rcases List.mem_cons.mp hg with rfl | hg
    · exact ⟨by simp, by simp⟩
    · refine (h.frames g hg).untouched fun d hd => ht.others d ?_
      rintro rfl
      exact hnot (List.mem_append_right _ (mem_blocks.mpr ⟨g, hg, hd⟩))
  · refine ht.others d ?_
    rintro rfl
    exact hnot (List.mem_append_left _ hd)

/-- Closing a frame: with no outer frame nothing happens; otherwise the innermost frame's blocks
go back to the pool and the next frame becomes the innermost. -/
theorem popFrame_cases (h : Holds others (c, p)) (j : Journal) :
    (c.outer = [] ∧ popFrame ((c, p), j) = .ok false ((c, p), j)) ∨
    (∃ f rest p', c.outer = f :: rest ∧ BlockPool.Released p c.top.blocks.toList p' ∧
      popFrame ((c, p), j) = .ok true (({ top := f, outer := rest }, p'), j)) := by
  have hlt : ∀ b ∈ c.top.blocks.toList, b < p.blocks.size := fun b hb =>
    h.custody.lt_of_mem (Or.inl (List.mem_append_right _ (by rw [blocks_eq]; exact List.mem_append_left _ hb)))
  obtain ⟨p', hrel, hr⟩ := BlockPool.releaseAll_released h.pool _ hlt
  unfold popFrame
  cases ho : c.outer with
  | nil => exact Or.inl ⟨rfl, by simp [bind, EStateM.bind, ho]⟩
  | cons f rest =>
    exact Or.inr ⟨f, rest, p', rfl, hr, by simp [bind, EStateM.bind, ho, hrel]⟩

/-- Closing the innermost frame when an outer frame remains. -/
theorem Holds.pop (h : Holds others (c, p)) {f : Frame} {rest : List Frame} {p' : BlockPool}
    (ho : c.outer = f :: rest) (hr : BlockPool.Released p c.top.blocks.toList p') :
    Holds others ({ top := f, outer := rest }, p') ∧ Spares others p p' := by
  have hsplit : c.blocks = c.top.blocks.toList ++ ({ top := f, outer := rest } : Chain).blocks := by
    simp only [blocks, Chain.frames, ho, List.flatMap_cons]
  have hnd := h.nodup
  rw [hsplit] at hnd
  -- the released blocks are held by the closed frame alone
  have hout : ∀ b ∈ others ++ ({ top := f, outer := rest } : Chain).blocks, b ∉ c.top.blocks.toList := by
    intro b hb hb'
    rcases List.mem_append.mp hb with hb | hb
    · exact (List.nodup_append.mp hnd).2.2 b hb b (List.mem_append_left _ hb') rfl
    · exact (List.nodup_append.mp (List.nodup_append.mp hnd).2.1).2.2 b hb' b hb rfl
  refine ⟨⟨h.pool.released hr, BlockPool.custody_released (h.custody.perm ?_) hr,
    fun g hg => ?_⟩, ⟨fun b hb => hr.others b (hout b (List.mem_append_left _ hb)),
    Or.inl hr.size_eq, Nat.le_of_eq hr.size_eq.symm, hr.clean⟩⟩
  · rw [hsplit, List.append_assoc]
    exact List.Perm.append_left others List.perm_append_comm
  · have hg' : g ∈ c.frames := List.mem_cons_of_mem _ (by rw [ho]; exact hg)
    refine (h.frames g hg').untouched fun b hb => hr.others b ?_
    exact hout b (List.mem_append_right _ (mem_blocks.mpr ⟨g, hg, hb⟩))

/-- Returning every block of a chain to the pool always succeeds and leaves the blocks held
elsewhere in custody. -/
theorem Holds.release (h : Holds others (c, p)) :
    ∃ p', c.release p = .ok p' ∧ BlockPool.Released p c.blocks p' ∧ p'.Sound ∧
      p'.Custody others ∧ Spares others p p' := by
  have hlt : ∀ b ∈ c.blocks, b < p.blocks.size := fun b hb =>
    h.custody.lt_of_mem (Or.inl (List.mem_append_right _ hb))
  obtain ⟨p', hrel, hr⟩ := BlockPool.releaseAll_released h.pool _ hlt
  have hnd := h.nodup
  refine ⟨p', hrel, hr, h.pool.released hr, BlockPool.custody_released h.custody hr,
    ⟨fun b hb => hr.others b fun hb' => (List.nodup_append.mp hnd).2.2 b hb b hb' rfl,
      Or.inl hr.size_eq, Nat.le_of_eq hr.size_eq.symm, hr.clean⟩⟩

/-- Announcing a capacity changes no block. -/
theorem Holds.setPlanned (h : Holds others (c, p)) (n : Nat) : Holds others (c.setPlanned n, p) := by
  refine ⟨h.pool, h.custody, fun g hg => ?_⟩
  rcases List.mem_cons.mp hg with rfl | hg
  · exact ⟨(h.frames c.top List.mem_cons_self).last_lt, (h.frames c.top List.mem_cons_self).free⟩
  · exact h.frames g (List.mem_cons_of_mem _ hg)

/-- Creating a chain takes one block from the pool, or fails and changes nothing. -/
theorem create_cases (p : BlockPool) (j : Journal) :
    (∃ b p' j', BlockPool.allocate (p, j) = .ok b (p', j') ∧
      Chain.create (p, j) = .ok { top := { blocks := #[b] } } (p', j')) ∨
    (∃ e, Chain.create (p, j) = .error e (p, j)) := by
  unfold Chain.create
  rcases Frame.create_cases p j with ⟨b, p', j', ha, hc⟩ | ⟨e, hc⟩
  · exact Or.inl ⟨b, p', j', ha, by simp only [bind, EStateM.bind, hc]; rfl⟩
  · exact Or.inr ⟨e, by simp only [bind, EStateM.bind, hc]⟩

/-- A chain made of a block just taken from the pool holds. -/
theorem holds_create {p' : BlockPool} {b : Nat} (hp : p.Sound) (hc : p.Custody others)
    (ht : BlockPool.Took p b p') : Holds others ({ top := { blocks := #[b] } }, p') := by
  refine ⟨hp.took ht, by simpa [blocks, Chain.frames] using BlockPool.custody_took hc ht,
    fun g hg => ?_⟩
  simp only [Chain.frames, List.mem_cons, List.not_mem_nil, or_false] at hg
  subst hg
  exact ⟨by simp, by simp⟩

end Ops

/-- The chain owns local index `i` in its frame at depth `d`, and that slot holds `obj`. -/
def Owns (s : Chain × BlockPool) (d i obj : Nat) : Prop :=
  ∃ f, s.1.atDepth d = some f ∧ i / blockSlots ∈ f.blocks.toList ∧ s.2.Issued i obj

section Owns

variable {others : List Nat} {c : Chain} {p : BlockPool} {d i obj : Nat}

theorem Owns.mem (ho : Owns (c, p) d i obj) : i / blockSlots ∈ c.blocks := by
  obtain ⟨f, hf, hi, _⟩ := ho
  exact mem_blocks.mpr ⟨f, mem_frames_of_atDepth hf, hi⟩

/-- A slot the chain owns is one of its handles. -/
theorem Owns.framesHold (ho : Owns (c, p) d i obj) : c.framesHold p i = true := by
  obtain ⟨f, hf, hi, blk, hblk, htop, _⟩ := ho
  simp only [Chain.framesHold, List.any_eq_true]
  refine ⟨f, mem_frames_of_atDepth hf, ?_⟩
  simp only [Frame.holds, Bool.and_eq_true, Array.contains_iff_mem, BlockPool.block?, hblk,
    Block.contains, decide_eq_true_eq]
  exact ⟨Array.mem_toList_iff.mp hi, htop⟩

theorem Owns.untouched (ho : Owns (c, p) d i obj) {p' : BlockPool}
    (hu : p'.blocks[i / blockSlots]? = p.blocks[i / blockSlots]?) : Owns (c, p') d i obj := by
  obtain ⟨f, hf, hi, hiss⟩ := ho
  exact ⟨f, hf, hi, hiss.untouched hu⟩

/-- Allocating a handle keeps every object the chain owns in place. -/
theorem allocate_owns (h : Holds others (c, p)) (ho : Owns (c, p) d i obj) (hobj : obj ≠ 0)
    (o : Nat) (j : Journal) : Owns (Action.final (Chain.allocate o ((c, p), j))) d i obj := by
  obtain ⟨_, _, hout, hg⟩ := allocate_holds h o j
  rw [allocate_final] at hg hout ⊢
  obtain ⟨f, hf, hi, hiss⟩ := ho
  rcases Nat.lt_or_ge d c.depth with hd | hd
  · -- an outer frame: its blocks are not the innermost frame's, so the allocation spared them
    have hd' : d < ({ c with top := (Action.final (Frame.allocate o ((c.top, p), j))).1 } : Chain).depth := hd
    refine ⟨f, by rw [atDepth_lt _ hd']; rw [atDepth_lt _ hd] at hf; exact hf, hi, ?_⟩
    refine hiss.untouched (hg.others _ fun hm => ?_)
    have hnd := (List.nodup_append.mp (Frame.allocate_holds h.top o j).1.custody.nodup).1
    rw [atDepth_lt _ hd] at hf
    have hmo : i / blockSlots ∈ c.outerBlocks :=
      List.mem_flatMap.mpr ⟨f, List.mem_reverse.mp (List.mem_of_getElem? hf), hi⟩
    exact (List.nodup_append.mp hnd).2.2 _ (List.mem_append_right _ hmo) _ hm rfl
  · -- the innermost frame: it only grew
    have hdd : d = c.depth := Nat.le_antisymm (le_depth_of_atDepth hf) hd
    subst hdd
    rw [atDepth_depth] at hf
    cases hf
    exact ⟨_, atDepth_depth _, hg.start.subset hi, hg.issued hi hiss hobj⟩

/-- A handle the chain hands out is owned by its innermost frame. -/
theorem allocate_owns_result (h : Holds others (c, p)) {o k : Nat} {j : Journal}
    {s : (Chain × BlockPool) × Journal} (hs : Chain.allocate o ((c, p), j) = .ok k s) :
    Owns s.1 s.1.1.depth k o := by
  obtain ⟨hk, hiss⟩ := allocate_gave h hs
  exact ⟨_, atDepth_depth _, hk, hiss⟩

/-- Opening a frame keeps every object the chain owns in place. -/
theorem Holds.push_owns (h : Holds others (c, p)) (ho : Owns (c, p) d i obj) {b : Nat}
    {p' : BlockPool} (ht : BlockPool.Took p b p') :
    Owns ({ top := { blocks := #[b] }, outer := c.top :: c.outer }, p') d i obj := by
  obtain ⟨f, hf, hi, hiss⟩ := ho
  have hd : d < ({ top := { blocks := #[b] }, outer := c.top :: c.outer } : Chain).depth := by
    simp only [depth, List.length_cons]
    exact Nat.lt_succ_of_le (le_depth_of_atDepth hf)
  refine ⟨f, ?_, hi, hiss.untouched (ht.others _ ?_)⟩
  · rw [atDepth_lt _ hd]
    simpa [atDepth, frames_reverse] using hf
  · rintro rfl
    exact h.custody.not_mem_took ht (List.mem_append_right _ (mem_blocks.mpr
      ⟨f, mem_frames_of_atDepth hf, hi⟩))

/-- Closing a frame other than the one at depth `d` keeps the objects owned there in place. -/
theorem Holds.pop_owns (h : Holds others (c, p)) (ho : Owns (c, p) d i obj) (hd : d ≠ c.depth)
    {f : Frame} {rest : List Frame} {p' : BlockPool} (hout : c.outer = f :: rest)
    (hr : BlockPool.Released p c.top.blocks.toList p') :
    Owns ({ top := f, outer := rest }, p') d i obj := by
  obtain ⟨g, hg, hi, hiss⟩ := ho
  have hlt : d < c.depth := Nat.lt_of_le_of_ne (le_depth_of_atDepth hg) hd
  have hnew : ({ top := f, outer := rest } : Chain).atDepth d = c.outer.reverse[d]? := by
    simp [atDepth, Chain.frames, hout]
  refine ⟨g, hnew.trans ((atDepth_lt _ hlt).symm.trans hg), hi,
    hiss.untouched (hr.others _ fun hm => ?_)⟩
  · -- the frame at depth `d` is an outer frame, whose blocks the innermost frame does not share
    have hnd := h.nodup
    rw [blocks_eq] at hnd
    have hmo : i / blockSlots ∈ c.outerBlocks := by
      rw [atDepth_lt _ hlt] at hg
      exact List.mem_flatMap.mpr ⟨g, List.mem_reverse.mp (List.mem_of_getElem? hg), hi⟩
    exact (List.nodup_append.mp (List.nodup_append.mp hnd).2.1).2.2 _ hm _ hmo rfl

theorem Owns.setPlanned (ho : Owns (c, p) d i obj) (n : Nat) : Owns (c.setPlanned n, p) d i obj := by
  obtain ⟨f, hf, hi, hiss⟩ := ho
  rcases Nat.lt_or_ge d c.depth with hd | hd
  · exact ⟨f, by rw [atDepth_lt _ hd] at hf; exact (atDepth_lt (c.setPlanned n) hd).trans hf, hi, hiss⟩
  · have hdd : d = c.depth := Nat.le_antisymm (le_depth_of_atDepth hf) hd
    subst hdd
    rw [atDepth_depth] at hf
    cases hf
    exact ⟨_, atDepth_depth (c.setPlanned n), hi, hiss⟩

end Owns

end Chain

end GcRoots

import GcRoots.Proofs.Final
import GcRoots.Block.Basic

namespace GcRoots

/-!
# Sound blocks and the pool's custody of them

A block is sound when it has its thirty-two slots and `top` lies among them; it is clean when
every slot from `top` on is null. Every operation keeps blocks sound; handing out a slot,
writing a handed-out slot, nulling a slot and clearing keep them clean, while a write through a
stale handle may not. The pool is sound when all its blocks are and every queued block has
handed out nothing, and clean when all its blocks are: then a queued block holds only null
slots.

Block custody is stated against the blocks held outside the pool: `BlockPool.Custody held p`
says that `held` and the queue together list each block the pool has handed out exactly once.
Taking a block moves it from the queue (or from the arena) into `held`; releasing blocks moves
them back to the end of the queue.

Main statements: `BlockPool.allocate_cases` (what taking a block can do), `custody_took`,
`BlockPool.releaseAll_released` (releasing handed-out blocks always succeeds) and
`custody_released`.
-/

/-- An entry of an array after an entry within its bounds was replaced. -/
theorem Array.getElem?_set!_of_lt {α : Type} {xs : Array α} {i : Nat} (hi : i < xs.size) (x : α)
    (j : Nat) : (xs.set! i x)[j]? = if i = j then some x else xs[j]? := by
  by_cases hij : i = j
  · subst hij
    simp [hi]
  · simp [hij]

/-- An entry of an array, read with a default, after one entry was replaced: the new value
when the array has that entry, and the old entry elsewhere. -/
theorem Array.getD_set! {α : Type} (xs : Array α) (i : Nat) (x : α) (j : Nat) (d : α) :
    (xs.set! i x).getD j d = if i = j ∧ i < xs.size then x else xs.getD j d := by
  simp only [Array.getD_eq_getD_getElem?, Array.set!_eq_setIfInBounds,
    Array.getElem?_setIfInBounds]
  by_cases hij : i = j
  · subst hij
    by_cases hi : i < xs.size
    · simp [hi]
    · simp [hi]
  · simp [hij]

namespace Block

/-- A sound block: thirty-two slots and `top` among them. -/
structure Sound (b : Block) : Prop where
  size_eq : b.slots.size = blockSlots
  top_le : b.top ≤ blockSlots

/-- A clean block: every slot it has not handed out is null. -/
def Clean (b : Block) : Prop := ∀ i, b.top ≤ i → b.slots.getD i 0 = 0

/-- `b'` still holds what `b` handed out: its top is no lower and each handed-out slot of `b`
that holds an object holds the same object. -/
structure Retains (b b' : Block) : Prop where
  top_le : b.top ≤ b'.top
  live : ∀ k, k < b.top → b.slots.getD k 0 ≠ 0 → b'.slots.getD k 0 = b.slots.getD k 0

theorem Retains.refl (b : Block) : b.Retains b := ⟨Nat.le_refl _, fun _ _ _ => rfl⟩

theorem Retains.trans {b b' b'' : Block} (h : b.Retains b') (h' : b'.Retains b'') :
    b.Retains b'' := by
  refine ⟨Nat.le_trans h.top_le h'.top_le, fun k hk hv => ?_⟩
  have hk' : b'.slots.getD k 0 = b.slots.getD k 0 := h.live k hk hv
  rw [h'.live k (Nat.lt_of_lt_of_le hk h.top_le) (by rw [hk']; exact hv), hk']

theorem sound_empty : ({} : Block).Sound where
  size_eq := by simp [blockSlots]
  top_le := by simp [blockSlots]

theorem clean_empty : ({} : Block).Clean := by
  intro i _
  simp only [Array.getD_eq_getD_getElem?, Array.getElem?_replicate]
  split <;> rfl

/-- Handing out a slot writes the object at `top` and raises `top` by one. -/
theorem bump_eq_some {b b' : Block} {obj k : Nat} (h : b.bump obj = some (b', k)) :
    k = b.top ∧ b.top < blockSlots ∧ b' = { slots := b.slots.set! b.top obj, top := b.top + 1 } := by
  unfold bump at h
  split at h
  · cases h
    exact ⟨rfl, ‹_›, rfl⟩
  · cases h

theorem Sound.bump {b b' : Block} {obj k : Nat} (hb : b.Sound) (h : b.bump obj = some (b', k)) :
    b'.Sound ∧ b.Retains b' ∧ b'.slots.getD k 0 = obj ∧ k < b'.top := by
  obtain ⟨rfl, hlt, rfl⟩ := bump_eq_some h
  have hsize : b.top < b.slots.size := by rw [hb.size_eq]; exact hlt
  refine ⟨⟨by simp [hb.size_eq], hlt⟩, ⟨Nat.le_succ _, fun j hj _ => ?_⟩, ?_, ?_⟩
  · rw [Array.getD_set!, if_neg (by omega)]
  · simp [hsize]
  · simp

/-- Handing out a slot keeps a block clean. -/
theorem Clean.bump {b b' : Block} {obj k : Nat} (hb : b.Clean) (h : b.bump obj = some (b', k)) :
    b'.Clean := by
  obtain ⟨rfl, _, rfl⟩ := bump_eq_some h
  intro i hi
  have hi' : b.top + 1 ≤ i := hi
  rw [Array.getD_set!, if_neg (by omega)]
  exact hb i (by omega)

/-- Writing a slot keeps a block sound. -/
theorem Sound.store {b : Block} (hb : b.Sound) (k v : Nat) :
    ({ b with slots := b.slots.set! k v } : Block).Sound :=
  ⟨by simp [hb.size_eq], hb.top_le⟩

/-- Writing a slot below `top`, or writing null anywhere, keeps a block clean. -/
theorem Clean.store {b : Block} (hb : b.Clean) {k v : Nat} (hk : k < b.top ∨ v = 0) :
    ({ b with slots := b.slots.set! k v } : Block).Clean := by
  intro i hi
  have hi' : b.top ≤ i := hi
  simp only [Array.getD_set!]
  split
  · rcases hk with hk | hv
    · omega
    · exact hv
  · exact hb i hi'

/-- The slots of an array after nulling the listed positions in order. -/
theorem getD_foldl_set_zero (l : List Nat) (a : Array Nat) (i : Nat) :
    (l.foldl (fun a k => a.set! k 0) a).getD i 0 = if i ∈ l then 0 else a.getD i 0 := by
  induction l generalizing a with
  | nil => simp
  | cons k l ih =>
    rw [List.foldl_cons, ih, Array.getD_set!]
    by_cases hi : i ∈ l
    · simp [hi]
    · by_cases hk : k = i
      · subst hk
        simp only [hi, if_false, List.mem_cons, true_or, if_true]
        split <;> simp_all [Array.getD_eq_getD_getElem?]
      · simp [hi, hk, Ne.symm hk]

theorem size_foldl_set_zero (l : List Nat) (a : Array Nat) :
    (l.foldl (fun a k => a.set! k 0) a).size = a.size := by
  induction l generalizing a with
  | nil => rfl
  | cons k l ih => rw [List.foldl_cons, ih]; simp

/-- A cleared sound block is sound and has handed out nothing. -/
theorem Sound.clear {b : Block} (hb : b.Sound) : b.clear.Sound ∧ b.clear.top = 0 := by
  refine ⟨⟨?_, by simp [Block.clear]⟩, rfl⟩
  simp only [Block.clear]
  rw [size_foldl_set_zero, hb.size_eq]

/-- Clearing a clean block leaves only null slots. -/
theorem Clean.null_clear {b : Block} (hb : b.Clean) (i : Nat) : b.clear.slots.getD i 0 = 0 := by
  simp only [Block.clear, getD_foldl_set_zero, List.mem_range]
  split
  · rfl
  · exact hb i (by omega)

theorem Clean.clear {b : Block} (hb : b.Clean) : b.clear.Clean := fun i _ => hb.null_clear i

/-- Writing a null slot keeps whatever a block handed out. -/
theorem Retains.fill {b : Block} {k v : Nat} (hk : b.slots.getD k 0 = 0) :
    b.Retains { b with slots := b.slots.set! k v } := by
  refine ⟨Nat.le_refl _, fun m _ hm => ?_⟩
  simp only [Array.getD_set!]
  split
  · rename_i hkm
    rw [← hkm.1, hk] at hm
    exact absurd rfl hm
  · rfl

end Block

namespace BlockPool

/-- Every block of the pool is sound, and a queued block has handed out nothing. -/
structure Sound (p : BlockPool) : Prop where
  blocks : ∀ (b : Nat) (blk : Block), p.blocks[b]? = some blk → blk.Sound
  queued : ∀ b ∈ p.queue, ∀ blk : Block, p.blocks[b]? = some blk → blk.top = 0

/-- Every block of the pool is clean. -/
def Clean (p : BlockPool) : Prop := ∀ (b : Nat) (blk : Block), p.blocks[b]? = some blk → blk.Clean

/-- In a sound and clean pool a queued block holds only null slots. -/
theorem Clean.queued_null {p : BlockPool} (hp : p.Sound) (hc : p.Clean) {b : Nat} (hb : b ∈ p.queue)
    {blk : Block} (hblk : p.blocks[b]? = some blk) (i : Nat) : blk.slots.getD i 0 = 0 :=
  hc b blk hblk i (by rw [hp.queued b hb blk hblk]; exact Nat.zero_le i)

/-- The pool's side of block custody: the blocks held outside the pool and the queued blocks
are, together, each block the pool has handed out, once. -/
def Custody (held : List Nat) (p : BlockPool) : Prop :=
  (held ++ p.queue).Perm (List.range p.blocks.size)

theorem Custody.nodup {held : List Nat} {p : BlockPool} (h : Custody held p) :
    (held ++ p.queue).Nodup :=
  h.nodup_iff.mpr List.nodup_range

theorem Custody.lt_of_mem {held : List Nat} {p : BlockPool} (h : Custody held p) {b : Nat}
    (hb : b ∈ held ∨ b ∈ p.queue) : b < p.blocks.size := by
  have hmem : b ∈ held ++ p.queue := List.mem_append.mpr hb
  simpa using h.mem_iff.mp hmem

theorem Custody.not_queued {held : List Nat} {p : BlockPool} (h : Custody held p) {b : Nat}
    (hb : b ∈ held) : b ∉ p.queue := by
  have hnd := h.nodup
  rw [List.nodup_append] at hnd
  exact fun hq => hnd.2.2 b hb b hq rfl

/-- Taking a block gives the head of the queue, else a fresh block of the arena while the
arena has room, else fails and changes nothing. -/
theorem allocate_cases (p : BlockPool) (j : Journal) :
    (∃ b rest, p.queue = b :: rest ∧ allocate (p, j) = .ok b ({ p with queue := rest }, j)) ∨
    (p.queue = [] ∧ p.blocks.size < p.capacity ∧
      ∃ j', allocate (p, j) = .ok p.blocks.size ({ p with blocks := p.blocks.push {} }, j')) ∨
    (p.queue = [] ∧ ¬ p.blocks.size < p.capacity ∧
      allocate (p, j) = .error (.blocksExhausted p.capacity) (p, j)) := by
  cases hq : p.queue with
  | cons b rest =>
    refine Or.inl ⟨b, rest, rfl, ?_⟩
    simp [allocate, bind, EStateM.bind, hq]
  | nil =>
    right
    by_cases hc : p.blocks.size < p.capacity
    · refine Or.inl ⟨rfl, hc, ?_⟩
      by_cases hs : Arena.startsChunk p.blocks.size
      · exact ⟨_, by simp [allocate, bind, EStateM.bind, hq, hc, hs]; rfl⟩
      · exact ⟨_, by simp [allocate, bind, EStateM.bind, hq, hc, hs]; rfl⟩
    · exact Or.inr ⟨rfl, hc, by simp [allocate, bind, EStateM.bind, hq, hc]⟩

/-- What a successful `allocate` did: the block `b` it gave came off the head of the queue or
is a fresh block of the arena, it is sound and has handed out nothing, and every other block is
untouched. -/
structure Took (p : BlockPool) (b : Nat) (p' : BlockPool) : Prop where
  others : ∀ c, c ≠ b → p'.blocks[c]? = p.blocks[c]?
  taken : ∃ blk, p'.blocks[b]? = some blk ∧ blk.Sound ∧ blk.top = 0
  block : p'.blocks[b]? = p.blocks[b]? ∨ p'.blocks[b]? = some {}
  source : (p.queue = b :: p'.queue ∧ p'.blocks.size = p.blocks.size) ∨
    (p.queue = [] ∧ p'.queue = [] ∧ b = p.blocks.size ∧ p'.blocks.size = p.blocks.size + 1)

theorem allocate_took {p p' : BlockPool} {j j' : Journal} {b : Nat} (hp : p.Sound)
    (hq : ∀ c ∈ p.queue, c < p.blocks.size) (h : allocate (p, j) = .ok b (p', j')) :
    Took p b p' := by
  rcases allocate_cases p j with ⟨c, rest, hc, ha⟩ | ⟨hc, hlt, j'', ha⟩ | ⟨_, _, ha⟩
  · rw [ha] at h
    cases h
    have hmem : b ∈ p.queue := by simp [hc]
    have hlt : b < p.blocks.size := hq b hmem
    have hblk : p.blocks[b]? = some p.blocks[b] := Array.getElem?_eq_getElem hlt
    exact ⟨fun _ _ => rfl, ⟨_, hblk, hp.blocks b _ hblk, hp.queued b hmem _ hblk⟩, Or.inl rfl,
      Or.inl ⟨hc, rfl⟩⟩
  · rw [ha] at h
    cases h
    refine ⟨fun c hcb => ?_, ⟨{}, by simp, Block.sound_empty, rfl⟩, Or.inr (by simp),
      Or.inr ⟨hc, hc, rfl, by simp⟩⟩
    simp [Array.getElem?_push, hcb]
  · rw [ha] at h
    cases h

theorem Took.queue_suffix {p p' : BlockPool} {b : Nat} (ht : Took p b p') : p'.queue <:+ p.queue := by
  rcases ht.source with ⟨hq, _⟩ | ⟨_, hq', _, _⟩
  · exact ⟨[b], by simp [hq]⟩
  · simp [hq']

theorem Took.size_le {p p' : BlockPool} {b : Nat} (ht : Took p b p') :
    p.blocks.size ≤ p'.blocks.size := by
  rcases ht.source with ⟨_, hs⟩ | ⟨_, _, _, hs⟩ <;> omega

theorem Took.fresh_empty {p p' : BlockPool} {b : Nat} (ht : Took p b p') :
    p'.blocks.size = p.blocks.size ∨ p'.queue = [] := by
  rcases ht.source with ⟨_, hs⟩ | ⟨_, hq', _, _⟩
  · exact Or.inl hs
  · exact Or.inr hq'

theorem Sound.took {p p' : BlockPool} {b : Nat} (hp : p.Sound) (ht : Took p b p') : p'.Sound := by
  obtain ⟨blk', hblk', hsound, htop⟩ := ht.taken
  refine ⟨fun c blk hc => ?_, fun c hcq blk hc => ?_⟩
  · by_cases hcb : c = b
    · subst hcb
      rw [hblk'] at hc
      cases hc
      exact hsound
    · rw [ht.others c hcb] at hc
      exact hp.blocks c blk hc
  · by_cases hcb : c = b
    · subst hcb
      rw [hblk'] at hc
      cases hc
      exact htop
    · rw [ht.others c hcb] at hc
      obtain ⟨l, hl⟩ := ht.queue_suffix
      exact hp.queued c (by rw [← hl]; exact List.mem_append_right l hcq) blk hc

/-- The block taken from the pool was not held before. -/
theorem Custody.not_mem_took {held : List Nat} {p p' : BlockPool} {b : Nat} (hc : Custody held p)
    (ht : Took p b p') : b ∉ held := by
  rcases ht.source with ⟨hq, _⟩ | ⟨_, _, hb, _⟩
  · intro hm
    exact hc.not_queued hm (by rw [hq]; exact List.mem_cons_self)
  · intro hm
    subst hb
    exact Nat.lt_irrefl _ (hc.lt_of_mem (Or.inl hm))

/-- Custody reads only the queue and the number of blocks. -/
theorem Custody.congr {held : List Nat} {p p' : BlockPool} (hc : Custody held p)
    (hq : p'.queue = p.queue) (hs : p'.blocks.size = p.blocks.size) : Custody held p' := by
  unfold Custody
  rw [hq, hs]
  exact hc

/-- Custody does not depend on the order of the held blocks. -/
theorem Custody.perm {held held' : List Nat} {p : BlockPool} (hc : Custody held p)
    (hp : held.Perm held') : Custody held' p :=
  (hp.symm.append_right p.queue).trans hc

/-- Taking a block keeps the pool clean. -/
theorem Clean.took {p p' : BlockPool} {b : Nat} (hc : p.Clean) (ht : Took p b p') : p'.Clean := by
  intro c blk hblk
  by_cases hcb : c = b
  · subst hcb
    rcases ht.block with he | he
    · exact hc c blk (he ▸ hblk)
    · rw [he] at hblk
      cases hblk
      exact Block.clean_empty
  · exact hc c blk ((ht.others c hcb).symm.trans hblk)

/-- Taking a block moves it from the queue, or from the arena, into the held blocks. -/
theorem custody_took {held : List Nat} {p p' : BlockPool} {b : Nat} (hc : Custody held p)
    (ht : Took p b p') : Custody (held ++ [b]) p' := by
  unfold Custody at hc ⊢
  rcases ht.source with ⟨hq, hs⟩ | ⟨hq, hq', hb, hs⟩
  · have hsame : held ++ [b] ++ p'.queue = held ++ p.queue := by simp [hq]
    rw [hsame, hs]
    exact hc
  · subst hb
    rw [hs, List.range_succ, hq']
    rw [hq, List.append_nil] at hc
    simpa using hc.append_right [p.blocks.size]

/-- What releasing blocks in order did: each released block is cleared and joins the end of
the queue, in release order, and every other block is untouched. -/
structure Released (p : BlockPool) (bs : List Nat) (p' : BlockPool) : Prop where
  size_eq : p'.blocks.size = p.blocks.size
  queue_eq : p'.queue = p.queue ++ bs
  others : ∀ c, c ∉ bs → p'.blocks[c]? = p.blocks[c]?
  cleared : ∀ c ∈ bs, ∃ blk, p'.blocks[c]? = some blk ∧ blk.Sound ∧ blk.top = 0
  clean : p.Clean → p'.Clean

/-- Releasing one block the pool handed out. -/
theorem release_of_lt {p : BlockPool} {b : Nat} (hb : b < p.blocks.size) :
    p.release b = .ok { p with blocks := p.blocks.set! b p.blocks[b].clear, queue := p.queue ++ [b] } := by
  simp [release, Array.getElem?_eq_getElem hb]

/-- Releasing blocks the pool handed out succeeds, whatever their number and order. -/
theorem releaseAll_released {p : BlockPool} (hp : p.Sound) :
    ∀ bs : List Nat, (∀ b ∈ bs, b < p.blocks.size) → ∃ p', p.releaseAll bs = .ok p' ∧ Released p bs p'
  | [], _ => ⟨p, rfl, rfl, by simp, fun _ _ => rfl, by simp, id⟩
  | b :: bs, hbs => by
    have hb : b < p.blocks.size := hbs b (by simp)
    let p₁ : BlockPool := { p with blocks := p.blocks.set! b p.blocks[b].clear, queue := p.queue ++ [b] }
    have hclear := (hp.blocks b p.blocks[b] (Array.getElem?_eq_getElem hb)).clear
    have hb₁ : p₁.blocks[b]? = some p.blocks[b].clear := by simp [p₁, hb]
    have hother₁ : ∀ c, c ≠ b → p₁.blocks[c]? = p.blocks[c]? := by
      intro c hc
      simp [p₁, Ne.symm hc]
    have hp₁ : p₁.Sound := by
      refine ⟨fun c blk hc => ?_, fun c hcq blk hc => ?_⟩
      · by_cases hcb : c = b
        · subst hcb
          rw [hb₁] at hc
          cases hc
          exact hclear.1
        · rw [hother₁ c hcb] at hc
          exact hp.blocks c blk hc
      · by_cases hcb : c = b
        · subst hcb
          rw [hb₁] at hc
          cases hc
          exact hclear.2
        · rw [hother₁ c hcb] at hc
          have hcq' : c ∈ p.queue := by simpa [p₁, hcb] using hcq
          exact hp.queued c hcq' blk hc
    have hsize₁ : p₁.blocks.size = p.blocks.size := by simp [p₁]
    obtain ⟨p', hrel, hr⟩ := releaseAll_released hp₁ bs
      (fun c hc => hsize₁ ▸ hbs c (List.mem_cons_of_mem b hc))
    have hclean₁ : p.Clean → p₁.Clean := by
      intro hc c blk hblk
      by_cases hcb : c = b
      · subst hcb
        rw [hb₁] at hblk
        cases hblk
        exact (hc c _ (Array.getElem?_eq_getElem hb)).clear
      · rw [hother₁ c hcb] at hblk
        exact hc c blk hblk
    refine ⟨p', ?_, ⟨hr.size_eq.trans hsize₁, by simp [hr.queue_eq, p₁], fun c hc => ?_,
      fun c hc => ?_, fun hc => hr.clean (hclean₁ hc)⟩⟩
    · simp [releaseAll, release_of_lt hb, bind, Except.bind]
      exact hrel
    · rw [List.mem_cons, not_or] at hc
      rw [hr.others c hc.2, hother₁ c hc.1]
    · by_cases hcs : c ∈ bs
      · exact hr.cleared c hcs
      · have hcb : c = b := by simpa [hcs] using hc
        subst hcb
        exact ⟨_, (hr.others c hcs).trans hb₁, hclear.1, hclear.2⟩

theorem Sound.released {p p' : BlockPool} {bs : List Nat} (hp : p.Sound) (hr : Released p bs p') :
    p'.Sound := by
  refine ⟨fun c blk hc => ?_, fun c hcq blk hc => ?_⟩
  · by_cases hcs : c ∈ bs
    · obtain ⟨blk', hblk', hsound, _⟩ := hr.cleared c hcs
      rw [hblk'] at hc
      cases hc
      exact hsound
    · rw [hr.others c hcs] at hc
      exact hp.blocks c blk hc
  · by_cases hcs : c ∈ bs
    · obtain ⟨blk', hblk', _, htop⟩ := hr.cleared c hcs
      rw [hblk'] at hc
      cases hc
      exact htop
    · rw [hr.others c hcs] at hc
      rw [hr.queue_eq, List.mem_append] at hcq
      exact hp.queued c (hcq.resolve_right hcs) blk hc

/-- Releasing blocks moves them from the held blocks to the end of the queue. -/
theorem custody_released {held bs : List Nat} {p p' : BlockPool} (hc : Custody (held ++ bs) p)
    (hr : Released p bs p') : Custody held p' := by
  unfold Custody at hc ⊢
  rw [hr.size_eq, hr.queue_eq, ← List.append_assoc]
  refine List.Perm.trans ?_ hc
  rw [List.append_assoc, List.append_assoc]
  exact List.Perm.append_left held List.perm_append_comm

/-- Local index `i` names a handed-out slot of the pool, and that slot holds `obj`. -/
def Issued (p : BlockPool) (i obj : Nat) : Prop :=
  ∃ blk, p.blocks[i / blockSlots]? = some blk ∧ i % blockSlots < blk.top ∧
    blk.slots.getD (i % blockSlots) 0 = obj

/-- A slot whose block was left as it was keeps what it held. -/
theorem Issued.untouched {p p' : BlockPool} {i obj : Nat} (hi : p.Issued i obj)
    (hu : p'.blocks[i / blockSlots]? = p.blocks[i / blockSlots]?) : p'.Issued i obj := by
  obtain ⟨blk, hblk, htop, hslot⟩ := hi
  exact ⟨blk, hu.trans hblk, htop, hslot⟩

/-- Replacing a block that is not queued by a sound block keeps the pool sound. -/
theorem Sound.set {p : BlockPool} (hp : p.Sound) {c : Nat} {x : Block} (hc : c < p.blocks.size)
    (hq : c ∉ p.queue) (hx : x.Sound) : ({ p with blocks := p.blocks.set! c x } : BlockPool).Sound := by
  refine ⟨fun d blk hd => ?_, fun d hdq blk hd => ?_⟩
  · simp only [Array.getElem?_set!_of_lt hc] at hd
    split at hd
    · cases hd
      exact hx
    · exact hp.blocks d blk hd
  · simp only [Array.getElem?_set!_of_lt hc] at hd
    split at hd
    · subst c
      exact absurd hdq hq
    · exact hp.queued d hdq blk hd

/-- Replacing a block by a clean block keeps the pool clean. -/
theorem Clean.set {p : BlockPool} (hp : p.Clean) {c : Nat} {x : Block} (hc : c < p.blocks.size)
    (hx : x.Clean) : ({ p with blocks := p.blocks.set! c x } : BlockPool).Clean := by
  intro d blk hd
  simp only [Array.getElem?_set!_of_lt hc] at hd
  split at hd
  · cases hd
    exact hx
  · exact hp d blk hd

/-- Writing a slot whose block exists replaces that block by the block with the slot written. -/
theorem store_eq {p : BlockPool} {i obj : Nat} {blk : Block}
    (h : p.blocks[i / blockSlots]? = some blk) :
    p.store i obj = { p with blocks := (p.blocks.set! (i / blockSlots)
      { blk with slots := blk.slots.set! (i % blockSlots) obj }) } := by
  simp [store, store?, h]

/-- Writing a slot either finds no block and changes nothing, or replaces the slot's block by
the block with the slot written. -/
theorem store_cases (p : BlockPool) (i v : Nat) :
    p.store i v = p ∨ ∃ blk, p.blocks[i / blockSlots]? = some blk ∧
      p.store i v = { p with blocks := (p.blocks.set! (i / blockSlots)
        { blk with slots := blk.slots.set! (i % blockSlots) v }) } := by
  rcases h : p.blocks[i / blockSlots]? with _ | blk
  · exact Or.inl (by simp [store, store?, h])
  · exact Or.inr ⟨blk, rfl, store_eq h⟩

@[simp] theorem size_store (p : BlockPool) (i v : Nat) : (p.store i v).blocks.size = p.blocks.size := by
  rcases store_cases p i v with h | ⟨_, _, h⟩ <;> rw [h]
  simp

@[simp] theorem queue_store (p : BlockPool) (i v : Nat) : (p.store i v).queue = p.queue := by
  rcases store_cases p i v with h | ⟨_, _, h⟩ <;> rw [h]

/-- Writing a slot leaves every other block as it was. -/
theorem getElem?_store_ne (p : BlockPool) {i b : Nat} (v : Nat) (hb : b ≠ i / blockSlots) :
    (p.store i v).blocks[b]? = p.blocks[b]? := by
  rcases store_cases p i v with h | ⟨_, hblk, h⟩ <;> rw [h]
  have hlt : i / blockSlots < p.blocks.size := (Array.getElem?_eq_some_iff.mp hblk).1
  rw [Array.getElem?_set!_of_lt hlt, if_neg (Ne.symm hb)]

/-- Writing a slot keeps the top and the size of every block. -/
theorem top_store (p : BlockPool) (i v b : Nat) (blk : Block) (hb : p.blocks[b]? = some blk) :
    ∃ blk', (p.store i v).blocks[b]? = some blk' ∧ blk'.top = blk.top ∧
      blk'.slots.size = blk.slots.size := by
  by_cases hbi : b = i / blockSlots
  · subst hbi
    rcases store_cases p i v with h | ⟨blk₀, hblk, h⟩ <;> rw [h]
    · exact ⟨blk, hb, rfl, rfl⟩
    · rw [hblk] at hb
      cases hb
      have hlt : i / blockSlots < p.blocks.size := (Array.getElem?_eq_some_iff.mp hblk).1
      exact ⟨{ blk with slots := blk.slots.set! (i % blockSlots) v },
        by rw [Array.getElem?_set!_of_lt hlt, if_pos rfl], rfl, by simp⟩
  · exact ⟨blk, (getElem?_store_ne p v hbi).trans hb, rfl, rfl⟩

/-- Writing a slot keeps the pool sound. -/
theorem Sound.store {p : BlockPool} (hp : p.Sound) (i v : Nat) : (p.store i v).Sound := by
  rcases store_cases p i v with h | ⟨blk, hblk, h⟩ <;> rw [h]
  · exact hp
  · refine ⟨fun b blk' hb => ?_, fun b hbq blk' hb => ?_⟩
    · have hlt : i / blockSlots < p.blocks.size := (Array.getElem?_eq_some_iff.mp hblk).1
      rw [Array.getElem?_set!_of_lt hlt] at hb
      split at hb
      · cases hb
        exact (hp.blocks _ blk hblk).store _ _
      · exact hp.blocks b blk' hb
    · have hlt : i / blockSlots < p.blocks.size := (Array.getElem?_eq_some_iff.mp hblk).1
      rw [Array.getElem?_set!_of_lt hlt] at hb
      split at hb
      · rename_i hib
        cases hb
        exact hp.queued b hbq blk (hib ▸ hblk)
      · exact hp.queued b hbq blk' hb

/-- Writing a handed-out slot, or nulling any slot, keeps the pool clean. -/
theorem Clean.store {p : BlockPool} (hc : p.Clean) {i v : Nat}
    (hi : v = 0 ∨ ∃ blk, p.blocks[i / blockSlots]? = some blk ∧ i % blockSlots < blk.top) :
    (p.store i v).Clean := by
  rcases store_cases p i v with h | ⟨blk, hblk, h⟩ <;> rw [h]
  · exact hc
  · intro b blk' hb
    have hlt : i / blockSlots < p.blocks.size := (Array.getElem?_eq_some_iff.mp hblk).1
    rw [Array.getElem?_set!_of_lt hlt] at hb
    split at hb
    · cases hb
      refine (hc _ blk hblk).store ?_
      rcases hi with hv | ⟨blk₀, hblk₀, htop⟩
      · exact Or.inr hv
      · rw [hblk] at hblk₀
        cases hblk₀
        exact Or.inl htop
    · exact hc b blk' hb

/-- Writing another slot keeps what a slot holds. -/
theorem Issued.store_ne {p : BlockPool} {i obj : Nat} (hi : p.Issued i obj) {k : Nat} (v : Nat)
    (hk : k ≠ i) : (p.store k v).Issued i obj := by
  by_cases hb : i / blockSlots = k / blockSlots
  · obtain ⟨blk, hblk, htop, hslot⟩ := hi
    rcases store_cases p k v with h | ⟨blk₀, hblk₀, h⟩ <;> rw [h]
    · exact ⟨blk, hblk, htop, hslot⟩
    · rw [← hb, hblk] at hblk₀
      cases hblk₀
      have hlt : i / blockSlots < p.blocks.size := (Array.getElem?_eq_some_iff.mp hblk).1
      -- the same block, so another position in it
      have hm : k % blockSlots ≠ i % blockSlots := by
        intro hm
        apply hk
        rw [← Nat.div_add_mod k blockSlots, ← Nat.div_add_mod i blockSlots, hb, hm]
      refine ⟨{ blk with slots := blk.slots.set! (k % blockSlots) v },
        by rw [← hb, Array.getElem?_set!_of_lt hlt, if_pos rfl], htop, ?_⟩
      rw [Array.getD_set!, if_neg (fun h => hm h.1)]
      exact hslot
  · exact hi.untouched (p.getElem?_store_ne v hb)

/-- The local index of slot `k` of block `c`. -/
theorem index_div {c k : Nat} (hk : k < blockSlots) : (c * blockSlots + k) / blockSlots = c := by
  unfold blockSlots at *
  omega

theorem index_mod {c k : Nat} (hk : k < blockSlots) : (c * blockSlots + k) % blockSlots = k := by
  unfold blockSlots at *
  omega


end BlockPool

end GcRoots

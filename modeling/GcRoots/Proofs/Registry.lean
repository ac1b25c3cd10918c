import GcRoots.Proofs.Chain
import GcRoots.Thread.Registry

namespace GcRoots

/-!
# Thread chains in the registry

The registry's threads hold blocks through their chains; `Registry.held` lists them thread by
thread. A registry is sound (`Registry.Sound`) when its pool is sound, the held blocks and the
queue list each handed-out block once, and every frame of every thread is sound.

Each registry operation keeps it sound and is confined to one thread (`Registry.Confined`):
the other threads keep their chains and the blocks they hold, and the arena grows only once the
queue is empty. Operations that change no chain (claims, the parity, the safepoint flag) keep
the same blocks (`Registry.SameBlocks`). Writing handed-out slots changes what blocks hold but
nothing of where they are (`Registry.Retouched`), so it keeps a sound registry sound too.

Main statements: `Registry.onChain_step` (an action on one chain that keeps the chain invariant
is confined to its thread) and one step lemma per operation: `makeLocal_step`,
`destroyLocal_step`, `pushFrame_step`, `popFrame_step`, `ensureCapacity_step`, `attach_step`,
`detach_step`.
-/

/-- Splitting off one entry of a list under `flatMap`: the rest in order, then that entry. -/
theorem flatMap_perm_eraseIdx {α β : Type} (g : α → List β) {l : List α} {t : Nat} {c : α}
    (h : l[t]? = some c) : (l.flatMap g).Perm ((l.eraseIdx t).flatMap g ++ g c) := by
  obtain ⟨ht, rfl⟩ := List.getElem?_eq_some_iff.mp h
  have hl : l = l.take t ++ l[t] :: l.drop (t + 1) := by
    rw [← List.drop_eq_getElem_cons ht, List.take_append_drop]
  rw [List.eraseIdx_eq_take_drop_succ]
  conv => lhs; rw [hl]
  simp only [List.flatMap_append, List.flatMap_cons, List.append_assoc]
  exact List.Perm.append_left _ List.perm_append_comm

namespace Context

/-- The blocks a thread holds: its chain's, none once it is detached. -/
def blocks (c : Context) : List Nat :=
  match c.chain with
  | some ch => ch.blocks
  | none => []

end Context

namespace Registry

/-- The blocks held by every thread, in thread order. -/
def held (r : Registry) : List Nat := r.contexts.toList.flatMap Context.blocks

/-- The blocks held by every thread but thread `t`. -/
def heldBut (r : Registry) (t : Nat) : List Nat := (r.contexts.toList.eraseIdx t).flatMap Context.blocks

theorem held_perm {r : Registry} {t : Nat} {c : Context} (hc : r.contexts[t]? = some c) :
    r.held.Perm (r.heldBut t ++ c.blocks) :=
  flatMap_perm_eraseIdx _ (by simpa using hc)

/-- Replacing thread `t`'s context changes only what thread `t` holds. -/
theorem heldBut_set (r : Registry) (t : Nat) (c : Context) :
    (r.contexts.set! t c).toList.eraseIdx t = r.contexts.toList.eraseIdx t := by
  simp [List.eraseIdx_set_eq]

/-- A block held by a thread other than `t` counts among the blocks held but by `t`. -/
theorem mem_heldBut {r : Registry} {t u : Nat} {c : Context} (hu : u ≠ t)
    (hc : r.contexts[u]? = some c) {b : Nat} (hb : b ∈ c.blocks) : b ∈ r.heldBut t :=
  List.mem_flatMap.mpr ⟨c, List.mem_eraseIdx_iff_getElem?.mpr ⟨u, hu, by simpa using hc⟩, hb⟩

/-- A sound registry: its pool is sound, the blocks of every thread and the queue list each
handed-out block once, and every frame of every thread is sound. -/
structure Sound (r : Registry) : Prop where
  pool : r.table.pool.Sound
  custody : r.table.pool.Custody r.held
  frames : ∀ (u : Nat) (c : Context), r.contexts[u]? = some c → ∀ ch : Chain,
    c.chain = some ch → ∀ f ∈ ch.frames, f.Sound r.table.pool

section Sound

variable {r : Registry} {t : Nat} {c : Context} {ch : Chain}

/-- A thread's chain holds with every other thread's blocks counted as held elsewhere. -/
theorem Sound.chain (h : r.Sound) (hc : r.contexts[t]? = some c) (hch : c.chain = some ch) :
    Chain.Holds (r.heldBut t) (ch, r.table.pool) := by
  refine ⟨h.pool, h.custody.perm ?_, h.frames t c hc ch hch⟩
  have hp := held_perm hc
  simp only [Context.blocks, hch] at hp
  exact hp

/-- Putting back thread `t`'s chain after an operation that kept its invariant and spared the
other threads' blocks. -/
theorem Sound.restore (h : r.Sound) (hc : r.contexts[t]? = some c) {ch' : Chain} {p' : BlockPool}
    (hh : Chain.Holds (r.heldBut t) (ch', p')) (hs : Chain.Spares (r.heldBut t) r.table.pool p') :
    ({ r with contexts := r.contexts.set! t { c with chain := some ch' },
              table := { r.table with pool := p' } } : Registry).Sound := by
  have ht : t < r.contexts.size := (Array.getElem?_eq_some_iff.mp hc).1
  have hread := Array.getElem?_set!_of_lt ht { c with chain := some ch' }
  refine ⟨hh.pool, hh.custody.perm ?_, fun u c' hu ch'' hch'' g hg => ?_⟩
  · -- the other threads hold what they held; thread `t` holds its new chain's blocks
    have hp := held_perm (r := { r with contexts := r.contexts.set! t { c with chain := some ch' } })
      (t := t) (c := { c with chain := some ch' }) (by simp only [hread, if_true])
    simp only [heldBut, heldBut_set, Context.blocks] at hp
    exact hp.symm
  · simp only [hread] at hu
    split at hu
    · cases hu
      cases hch''
      exact hh.frames g hg
    · rename_i htu
      refine (h.frames u c' hu ch'' hch'' g hg).untouched fun b hb => hs.others b ?_
      have hb' : b ∈ c'.blocks := by
        simp only [Context.blocks, hch'']
        exact Chain.mem_blocks.mpr ⟨g, hg, hb⟩
      exact mem_heldBut (Ne.symm htu) hu hb'

end Sound

/-- Running an action on thread `t`'s chain ends with the chain and the pool the action ended
with put back, or changes nothing when the thread has no chain. -/
theorem onChain_final {α : Type} (t : Nat) (m : Action (Chain × BlockPool) α) (r : Registry)
    (j : Journal) :
    Action.final (onChain t m (r, j)) =
      match r.contexts[t]? with
      | none => r
      | some c =>
        match c.chain with
        | none => r
        | some ch =>
          { r with
            contexts := r.contexts.set! t
              { c with chain := some (Action.final (m ((ch, r.table.pool), j))).1 }
            table := { r.table with pool := (Action.final (m ((ch, r.table.pool), j))).2 } } := by
  unfold onChain
  simp only [bind, EStateM.bind, Action.read_run]
  rcases hc : r.contexts[t]? with _ | c
  · rfl
  · dsimp only
    rcases hch : c.chain with _ | ch
    · rfl
    · exact Action.final_focus _ _ _ _

end Registry

/-- A chain action that keeps the chain invariant and spares the blocks held elsewhere,
whichever way it ends. -/
def Chain.Safe {α : Type} (m : Action (Chain × BlockPool) α) : Prop :=
  ∀ (others : List Nat) (s : Chain × BlockPool) (j : Journal), Chain.Holds others s →
    Chain.Holds others (Action.final (m (s, j))) ∧
      Chain.Spares others s.2 (Action.final (m (s, j))).2

namespace Registry

/-- An action on one thread's chain that keeps the chain invariant keeps the registry sound
and spares the blocks of the other threads. -/
theorem onChain_sound {α : Type} {m : Action (Chain × BlockPool) α} (hm : Chain.Safe m)
    {r : Registry} (h : r.Sound) (t : Nat) (j : Journal) :
    (Action.final (onChain t m (r, j))).Sound ∧
      Chain.Spares (r.heldBut t) r.table.pool (Action.final (onChain t m (r, j))).table.pool := by
  rw [onChain_final]
  rcases hc : r.contexts[t]? with _ | c
  · exact ⟨h, Chain.Spares.refl _ _⟩
  · dsimp only
    rcases hch : c.chain with _ | ch
    · exact ⟨h, Chain.Spares.refl _ _⟩
    · obtain ⟨hh, hs⟩ := hm _ _ j (h.chain hc hch)
      exact ⟨h.restore hc hh hs, hs⟩

/-- Two registries whose threads have the same chains in the same pool. -/
structure SameBlocks (r r' : Registry) : Prop where
  pool : r'.table.pool = r.table.pool
  chains : r'.contexts.toList.map Context.chain = r.contexts.toList.map Context.chain

theorem SameBlocks.refl (r : Registry) : SameBlocks r r := ⟨rfl, rfl⟩

theorem SameBlocks.trans {r r' r'' : Registry} (h : SameBlocks r r') (h' : SameBlocks r' r'') :
    SameBlocks r r'' := ⟨h'.pool.trans h.pool, h'.chains.trans h.chains⟩

theorem held_eq_chains (r : Registry) :
    r.held = (r.contexts.toList.map Context.chain).flatMap fun o => (o.map Chain.blocks).getD [] := by
  simp only [held, List.flatMap_map]
  congr 1
  funext c
  unfold Context.blocks
  cases c.chain <;> rfl

/-- The chain of thread `u`, read through the list of chains. -/
theorem chain_of_map {r r' : Registry} (hc : r'.contexts.toList.map Context.chain =
    r.contexts.toList.map Context.chain) {u : Nat} {c' : Context} (hu : r'.contexts[u]? = some c') :
    ∃ c, r.contexts[u]? = some c ∧ c.chain = c'.chain := by
  have h1 : (r'.contexts.toList.map Context.chain)[u]? = some c'.chain := by simp [hu]
  rw [hc, List.getElem?_map] at h1
  rcases hr : r.contexts[u]? with _ | c
  · simp [hr] at h1
  · simp only [Array.getElem?_toList, hr, Option.map_some, Option.some.injEq] at h1
    exact ⟨c, rfl, h1⟩

theorem Sound.same {r r' : Registry} (h : r.Sound) (hs : SameBlocks r r') : r'.Sound := by
  have hheld : r'.held = r.held := by rw [held_eq_chains, held_eq_chains, hs.chains]
  refine ⟨hs.pool ▸ h.pool, by rw [hheld, hs.pool]; exact h.custody, fun u c' hu ch hch f hf => ?_⟩
  obtain ⟨c, hc, hcc⟩ := chain_of_map hs.chains hu
  rw [hs.pool]
  exact h.frames u c hc ch (hcc.trans hch) f hf

/-- Replacing a thread's context by one with the same chain. -/
theorem sameBlocks_set {r : Registry} {t : Nat} {c c' : Context} (hc : r.contexts[t]? = some c)
    (hch : c'.chain = c.chain) : SameBlocks r { r with contexts := r.contexts.set! t c' } := by
  refine ⟨rfl, ?_⟩
  have ht : t < r.contexts.size := (Array.getElem?_eq_some_iff.mp hc).1
  have hct : r.contexts[t] = c := (Array.getElem?_eq_some_iff.mp hc).2
  have hlen : t < (r.contexts.toList.map Context.chain).length := by simpa using ht
  have hget : (r.contexts.toList.map Context.chain)[t] = c'.chain := by simp [hct, hch]
  simp only [Array.set!_eq_setIfInBounds, Array.toList_setIfInBounds, List.map_set]
  rw [← hget, List.set_getElem_self hlen]

/-- Local index `i` names a handed-out slot of the registry's pool. -/
def HandsOut (r : Registry) (i : Nat) : Prop :=
  ∃ blk, r.table.pool.blocks[i / blockSlots]? = some blk ∧ i % blockSlots < blk.top

/-- What writing block slots leaves of a registry: the threads with their chains, the queue, the
arena, every block's top and size, and a clean pool clean. -/
structure Retouched (r r' : Registry) : Prop where
  chains : r'.contexts.toList.map Context.chain = r.contexts.toList.map Context.chain
  queue : r'.table.pool.queue = r.table.pool.queue
  size : r'.table.pool.blocks.size = r.table.pool.blocks.size
  blocks : ∀ (b : Nat) (blk : Block), r.table.pool.blocks[b]? = some blk →
    ∃ blk' : Block, r'.table.pool.blocks[b]? = some blk' ∧ blk'.top = blk.top ∧
      blk'.slots.size = blk.slots.size
  clean : r.table.pool.Clean → r'.table.pool.Clean

theorem Retouched.refl (r : Registry) : Retouched r r :=
  ⟨rfl, rfl, rfl, fun _ blk h => ⟨blk, h, rfl, rfl⟩, id⟩

theorem Retouched.trans {r r' r'' : Registry} (h : Retouched r r') (h' : Retouched r' r'') :
    Retouched r r'' := by
  refine ⟨h'.chains.trans h.chains, h'.queue.trans h.queue, h'.size.trans h.size,
    fun b blk hb => ?_, h'.clean ∘ h.clean⟩
  obtain ⟨blk', hb', htop, hsize⟩ := h.blocks b blk hb
  obtain ⟨blk'', hb'', htop', hsize'⟩ := h'.blocks b blk' hb'
  exact ⟨blk'', hb'', htop'.trans htop, hsize'.trans hsize⟩

theorem SameBlocks.retouched {r r' : Registry} (h : SameBlocks r r') : Retouched r r' :=
  ⟨h.chains, by rw [h.pool], by rw [h.pool], fun _ blk hb => ⟨blk, by rw [h.pool]; exact hb, rfl, rfl⟩,
    by rw [h.pool]; exact id⟩

theorem Retouched.handsOut {r r' : Registry} (h : Retouched r r') {i : Nat} (hi : r.HandsOut i) :
    r'.HandsOut i := by
  obtain ⟨blk, hblk, htop⟩ := hi
  obtain ⟨blk', hblk', htop', _⟩ := h.blocks _ blk hblk
  exact ⟨blk', hblk', htop' ▸ htop⟩

/-- Every block after the rewrite is a block before it, with the same top and size. -/
theorem Retouched.origin {r r' : Registry} (hr : Retouched r r') {b : Nat} {blk' : Block}
    (hb : r'.table.pool.blocks[b]? = some blk') :
    ∃ blk : Block, r.table.pool.blocks[b]? = some blk ∧ blk'.top = blk.top ∧
      blk'.slots.size = blk.slots.size := by
  have hlt : b < r.table.pool.blocks.size := hr.size ▸ (Array.getElem?_eq_some_iff.mp hb).1
  obtain ⟨blk'', hb'', htop, hsize⟩ := hr.blocks b _ (Array.getElem?_eq_getElem hlt)
  rw [hb] at hb''
  cases hb''
  exact ⟨_, Array.getElem?_eq_getElem hlt, htop, hsize⟩

/-- Rewriting slots keeps a sound registry sound. -/
theorem Sound.retouched {r r' : Registry} (h : r.Sound) (hr : Retouched r r') : r'.Sound := by
  have hheld : r'.held = r.held := by rw [held_eq_chains, held_eq_chains, hr.chains]
  refine ⟨⟨fun b blk' hb => ?_, fun b hbq blk' hb => ?_⟩, ?_, fun u c' hu ch hch f hf => ?_⟩
  · obtain ⟨blk, hblk, htop, hsize⟩ := hr.origin hb
    have hs := h.pool.blocks b blk hblk
    exact ⟨hsize.trans hs.size_eq, htop ▸ hs.top_le⟩
  · obtain ⟨blk, hblk, htop, _⟩ := hr.origin hb
    rw [htop]
    exact h.pool.queued b (hr.queue ▸ hbq) blk hblk
  · rw [hheld]
    exact h.custody.congr hr.queue hr.size
  · obtain ⟨c, hc, hcc⟩ := chain_of_map hr.chains hu
    refine (h.frames u c hc ch (hcc.trans hch) f hf).of_tops fun b _ blk hblk => ?_
    obtain ⟨blk', hblk', htop, _⟩ := hr.blocks b blk hblk
    exact ⟨blk', hblk', Nat.le_of_eq htop.symm⟩

/-- Writing a handed-out slot, or nulling any slot, only retouches the registry. -/
theorem retouched_store (r : Registry) {i v : Nat} (hi : v = 0 ∨ r.HandsOut i) :
    Retouched r { r with table := { r.table with pool := r.table.pool.store i v } } :=
  ⟨rfl, by simp, by simp, fun b blk hb => r.table.pool.top_store i v b blk hb,
    fun hc => hc.store hi⟩

/-- Writing any slot of the pool keeps the registry sound: the blocks keep their places and
their tops. -/
theorem Sound.store {r : Registry} (h : r.Sound) (i v : Nat) :
    ({ r with table := { r.table with pool := r.table.pool.store i v } } : Registry).Sound := by
  refine ⟨h.pool.store i v, h.custody.congr (by simp) (by simp), fun u c hu ch hch f hf => ?_⟩
  refine (h.frames u c hu ch hch f hf).of_tops fun b _ blk hblk => ?_
  obtain ⟨blk', hblk', htop, _⟩ := r.table.pool.top_store i v b blk hblk
  exact ⟨blk', hblk', Nat.le_of_eq htop.symm⟩

/-- What an operation confined to thread `t` leaves alone: every other thread's chain, the
blocks the other threads hold, and the arena, which it only grows, and then only once the
queue is empty. -/
structure Confined (t : Nat) (r r' : Registry) : Prop where
  others : ∀ u, u ≠ t → ∀ c, r.contexts[u]? = some c →
    ∃ c', r'.contexts[u]? = some c' ∧ c'.chain = c.chain
  spares : Chain.Spares (r.heldBut t) r.table.pool r'.table.pool

theorem SameBlocks.confined {r r' : Registry} (hs : SameBlocks r r') (t : Nat) : Confined t r r' := by
  refine ⟨fun u _ c hc => ?_, hs.pool ▸ Chain.Spares.refl _ _⟩
  obtain ⟨c', hc', hcc⟩ := chain_of_map hs.chains.symm hc
  exact ⟨c', hc', hcc⟩

/-- An action on thread `t`'s chain that keeps the chain invariant keeps the registry sound and
is confined to thread `t`. -/
theorem onChain_step {α : Type} {m : Action (Chain × BlockPool) α} (hm : Chain.Safe m)
    {r : Registry} (h : r.Sound) (t : Nat) (j : Journal) :
    (Action.final (onChain t m (r, j))).Sound ∧ Confined t r (Action.final (onChain t m (r, j))) := by
  obtain ⟨hs, hsp⟩ := onChain_sound hm h t j
  refine ⟨hs, fun u hu c hc => ?_, hsp⟩
  rw [onChain_final]
  rcases hct : r.contexts[t]? with _ | ct
  · exact ⟨c, hc, rfl⟩
  · dsimp only
    rcases hch : ct.chain with _ | ch
    · exact ⟨c, hc, rfl⟩
    · have ht : t < r.contexts.size := (Array.getElem?_eq_some_iff.mp hct).1
      refine ⟨c, ?_, rfl⟩
      rw [Array.getElem?_set!_of_lt ht, if_neg (Ne.symm hu)]
      exact hc

end Registry

theorem Chain.allocate_safe (obj : Nat) : Chain.Safe (Chain.allocate obj) := by
  intro others s j h
  obtain ⟨hh, hs, _⟩ := Chain.allocate_holds h obj j
  exact ⟨hh, hs⟩

theorem Chain.popFrame_safe : Chain.Safe Chain.popFrame := by
  intro others ⟨c, p⟩ j h
  rcases Chain.popFrame_cases h j with ⟨_, hr⟩ | ⟨f, rest, p', ho, hrel, hr⟩
  · rw [hr]
    exact ⟨h, Chain.Spares.refl _ _⟩
  · rw [hr]
    exact h.pop ho hrel

namespace Registry

section Ops

variable {r : Registry}

/-- Making a local handle keeps the registry sound and is confined to the thread. -/
theorem makeLocal_step (h : r.Sound) (t obj : Nat) (j : Journal) :
    (Action.final (makeLocal t obj (r, j))).Sound ∧ Confined t r (Action.final (makeLocal t obj (r, j))) := by
  unfold makeLocal
  by_cases h0 : obj = 0
  · simp only [h0, if_true]
    exact ⟨h, (SameBlocks.refl r).confined t⟩
  · simp only [h0, if_false]
    rw [Action.final_bind_pure]
    exact onChain_step (Chain.allocate_safe obj) h t j

/-- Announcing a capacity keeps the registry sound and is confined to the thread. -/
theorem ensureCapacity_step (h : r.Sound) (t n : Nat) (j : Journal) :
    (Action.final (ensureCapacity t n (r, j))).Sound ∧
      Confined t r (Action.final (ensureCapacity t n (r, j))) := by
  unfold ensureCapacity
  simp only [bind, EStateM.bind, Action.read_run]
  split
  · exact ⟨h, (SameBlocks.refl r).confined t⟩
  · refine onChain_step ?_ h t j
    intro others ⟨c, p⟩ j' hc
    simp only [EStateM.bind, Action.read_run]
    cases checkedAdd (c.top.live p) n with
    | some planned => exact ⟨hc.setPlanned planned, Chain.Spares.refl _ _⟩
    | none => exact ⟨hc, Chain.Spares.refl _ _⟩

/-- Opening a frame keeps the registry sound and is confined to the thread. -/
theorem pushFrame_step (h : r.Sound) (t n : Nat) (j : Journal) :
    (Action.final (pushFrame t n (r, j))).Sound ∧
      Confined t r (Action.final (pushFrame t n (r, j))) := by
  unfold pushFrame
  simp only [bind, EStateM.bind, Action.read_run]
  split
  · exact ⟨h, (SameBlocks.refl r).confined t⟩
  · refine onChain_step ?_ h t j
    intro others ⟨c, p⟩ j' hc
    rcases Chain.pushFrame_cases c p j' with ⟨b, p', j'', ha, hr⟩ | ⟨e, hr⟩
    · simp only [EStateM.bind, hr, Action.update_run, Action.pure_run]
      obtain ⟨hh, hs⟩ := hc.push (BlockPool.allocate_took hc.pool
        (fun d hd => hc.custody.lt_of_mem (Or.inr hd)) ha)
      exact ⟨hh.setPlanned n, hs⟩
    · simp only [EStateM.bind, hr]
      exact ⟨hc, Chain.Spares.refl _ _⟩

end Ops

theorem mem_heldBut_iff {r : Registry} {t b : Nat} :
    b ∈ r.heldBut t ↔ ∃ u, u ≠ t ∧ ∃ c, r.contexts[u]? = some c ∧ b ∈ c.blocks := by
  simp only [heldBut, List.mem_flatMap, List.mem_eraseIdx_iff_getElem?, Array.getElem?_toList]
  constructor
  · rintro ⟨c, ⟨u, hu, hc⟩, hb⟩
    exact ⟨u, hu, c, hc, hb⟩
  · rintro ⟨u, hu, c, hc, hb⟩
    exact ⟨c, ⟨u, hu, hc⟩, hb⟩

/-- Two operations confined to one thread, the first leaving the arena as it was. -/
theorem Confined.trans {t : Nat} {r r' r'' : Registry} (h : Confined t r r')
    (h' : Confined t r' r'') (hs : r'.table.pool.blocks.size = r.table.pool.blocks.size) :
    Confined t r r'' := by
  refine ⟨fun u hu c hc => ?_, ⟨fun b hb => ?_, ?_, Nat.le_trans h.spares.size_le h'.spares.size_le,
    h'.spares.clean ∘ h.spares.clean⟩⟩
  · obtain ⟨c', hc', hcc⟩ := h.others u hu c hc
    obtain ⟨c'', hc'', hcc'⟩ := h'.others u hu c' hc'
    exact ⟨c'', hc'', hcc'.trans hcc⟩
  · obtain ⟨u, hu, c, hc, hbc⟩ := mem_heldBut_iff.mp hb
    obtain ⟨c', hc', hcc⟩ := h.others u hu c hc
    have hb' : b ∈ r'.heldBut t :=
      mem_heldBut_iff.mpr ⟨u, hu, c', hc', by simpa [Context.blocks, hcc] using hbc⟩
    rw [h'.spares.others b hb', h.spares.others b hb]
  · rcases h'.spares.fresh with hs' | hq
    · exact Or.inl (hs'.trans hs)
    · exact Or.inr hq

section Ops

variable {r : Registry}

/-- Closing a frame leaves the arena as it was. -/
theorem onChain_popFrame_size (h : r.Sound) (t : Nat) (j : Journal) :
    (Action.final (onChain t Chain.popFrame (r, j))).table.pool.blocks.size =
      r.table.pool.blocks.size := by
  rw [onChain_final]
  rcases hc : r.contexts[t]? with _ | c
  · rfl
  · dsimp only
    rcases hch : c.chain with _ | ch
    · rfl
    · dsimp only
      rcases Chain.popFrame_cases (h.chain hc hch) j with ⟨_, hr⟩ | ⟨f, rest, p', _, hrel, hr⟩
      · simp only [hr, Action.final_ok]
      · simp only [hr, Action.final_ok]
        exact hrel.size_eq

/-- Closing a frame and handing the result to the frame outside keeps the registry sound and
is confined to the thread. -/
theorem popFrame_step (h : r.Sound) (t : Nat) (result : Option Handle) (j : Journal) :
    (Action.final (popFrame t result (r, j))).Sound ∧
      Confined t r (Action.final (popFrame t result (r, j))) := by
  unfold popFrame
  simp only [bind, EStateM.bind, Action.read_run]
  cases hres : r.table.resolve result with
  | error e => exact ⟨h, (SameBlocks.refl r).confined t⟩
  | ok obj =>
    simp only [Action.ofExcept_ok]
    obtain ⟨hs₁, hc₁⟩ := onChain_step Chain.popFrame_safe h t j
    have hsize := onChain_popFrame_size h t j
    rcases h₁ : onChain t Chain.popFrame (r, j) with ⟨_, ⟨r₁, j₁⟩⟩ | ⟨e, ⟨r₁, j₁⟩⟩
    · rw [h₁] at hs₁ hc₁ hsize
      obtain ⟨hs₂, hc₂⟩ := makeLocal_step hs₁ t obj j₁
      exact ⟨hs₂, hc₁.trans hc₂ hsize⟩
    · rw [h₁] at hs₁ hc₁
      exact ⟨hs₁, hc₁⟩

/-- Destroying a local handle either changes nothing or nulls the slot of a handle the thread
holds. -/
theorem destroyLocal_final (t : Nat) (h : Option Handle) (r : Registry) (j : Journal) :
    Action.final (destroyLocal t h (r, j)) = r ∨
    ∃ i, h = some (.strong (.threadLocal i)) ∧ r.isLocal t (.strong (.threadLocal i)) = true ∧
      Action.final (destroyLocal t h (r, j)) =
        { r with table := { r.table with pool := r.table.pool.store i 0 } } := by
  rcases h with _ | ((i | i) | i)
  · exact Or.inl rfl
  · simp only [destroyLocal, bind, EStateM.bind, Table.strongRef, Action.ofExcept_ok,
      Action.read_run]
    by_cases hl : r.isLocal t (.strong (.threadLocal i)) = true
    · simp only [hl, Bool.not_true, Bool.false_eq_true, if_false]
      rcases hv : r.table.pool.slot? i with _ | v
      · exact Or.inl rfl
      · by_cases hv0 : v = 0
        · simp only [hv0, if_true]
          exact Or.inl rfl
        · simp only [hv0, if_false, Action.write_run]
          exact Or.inr ⟨i, rfl, hl, rfl⟩
    · simp only [Bool.not_eq_true] at hl
      simp only [hl, Bool.not_false, if_true]
      exact Or.inl rfl
  · exact Or.inl rfl
  · exact Or.inl rfl

end Ops

/-- A thread holds a local index when some frame of its chain has the index's block and the
block has handed out the slot. -/
theorem isLocal_local {r : Registry} {t i : Nat} :
    r.isLocal t (.strong (.threadLocal i)) = true ↔
      ∃ c ch, r.contexts[t]? = some c ∧ c.chain = some ch ∧ ∃ f ∈ ch.frames,
        i / blockSlots ∈ f.blocks.toList ∧ ∃ blk, r.table.pool.blocks[i / blockSlots]? = some blk ∧
          i % blockSlots < blk.top := by
  unfold isLocal
  rcases hc : r.contexts[t]? with _ | c
  · simp
  · rcases hch : c.chain with _ | ch
    · simp [hch]
    · simp only [hch, Chain.framesHold, List.any_eq_true, Frame.holds, Bool.and_eq_true,
        Array.contains_iff_mem, BlockPool.block?]
      constructor
      · rintro ⟨f, hf, hb, hk⟩
        refine ⟨c, ch, rfl, hch, f, hf, Array.mem_toList_iff.mpr hb, ?_⟩
        revert hk
        cases r.table.pool.blocks[i / blockSlots]? with
        | none => simp
        | some blk => simp [Block.contains]
      · rintro ⟨c', ch', hc', hch', f, hf, hb, blk, hblk, hk⟩
        cases hc'
        rw [hch] at hch'
        cases hch'
        refine ⟨f, hf, Array.mem_toList_iff.mp hb, ?_⟩
        simp [hblk, Block.contains, hk]

section Ops

variable {r : Registry}

/-- Destroying a local handle keeps the registry sound and is confined to the thread. -/
theorem destroyLocal_step (h : r.Sound) (t : Nat) (handle : Option Handle) (j : Journal) :
    (Action.final (destroyLocal t handle (r, j))).Sound ∧
      Confined t r (Action.final (destroyLocal t handle (r, j))) := by
  rcases destroyLocal_final t handle r j with hr | ⟨i, _, hl, hr⟩ <;> rw [hr]
  · exact ⟨h, (SameBlocks.refl r).confined t⟩
  obtain ⟨c, ch, hc, hch, f, hf, hb, _⟩ := isLocal_local.mp hl
  have hown : i / blockSlots ∈ c.blocks := by
    simp only [Context.blocks, hch]
    exact Chain.mem_blocks.mpr ⟨f, hf, hb⟩
  -- the slot's block is the thread's own, so no other thread holds it
  have hnot : i / blockSlots ∉ r.heldBut t := by
    intro hm
    have hnd := (h.custody.perm (held_perm hc)).nodup
    exact (List.nodup_append.mp (List.nodup_append.mp hnd).1).2.2 _ hm _ hown rfl
  exact ⟨h.retouched (retouched_store r (Or.inl rfl)), fun u _ c' hc' => ⟨c', hc', rfl⟩,
    ⟨fun b hb => r.table.pool.getElem?_store_ne 0 fun hbi => hnot (hbi ▸ hb),
      Or.inl (by simp), by simp, fun hcl => hcl.store (Or.inl rfl)⟩⟩

/-- Attaching a thread changes nothing at a safepoint; otherwise it uses up an id and, when the
pool gives a block, adds a thread whose chain holds that block. -/
theorem attach_final (r : Registry) (j : Journal) :
    Action.final (attach (r, j)) = r ∨
    Action.final (attach (r, j)) = { r with nextId := r.nextId + 1 } ∨
    ∃ b p' j', BlockPool.allocate (r.table.pool, j) = .ok b (p', j') ∧
      Action.final (attach (r, j)) =
        { r with nextId := r.nextId + 1, table := { r.table with pool := p' },
                 contexts := r.contexts.push
                   { id := r.nextId, chain := some { top := { blocks := #[b] } } } } := by
  unfold attach onTable
  simp only [bind, EStateM.bind, Action.read_run]
  by_cases hs : r.atSafepoint = true
  · simp only [hs, if_true]
    exact Or.inl rfl
  · rw [if_neg hs]
    simp only [EStateM.bind, Action.pure_run, Action.write_run]
    let r₁ : Registry := { r with nextId := r.nextId + 1 }
    rcases Chain.create_cases r.table.pool j with ⟨b, p', j', ha, hc⟩ | ⟨e, hc⟩
    · refine Or.inr (Or.inr ⟨b, p', j', ha, ?_⟩)
      have h₁ : Action.focus (fun t => t.pool) (fun t p => { t with pool := p }) Chain.create
          (r₁.table, j) = .ok _ ({ r₁.table with pool := p' }, j') := Action.focus_ok hc
      have h₂ : Action.focus (fun r : Registry => r.table) (fun r t => { r with table := t })
          (Action.focus (fun t => t.pool) (fun t p => { t with pool := p }) Chain.create) (r₁, j) =
          .ok _ ({ r₁ with table := { r₁.table with pool := p' } }, j') := Action.focus_ok h₁
      simp only [r₁] at h₂
      simp only [h₂, Action.read_run, Action.final_ok]
    · refine Or.inr (Or.inl ?_)
      have h₁ : Action.focus (fun t => t.pool) (fun t p => { t with pool := p }) Chain.create
          (r₁.table, j) = .error e ({ r₁.table with pool := r.table.pool }, j) := Action.focus_error hc
      have h₂ : Action.focus (fun r : Registry => r.table) (fun r t => { r with table := t })
          (Action.focus (fun t => t.pool) (fun t p => { t with pool := p }) Chain.create) (r₁, j) =
          .error e ({ r₁ with table := { r₁.table with pool := r.table.pool } }, j) :=
        Action.focus_error h₁
      simp only [r₁] at h₂
      simp only [h₂, Action.final_error]

/-- Attaching a thread keeps the registry sound and is confined to the new thread's number. -/
theorem attach_step (h : r.Sound) (j : Journal) :
    (Action.final (attach (r, j))).Sound ∧
      Confined r.contexts.size r (Action.final (attach (r, j))) := by
  have hheld : r.heldBut r.contexts.size = r.held := by
    simp [heldBut, held, List.eraseIdx_of_length_le]
  rcases attach_final r j with hr | hr | ⟨b, p', j', ha, hr⟩ <;> rw [hr]
  · exact ⟨h, (SameBlocks.refl r).confined _⟩
  · have hs : SameBlocks r { r with nextId := r.nextId + 1 } := ⟨rfl, rfl⟩
    exact ⟨h.same hs, hs.confined _⟩
  · have ht := BlockPool.allocate_took h.pool (fun d hd => h.custody.lt_of_mem (Or.inr hd)) ha
    have hnot : b ∉ r.held := h.custody.not_mem_took ht
    refine ⟨⟨h.pool.took ht, ?_, fun u c hc ch hch f hf => ?_⟩,
      fun u hu' c hc => ⟨c, ?_, rfl⟩, ⟨fun d hd => ?_, ht.fresh_empty, ht.size_le,
        fun hcl => hcl.took ht⟩⟩
    · have hc := BlockPool.custody_took h.custody ht
      simpa [held, Context.blocks, Chain.blocks, Chain.frames] using hc
    · simp only [Array.getElem?_push] at hc
      split at hc
      · cases hc
        cases hch
        simp only [Chain.frames, List.mem_cons, List.not_mem_nil, or_false] at hf
        subst hf
        exact ⟨by simp, by simp⟩
      · refine (h.frames u c hc ch hch f hf).untouched fun d hd => ht.others d ?_
        rintro rfl
        apply hnot
        exact List.mem_flatMap.mpr ⟨c, by simpa using Array.mem_of_getElem? hc,
          by simp only [Context.blocks, hch]; exact Chain.mem_blocks.mpr ⟨f, hf, hd⟩⟩
    · simp only [Array.getElem?_push, if_neg hu']
      exact hc
    · rw [hheld] at hd
      exact ht.others d fun e => hnot (e ▸ hd)

/-- Detaching a thread changes nothing, or returns the blocks of its chain to the pool and
leaves it without a chain. -/
theorem detach_final (t : Nat) (r : Registry) (j : Journal) :
    Action.final (detach t (r, j)) = r ∨
    ∃ c ch p', r.contexts[t]? = some c ∧ c.chain = some ch ∧ ch.release r.table.pool = .ok p' ∧
      Action.final (detach t (r, j)) =
        { r with contexts := r.contexts.set! t { c with chain := none },
                 table := { r.table with pool := p' } } := by
  unfold detach
  simp only [bind, EStateM.bind, Action.read_run]
  by_cases hs : r.atSafepoint = true
  · simp only [hs, if_true]
    exact Or.inl rfl
  · rw [if_neg hs]
    rcases hc : r.contexts[t]? with _ | c
    · exact Or.inl rfl
    · dsimp only
      rcases hch : c.chain with _ | ch
      · exact Or.inl rfl
      · dsimp only
        rcases hrel : ch.release r.table.pool with e | p'
        · exact Or.inl rfl
        · exact Or.inr ⟨c, ch, p', rfl, hch, hrel, rfl⟩

/-- Detaching a thread keeps the registry sound and is confined to the thread. -/
theorem detach_step (h : r.Sound) (t : Nat) (j : Journal) :
    (Action.final (detach t (r, j))).Sound ∧ Confined t r (Action.final (detach t (r, j))) := by
  rcases detach_final t r j with hr | ⟨c, ch, p', hc, hch, hrel, hr⟩ <;> rw [hr]
  · exact ⟨h, (SameBlocks.refl r).confined t⟩
  obtain ⟨p'', hrel', _, hsound, hcust, hsp⟩ := (h.chain hc hch).release
  rw [hrel] at hrel'
  cases hrel'
  have ht : t < r.contexts.size := (Array.getElem?_eq_some_iff.mp hc).1
  have hread := Array.getElem?_set!_of_lt ht { c with chain := none }
  refine ⟨⟨hsound, hcust.perm ?_, fun u c' hu ch' hch' g hg => ?_⟩,
    fun u hu c' hc' => ⟨c', by rw [hread, if_neg (Ne.symm hu)]; exact hc', rfl⟩, hsp⟩
  · -- the detached thread holds nothing
    have hp := held_perm (r := { r with contexts := r.contexts.set! t { c with chain := none } })
      (t := t) (c := { c with chain := none }) (by simp only [hread, if_true])
    simp only [heldBut, heldBut_set, Context.blocks, List.append_nil] at hp
    exact hp.symm
  · simp only [hread] at hu
    split at hu
    · cases hu
      cases hch'
    · rename_i htu
      refine (h.frames u c' hu ch' hch' g hg).untouched fun b hb => hsp.others b ?_
      have hb' : b ∈ c'.blocks := by
        simp only [Context.blocks, hch']
        exact Chain.mem_blocks.mpr ⟨g, hg, hb⟩
      exact mem_heldBut (Ne.symm htu) hu hb'

/-- Claiming a thread changes only its parity. -/
theorem claim_same (t p : Nat) (r : Registry) (j : Journal) :
    SameBlocks r (Action.final (claim t p (r, j))) := by
  unfold claim
  simp only [bind, EStateM.bind, Action.read_run]
  rcases hc : r.contexts[t]? with _ | c
  · exact SameBlocks.refl r
  · dsimp only
    refine sameBlocks_set hc ?_
    unfold Context.claim
    split <;> rfl

theorem advanceParity_same (r : Registry) (j : Journal) :
    SameBlocks r (Action.final (advanceParity (r, j))) := ⟨rfl, rfl⟩

theorem beginSafepoint_same (r : Registry) (j : Journal) :
    SameBlocks r (Action.final (beginSafepoint (r, j))) := by
  unfold beginSafepoint
  simp only [bind, EStateM.bind, Action.read_run, Action.write_run]
  split <;> exact ⟨rfl, rfl⟩

theorem endSafepoint_same (r : Registry) : SameBlocks r r.endSafepoint := ⟨rfl, rfl⟩

end Ops

end Registry

end GcRoots

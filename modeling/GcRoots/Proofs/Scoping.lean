import GcRoots.Proofs.Overflow
import GcRoots.Thread.FrameScope

namespace GcRoots

/-!
# Which frame a frame scope closes

A frame scope (`FrameScope`) is meant to be balanced: opening it pushes one frame, and dropping
or escaping it pops that frame and no other. For a scope that opened this holds in every sound
registry: dropping it closes exactly the innermost frame (`FrameScope.drop_run`), and so does
escaping it, which then makes one handle in the frame around it (`FrameScope.escape_resolved`).

Two orders of events break the balance. A refused scope is dropped while it is made, so it
closes the frame around it (`FrameScope.create_refused`); only at depth 0, where there is no
frame around it to close, does it change nothing. And an escape whose handle cannot be resolved
stops before the frame closes, while the scope already counts as closed, so the frame stays
open (`FrameScope.escape_unresolved`).

Main statement: `frame_scope_closes_innermost`; `scope_closes_wrong_frames` shows both orders
of events on a thread at depth 1.
-/

namespace Action

variable {σ α : Type}

/-- Unwinding with a cleanup that does nothing runs the action as it is. -/
theorem unwinding_pure (m : Action σ α) : unwinding (pure ()) m = m := by
  funext s
  unfold unwinding
  cases m s <;> rfl

end Action

namespace Chain

/-- The chain once its innermost frame is closed; a chain of one frame stays as it is. -/
def popped (c : Chain) : Chain :=
  match c.outer with
  | [] => c
  | f :: rest => { top := f, outer := rest }

theorem popped_of_outer_nil {c : Chain} (ho : c.outer = []) : c.popped = c := by
  simp [popped, ho]

theorem popped_of_outer_cons {c : Chain} {f : Frame} {rest : List Frame} (ho : c.outer = f :: rest) :
    c.popped = { top := f, outer := rest } := by
  simp [popped, ho]

@[simp] theorem depth_popped (c : Chain) : c.popped.depth = c.depth - 1 := by
  cases ho : c.outer with
  | nil => simp [popped_of_outer_nil ho, depth, ho]
  | cons f rest => simp [popped_of_outer_cons ho, depth, ho]

variable {others : List Nat} {c : Chain} {p : BlockPool}

/-- Closing a frame leaves the popped chain. With a frame around it, the closed frame's blocks
are released into the queue; without one, the pool stays. -/
theorem popFrame_run (h : Holds others (c, p)) (j : Journal) :
    ∃ b p', popFrame ((c, p), j) = .ok b ((c.popped, p'), j) ∧ (c.outer = [] → p' = p) ∧
      (c.outer ≠ [] → BlockPool.Released p c.top.blocks.toList p') := by
  rcases popFrame_cases h j with ⟨ho, hr⟩ | ⟨f, rest, p', ho, hrel, hr⟩
  · exact ⟨false, p, by rw [hr, popped_of_outer_nil ho], fun _ => rfl, fun hne => absurd ho hne⟩
  · refine ⟨true, p', by rw [hr, popped_of_outer_cons ho], fun he => ?_, fun _ => hrel⟩
    rw [ho] at he
    cases he

end Chain

namespace Registry

variable {r : Registry} {t : Nat} {c : Context} {ch : Chain}

theorem chainOf_eq_ok : r.chainOf t = .ok ch ↔ ∃ c, r.contexts[t]? = some c ∧ c.chain = some ch := by
  unfold chainOf
  rcases hc : r.contexts[t]? with _ | c
  · simp
  · rcases hch : c.chain with _ | ch'
    · simp [hch]
    · simp [hch]

/-- The chain of thread `t` once an action on it put back chain `ch'`. -/
theorem chainOf_set (hc : r.contexts[t]? = some c) (ch' : Chain) (tb : Table) :
    ({ r with contexts := r.contexts.set! t { c with chain := some ch' }, table := tb } : Registry).chainOf t =
      .ok ch' := by
  have ht : t < r.contexts.size := (Array.getElem?_eq_some_iff.mp hc).1
  unfold chainOf
  rw [Array.getElem?_set!_of_lt ht, if_pos rfl]

/-- Putting back thread `t`'s own chain and the pool as they were leaves the registry as it was. -/
theorem set_chain_self (hc : r.contexts[t]? = some c) (hch : c.chain = some ch) :
    ({ r with contexts := r.contexts.set! t { c with chain := some ch },
              table := { r.table with pool := r.table.pool } } : Registry) = r := by
  have ht : t < r.contexts.size := (Array.getElem?_eq_some_iff.mp hc).1
  have hget : r.contexts[t] = c := (Array.getElem?_eq_some_iff.mp hc).2
  have hself : ({ c with chain := some ch } : Context) = c := by
    rw [← hch]
  rw [hself, ← hget, Array.set!_eq_setIfInBounds, Array.setIfInBounds, dif_pos ht,
    Array.set_getElem_self]

/-- An action on thread `t`'s chain that returns puts back the chain and the pool it ended
with. -/
theorem onChain_ok {α : Type} {m : Action (Chain × BlockPool) α} (hc : r.contexts[t]? = some c)
    (hch : c.chain = some ch) {a : α} {ch' : Chain} {p' : BlockPool} {j j' : Journal}
    (hm : m ((ch, r.table.pool), j) = .ok a ((ch', p'), j')) :
    onChain t m (r, j) =
      .ok a ({ r with contexts := r.contexts.set! t { c with chain := some ch' },
                      table := { r.table with pool := p' } }, j') := by
  unfold onChain
  simp only [bind, EStateM.bind, Action.read_run, hc, hch, Action.focus, hm]

/-- An action on thread `t`'s chain that fails puts back the chain and the pool it stopped
with. -/
theorem onChain_error {α : Type} {m : Action (Chain × BlockPool) α} (hc : r.contexts[t]? = some c)
    (hch : c.chain = some ch) {e : Fault} {ch' : Chain} {p' : BlockPool} {j j' : Journal}
    (hm : m ((ch, r.table.pool), j) = .error e ((ch', p'), j')) :
    onChain t m (r, j) =
      .error e ({ r with contexts := r.contexts.set! t { c with chain := some ch' },
                         table := { r.table with pool := p' } }, j') := by
  unfold onChain
  simp only [bind, EStateM.bind, Action.read_run, hc, hch, Action.focus, hm]

/-- An action on the chain of a thread without one is refused at once. -/
theorem onChain_of_chainOf_error {α : Type} {m : Action (Chain × BlockPool) α} {e : Fault}
    (hch : r.chainOf t = .error e) (j : Journal) :
    onChain t m (r, j) = .error e (r, j) := by
  unfold chainOf at hch
  unfold onChain
  simp only [bind, EStateM.bind, Action.read_run]
  rcases hc : r.contexts[t]? with _ | c
  · simp only [hc] at hch
    cases hch
    rfl
  · rcases hchc : c.chain with _ | ch <;> simp only [hc, hchc] at hch ⊢
    · cases hch
      rfl
    · cases hch

/-- Making a handle for the null object does nothing. -/
theorem makeLocal_zero (t : Nat) (s : Registry × Journal) : makeLocal t 0 s = .ok none s := rfl

/-- Closing a frame with a result that resolves: the innermost frame closes, then the result's
object gets a handle in the frame around it. -/
theorem popFrame_of_resolve {result : Option Handle} {obj : Nat} (hres : r.table.resolve result = .ok obj)
    (j : Journal) :
    popFrame t result (r, j) = (onChain t Chain.popFrame >>= fun _ => makeLocal t obj) (r, j) := by
  unfold popFrame
  simp only [bind, EStateM.bind, Action.read_run, hres, Action.ofExcept_ok]

/-- Closing a frame with a result that does not resolve stops at once. -/
theorem popFrame_of_unresolved {result : Option Handle} {e : Fault} (hres : r.table.resolve result = .error e)
    (j : Journal) : popFrame t result (r, j) = .error e (r, j) := by
  unfold popFrame
  simp only [bind, EStateM.bind, Action.read_run, hres, Action.ofExcept_error]

/-- Closing the innermost frame puts back the chain around it; a closed frame's blocks are
released, and at depth 0 the registry stays as it was. -/
theorem onChain_popFrame_run (h : r.Sound) (hch : r.chainOf t = .ok ch) (j : Journal) :
    ∃ b r', onChain t Chain.popFrame (r, j) = .ok b (r', j) ∧ r'.Sound ∧
      r'.chainOf t = .ok ch.popped ∧ (ch.outer = [] → r' = r) ∧
      (ch.outer ≠ [] → BlockPool.Released r.table.pool ch.top.blocks.toList r'.table.pool) := by
  obtain ⟨c, hc, hchc⟩ := chainOf_eq_ok.mp hch
  obtain ⟨b, p', hpop, hsame, hrel⟩ := Chain.popFrame_run (h.chain hc hchc) j
  have hrun := onChain_ok hc hchc hpop
  have hs := (onChain_step Chain.popFrame_safe h t j).1
  rw [hrun, Action.final_ok] at hs
  refine ⟨b, _, hrun, hs, chainOf_set hc _ _, fun ho => ?_, hrel⟩
  rw [Chain.popped_of_outer_nil ho, hsame ho]
  exact set_chain_self hc hchc

/-- Closing thread `t`'s innermost frame without a result, in a sound registry, returns: the
thread's chain is popped, a closed frame's blocks join the end of the queue, and a thread at
depth 0 leaves the registry as it was. -/
theorem popFrame_none_run (h : r.Sound) (hch : r.chainOf t = .ok ch) (j : Journal) :
    ∃ r', popFrame t none (r, j) = .ok none (r', j) ∧ r'.chainOf t = .ok ch.popped ∧
      (ch.outer = [] → r' = r) ∧
      (ch.outer ≠ [] → r'.table.pool.queue = r.table.pool.queue ++ ch.top.blocks.toList) := by
  obtain ⟨_, r', hpop, -, hch', hsame, hrel⟩ := onChain_popFrame_run h hch j
  refine ⟨r', ?_, hch', hsame, fun hne => (hrel hne).queue_eq⟩
  rw [popFrame_of_resolve rfl, Action.bind_ok hpop]
  rfl

/-- Opening a frame within the table's limit on thread `t` either fails and changes nothing, or
gives the thread a new innermost frame of one block, planned for `n` handles. -/
theorem pushFrame_run (hch : r.chainOf t = .ok ch) {n : Nat}
    (hn : n ≤ r.table.config.maxLocalCapacity) (j : Journal) :
    (∃ e, pushFrame t n (r, j) = .error e (r, j)) ∨
    ∃ b r' j', pushFrame t n (r, j) = .ok true (r', j') ∧
      r'.chainOf t = .ok { top := { blocks := #[b], planned := n }, outer := ch.top :: ch.outer } := by
  obtain ⟨c, hc, hchc⟩ := chainOf_eq_ok.mp hch
  have hle : ¬ r.table.config.maxLocalCapacity < n := Nat.not_lt.mpr hn
  unfold pushFrame onChain
  simp only [bind, EStateM.bind, Action.read_run, gt_iff_lt, hle, if_false, hc, hchc]
  rcases Chain.pushFrame_cases ch r.table.pool j with ⟨b, p', j', _, hr⟩ | ⟨e, hr⟩
  · refine Or.inr ⟨b, _, j', ?_, chainOf_set hc _ { r.table with pool := p' }⟩
    simp only [Action.focus, EStateM.bind, hr]
    rfl
  · refine Or.inl ⟨e, ?_⟩
    simp only [Action.focus, EStateM.bind, hr]
    rw [set_chain_self hc hchc]

/-- Making a local handle changes only the innermost frame of the thread's chain, which keeps
its blocks and may gain one. -/
theorem makeLocal_chain (h : r.Sound) (hch : r.chainOf t = .ok ch) (obj : Nat) (j : Journal) :
    ∃ ch', (Action.final (makeLocal t obj (r, j))).chainOf t = .ok ch' ∧ ch'.outer = ch.outer ∧
      ch.top.blocks.toList <+: ch'.top.blocks.toList := by
  obtain ⟨c, hc, hchc⟩ := chainOf_eq_ok.mp hch
  unfold makeLocal
  by_cases h0 : obj = 0
  · simp only [h0, if_true]
    exact ⟨ch, hch, rfl, List.prefix_refl _⟩
  · simp only [h0, if_false]
    rw [Action.final_bind_pure, onChain_final]
    simp only [hc, hchc]
    obtain ⟨_, _, hout, hg⟩ := Chain.allocate_holds (h.chain hc hchc) obj j
    exact ⟨_, chainOf_set hc _ _, hout, hg.start⟩

end Registry

namespace FrameScope

variable {r : Registry} {t : Nat} {ch : Chain}

/-- Dropping an open scope closes its thread's innermost frame, as closing it without a result
does. -/
theorem drop_eq (g : FrameScope) (hg : g.closed = false) :
    g.drop = (Registry.popFrame g.thread none >>= fun _ => pure ()) := by
  simp [drop, hg]

/-- Dropping an open scope on thread `t` closes exactly the thread's innermost frame. -/
theorem drop_run (h : r.Sound) (hch : r.chainOf t = .ok ch) {g : FrameScope} (hgt : g.thread = t)
    (hg : g.closed = false) (j : Journal) :
    ∃ r', g.drop (r, j) = .ok () (r', j) ∧ r'.chainOf t = .ok ch.popped ∧ (ch.outer = [] → r' = r) ∧
      (ch.outer ≠ [] → r'.table.pool.queue = r.table.pool.queue ++ ch.top.blocks.toList) := by
  obtain ⟨r', hpop, hrest⟩ := Registry.popFrame_none_run h hch j
  refine ⟨r', ?_, hrest⟩
  rw [drop_eq g hg, hgt, Action.bind_ok hpop]
  rfl

/-- A scope with a capacity above the table's limit is refused, and dropping it closes the
innermost frame: the frame around where the scope would have been. -/
theorem create_refused (h : r.Sound) (hch : r.chainOf t = .ok ch) {n : Nat}
    (hn : r.table.config.maxLocalCapacity < n) (j : Journal) :
    ∃ r', create t n (r, j) = .ok none (r', j) ∧ r'.chainOf t = .ok ch.popped ∧
      (ch.outer = [] → r' = r) ∧
      (ch.outer ≠ [] → r'.table.pool.queue = r.table.pool.queue ++ ch.top.blocks.toList) := by
  obtain ⟨r', hdrop, hrest⟩ := drop_run h hch (g := { thread := t }) rfl rfl j
  refine ⟨r', ?_, hrest⟩
  have hpush : Registry.pushFrame t n (r, j) = .ok false (r, j) := by
    simp [Registry.pushFrame, bind, EStateM.bind, hn]
  unfold create
  rw [Action.bind_ok hpush]
  simp only [Bool.false_eq_true, if_false]
  rw [Action.bind_ok hdrop]
  rfl

/-- A scope within the table's limit either fails and changes nothing, or opens a frame of one
block, planned for `n` handles, over the thread's frames. -/
theorem create_accepted (hch : r.chainOf t = .ok ch) {n : Nat}
    (hn : n ≤ r.table.config.maxLocalCapacity) (j : Journal) :
    (∃ e, create t n (r, j) = .error e (r, j)) ∨
    ∃ b r' j', create t n (r, j) = .ok (some { thread := t }) (r', j') ∧
      r'.chainOf t = .ok { top := { blocks := #[b], planned := n }, outer := ch.top :: ch.outer } := by
  unfold create
  rcases Registry.pushFrame_run hch hn j with ⟨e, hp⟩ | ⟨b, r', j', hp, hch'⟩
  · exact Or.inl ⟨e, Action.bind_error hp⟩
  · exact Or.inr ⟨b, r', j', by rw [Action.bind_ok hp]; rfl, hch'⟩

/-- Escaping a scope whose handle to carry out does not resolve stops before the frame closes,
and leaves the registry as it was: the scope's frame stays open. -/
theorem escape_unresolved (g : FrameScope) {result : Option Handle} {e : Fault}
    (hres : r.table.resolve result = .error e) (j : Journal) :
    g.escape result (r, j) = .error e (r, j) := by
  unfold escape
  simp only [drop, if_true]
  rw [Action.unwinding_pure]
  exact Registry.popFrame_of_unresolved hres j

/-- Escaping a scope on thread `t` whose handle resolves closes exactly the thread's innermost
frame; the frame around it, now innermost, keeps its blocks (and may gain one for the new
handle), and the frames outside that are as they were. -/
theorem escape_resolved (h : r.Sound) (hch : r.chainOf t = .ok ch) {g : FrameScope} (hgt : g.thread = t)
    {result : Option Handle} {obj : Nat} (hres : r.table.resolve result = .ok obj) (j : Journal) :
    ∃ f, (Action.final (g.escape result (r, j))).chainOf t = .ok { top := f, outer := ch.popped.outer } ∧
      ch.popped.top.blocks.toList <+: f.blocks.toList := by
  obtain ⟨c, hc, hchc⟩ := Registry.chainOf_eq_ok.mp hch
  obtain ⟨b, p', hpop, -, -⟩ := Chain.popFrame_run (h.chain hc hchc) j
  have hesc : g.escape result (r, j) = (Registry.popFrame t result) (r, j) := by
    unfold escape
    simp only [drop, if_true, Action.unwinding_pure, hgt]
  have hon := Registry.onChain_ok hc hchc hpop
  -- the thread's chain is popped in a registry that stays sound
  have hs₁ := (Registry.onChain_step Chain.popFrame_safe h t j).1
  rw [hon, Action.final_ok] at hs₁
  obtain ⟨ch', hch', hout, hpre⟩ := Registry.makeLocal_chain hs₁ (Registry.chainOf_set hc ch.popped _) obj j
  refine ⟨ch'.top, ?_, hpre⟩
  rw [hesc, Registry.popFrame_of_resolve hres, Action.bind_ok hon]
  rw [hch', ← hout]

/-- What a frame scope does to the frames of its thread, in every sound registry where the thread
has chain `ch`. A refused scope closes the innermost frame, the one around it; only at depth 0
does it change nothing. An accepted scope either fails without effect or opens one frame over
`ch`. Dropping an open scope closes exactly the innermost frame. Escaping closes it as well when
the handle to carry out resolves, and keeps the frames outside (the one around keeps its blocks
and may gain one for the new handle); when the handle does not resolve, the escape stops and
changes nothing, so the scope's frame stays open while the scope counts as closed. -/
theorem frame_scope_closes_innermost (h : r.Sound) (hch : r.chainOf t = .ok ch) (j : Journal) :
    (∀ n, r.table.config.maxLocalCapacity < n →
      ∃ r', create t n (r, j) = .ok none (r', j) ∧ r'.chainOf t = .ok ch.popped ∧
        (ch.outer = [] → r' = r) ∧
        (ch.outer ≠ [] → r'.table.pool.queue = r.table.pool.queue ++ ch.top.blocks.toList)) ∧
    (∀ n, n ≤ r.table.config.maxLocalCapacity →
      (∃ e, create t n (r, j) = .error e (r, j)) ∨
      ∃ b r' j', create t n (r, j) = .ok (some { thread := t }) (r', j') ∧
        r'.chainOf t = .ok { top := { blocks := #[b], planned := n }, outer := ch.top :: ch.outer }) ∧
    (∀ g : FrameScope, g.thread = t → g.closed = false →
      ∃ r', g.drop (r, j) = .ok () (r', j) ∧ r'.chainOf t = .ok ch.popped ∧ (ch.outer = [] → r' = r) ∧
        (ch.outer ≠ [] → r'.table.pool.queue = r.table.pool.queue ++ ch.top.blocks.toList)) ∧
    (∀ (g : FrameScope) (result : Option Handle) (obj : Nat), g.thread = t →
      r.table.resolve result = .ok obj →
      ∃ f, (Action.final (g.escape result (r, j))).chainOf t = .ok { top := f, outer := ch.popped.outer } ∧
        ch.popped.top.blocks.toList <+: f.blocks.toList) ∧
    (∀ (g : FrameScope) (result : Option Handle) (e : Fault), r.table.resolve result = .error e →
      g.escape result (r, j) = .error e (r, j)) :=
  ⟨fun _ hn => create_refused h hch hn j, fun _ hn => create_accepted hch hn j,
    fun _ hgt hg => drop_run h hch hgt hg j, fun _ _ _ hgt hres => escape_resolved h hch hgt hres j,
    fun g _ _ hres => escape_unresolved g hres j⟩

/-- A thread at depth 1, after one frame of a new table: the scope theorem applies there, and a
refused scope takes the thread back to its outermost frame. -/
theorem frame_scope_refused_at_depth_one :
    let r := (Op.runAll [.attach, .pushFrame 0 16] (World.new Table.fresh, {})).1.registry
    let ch : Chain := { top := { blocks := #[1], planned := 16 }, outer := [{ blocks := #[0] }] }
    r.Sound ∧ r.chainOf 0 = .ok ch ∧ r.table.config.maxLocalCapacity < 65537 ∧
      ∃ r', create 0 65537 (r, {}) = .ok none (r', {}) ∧ r'.chainOf 0 = .ok ch.popped := by
  intro r ch
  have hs : r.Sound := World.sound_of_reachable ⟨_, _, World.new_fresh_initial, rfl⟩
  have hch : r.chainOf 0 = .ok ch := rfl
  have hn : r.table.config.maxLocalCapacity < 65537 := by decide
  obtain ⟨r', hrun, hpop, -⟩ := (frame_scope_closes_innermost hs hch {}).1 65537 hn
  exact ⟨hs, hch, hn, r', hrun, hpop⟩

/-- On a thread at depth 1 a refused scope closes the thread's inner frame, and an escape whose
handle names an empty slot leaves the scope's frame open: the thread stays at depth 2. -/
theorem scope_closes_wrong_frames :
    let r := (Op.runAll [.attach, .pushFrame 0 16] (World.new Table.fresh, {})).1.registry
    r.depth 0 = some 1 ∧ (Action.final (create 0 65537 (r, {}))).depth 0 = some 0 ∧
      (Action.final (create 0 16 (r, {}))).depth 0 = some 2 ∧
      (Action.final ((FrameScope.mk 0 false).escape (some (.strong (.threadLocal 64)))
        (Action.final (create 0 16 (r, {})), {}))).depth 0 = some 2 := by
  decide +kernel

end FrameScope

end GcRoots

import GcRoots.Proofs.Allocation

namespace GcRoots

/-!
# A frame opened and closed again

A thread opens a frame on top of its chain `C`, runs operations inside it, and closes it with a
result handle. While the thread works inside, `C`'s frames lie, as they were, outside the
innermost frame (`Chain.Over`): making, destroying and announcing handles change the innermost
frame only, and the frames the thread opens later close before the one it opened first
(`Op.over_after`, `Op.over_runAll`). Back at depth `C.depth + 1`, the frames outside are
exactly `C`'s.

Closing the frame then does two things in order (`Registry.popFrame_eq_makeLocal`). It puts
`C` back as the thread's chain and releases the closed frame's blocks to the end of the pool's
queue, cleared; then it makes a handle for the result's object on `C`, as `makeLocal` does.
That allocation may take a block from the queue, and when the queue was empty before, that
block is one the closed frame just released (`frame_cycle_takes_back_released_block`). A result
that does not resolve stops the close before anything changes.

Main statement: `frame_cycle_restores_chain`.
-/

namespace Chain

/-- Chain `ch` is chain `c` with frames opened on top: `c`'s frames lie, as they were,
outside `ch`'s innermost frame. -/
def Over (ch c : Chain) : Prop := c.frames <:+ ch.outer

variable {ch ch' c : Chain}

theorem over_push (c : Chain) (f : Frame) : ({ top := f, outer := c.frames } : Chain).Over c :=
  List.suffix_refl _

theorem Over.of_outer (h : ch.Over c) (he : ch'.outer = ch.outer) : ch'.Over c := by
  unfold Over
  rw [he]
  exact h

theorem Over.push (h : ch.Over c) (he : ch'.outer = ch.top :: ch.outer) : ch'.Over c := by
  unfold Over
  rw [he]
  exact h.trans (List.suffix_cons _ _)

/-- Closing a frame that lies above the frame opened on `c` leaves `c`'s frames outside. -/
theorem Over.popped (h : ch.Over c) (hd : c.depth + 2 ≤ ch.depth) : ch.popped.Over c := by
  rcases ho : ch.outer with _ | ⟨f, rest⟩
  · simp [depth, ho] at hd
  · rw [popped_of_outer_cons ho]
    unfold Over at h ⊢
    rw [ho] at h
    rcases List.suffix_cons_iff.mp h with he | hs
    · -- `c`'s frames are one fewer than the frames outside `ch`'s innermost frame
      have hlen := congrArg List.length he
      simp only [frames, depth, ho, List.length_cons] at hlen hd
      omega
    · exact hs

/-- One frame above `c`, the frames outside the innermost one are exactly `c`'s. -/
theorem Over.eq_of_depth (h : ch.Over c) (hd : ch.depth = c.depth + 1) : ch.outer = c.frames :=
  (h.eq_of_length (by simp [frames, depth] at hd ⊢; omega)).symm

end Chain

namespace Registry

variable {r : Registry} {t : Nat} {ch : Chain}

theorem depth_of_chainOf (hch : r.chainOf t = .ok ch) : r.depth t = some ch.depth := by
  obtain ⟨c, hc, hchc⟩ := chainOf_eq_ok.mp hch
  simp [depth, hc, hchc]

/-- An action on thread `t`'s chain leaves the chain it ended with. -/
theorem chainOf_onChain {α : Type} (hch : r.chainOf t = .ok ch) (m : Action (Chain × BlockPool) α)
    (j : Journal) :
    (Action.final (onChain t m (r, j))).chainOf t = .ok (Action.final (m ((ch, r.table.pool), j))).1 := by
  obtain ⟨c, hc, hchc⟩ := chainOf_eq_ok.mp hch
  rw [onChain_final, hc]
  dsimp only
  rw [hchc]
  exact chainOf_set hc _ _

/-- Announcing a capacity changes only the innermost frame. -/
theorem ensureCapacity_chain (hch : r.chainOf t = .ok ch) (n : Nat) (j : Journal) :
    ∃ ch', (Action.final (ensureCapacity t n (r, j))).chainOf t = .ok ch' ∧ ch'.outer = ch.outer := by
  unfold ensureCapacity
  simp only [bind, EStateM.bind, Action.read_run]
  split
  · exact ⟨ch, hch, rfl⟩
  · refine ⟨_, chainOf_onChain hch _ j, ?_⟩
    simp only [EStateM.bind, Action.read_run]
    cases checkedAdd (ch.top.live r.table.pool) n <;> rfl

/-- Opening a frame either changes nothing or puts the old innermost frame outside. -/
theorem pushFrame_chain (hch : r.chainOf t = .ok ch) (n : Nat) (j : Journal) :
    ∃ ch', (Action.final (pushFrame t n (r, j))).chainOf t = .ok ch' ∧
      (ch'.outer = ch.outer ∨ ch'.outer = ch.top :: ch.outer) := by
  unfold pushFrame
  simp only [bind, EStateM.bind, Action.read_run]
  split
  · exact ⟨ch, hch, Or.inl rfl⟩
  · refine ⟨_, chainOf_onChain hch _ j, ?_⟩
    rcases Chain.pushFrame_cases ch r.table.pool j with ⟨b, p', j', -, hr⟩ | ⟨e, hr⟩
    · simp only [EStateM.bind, hr, Action.update_run, Action.pure_run, Action.final_ok]
      exact Or.inr rfl
    · left
      simp only [EStateM.bind, hr, Action.final_error]

/-- A frame that opened is a new innermost frame of one block, planned for `n` handles, with
the whole old chain outside it. -/
theorem pushFrame_true (hch : r.chainOf t = .ok ch) {n : Nat} {j j' : Journal} {r' : Registry}
    (hpush : pushFrame t n (r, j) = .ok true (r', j')) :
    ∃ b, r'.chainOf t = .ok { top := { blocks := #[b], planned := n }, outer := ch.frames } := by
  by_cases hn : n ≤ r.table.config.maxLocalCapacity
  · rcases pushFrame_run hch hn j with ⟨e, he⟩ | ⟨b, r'', j'', hok, hch'⟩
    · rw [he] at hpush
      cases hpush
    · rw [hok] at hpush
      cases hpush
      exact ⟨b, hch'⟩
  · have hgt : r.table.config.maxLocalCapacity < n := Nat.lt_of_not_le hn
    simp [pushFrame, bind, EStateM.bind, Action.read_run, hgt] at hpush

/-- Closing a frame with a result that resolves is closing the innermost frame, then making a
handle for the result's object on the chain around it. -/
theorem popFrame_eq_makeLocal (h : r.Sound) (hch : r.chainOf t = .ok ch) {result : Option Handle}
    {obj : Nat} (hres : r.table.resolve result = .ok obj) (j : Journal) :
    ∃ r', popFrame t result (r, j) = makeLocal t obj (r', j) ∧ r'.Sound ∧
      r'.chainOf t = .ok ch.popped ∧ (ch.outer = [] → r' = r) ∧
      (ch.outer ≠ [] → BlockPool.Released r.table.pool ch.top.blocks.toList r'.table.pool) := by
  obtain ⟨b, r', hpop, hrest⟩ := onChain_popFrame_run h hch j
  exact ⟨r', by rw [popFrame_of_resolve hres, Action.bind_ok hpop], hrest⟩

/-- Closing a frame changes the frames outside the innermost one as closing it does, or not at
all. -/
theorem popFrame_chain (h : r.Sound) (hch : r.chainOf t = .ok ch) (result : Option Handle)
    (j : Journal) :
    ∃ ch', (Action.final (popFrame t result (r, j))).chainOf t = .ok ch' ∧
      (ch'.outer = ch.outer ∨ ch'.outer = ch.popped.outer) := by
  cases hres : r.table.resolve result with
  | error e =>
    rw [popFrame_of_unresolved hres, Action.final_error]
    exact ⟨ch, hch, Or.inl rfl⟩
  | ok obj =>
    obtain ⟨r', hpop, hs, hch', -⟩ := popFrame_eq_makeLocal h hch hres j
    obtain ⟨ch', hch'', hout, -⟩ := makeLocal_chain hs hch' obj j
    rw [hpop]
    exact ⟨ch', hch'', Or.inr hout⟩

/-- In a packed registry over a clean pool whose queue holds a block, making a handle for an
object returns a local handle. -/
theorem makeLocal_returns (h : r.Sound) (hp : r.Packed) (hc : r.table.pool.Clean)
    (hq : r.table.pool.queue ≠ []) (hch : r.chainOf t = .ok ch) {obj : Nat} (h0 : obj ≠ 0)
    (j : Journal) : ∃ i s, makeLocal t obj (r, j) = .ok (some (.strong (.threadLocal i))) s := by
  obtain ⟨c, hct, hchc⟩ := chainOf_eq_ok.mp hch
  obtain ⟨-, -, hres⟩ :=
    Frame.allocate_packed_result (h.chain hct hchc).top (hp t c hct ch hchc).top hc obj j
  rcases hres with ⟨⟨⟨f', p'⟩, j'⟩, hok, -⟩ | ⟨_, _, hempty, _⟩
  · have hcall : Chain.allocate obj ((ch, r.table.pool), j) =
        .ok (ch.top.choice r.table.pool) (({ ch with top := f' }, p'), j') := by
      simp only [Chain.allocate, Action.focus, hok]
    unfold makeLocal
    rw [if_neg h0, Action.bind_ok (onChain_ok hct hchc hcall)]
    exact ⟨_, _, rfl⟩
  · exact absurd hempty hq

/-- Closing an inner frame with a result that resolves to a non-null object, in a packed
registry over a clean pool, returns a local handle: the closed frame's blocks are in the queue
when the handle is made. -/
theorem popFrame_returns (h : r.Sound) (hp : r.Packed) (hc : r.table.pool.Clean)
    (hch : r.chainOf t = .ok ch) (hne : ch.outer ≠ []) {result : Option Handle} {obj : Nat}
    (hres : r.table.resolve result = .ok obj) (h0 : obj ≠ 0) (j : Journal) :
    ∃ i s, popFrame t result (r, j) = .ok (some (.strong (.threadLocal i))) s := by
  obtain ⟨_, r', hclose, hs', hch', -, hrel⟩ := onChain_popFrame_run h hch j
  have hp' : r'.Packed := by
    have hk := hp.onChain Chain.popFrame_keepsPacked h t j
    rwa [hclose, Action.final_ok] at hk
  have hq : r'.table.pool.queue ≠ [] := by
    obtain ⟨c, hct, hchc⟩ := chainOf_eq_ok.mp hch
    have hlt := (h.frames t c hct ch hchc ch.top List.mem_cons_self).last_lt
    rw [(hrel hne).queue_eq]
    intro he
    have hnil := (List.append_eq_nil_iff.mp he).2
    rw [← Array.length_toList, hnil] at hlt
    exact Nat.not_lt_zero _ hlt
  rw [popFrame_of_resolve hres, Action.bind_ok hclose]
  exact makeLocal_returns hs' hp' ((hrel hne).clean hc) hq hch' h0 j

end Registry

namespace Op

/-- The operations thread `t` runs inside a frame it opened on top of depth `d`: making,
destroying and announcing local handles, opening frames, and closing the frames it opened
after that one, which lie deeper than `d + 1`. -/
def Inside (t d : Nat) (w : World) : Op → Prop
  | .makeLocal u _ | .destroyLocal u _ | .ensureCapacity u _ | .pushFrame u _ => u = t
  | .popFrame u _ => u = t ∧ ∃ e, w.registry.depth t = some e ∧ d + 2 ≤ e
  | _ => False

theorem Inside.onThreads {t d : Nat} {w : World} {op : Op} (h : op.Inside t d w) : op.OnThreads := by
  cases op with
  | makeLocal | destroyLocal | ensureCapacity | pushFrame | popFrame => trivial
  | _ => exact h.elim

theorem Allowed.imp {ok ok' : World → Op → Prop} :
    ∀ (ops : List Op) (s : World × Journal), (∀ w op, op ∈ ops → ok w op → ok' w op) →
      Allowed ok ops s → Allowed ok' ops s
  | [], _, _, _ => trivial
  | op :: ops, s, himp, ⟨hop, hrest⟩ =>
    ⟨himp s.1 op List.mem_cons_self hop,
      Allowed.imp ops _ (fun w o ho => himp w o (List.mem_cons_of_mem _ ho)) hrest⟩

/-- What every allowed operation satisfies in its own world holds of each operation of the
list. -/
theorem Allowed.mem {ok : World → Op → Prop} {P : Op → Prop} (hP : ∀ w op, ok w op → P op) :
    ∀ (ops : List Op) (s : World × Journal), Allowed ok ops s → ∀ op ∈ ops, P op
  | [], _, _ => fun _ h => absurd h List.not_mem_nil
  | op :: ops, s, ⟨hop, hrest⟩ => by
    intro o ho
    rcases List.mem_cons.mp ho with rfl | ho'
    · exact hP s.1 o hop
    · exact Allowed.mem hP ops _ hrest o ho'

/-- An operation inside the frame spares every handle of an outer frame that it does not
destroy. -/
theorem Inside.spares {t d d' i v : Nat} {w : World} {op : Op} (hop : op.Inside t d w) (hd : d' ≤ d)
    (hne : op ≠ .destroyLocal t (some (.strong (.threadLocal i)))) :
    op.Spares (.strong (.threadLocal i)) v t d' w := by
  cases op with
  | destroyLocal u hd' =>
    cases hop
    exact ⟨fun he => hne (by rw [he]), fun _ _ => trivial⟩
  | popFrame u result =>
    obtain ⟨-, e, he, hle⟩ := hop
    refine ⟨trivial, fun _ _ _ hdep => ?_⟩
    rw [he] at hdep
    cases hdep
    omega
  | makeLocal | ensureCapacity | pushFrame => exact ⟨trivial, fun _ _ => trivial⟩
  | _ => exact hop.elim

variable {t : Nat} {C : Chain}

/-- One operation inside the frame keeps `C`'s frames outside the innermost one. -/
theorem over_after (s : World × Journal) (op : Op) (hop : op.Inside t C.depth s.1)
    (h : s.1.registry.Sound) {ch : Chain} (hch : s.1.registry.chainOf t = .ok ch) (hov : ch.Over C) :
    ∃ ch', (op.after s).1.registry.chainOf t = .ok ch' ∧ ch'.Over C := by
  obtain ⟨w, j⟩ := s
  cases op with
  | makeLocal u obj =>
    obtain rfl : u = t := hop
    rw [after_makeLocal_fst]
    obtain ⟨ch', hch', hout, -⟩ := Registry.makeLocal_chain h hch obj j
    exact ⟨ch', hch', hov.of_outer hout⟩
  | destroyLocal u hd =>
    rw [after_destroyLocal_fst]
    -- destroying a handle writes a slot of the pool and leaves every chain alone
    rcases Registry.destroyLocal_final u hd w.registry j with hr | ⟨i, -, -, hr⟩ <;> rw [hr] <;>
      exact ⟨ch, hch, hov⟩
  | ensureCapacity u n =>
    obtain rfl : u = t := hop
    rw [after_ensureCapacity_fst]
    obtain ⟨ch', hch', hout⟩ := Registry.ensureCapacity_chain hch n j
    exact ⟨ch', hch', hov.of_outer hout⟩
  | pushFrame u n =>
    obtain rfl : u = t := hop
    rw [after_pushFrame_fst]
    obtain ⟨ch', hch', hout | hout⟩ := Registry.pushFrame_chain hch n j
    · exact ⟨ch', hch', hov.of_outer hout⟩
    · exact ⟨ch', hch', hov.push hout⟩
  | popFrame u result =>
    obtain ⟨rfl, e, he, hle⟩ := hop
    rw [after_popFrame_fst]
    have hdepth : C.depth + 2 ≤ ch.depth := by
      rw [Registry.depth_of_chainOf hch] at he
      cases he
      exact hle
    obtain ⟨ch', hch', hout | hout⟩ := Registry.popFrame_chain h hch result j
    · exact ⟨ch', hch', hov.of_outer hout⟩
    · exact ⟨ch', hch', (hov.popped hdepth).of_outer hout⟩
  | _ => exact hop.elim

/-- A run inside the frame keeps the registry sound and `C`'s frames outside the innermost
one. -/
theorem over_runAll (ops : List Op) (s : World × Journal) (hok : Allowed (Inside t C.depth) ops s)
    (h : s.1.registry.Sound) (hov : ∃ ch, s.1.registry.chainOf t = .ok ch ∧ ch.Over C) :
    (runAll ops s).1.registry.Sound ∧
      ∃ ch, (runAll ops s).1.registry.chainOf t = .ok ch ∧ ch.Over C :=
  runAll_induct (fun s => s.1.registry.Sound ∧ ∃ ch, s.1.registry.chainOf t = .ok ch ∧ ch.Over C)
    (fun s op hop ⟨hs, _, hch, hov⟩ =>
      ⟨(grows op s.1 s.2 hs).1, over_after s op hop hs hch hov⟩) ops s hok ⟨h, hov⟩

/-- The world after opening a frame that opened. -/
theorem after_pushFrame {w : World} {j j' : Journal} {r' : Registry} {n : Nat} {b : Bool}
    (hpush : Registry.pushFrame t n (w.registry, j) = .ok b (r', j')) :
    (Op.pushFrame t n).after (w, j) = ({ w with registry := r' }, j') := by
  have hrun : (Op.pushFrame t n).run = drop (onRegistry (Registry.pushFrame t n)) := rfl
  simp only [after, hrun, drop, onRegistry, bind, EStateM.bind, Action.focus, hpush]
  rfl

end Op

/-- A frame opened on thread `t`'s chain `C`, in any reachable state, then any operations of
the thread inside it that close only the frames they opened, then closing it with a result that
resolves to `obj`. Back at depth `C.depth + 1` the frames outside the innermost frame `F` are
`C`'s. Closing puts `C` back and releases `F`'s blocks to the end of the pool's queue, cleared;
then it is `makeLocal` of `obj` on `C`, which leaves the thread at depth `C.depth`. For the null
object it returns the null handle with `C` exactly as it was. A handle it returns is a local
handle of `C`'s innermost frame bound to `obj`; in a packed registry over a clean pool (every
state the operations on threads reach) it returns one for every non-null object, since the
queue then holds a block. Every handle of `C`'s frames that the operations inside did not
destroy keeps its object. At depth 0, closing releases nothing and is `makeLocal` of `obj`. -/
theorem frame_cycle_restores_chain {s₀ : World × Journal} (hs₀ : Reachable s₀) {t n : Nat}
    {C : Chain} (hC : s₀.1.registry.chainOf t = .ok C) {r₁ : Registry} {j₁ : Journal}
    (hpush : Registry.pushFrame t n (s₀.1.registry, s₀.2) = .ok true (r₁, j₁)) {ops : List Op}
    (hops : Op.Allowed (Op.Inside t C.depth) ops ({ s₀.1 with registry := r₁ }, j₁))
    {w₂ : World} {j₂ : Journal} (hrun : Op.runAll ops ({ s₀.1 with registry := r₁ }, j₁) = (w₂, j₂))
    (hd : w₂.registry.depth t = some (C.depth + 1)) {result : Option Handle} {obj : Nat}
    (hres : w₂.registry.table.resolve result = .ok obj) :
    ∃ F r₃, w₂.registry.chainOf t = .ok { top := F, outer := C.frames } ∧
      r₃.chainOf t = .ok C ∧
      BlockPool.Released w₂.registry.table.pool F.blocks.toList r₃.table.pool ∧
      Registry.popFrame t result (w₂.registry, j₂) = Registry.makeLocal t obj (r₃, j₂) ∧
      (Action.final (Registry.popFrame t result (w₂.registry, j₂))).depth t = some C.depth ∧
      (obj = 0 → Registry.popFrame t result (w₂.registry, j₂) = .ok none (r₃, j₂)) ∧
      (∀ h s, Registry.popFrame t result (w₂.registry, j₂) = .ok (some h) s →
        ∃ i, h = .strong (.threadLocal i) ∧ s.1.Binds t C.depth obj h) ∧
      (s₀.1.registry.table.pool.Clean → s₀.1.registry.Packed → obj ≠ 0 →
        ∃ i s, Registry.popFrame t result (w₂.registry, j₂) = .ok (some (.strong (.threadLocal i))) s) ∧
      (∀ d i v, d ≤ C.depth → v ≠ 0 → s₀.1.registry.Owns t d i v →
        (∀ op ∈ ops, op ≠ .destroyLocal t (some (.strong (.threadLocal i)))) →
        (Action.final (Registry.popFrame t result (w₂.registry, j₂))).Owns t d i v) ∧
      (C.depth = 0 → ∀ (res : Option Handle) (o : Nat), s₀.1.registry.table.resolve res = .ok o →
        Registry.popFrame t res (s₀.1.registry, s₀.2) = Registry.makeLocal t o (s₀.1.registry, s₀.2)) := by
  have h₀ := World.sound_of_reachable hs₀
  have hs₁ : r₁.Sound := by
    have h₁ := (Registry.pushFrame_step h₀ t n s₀.2).1
    rwa [hpush, Action.final_ok] at h₁
  obtain ⟨b, hch₁⟩ := Registry.pushFrame_true hC hpush
  -- inside the frame, `C`'s frames stay outside the innermost one
  obtain ⟨hs₂, ch, hch₂, hov⟩ := Op.over_runAll ops _ hops hs₁ ⟨_, hch₁, Chain.over_push C _⟩
  rw [hrun] at hs₂ hch₂
  have hout : ch.outer = C.frames := by
    have hdepth := Registry.depth_of_chainOf hch₂
    rw [hd] at hdepth
    exact hov.eq_of_depth (Option.some.inj hdepth).symm
  have hne : ch.outer ≠ [] := by simp [hout, Chain.frames]
  obtain ⟨r₃, hpop, hs₃, hch₃, -, hrel⟩ := Registry.popFrame_eq_makeLocal hs₂ hch₂ hres j₂
  rw [Chain.popped_of_outer_cons hout] at hch₃
  have hdepth₃ : r₃.depth t = some C.depth := Registry.depth_of_chainOf hch₃
  refine ⟨ch.top, r₃, by rw [← hout]; exact hch₂, hch₃, hrel hne, hpop, ?_, ?_, ?_, ?_, ?_, ?_⟩
  · -- making the handle changes only `C`'s innermost frame
    obtain ⟨ch', hch', hout', -⟩ := Registry.makeLocal_chain hs₃ hch₃ obj j₂
    rw [hpop, Registry.depth_of_chainOf hch']
    simp [Chain.depth, hout']
  · intro h0
    rw [hpop, h0]
    rfl
  · intro h s hs
    rw [hpop] at hs
    obtain ⟨-, hi, hb⟩ := Registry.makeLocal_binds hs₃ hdepth₃ hs
    obtain ⟨i, rfl⟩ := hi
    exact ⟨i, rfl, hb⟩
  · intro hc₀ hp₀ h0
    -- the push and the run are operations on threads, which keep the pool clean and the
    -- registry packed
    have hpacked := Op.runAll_packed (.pushFrame t n :: ops)
      (fun op hop => by
        rcases List.mem_cons.mp hop with rfl | hop'
        · trivial
        · exact Op.Allowed.mem (fun _ _ hin => hin.onThreads) ops _ hops op hop')
      s₀ h₀ hc₀ hp₀
    rw [Op.runAll_cons, Op.after_pushFrame hpush, hrun] at hpacked
    obtain ⟨-, hc₂, hp₂⟩ := hpacked
    exact Registry.popFrame_returns hs₂ hp₂ hc₂ hch₂ hne hres h0 j₂
  · intro d i v hdC hv hown hnd
    have h₁ : r₁.Owns t d i v := by
      have h₁ := hown.pushFrame h₀ t n s₀.2
      rwa [hpush, Action.final_ok] at h₁
    have h₂ : w₂.registry.Owns t d i v := by
      have h₂ := Op.binds_runAll ops _ hs₁ hv
        (Op.Allowed.imp ops _ (fun w op hop hin => hin.spares hdC (hnd op hop)) hops)
        (show r₁.Binds t d v (.strong (.threadLocal i)) from h₁)
      rw [hrun] at h₂
      exact h₂
    -- the frame closed is at depth `C.depth + 1`, above every frame of `C`
    exact h₂.popFrame hs₂ hv t result j₂ fun _ hdep => by
      rw [hd] at hdep
      cases hdep
      omega
  · intro hz res o hres₀
    obtain ⟨r', hpop₀, -, -, hsame, -⟩ := Registry.popFrame_eq_makeLocal h₀ hC hres₀ s₀.2
    rw [hpop₀, hsame (List.length_eq_zero_iff.mp hz)]

/-- A new thread opens a frame, makes a handle inside it and closes the frame with that handle:
it is back at depth 0. -/
theorem frame_cycle_on_new_thread :
    let s₀ := Op.runAll [.attach] (World.new Table.fresh, {})
    let s₁ := (Op.pushFrame 0 16).after s₀
    let s₂ := Op.runAll [.makeLocal 0 16] ({ s₀.1 with registry := s₁.1.registry }, s₁.2)
    Reachable s₀ ∧ s₀.1.registry.chainOf 0 = .ok { top := { blocks := #[0] } } ∧
      Registry.pushFrame 0 16 (s₀.1.registry, s₀.2) = .ok true (s₁.1.registry, s₁.2) ∧
      Op.Allowed (Op.Inside 0 0) [.makeLocal 0 16] ({ s₀.1 with registry := s₁.1.registry }, s₁.2) ∧
      s₂.1.registry.depth 0 = some 1 ∧
      s₂.1.registry.table.resolve (some (.strong (.threadLocal 32))) = .ok 16 ∧
      (Action.final (Registry.popFrame 0 (some (.strong (.threadLocal 32)))
        (s₂.1.registry, s₂.2))).depth 0 = some 0 := by
  intro s₀ s₁ s₂
  have hs₀ : Reachable s₀ := ⟨_, [.attach], World.new_fresh_initial, rfl⟩
  have hC : s₀.1.registry.chainOf 0 = .ok { top := { blocks := #[0] } } := rfl
  have hpush : Registry.pushFrame 0 16 (s₀.1.registry, s₀.2) = .ok true (s₁.1.registry, s₁.2) := by
    obtain ⟨⟨r₁, j₁⟩, hok⟩ := Action.value?_eq_some
      (show Action.value? (Registry.pushFrame 0 16 (s₀.1.registry, s₀.2)) = some true by
        decide +kernel)
    -- the state the push returned is the one the operation leaves
    have hafter : s₁ = ({ s₀.1 with registry := r₁ }, j₁) := Op.after_pushFrame hok
    rw [hafter]
    exact hok
  have hops : Op.Allowed (Op.Inside 0 0) [.makeLocal 0 16]
      ({ s₀.1 with registry := s₁.1.registry }, s₁.2) := ⟨rfl, trivial⟩
  have hd : s₂.1.registry.depth 0 = some 1 := by decide +kernel
  have hres : s₂.1.registry.table.resolve (some (.strong (.threadLocal 32))) = .ok 16 := by
    have hval : (s₂.1.registry.table.resolve (some (.strong (.threadLocal 32)))).toOption =
        some 16 := by
      decide +kernel
    revert hval
    cases s₂.1.registry.table.resolve (some (.strong (.threadLocal 32))) <;> simp [Except.toOption]
  obtain ⟨_, _, -, -, -, -, hdepth, -⟩ :=
    frame_cycle_restores_chain hs₀ hC hpush hops rfl hd hres
  exact ⟨hs₀, hC, hpush, hops, hd, hres, hdepth⟩

/-- The handle for a closed frame's result can take back a block the frame just released. A
thread fills its first block, opens a frame and closes it with its first handle: the queue, in
which the closed frame's block was the only one, is empty again, and that block is now the
second block of the thread's frame. -/
theorem frame_cycle_takes_back_released_block :
    let s := Op.runAll (.attach :: (List.range 32).map (fun k => .makeLocal 0 (16 * (k + 1))) ++
      [.pushFrame 0 16]) (World.new Table.fresh, {})
    let s' := (Op.popFrame 0 (some (.strong (.threadLocal 0)))).after s
    (s.1.registry.chainOf 0).toOption.map (fun c => c.top.blocks.toList) = some [1] ∧
      s'.1.registry.table.pool.queue = [] ∧
      (s'.1.registry.chainOf 0).toOption.map (fun c => (c.top.blocks.toList, c.outer.length)) =
        some ([0, 1], 0) := by
  intro s s'
  decide +kernel

end GcRoots

import GcRoots.Proofs.Ops

namespace GcRoots

/-!
# Claiming threads in a root pass

The strong and thread passes walk the threads through `Scan.threads`: for the pass's parity
`p`, each registered thread is claimed by setting its parity to `p`, and walked only when that
claim succeeds, that is when the thread carried another parity before.

`Scan.threads_run` says what one worker call does, for any visitor and in any world: it walks,
in attach order, the slots of exactly the threads it claims (`Registry.claimed`), each thread's
local handles of all frames and then its stack roots, and leaves every attached thread at
parity `p` (`Registry.claimAll`). Claiming is thus decided by the parity a thread carries when
the call starts, and a second call for the same parity claims nothing.

The proof follows the loop over thread numbers: claiming a thread changes only its own
context and keeps its chain (`Scan.claimedThread_run`), and neither a claim nor a slot write
moves the slots a later thread's walk reaches (`World.threadSlots_writeSlot`,
`World.threadSlots_withContexts`).
-/

/-- The context after a claim for parity `p`: an attached thread carries `p` afterwards. -/
def Context.afterClaim (c : Context) (p : Nat) : Context :=
  if c.attached then { c with parity := p } else c

theorem Context.claim_eq (c : Context) (p : Nat) :
    c.claim p = ({ c with parity := p }, c.parity != p) := by
  unfold Context.claim
  by_cases h : c.parity = p
  · subst h
    simp
  · simp [h]

@[simp] theorem Context.afterClaim_chain (c : Context) (p : Nat) :
    (c.afterClaim p).chain = c.chain := by
  unfold Context.afterClaim
  split <;> rfl

@[simp] theorem Context.afterClaim_attached (c : Context) (p : Nat) :
    (c.afterClaim p).attached = c.attached := by
  simp [Context.attached]

/-- Claiming twice for the same parity is claiming once. -/
theorem Context.afterClaim_afterClaim (c : Context) (p : Nat) :
    (c.afterClaim p).afterClaim p = c.afterClaim p := by
  unfold Context.afterClaim
  by_cases ha : c.attached = true
  · have ha' : ({ c with parity := p } : Context).attached = true := ha
    rw [if_pos ha, if_pos ha']
  · rw [if_neg ha, if_neg ha]

namespace Registry

/-- Whether a worker claiming for parity `p` claims thread `t`: the thread is attached and
carries another parity. -/
def claims (r : Registry) (p t : Nat) : Bool :=
  match r.contexts[t]? with
  | some c => c.attached && c.parity != p
  | none => false

/-- The threads a worker claiming for parity `p` claims, in attach order. -/
def claimed (r : Registry) (p : Nat) : List Nat :=
  (List.range r.contexts.size).filter (r.claims p)

/-- The registry once a worker has claimed every attached thread for parity `p`. -/
def claimAll (r : Registry) (p : Nat) : Registry :=
  { r with contexts := r.contexts.map (·.afterClaim p) }

theorem mem_claimed {r : Registry} {p t : Nat} :
    t ∈ r.claimed p ↔ ∃ c, r.contexts[t]? = some c ∧ c.attached = true ∧ c.parity ≠ p := by
  unfold claimed claims
  rw [List.mem_filter, List.mem_range]
  constructor
  · rintro ⟨ht, hc⟩
    obtain ⟨c, hc'⟩ : ∃ c, r.contexts[t]? = some c := ⟨_, Array.getElem?_eq_getElem ht⟩
    rw [hc'] at hc
    simp only [Bool.and_eq_true, bne_iff_ne] at hc
    exact ⟨c, hc', hc⟩
  · rintro ⟨c, hc, ha, hp⟩
    refine ⟨(Array.getElem?_eq_some_iff.mp hc).1, ?_⟩
    simp [hc, ha, hp]

theorem getElem?_claimAll (r : Registry) (p t : Nat) :
    (r.claimAll p).contexts[t]? = r.contexts[t]?.map (·.afterClaim p) := by
  simp [claimAll]

/-- After a worker has claimed for parity `p`, no thread is left for another worker. -/
theorem claims_claimAll (r : Registry) (p t : Nat) : (r.claimAll p).claims p t = false := by
  unfold claims
  rw [getElem?_claimAll]
  cases r.contexts[t]? with
  | none => rfl
  | some c =>
    unfold Context.afterClaim
    by_cases ha : c.attached = true
    · simp [ha]
    · simp [ha]

theorem claimed_claimAll (r : Registry) (p : Nat) : (r.claimAll p).claimed p = [] := by
  unfold claimed
  simp [claims_claimAll]

theorem attached_claimAll (r : Registry) (p : Nat) :
    (r.claimAll p).attached = r.attached.map (·.afterClaim p) := by
  unfold attached claimAll
  simp only [Array.toList_map, List.filter_map]
  congr 1
  apply List.filter_congr
  intro c _
  simp

/-- The teardown check passes exactly when every attached thread carries the registry's
parity. -/
theorem assertAllClaimed_ok_iff (r : Registry) :
    (∃ u, r.assertAllClaimed = .ok u) ↔ ∀ c ∈ r.attached, c.parity = r.parity := by
  unfold assertAllClaimed
  cases hf : r.attached.find? (fun c => c.parity != r.parity) with
  | none =>
    rw [List.find?_eq_none] at hf
    simp only [bne_iff_ne, ne_eq, Decidable.not_not] at hf
    exact ⟨fun _ => hf, fun _ => ⟨(), rfl⟩⟩
  | some c =>
    have hc := List.find?_some hf
    have hm := List.mem_of_find?_eq_some hf
    simp only [bne_iff_ne, ne_eq] at hc
    constructor
    · rintro ⟨u, hu⟩
      cases hu
    · intro h
      exact absurd (h c hm) hc

end Registry

namespace World

/-- The world with the registry's contexts replaced. -/
def withContexts (w : World) (cs : Array Context) : World :=
  { w with registry := { w.registry with contexts := cs } }

/-- The stack root slots of thread `t`. -/
def stackSlots (w : World) (t : Nat) : List SlotAddr :=
  match w.stackRoots with
  | some rows =>
    match rows[t]? with
    | some row => (List.range row.size).map (SlotAddr.stack t)
    | none => []
  | none => []

/-- The slots a claim of thread `t` walks: its local handles of all frames, innermost first,
then its stack roots. -/
def threadSlots (w : World) (t : Nat) : List SlotAddr :=
  Walk.slots w (.locals t) ++ w.stackSlots t

/-- The slots a worker claiming for parity `p` walks, thread by thread in attach order. -/
def claimedSlots (w : World) (p : Nat) : List SlotAddr :=
  (w.registry.claimed p).flatMap w.threadSlots

@[simp] theorem readSlot_withContexts (w : World) (cs : Array Context) (a : SlotAddr) :
    (w.withContexts cs).readSlot a = w.readSlot a := by
  cases a <;> rfl

theorem writeSlot_withContexts (w : World) (cs : Array Context) (a : SlotAddr) (v : Nat) :
    (w.writeSlot a v).withContexts cs = (w.withContexts cs).writeSlot a v := by
  cases a <;> rfl

@[simp] theorem contexts_writeSlot (w : World) (a : SlotAddr) (v : Nat) :
    (w.writeSlot a v).registry.contexts = w.registry.contexts := by
  cases a <;> rfl

@[simp] theorem contexts_withContexts (w : World) (cs : Array Context) :
    (w.withContexts cs).registry.contexts = cs := rfl

@[simp] theorem withContexts_withContexts (w : World) (cs cs' : Array Context) :
    (w.withContexts cs).withContexts cs' = w.withContexts cs' := rfl

end World

/-- The handed-out slots of a frame depend only on the tops of the pool's blocks. -/
theorem Frame.handedOut_congr (f : Frame) {p p' : BlockPool}
    (h : ∀ b, (p.block? b).map Block.top = (p'.block? b).map Block.top) :
    f.handedOut p = f.handedOut p' := by
  unfold Frame.handedOut
  congr 1
  funext b
  have hb := h b
  cases hq : p.block? b <;> cases hq' : p'.block? b <;> simp_all

theorem Chain.handedOut_store (c : Chain) (p : BlockPool) (i v : Nat) :
    c.handedOut (p.store i v) = c.handedOut p := by
  unfold Chain.handedOut
  congr 1
  funext f
  apply Frame.handedOut_congr
  intro b
  unfold BlockPool.block?
  cases hb : p.blocks[b]? with
  | none =>
    have hs : p.blocks.size ≤ b := Array.getElem?_eq_none_iff.mp hb
    rw [Array.getElem?_eq_none_iff.mpr (by simpa using hs)]
  | some blk =>
    obtain ⟨blk', h', htop, -⟩ := BlockPool.top_store p i v b blk hb
    rw [h']
    simp [htop]

namespace World

theorem stackSlots_writeSlot (w : World) (a : SlotAddr) (v : Nat) (t : Nat) :
    (w.writeSlot a v).stackSlots t = w.stackSlots t := by
  cases a with
  | stack tn i =>
    unfold stackSlots writeSlot
    cases hs : w.stackRoots with
    | none => rfl
    | some rows =>
      simp only [Option.map_some]
      cases hr : rows[tn]? with
      | none => simp
      | some row =>
        by_cases hi : i < row.size
        · simp only [if_pos hi, Array.set!_eq_setIfInBounds, Array.getElem?_setIfInBounds]
          by_cases ht : tn = t
          · subst ht
            obtain ⟨hlt, hrow⟩ := Array.getElem?_eq_some_iff.mp hr
            simp [hlt, hrow]
          · simp [ht]
        · simp [hi]
  | _ => rfl

theorem localSlots_writeSlot (w : World) (a : SlotAddr) (v : Nat) (t : Nat) :
    Walk.slots (w.writeSlot a v) (.locals t) = Walk.slots w (.locals t) := by
  cases a with
  | threadLocal i =>
    unfold Walk.slots writeSlot
    dsimp only
    split <;> simp [Chain.handedOut_store, *]
  | _ => rfl

/-- Writing a slot moves no slot that a thread's walk reaches. -/
theorem threadSlots_writeSlot (w : World) (a : SlotAddr) (v : Nat) (t : Nat) :
    (w.writeSlot a v).threadSlots t = w.threadSlots t := by
  rw [threadSlots, threadSlots, localSlots_writeSlot, stackSlots_writeSlot]

theorem localSlots_withContexts (w : World) {cs : Array Context} {t : Nat}
    (hc : (cs[t]?).bind Context.chain = (w.registry.contexts[t]?).bind Context.chain) :
    Walk.slots (w.withContexts cs) (.locals t) = Walk.slots w (.locals t) := by
  simp only [Walk.slots, withContexts]
  rw [hc]

/-- Replacing contexts by ones with the same chain moves no slot of a thread's walk. -/
theorem threadSlots_withContexts (w : World) {cs : Array Context} {t : Nat}
    (hc : (cs[t]?).bind Context.chain = (w.registry.contexts[t]?).bind Context.chain) :
    (w.withContexts cs).threadSlots t = w.threadSlots t := by
  rw [threadSlots, threadSlots, localSlots_withContexts w hc]
  rfl

end World

namespace Sweep

@[simp] theorem strong_nil (rw : Rewrite) (sw : Sweep World) : sw.strong rw [] = sw := rfl

theorem strong_append (rw : Rewrite) (sw : Sweep World) (l l' : List SlotAddr) :
    sw.strong rw (l ++ l') = (sw.strong rw l).strong rw l' := by
  simp [Sweep.strong, List.foldl_append]

/-- A change of the world that reading and writing slots cannot see commutes with a walk. -/
theorem strong_comm {g : World → World} (hr : ∀ w a, (g w).readSlot a = w.readSlot a)
    (hw : ∀ w a v, g (w.writeSlot a v) = (g w).writeSlot a v) (rw : Rewrite) :
    ∀ (l : List SlotAddr) (sw : Sweep World),
      Sweep.strong rw { sw with state := g sw.state } l =
        { sw.strong rw l with state := g (sw.strong rw l).state }
  | [], _ => rfl
  | a :: l, sw => by
    have hstep : visitStrong rw { sw with state := g sw.state } a =
        { visitStrong rw sw a with state := g (visitStrong rw sw a).state } := by
      unfold visitStrong
      simp only [World.slotMemory_read, World.slotMemory_write, hr]
      split <;> simp [hw]
    simp only [Sweep.strong, List.foldl_cons] at *
    rw [hstep]
    exact strong_comm hr hw rw l _

theorem strong_withContexts (rw : Rewrite) (l : List SlotAddr) (sw : Sweep World)
    (cs : Array Context) :
    Sweep.strong rw { sw with state := sw.state.withContexts cs } l =
      { sw.strong rw l with state := (sw.strong rw l).state.withContexts cs } :=
  strong_comm (g := fun w => w.withContexts cs) (fun w a => w.readSlot_withContexts cs a)
    (fun w a v => w.writeSlot_withContexts cs a v) rw l sw

theorem contexts_strong (rw : Rewrite) (sw : Sweep World) (l : List SlotAddr) :
    (sw.strong rw l).state.registry.contexts = sw.state.registry.contexts :=
  strong_induct (fun w => w.registry.contexts = sw.state.registry.contexts)
    (fun w a v _ hw => by rw [World.contexts_writeSlot, hw]) rfl

theorem stackSlots_strong (rw : Rewrite) (sw : Sweep World) (l : List SlotAddr) (t : Nat) :
    (sw.strong rw l).state.stackSlots t = sw.state.stackSlots t :=
  strong_induct (fun w => w.stackSlots t = sw.state.stackSlots t)
    (fun w a v _ hw => by rw [World.stackSlots_writeSlot, hw]) rfl

theorem threadSlots_strong (rw : Rewrite) (sw : Sweep World) (l : List SlotAddr) (t : Nat) :
    (sw.strong rw l).state.threadSlots t = sw.state.threadSlots t :=
  strong_induct (fun w => w.threadSlots t = sw.state.threadSlots t)
    (fun w a v _ hw => by rw [World.threadSlots_writeSlot, hw]) rfl

end Sweep

/-- Applying `f` at each position of a duplicate-free list of positions applies it once at
each of them. -/
theorem Array.getElem?_foldl_modify {α : Type} (f : α → α) :
    ∀ (l : List Nat) (cs : Array α) (u : Nat), l.Nodup →
      (l.foldl (fun cs t => cs.modify t f) cs)[u]? = if u ∈ l then cs[u]?.map f else cs[u]?
  | [], _, _, _ => rfl
  | t :: l, cs, u, hl => by
    obtain ⟨ht, hl⟩ := List.nodup_cons.mp hl
    rw [List.foldl_cons, Array.getElem?_foldl_modify f l _ u hl, Array.getElem?_modify]
    by_cases hu : u = t
    · subst hu
      simp [ht]
    · have hu' : t ≠ u := fun h => hu h.symm
      by_cases hm : u ∈ l <;> simp [hu, hu', hm]

theorem Array.foldl_modify_range {α : Type} (f : α → α) (cs : Array α) :
    (List.range cs.size).foldl (fun cs t => cs.modify t f) cs = cs.map f := by
  apply Array.ext_getElem?
  intro u
  rw [Array.getElem?_foldl_modify f _ cs u List.nodup_range, Array.getElem?_map]
  by_cases hu : u < cs.size
  · simp [hu]
  · simp [hu]

theorem Array.modify_of_getElem? {α : Type} {cs : Array α} {t : Nat} {c : α} (f : α → α)
    (hc : cs[t]? = some c) : cs.modify t f = cs.set! t (f c) := by
  apply Array.ext_getElem?
  intro u
  rw [Array.getElem?_modify, Array.set!_eq_setIfInBounds, Array.getElem?_setIfInBounds]
  by_cases hu : t = u
  · subst hu
    obtain ⟨ht, hct⟩ := Array.getElem?_eq_some_iff.mp hc
    simp [ht, hct]
  · simp [hu]

/-- The world once a worker has claimed every attached thread for parity `p`. -/
def World.claimAll (w : World) (p : Nat) : World := { w with registry := w.registry.claimAll p }

/-- A claim keeps every thread's chain. -/
theorem chain_modify_afterClaim (cs : Array Context) (p t u : Nat) :
    ((cs.modify t (·.afterClaim p))[u]?).bind Context.chain = (cs[u]?).bind Context.chain := by
  rw [Array.getElem?_modify]
  split
  · cases cs[u]? <;> simp
  · rfl

namespace Scan

theorem threadLocals_run (t : Nat) (rw : Rewrite) (sw : Sweep World) (j : Journal) :
    threadLocals t rw (sw, j) = .ok () (sw.strong rw (Walk.slots sw.state (.locals t)), j) := by
  simp only [threadLocals, Action.update_run, Walk.slots]
  cases hc : sw.state.registry.contexts[t]? with
  | none => rfl
  | some c =>
    cases hch : c.chain with
    | none => simp [hch, Sweep.strong]
    | some ch => simp [hch]

theorem stackRoots_run (t : Nat) (rw : Rewrite) (sw : Sweep World) (j : Journal) :
    stackRoots t rw (sw, j) = .ok () (sw.strong rw (sw.state.stackSlots t), j) := by
  simp only [stackRoots, Action.update_run, World.stackSlots]
  cases hs : sw.state.stackRoots with
  | none => rfl
  | some rows =>
    cases hr : rows[t]? with
    | none => simp [hr, Sweep.strong]
    | some row => simp [hr]

/-- One claim: the thread's context is claimed, and its slots walked when the claim
succeeds. -/
theorem claimedThread_run (p : Nat) (rw : Rewrite) (t : Nat) (sw : Sweep World) (j : Journal) :
    claimedThread p rw t (sw, j) =
      let sw' := sw.strong rw (if sw.state.registry.claims p t then sw.state.threadSlots t else [])
      .ok () ({ sw' with state :=
        sw'.state.withContexts (sw.state.registry.contexts.modify t (·.afterClaim p)) }, j) := by
  unfold claimedThread
  rw [Action.bind_ok (Action.read_run _)]
  dsimp only
  cases hc : sw.state.registry.contexts[t]? with
  | none =>
    have hmod : sw.state.registry.contexts.modify t (·.afterClaim p) =
        sw.state.registry.contexts := by
      apply Array.ext_getElem?
      intro u
      rw [Array.getElem?_modify]
      split
      · subst_vars
        rw [hc]
        rfl
      · rfl
    simp only [Registry.claims, hc, hmod]
    rfl
  | some c =>
    have hmod := Array.modify_of_getElem? (·.afterClaim p) hc
    by_cases ha : c.attached = true
    · have hcl : sw.state.registry.claims p t = (c.parity != p) := by
        simp [Registry.claims, hc, ha]
      have hsw : sw.state.registry.contexts.set! t { c with parity := p } =
          sw.state.registry.contexts.modify t (·.afterClaim p) := by
        rw [hmod]
        simp [Context.afterClaim, ha]
      simp only [ha, if_true, Context.claim_eq]
      rw [Action.bind_ok (Action.write_run _ _)]
      by_cases hp : c.parity = p
      · simp only [hp, bne_self_eq_false, Bool.false_eq_true, if_false, Action.pure_run] at hcl ⊢
        rw [hcl, if_neg Bool.false_ne_true, ← hsw]
        rfl
      · have hne : (c.parity != p) = true := by simpa using hp
        simp only [hne, if_true]
        rw [Action.bind_ok (threadLocals_run t rw _ j), stackRoots_run, Sweep.stackSlots_strong,
          ← Sweep.strong_append, hcl, if_pos hne, hsw]
        change EStateM.Result.ok () (Sweep.strong rw { sw with state := sw.state.withContexts _ }
          (Walk.slots (sw.state.withContexts _) (.locals t) ++ sw.state.stackSlots t), j) = _
        rw [World.localSlots_withContexts sw.state (chain_modify_afterClaim _ p t t),
          Sweep.strong_withContexts]
        rfl
    · have hcl : sw.state.registry.claims p t = false := by
        simp [Registry.claims, hc, ha]
      have hsame : sw.state.registry.contexts.modify t (·.afterClaim p) =
          sw.state.registry.contexts := by
        apply Array.ext_getElem?
        intro u
        rw [Array.getElem?_modify]
        split
        · subst_vars
          simp [hc, Context.afterClaim, ha]
        · rfl
      simp only [ha, Bool.false_eq_true, if_false, Action.pure_run, hcl, hsame]
      rfl

theorem claims_of_getElem? {r r' : Registry} {u : Nat} (p : Nat)
    (h : r.contexts[u]? = r'.contexts[u]?) : r.claims p u = r'.claims p u := by
  unfold Registry.claims
  rw [h]

/-- Claims over distinct threads, in list order: each thread is claimed once, and the slots of
the threads that the claims take are walked in the same order. -/
theorem forM_claimedThread (p : Nat) (rw : Rewrite) :
    ∀ (l : List Nat) (sw : Sweep World) (j : Journal), l.Nodup →
      l.forM (claimedThread p rw) (sw, j) =
        let sw' := sw.strong rw ((l.filter (sw.state.registry.claims p)).flatMap sw.state.threadSlots)
        .ok () ({ sw' with state := (sw'.state.withContexts
          (l.foldl (fun cs t => cs.modify t (·.afterClaim p)) sw.state.registry.contexts)) }, j)
  | [], sw, j, _ => rfl
  | t :: l, sw, j, hl => by
    obtain ⟨ht, hl⟩ := List.nodup_cons.mp hl
    -- the claim of `t` touches only `t`'s context and keeps every chain
    have hslots : ∀ X, ((sw.strong rw X).state.withContexts
        (sw.state.registry.contexts.modify t (·.afterClaim p))).threadSlots =
          sw.state.threadSlots := by
      intro X
      funext u
      have hch : ((sw.state.registry.contexts.modify t (·.afterClaim p))[u]?).bind Context.chain =
          ((sw.strong rw X).state.registry.contexts[u]?).bind Context.chain := by
        rw [Sweep.contexts_strong]
        exact chain_modify_afterClaim _ p t u
      rw [World.threadSlots_withContexts _ hch, Sweep.threadSlots_strong]
    have hfilter : ∀ X, l.filter (((sw.strong rw X).state.withContexts
        (sw.state.registry.contexts.modify t (·.afterClaim p))).registry.claims p) =
          l.filter (sw.state.registry.claims p) := by
      intro X
      apply List.filter_congr
      intro u hu
      apply claims_of_getElem? p
      have hne : t ≠ u := fun h => ht (h ▸ hu)
      show (sw.state.registry.contexts.modify t (·.afterClaim p))[u]? = _
      rw [Array.getElem?_modify, if_neg hne]
    show (claimedThread p rw t >>= fun _ => l.forM (claimedThread p rw)) (sw, j) = _
    rw [Action.bind_ok (claimedThread_run p rw t sw j), forM_claimedThread p rw l _ j hl]
    simp only [Sweep.strong_withContexts, hslots, hfilter, World.withContexts_withContexts,
      ← Sweep.strong_append, List.foldl_cons, List.filter_cons, World.contexts_withContexts]
    cases sw.state.registry.claims p t <;> simp

/-- One worker call's walk over the threads for parity `p`, with any visitor: it walks the slots
of exactly the threads it claims, in attach order, and leaves every attached thread at parity
`p`. -/
theorem threads_run (p : Nat) (rw : Rewrite) (sw : Sweep World) (j : Journal) :
    threads p rw (sw, j) =
      let sw' := sw.strong rw (sw.state.claimedSlots p)
      .ok () ({ sw' with state := sw'.state.claimAll p }, j) := by
  unfold threads
  rw [Action.bind_ok (Action.read_run _)]
  dsimp only
  have hslots : ((List.range sw.state.registry.contexts.size).filter
      (sw.state.registry.claims p)).flatMap sw.state.threadSlots = sw.state.claimedSlots p := rfl
  rw [forM_claimedThread p rw _ sw j List.nodup_range, Array.foldl_modify_range, hslots]
  simp only [World.claimAll, Registry.claimAll, Sweep.contexts_strong]
  rfl

end Scan

/-- Worker calls on one pass, each on the pass the call before returned: the pass after the
last call, and the visits of each call. -/
def Scan.calls {ι β : Type} (work : ι → β → Scan ι) : ι → List β → Action World (ι × List (Array Visit))
  | it, [] => pure (it, [])
  | it, b :: bs => do
    let (it', v) ← Scan.visitsOf (work it b)
    let (it'', vs) ← Scan.calls work it' bs
    return (it'', v :: vs)

/-- A walk that returns gives its result with the visits it made. -/
theorem Scan.visitsOf_ok {α : Type} {m : Scan α} {w : World} {j j' : Journal} {a : α} {sw : Sweep World}
    (h : m ({ state := w }, j) = .ok a (sw, j')) : Scan.visitsOf m (w, j) = .ok (a, sw.visits) (sw.state, j') := by
  unfold Scan.visitsOf
  rw [h]

theorem Claim.take_parallel {c : Claim} (hc : c.concurrency = .parallel) :
    c.take = (true, { c with taken := true }) := by
  unfold Claim.take
  rw [hc]

/-- A group whose body acts on the state as a function runs it when the group lets this worker
run it. -/
theorem Claim.run_eq {σ : Type} (c : Claim) {body : Action σ Unit} {f : σ → σ}
    (hb : ∀ s j, body (s, j) = .ok () (f s, j)) (s : σ) (j : Journal) :
    c.run body (s, j) =
      .ok c.take (if c.take.1 then f s else s,
        if c.take.1 then { j with entries := j.entries.push (.rootGroup c.name) } else j) := by
  unfold Claim.run
  rcases h : c.take with ⟨_ | _, c'⟩
  · rfl
  · dsimp only
    rw [if_pos rfl, Action.bind_ok (Action.emit_run _ _), Action.bind_ok (hb _ _)]
    rfl

namespace World

@[simp] theorem claimAll_registry (w : World) (p : Nat) :
    (w.claimAll p).registry = w.registry.claimAll p := rfl

theorem claimedSlots_claimAll (w : World) (p : Nat) : (w.claimAll p).claimedSlots p = [] := by
  simp [claimedSlots, Registry.claimed_claimAll]

theorem claimAll_claimAll (w : World) (p : Nat) : (w.claimAll p).claimAll p = w.claimAll p := by
  simp only [claimAll, Registry.claimAll, Array.map_map]
  congr
  funext c
  exact c.afterClaim_afterClaim p

end World

namespace ThreadPass

/-- One worker call of a thread pass: it walks the slots of the threads it claims and leaves
every attached thread at the pass's parity. -/
theorem work_run (it : ThreadPass) (hpar : it.threads.concurrency = .parallel) (rw : Rewrite)
    (sw : Sweep World) (j : Journal) :
    ∃ j', it.work rw (sw, j) =
      let sw' := sw.strong rw (sw.state.claimedSlots it.parity)
      .ok { it with threads := { it.threads with taken := true } }
        ({ sw' with state := sw'.state.claimAll it.parity }, j') := by
  unfold work
  rw [Action.bind_ok (Action.emit_run _ _), Action.bind_ok (Claim.run_eq _
    (Scan.threads_run it.parity rw) _ _), Claim.take_parallel hpar]
  exact ⟨_, rfl⟩

/-- Later calls of a pass whose threads are all claimed visit nothing and change nothing. -/
theorem calls_claimed (it : ThreadPass) (hpar : it.threads.concurrency = .parallel) :
    ∀ (rws : List Rewrite) (w : World) (j : Journal), w.claimAll it.parity = w →
      ∃ it' j', Scan.calls ThreadPass.work it rws (w, j) = .ok (it', rws.map fun _ => #[]) (w, j')
  | [], w, j, _ => ⟨it, j, rfl⟩
  | rw :: rws, w, j, hw => by
    obtain ⟨j₁, h₁⟩ := it.work_run hpar rw { state := w } j
    have hnone : w.claimedSlots it.parity = [] := by
      rw [← hw]
      exact World.claimedSlots_claimAll w it.parity
    simp only [hnone, Sweep.strong_nil, hw] at h₁
    obtain ⟨it', j', h⟩ := calls_claimed { it with threads := { it.threads with taken := true } }
      hpar rws w j₁ hw
    dsimp only at h
    refine ⟨it', j', ?_⟩
    unfold Scan.calls
    show (Scan.visitsOf (it.work rw) >>= _) (w, j) = _
    rw [Action.bind_ok (Scan.visitsOf_ok h₁)]
    dsimp only
    rw [Action.bind_ok h]
    rfl

/-- The worker calls of a thread pass: the first walks the slots of the threads it claims, and
every later one visits nothing. -/
theorem calls_run (it : ThreadPass) (hpar : it.threads.concurrency = .parallel) (rw : Rewrite)
    (rws : List Rewrite) (w : World) (j : Journal) :
    let sw := Sweep.strong rw { state := w } (w.claimedSlots it.parity)
    ∃ it' j', Scan.calls ThreadPass.work it (rw :: rws) (w, j) =
      .ok (it', sw.visits :: rws.map fun _ => #[]) (sw.state.claimAll it.parity, j') := by
  intro sw
  obtain ⟨j₁, h₁⟩ := it.work_run hpar rw { state := w } j
  obtain ⟨it', j', h⟩ := calls_claimed { it with threads := { it.threads with taken := true } }
    hpar rws (sw.state.claimAll it.parity) j₁ (World.claimAll_claimAll _ _)
  dsimp only at h
  refine ⟨it', j', ?_⟩
  unfold Scan.calls
  rw [Action.bind_ok (Scan.visitsOf_ok h₁)]
  dsimp only
  rw [Action.bind_ok h]
  rfl

end ThreadPass

theorem Registry.advanceParity_run (r : Registry) (j : Journal) :
    Registry.advanceParity (r, j) =
      .ok (nextParity r.parity) ({ r with parity := nextParity r.parity }, j) := rfl

/-- Checking a safepoint of the registry's own passes it when the registry is at one. -/
theorem checkSafepoint_run (w : World) (j : Journal) (hsp : w.registry.atSafepoint = true) :
    checkSafepoint false (w, j) = .ok () (w, j) := by
  unfold checkSafepoint
  simp only [Bool.false_eq_true, if_false]
  rw [Action.bind_ok (Action.read_run _)]
  simp [hsp]

/-- The teardown check passes, and changes nothing, exactly when every attached thread carries
the registry's parity. -/
theorem checkAllClaimed_ok_iff (w : World) (j : Journal) :
    (∃ u s, checkAllClaimed (w, j) = .ok u s) ↔
      ∀ c ∈ w.registry.attached, c.parity = w.registry.parity := by
  rw [← Registry.assertAllClaimed_ok_iff]
  unfold checkAllClaimed
  rw [Action.bind_ok (Action.read_run _)]
  cases w.registry.assertAllClaimed with
  | ok u => exact ⟨fun _ => ⟨u, rfl⟩, fun _ => ⟨u, _, rfl⟩⟩
  | error e =>
    constructor
    · rintro ⟨u, s, h⟩
      cases h
    · rintro ⟨u, h⟩
      cases h

namespace ThreadPass

/-- Setting up a thread pass at the registry's safepoint advances the parity and nothing else. -/
theorem start_run (w : World) (j : Journal) (hsp : w.registry.atSafepoint = true) :
    ∃ j', ThreadPass.start false (w, j) =
      .ok { parity := nextParity w.registry.parity, scan := j.scans + 1 }
        ({ w with registry := { w.registry with parity := nextParity w.registry.parity } }, j') := by
  unfold start advanceParity
  rw [Action.bind_ok (checkSafepoint_run w j hsp),
    Action.bind_ok (Action.focus_ok (Registry.advanceParity_run _ _)),
    Action.bind_ok (Action.nextScan_run _), Action.bind_ok (Action.emit_run _ _)]
  exact ⟨_, rfl⟩

/-- Tearing a thread pass down succeeds exactly when every attached thread carries the
registry's parity. -/
theorem finish_ok_iff (it : ThreadPass) (w : World) (j : Journal) :
    (∃ s, it.finish (w, j) = .ok () s) ↔ ∀ c ∈ w.registry.attached, c.parity = w.registry.parity := by
  rw [← checkAllClaimed_ok_iff w j]
  unfold finish
  rcases h : checkAllClaimed (w, j) with ⟨u, s⟩ | ⟨e, s⟩
  · rw [Action.bind_ok h, Action.emit_run]
    exact ⟨fun _ => ⟨u, s, rfl⟩, fun _ => ⟨_, rfl⟩⟩
  · rw [Action.bind_error h]
    constructor
    · rintro ⟨s', h'⟩
      cases h'
    · rintro ⟨u, s', h'⟩
      cases h'

end ThreadPass

/-- After a worker has claimed for parity `p`, every attached thread carries `p`. -/
theorem Registry.parity_claimAll (r : Registry) (p : Nat) :
    ∀ c ∈ (r.claimAll p).attached, c.parity = p := by
  rw [attached_claimAll]
  intro c hc
  obtain ⟨c₀, hc₀, rfl⟩ := List.mem_map.mp hc
  have ha : c₀.attached = true := (List.mem_filter.mp hc₀).2
  simp [Context.afterClaim, ha]

/-- Setting the claim parity changes no slot. -/
theorem Sweep.strong_withParity (rw : Rewrite) (l : List SlotAddr) (w : World) (q : Nat) :
    Sweep.strong rw { state := { w with registry := { w.registry with parity := q } } } l =
      let sw := Sweep.strong rw { state := w } l
      { sw with state := { sw.state with registry := { sw.state.registry with parity := q } } } :=
  strong_comm (g := fun w => { w with registry := { w.registry with parity := q } })
    (fun w a => by cases a <;> rfl) (fun w a v => by cases a <;> rfl) rw l { state := w }

end GcRoots

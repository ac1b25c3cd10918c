import GcRoots.Proofs.StrongCall
import GcRoots.Proofs.Conservation
import GcRoots.Proofs.BitScan

namespace GcRoots

/-!
# What the calls of a strong pass visit

Worker calls of one pass follow a law when each call, on the pass and the world it starts
from, returns a pass, leaves a world and appends visits that are functions of these
(`CallLaw`). A run of such calls is then computed by `CallLaw.run`, and what it visits or how
often it enters a source is a sum over the calls (`CallLaw.sum`). The calls of a strong pass
with visitors that do not write follow `StrongPass.keepLaw`.

A group runs in a call that comes to it when its claim lets it: a serial group once, in the
first such call, a parallel group in each (`Claim.runs_serial`, `Claim.runs_parallel`).
Over the calls of a strong pass this gives coverage (`strong_pass_covers_roots`): every
allocated global handle, and, when weak roots are not weak, every allocated weak global handle
that is not null is visited exactly once; the handed-out local handles and the stack roots of
every attached thread exactly once, by the first call; and each root source is entered as
often as its group runs. The lists walked are duplicate-free, the threads' lists in a sound
registry (`World.claimedSlots_nodup`), so exactly once comes from each list being walked once.
-/

/-- Applying `f` `m` times and then `n` times is applying it `m + n` times. -/
theorem Nat.repeat_repeat {α : Type} (f : α → α) (m : Nat) :
    ∀ (n : Nat) (a : α), Nat.repeat f n (Nat.repeat f m a) = Nat.repeat f (m + n) a
  | 0, _ => rfl
  | n + 1, a => congrArg f (Nat.repeat_repeat f m n a)

/-- Worker calls given by functions of the pass, the call's argument and the world the call
starts from: the pass the call returns, the world it leaves and the visits it appends. -/
structure CallLaw (ι β : Type) where
  next : ι → β → World → ι
  effect : ι → β → World → World
  visits : ι → β → World → List Visit

namespace CallLaw

variable {ι β : Type} (L : CallLaw ι β)

/-- Calls in order, each on the pass and world the one before left: the pass and the world
after the last, and the visits of each call. -/
def run : ι → World → List β → ι × World × List (List Visit)
  | it, w, [] => (it, w, [])
  | it, w, b :: bs =>
    let r := run (L.next it b w) (L.effect it b w) bs
    (r.1, r.2.1, L.visits it b w :: r.2.2)

/-- The sum over calls in order of a quantity of each call, on the pass and the world it
starts from. -/
def sum (f : ι → β → World → Nat) : ι → World → List β → Nat
  | _, _, [] => 0
  | it, w, b :: bs => f it b w + sum f (L.next it b w) (L.effect it b w) bs

/-- A worker that, called with argument `b`, acts as the law says. -/
def Follows (work : ι → β → Scan ι) (b : β) : Prop :=
  ∀ it sw j, ∃ j', work it b (sw, j) =
    .ok (L.next it b sw.state)
      ({ state := L.effect it b sw.state,
         visits := sw.visits ++ (L.visits it b sw.state).toArray }, j')

/-- Calls of a worker that follows the law for each argument run as the law computes. -/
theorem calls_eq (work : ι → β → Scan ι) :
    ∀ (it : ι) (bs : List β) (w : World) (j : Journal), (∀ b ∈ bs, L.Follows work b) →
      ∃ j', Scan.calls work it bs (w, j) =
        .ok ((L.run it w bs).1, (L.run it w bs).2.2.map List.toArray) ((L.run it w bs).2.1, j')
  | it, [], w, j, _ => ⟨j, rfl⟩
  | it, b :: bs, w, j, hw => by
    obtain ⟨j₁, h₁⟩ := hw b List.mem_cons_self it { state := w } j
    obtain ⟨j', h⟩ := calls_eq work (L.next it b w) bs (L.effect it b w) j₁
      fun b hb => hw b (List.mem_cons_of_mem _ hb)
    refine ⟨j', ?_⟩
    have hv : Scan.visitsOf (work it b) (w, j) =
        .ok (L.next it b w, (L.visits it b w).toArray) (L.effect it b w, j₁) := by
      rw [Scan.visitsOf_ok h₁]
      simp
    unfold Scan.calls
    rw [Action.bind_ok hv]
    dsimp only
    rw [Action.bind_ok h]
    rfl

/-- How often a run visits a slot: the sum over the calls of how often each visits it. -/
theorem count_run (a : SlotAddr) :
    ∀ (it : ι) (w : World) (bs : List β),
      (((L.run it w bs).2.2.flatten).map Visit.slot).count a =
        L.sum (fun it b w => ((L.visits it b w).map Visit.slot).count a) it w bs
  | _, _, [] => rfl
  | it, w, b :: bs => by
    simp only [run, sum, List.flatten_cons, List.map_append, List.count_append]
    rw [count_run a]

/-- A property of the world that each call changes by applying `F` a number of times, the
run changes by applying `F` the sum of these numbers. -/
theorem repeat_run {α : Type} (q : World → α) (F : α → α) (f : ι → β → World → Nat)
    (h : ∀ it b w, q (L.effect it b w) = Nat.repeat F (f it b w) (q w)) :
    ∀ (it : ι) (w : World) (bs : List β), q (L.run it w bs).2.1 = Nat.repeat F (L.sum f it w bs) (q w)
  | _, _, [] => rfl
  | it, w, b :: bs => by
    simp only [run, sum]
    rw [repeat_run q F f h, h, Nat.repeat_repeat]

/-- An invariant of the pass and the world that each call keeps, and under which each call's
visits have a property, gives that property to the visits of every call of a run. -/
theorem run_forall (Inv : ι → World → Prop) (P : List Visit → Prop)
    (hstep : ∀ it b w, Inv it w → Inv (L.next it b w) (L.effect it b w))
    (hvis : ∀ it b w, Inv it w → P (L.visits it b w)) :
    ∀ (it : ι) (w : World) (bs : List β), Inv it w → ∀ vs ∈ (L.run it w bs).2.2, P vs
  | _, _, [], _, _, hvs => by cases hvs
  | it, w, b :: bs, hi, vs, hvs => by
    rcases List.mem_cons.mp hvs with rfl | hvs
    · exact hvis it b w hi
    · exact run_forall Inv P hstep hvis _ _ bs (hstep it b w hi) vs hvs

end CallLaw

/-- How many calls in order run a group, each call coming to it or not: a call that comes to
the group runs it when its claim lets it, and leaves the claim taken. -/
def Claim.runs : Claim → List Bool → Nat
  | _, [] => 0
  | c, r :: rs => (if r && c.take.1 then 1 else 0) + Claim.runs (if r then c.take.2 else c) rs

/-- A serial group runs once, in the first call that comes to it, unless it has run already. -/
theorem Claim.runs_serial {c : Claim} (hc : c.concurrency = .serial) (rs : List Bool) :
    c.runs rs = if !c.taken && rs.any id then 1 else 0 := by
  induction rs generalizing c with
  | nil => simp [runs]
  | cons r rs ih =>
    have htake : c.take = if c.taken then (false, c) else (true, { c with taken := true }) := by
      simp [take, hc]
    cases r <;> cases ht : c.taken <;>
      simp [runs, htake, ht, ih hc, ih (c := { c with taken := true }) hc]

/-- A parallel group runs in every call that comes to it. -/
theorem Claim.runs_parallel {c : Claim} (hc : c.concurrency = .parallel) (rs : List Bool) :
    c.runs rs = rs.count true := by
  induction rs generalizing c with
  | nil => rfl
  | cons r rs ih =>
    have hc' : ({ c with taken := true } : Claim).concurrency = .parallel := hc
    cases r
    · simp [runs, ih hc]
    · simp [runs, Claim.take_parallel hc, ih hc']
      omega

/-! ### The lists a strong pass walks are duplicate-free -/

/-- An allocated index of a segment lies in that segment's range of indices. -/
theorem SlotStorage.mem_segmentIndices {s : SlotStorage} {seg x : Nat}
    (hx : x ∈ (match s.segments[seg]? with
      | some g => g.livePositions.map fun b => seg * segmentSlots + b
      | none => [])) :
    seg * segmentSlots ≤ x ∧ x < seg * segmentSlots + segmentSlots := by
  split at hx
  · obtain ⟨b, hb, rfl⟩ := List.mem_map.mp hx
    simp only [Segment.livePositions_eq_filter, List.mem_filter, List.mem_range] at hb
    omega
  · cases hx

/-- The allocated indices of distinct segments are distinct. -/
theorem SlotStorage.liveIndicesIn_nodup (s : SlotStorage) {segs : List Nat} (h : segs.Nodup) :
    (s.liveIndicesIn segs).Nodup := by
  unfold liveIndicesIn List.Nodup
  refine List.pairwise_flatMap.mpr ⟨fun seg _ => ?_, h.imp ?_⟩
  · split
    · refine List.pairwise_map.mpr ?_
      rw [Segment.livePositions_eq_filter]
      exact (List.nodup_range.filter _).imp fun hne heq => hne (by omega)
    · exact List.Pairwise.nil
  · intro s₁ s₂ hne x hx y hy
    have h₁ := mem_segmentIndices hx
    have h₂ := mem_segmentIndices hy
    -- the indices of different segments lie in disjoint ranges
    have hle : ∀ a b, a < b → a * segmentSlots + segmentSlots ≤ b * segmentSlots := fun a b hab => by
      rw [← Nat.succ_mul]
      exact Nat.mul_le_mul_right _ hab
    rcases Nat.lt_or_gt_of_ne hne with hlt | hlt
    · have := hle _ _ hlt
      omega
    · have := hle _ _ hlt
      omega

/-- The allocated indices of a storage are distinct. -/
theorem SlotStorage.liveIndices_nodup (s : SlotStorage) : s.liveIndices.Nodup :=
  s.liveIndicesIn_nodup List.nodup_range

theorem World.globalSlots_nodup (w : World) : w.globalSlots.Nodup :=
  List.pairwise_map.mpr ((SlotStorage.liveIndices_nodup _).imp fun hne heq =>
    hne (SlotAddr.global.inj heq))

theorem World.weakSlots_nodup (w : World) : w.weakSlots.Nodup :=
  List.pairwise_map.mpr ((SlotStorage.liveIndices_nodup _).imp fun hne heq =>
    hne (SlotAddr.weak.inj heq))

/-- A handed-out index of a block of a sound pool lies in that block. -/
theorem BlockPool.div_of_mem_indices {p : BlockPool} (hp : p.Sound) {b x : Nat}
    (hx : x ∈ (match p.block? b with
      | some blk => (List.range blk.top).map fun i => b * blockSlots + i
      | none => [])) : x / blockSlots = b := by
  split at hx
  · rename_i blk hblk
    obtain ⟨k, hk, rfl⟩ := List.mem_map.mp hx
    exact index_div (Nat.lt_of_lt_of_le (List.mem_range.mp hk) (hp.blocks b blk hblk).top_le)
  · cases hx

/-- A frame whose blocks are distinct, in a sound pool, has handed out distinct indices. -/
theorem Frame.handedOut_nodup {f : Frame} {p : BlockPool} (hp : p.Sound)
    (hb : f.blocks.toList.Nodup) : (f.handedOut p).Nodup := by
  unfold Frame.handedOut
  refine List.pairwise_flatMap.mpr ⟨fun b _ => ?_, hb.imp ?_⟩
  · split
    · exact List.pairwise_map.mpr (List.nodup_range.imp fun hne heq => hne (by omega))
    · exact List.Pairwise.nil
  · intro b₁ b₂ hne x hx y hy hxy
    exact hne (by
      rw [← BlockPool.div_of_mem_indices hp hx, ← BlockPool.div_of_mem_indices hp hy, hxy])

/-- A chain whose blocks are distinct, in a sound pool, has handed out distinct indices: each
index lies in the block its quotient names, and no two frames share a block. -/
theorem Chain.handedOut_nodup {c : Chain} {p : BlockPool} (hp : p.Sound) (hb : c.blocks.Nodup) :
    (c.handedOut p).Nodup := by
  obtain ⟨hframes, hdisj⟩ := List.pairwise_flatMap.mp hb
  refine List.pairwise_flatMap.mpr
    ⟨fun f hf => Frame.handedOut_nodup hp (hframes f hf), hdisj.imp ?_⟩
  intro f₁ f₂ hne x hx y hy hxy
  subst hxy
  exact hne _ (Frame.mem_handedOut hp hx).1 _ (Frame.mem_handedOut hp hy).1 rfl

namespace World

variable {w : World}

/-- A local handle slot of thread `t` lies in one of the thread's blocks. -/
theorem mem_localSlots (h : w.registry.Sound) {t : Nat} {a : SlotAddr}
    (ha : a ∈ Walk.slots w (.locals t)) :
    ∃ c i, w.registry.contexts[t]? = some c ∧ a = .threadLocal i ∧ i / blockSlots ∈ c.blocks := by
  simp only [Walk.slots] at ha
  rcases hc : w.registry.contexts[t]? with _ | c
  · simp [hc] at ha
  rcases hch : c.chain with _ | ch
  · simp [hc, hch] at ha
  simp only [hc, hch, Option.bind_some, List.mem_map] at ha
  obtain ⟨i, hi, rfl⟩ := ha
  obtain ⟨f, hf, hb, -⟩ := Chain.mem_handedOut h.pool hi
  exact ⟨c, i, rfl, rfl, by simpa [Context.blocks, hch] using Chain.mem_blocks.mpr ⟨f, hf, hb⟩⟩

theorem mem_stackSlots {t : Nat} {a : SlotAddr} (ha : a ∈ w.stackSlots t) : ∃ i, a = .stack t i := by
  unfold stackSlots at ha
  split at ha
  · split at ha
    · obtain ⟨i, -, rfl⟩ := List.mem_map.mp ha
      exact ⟨i, rfl⟩
    · cases ha
  · cases ha

theorem localSlots_nodup (h : w.registry.Sound) (t : Nat) : (Walk.slots w (.locals t)).Nodup := by
  simp only [Walk.slots]
  rcases hc : w.registry.contexts[t]? with _ | c
  · exact List.Pairwise.nil
  rcases hch : c.chain with _ | ch
  · simp [hch]
  simp only [Option.bind_some, hch]
  have hb : ch.blocks.Nodup := (List.nodup_append.mp (h.chain hc hch).nodup).2.1
  exact List.pairwise_map.mpr ((Chain.handedOut_nodup h.pool hb).imp fun hne heq =>
    hne (SlotAddr.threadLocal.inj heq))

theorem stackSlots_nodup (t : Nat) : (w.stackSlots t).Nodup := by
  unfold stackSlots
  split
  · split
    · exact List.pairwise_map.mpr (List.nodup_range.imp fun hne heq =>
        hne (SlotAddr.stack.inj heq).2)
    · exact List.Pairwise.nil
  · exact List.Pairwise.nil

/-- In a sound registry the slots of one thread are distinct. -/
theorem threadSlots_nodup (h : w.registry.Sound) (t : Nat) : (w.threadSlots t).Nodup := by
  refine List.nodup_append.mpr ⟨localSlots_nodup h t, stackSlots_nodup t, ?_⟩
  intro a ha b hb hab
  obtain ⟨-, i, -, rfl, -⟩ := mem_localSlots h ha
  obtain ⟨j, rfl⟩ := mem_stackSlots hb
  cases hab

/-- In a sound registry a slot belongs to one thread at most: local handles lie in the thread's
own blocks, and stack roots carry the thread's index. -/
theorem eq_of_mem_threadSlots (h : w.registry.Sound) {t u : Nat} {a : SlotAddr}
    (ht : a ∈ w.threadSlots t) (hu : a ∈ w.threadSlots u) : t = u := by
  rcases List.mem_append.mp ht with ht | ht <;> rcases List.mem_append.mp hu with hu | hu
  · obtain ⟨c, i, hc, rfl, hb⟩ := mem_localSlots h ht
    obtain ⟨c', i', hc', hi, hb'⟩ := mem_localSlots h hu
    cases hi
    exact h.unique hc hc' hb hb'
  · obtain ⟨-, i, -, rfl, -⟩ := mem_localSlots h ht
    obtain ⟨j, hj⟩ := mem_stackSlots hu
    cases hj
  · obtain ⟨-, i, -, rfl, -⟩ := mem_localSlots h hu
    obtain ⟨j, hj⟩ := mem_stackSlots ht
    cases hj
  · obtain ⟨i, rfl⟩ := mem_stackSlots ht
    obtain ⟨j, hj⟩ := mem_stackSlots hu
    exact (SlotAddr.stack.inj hj).1

/-- In a sound registry the slots a worker claiming for parity `p` walks are distinct. -/
theorem claimedSlots_nodup (h : w.registry.Sound) (p : Nat) : (w.claimedSlots p).Nodup := by
  unfold claimedSlots
  refine List.pairwise_flatMap.mpr ⟨fun t _ => threadSlots_nodup h t, ?_⟩
  refine (List.pairwise_lt_range.filter _).imp ?_
  intro t u htu a ha b hb hab
  subst hab
  exact Nat.ne_of_lt htu (eq_of_mem_threadSlots h ha hb)

end World

/-- How often the calls of a strong pass, with the given weak-export flags, enter the root
source of each category: the strong sources once, the class loader data graph and the code cache
in every call; when weak roots are walked as strong roots the weak export and the trace once and
the string table in every call, and otherwise the weak export once if some call asks for it. -/
def strongEntries (weakRoots : Bool) (flags : List Bool) : Category → Nat
  | .vmUniverse | .objectSynchronizer | .management | .jvmtiExport | .systemDictionary => 1
  | .classLoaderDataGraph | .codeCache => flags.length
  | .jvmtiWeakExport => if !weakRoots || flags.any id then 1 else 0
  | .trace => if weakRoots then 0 else 1
  | .stringTable => if weakRoots then 0 else flags.length
  | .symbolTable => 0

namespace StrongPass

/-- The law of a strong pass's worker calls, each with a visitor that does not write and a
flag that asks for the weak export. -/
def keepLaw : CallLaw StrongPass (Rewrite × Bool) where
  next it c w := it.after w.roots.weakRoots c.2
  effect it c w := it.keepEffect c.2 w
  visits it c w := it.keepVisits c.2 w

/-- A call with a visitor that leaves every value as it is follows the law. -/
theorem follows_keepLaw {c : Rewrite × Bool} (hrw : ∀ v, c.1.apply v = v) :
    keepLaw.Follows (fun it c => it.work c.1 c.2) c := by
  intro it sw j
  show ∃ j', it.work c.1 c.2 (sw, j) = _
  rw [work_of_keeps it hrw]
  exact work_keep it c.2 sw j

/-- Over calls that keep the slots of `w`, a quantity that each call adds when it walks group
`g` sums to the number of runs of `g` times that quantity. -/
theorem sum_walks (g : StrongGroup) (n : Nat) {w : World}
    (f : StrongPass → Rewrite × Bool → World → Nat)
    (hf : ∀ it c w', World.SameSlots w w' →
      f it c w' = if it.walks w.roots.weakRoots c.2 g then n else 0) :
    ∀ (it : StrongPass) (w' : World) (cs : List (Rewrite × Bool)), World.SameSlots w w' →
      keepLaw.sum f it w' cs =
        (it.group g).runs (cs.map fun c => g.reached w.roots.weakRoots c.2) * n
  | _, _, [], _ => by simp [CallLaw.sum, Claim.runs]
  | it, w', c :: cs, hw => by
    have hnext : (it.after w'.roots.weakRoots c.2).group g =
        if g.reached w.roots.weakRoots c.2 then (it.group g).take.2 else it.group g := by
      rw [group_after, hw.roots]
    have ih := sum_walks g n f hf (it.after w'.roots.weakRoots c.2) (it.keepEffect c.2 w') cs
      (hw.trans (sameSlots_keepEffect it c.2 w'))
    show f it c w' + keepLaw.sum f (it.after w'.roots.weakRoots c.2) (it.keepEffect c.2 w') cs = _
    rw [hf it c w' hw, ih, hnext]
    simp only [List.map_cons, Claim.runs, walks]
    rw [Nat.add_mul]
    congr 1
    split <;> rename_i h <;> simp [h]

/-- Once every attached thread carries the pass's parity, the calls claim no thread, so they
visit no slot of the threads group. -/
theorem thread_visits_after_claim {a : SlotAddr} (ha : a.strongGroup = some .threads) :
    ∀ (it : StrongPass) (w : World) (cs : List (Rewrite × Bool)),
      w.registry.claimed it.parity = [] →
        ∀ vs ∈ (keepLaw.run it w cs).2.2, (vs.map Visit.slot).count a = 0 :=
  keepLaw.run_forall (fun it w => w.registry.claimed it.parity = [])
    (fun vs => (vs.map Visit.slot).count a = 0)
    (fun it c w h => by
      show (it.keepEffect c.2 w).registry.claimed (it.after w.roots.weakRoots c.2).parity = []
      rw [registry_keepEffect, parity_after]
      split
      · exact Registry.claimed_claimAll _ _
      · exact h)
    (fun it c w h => by
      show ((it.keepVisits c.2 w).map Visit.slot).count a = 0
      rw [count_keepVisits it c.2 w ha]
      split
      · simp [World.groupSlots, World.claimedSlots, h]
      · rfl)

/-- Over calls that keep the slots of `w`, a slot of a group whose list only depends on the
slots is visited as often as the group runs times as often as its list holds it. -/
theorem count_run_group {w : World} {a : SlotAddr} {g : StrongGroup}
    (ha : a.strongGroup = some g)
    (hg : ∀ w', World.SameSlots w w' → ∀ p, w'.groupSlots p g = w.groupSlots 0 g)
    (it : StrongPass) (cs : List (Rewrite × Bool)) :
    (((keepLaw.run it w cs).2.2.flatten).map Visit.slot).count a =
      (it.group g).runs (cs.map fun c => g.reached w.roots.weakRoots c.2) *
        ((Sweep.seen w (w.groupSlots 0 g)).map Visit.slot).count a := by
  rw [keepLaw.count_run]
  refine sum_walks g _ _ (fun it c w' hw => ?_) it w cs (.refl w)
  show ((it.keepVisits c.2 w').map Visit.slot).count a = _
  rw [count_keepVisits it c.2 w' ha, hg w' hw, hw.seen, hw.roots]

/-- Over the calls of a strong pass as set up, how often each root source is entered. -/
theorem sum_entries (p n : Nat) (w : World) (c₀ : Rewrite × Bool) (cs : List (Rewrite × Bool))
    (c : Category) :
    keepLaw.sum (fun it c' w => if c.strongGroup.any (it.walks w.roots.weakRoots c'.2) then 1 else 0)
        { parity := p, scan := n } w (c₀ :: cs) =
      strongEntries w.roots.weakRoots ((c₀ :: cs).map Prod.snd) c := by
  cases hg : c.strongGroup with
  | none =>
    rw [sum_walks .vmUniverse 0 _ (fun it c' w' _ => by simp) _ w _ (.refl w), Nat.mul_zero]
    cases c <;> simp_all [Category.strongGroup, strongEntries]
  | some g =>
    rw [sum_walks g 1 _ (fun it c' w' hw => by simp [hw.roots]) _ w _ (.refl w), Nat.mul_one]
    cases c <;> simp only [Category.strongGroup, Option.some.injEq, reduceCtorEq] at hg <;>
      subst hg <;> cases w.roots.weakRoots <;>
      simp [group, StrongGroup.reached, strongEntries, Claim.runs_serial, Claim.runs_parallel,
        Claim.serial, Claim.parallel, List.map_const', List.count_replicate]
    -- the weak export when weak roots are weak: the calls' flags, once as a projection and
    -- once as a function of each call
    simp only [Bool.not_false, Bool.not_true, Bool.true_and, Bool.false_or, List.map_cons,
      List.any_cons]
    rfl

theorem Source.slots_prologue (s : Source) : s.prologue.slots = s.slots := by
  cases s <;> rfl

/-- Setting up a strong pass at the registry's safepoint advances the parity and runs the
prologues of the string table, the class loader data graph and the code cache. -/
theorem start_run (w : World) (j : Journal) (hsp : w.registry.atSafepoint = true) :
    ∃ j', StrongPass.start false (w, j) =
      .ok { parity := nextParity w.registry.parity, scan := j.scans + 1 }
        ({ w with
            registry := { w.registry with parity := nextParity w.registry.parity },
            sources := ((w.sources.modify .stringTable Source.prologue).modify
              .classLoaderDataGraph Source.prologue).modify .codeCache Source.prologue }, j') := by
  unfold start advanceParity Scan.prologue
  rw [Action.bind_ok (checkSafepoint_run w j hsp),
    Action.bind_ok (Action.focus_ok (Registry.advanceParity_run _ _)),
    Action.bind_ok (Action.update_run _ _), Action.bind_ok (Action.update_run _ _),
    Action.bind_ok (Action.update_run _ _), Action.bind_ok (Action.nextScan_run _),
    Action.bind_ok (Action.emit_run _ _)]
  exact ⟨_, rfl⟩

/-- Setting up a strong pass changes no slot. -/
theorem sameSlots_started (w : World) (q : Nat) :
    World.SameSlots w { w with
      registry := { w.registry with parity := q },
      sources := ((w.sources.modify .stringTable Source.prologue).modify
        .classLoaderDataGraph Source.prologue).modify .codeCache Source.prologue } :=
  ⟨rfl, rfl, rfl, fun _ => rfl, fun c => by
    cases c <;> simp [Sources.get_modify, Source.slots_prologue]⟩

end StrongPass

/-- A duplicate-free list walked with a visitor that does not write visits each of its slots
that is not null once. -/
theorem Sweep.count_seen_nodup (w : World) {l : List SlotAddr} (hl : l.Nodup) (a : SlotAddr) :
    ((Sweep.seen w l).map Visit.slot).count a = if a ∈ l ∧ w.readSlot a ≠ 0 then 1 else 0 := by
  rw [Sweep.count_seen, hl.count]
  by_cases ha : w.readSlot a = 0 <;> simp [ha]

/-- A strong pass at the registry's safepoint of a reachable state, with one or more worker
calls whose visitors do not write, when no attached thread carries the parity the pass advances
to. Every allocated global handle that is not null is visited exactly once over all calls, and
every allocated weak global handle that is not null exactly once if weak roots are walked as
strong roots and never otherwise. Every handed-out local handle slot, over all frames, and every
stack root of an attached thread that is not null is visited exactly once by the first call and
never by a later one. The root source of each category is entered as often as `strongEntries`
says. -/
theorem strong_pass_covers_roots (s : World × Journal) (calls : List (Rewrite × Bool))
    (hs : Reachable s) (hsp : s.1.registry.atSafepoint = true)
    (hpar : ∀ c ∈ s.1.registry.attached, c.parity ≠ nextParity s.1.registry.parity)
    (hk : calls ≠ []) (hrw : ∀ c ∈ calls, ∀ v, c.1.apply v = v) :
    ∃ it s₁, StrongPass.start false s = .ok it s₁ ∧
      ∃ it' v vs s₂, Scan.calls (fun it c => it.work c.1 c.2) it calls s₁ = .ok (it', v :: vs) s₂ ∧
        (∀ i, (((v :: vs).flatMap Array.toList).map Visit.slot).count (.global i) =
          if i ∈ s.1.registry.table.globals.liveIndices ∧ s.1.readSlot (.global i) ≠ 0 then 1
          else 0) ∧
        (∀ t c, s.1.registry.contexts[t]? = some c → c.attached = true →
          ∀ a ∈ s.1.threadSlots t, s.1.readSlot a ≠ 0 →
            (v.toList.map Visit.slot).count a = 1 ∧
              ∀ u ∈ vs, (u.toList.map Visit.slot).count a = 0) ∧
        (∀ i, (((v :: vs).flatMap Array.toList).map Visit.slot).count (.weak i) =
          if s.1.roots.weakRoots = false ∧ i ∈ s.1.registry.table.weaks.liveIndices ∧
            s.1.readSlot (.weak i) ≠ 0 then 1 else 0) ∧
        ∀ c, s₂.1.sources.get c =
          Nat.repeat Source.called (strongEntries s.1.roots.weakRoots (calls.map Prod.snd) c)
            (s₁.1.sources.get c) := by
  obtain ⟨w, j⟩ := s
  have hsound : w.registry.Sound := by
    obtain ⟨s₀, ops, hinit, hrun⟩ := hs
    have h := Op.runAll_sound ops s₀ (Registry.initial_sound hinit).1
    rwa [hrun] at h
  obtain ⟨c₀, cs, rfl⟩ := List.exists_cons_of_ne_nil hk
  obtain ⟨j₁, hstart⟩ := StrongPass.start_run w j hsp
  have hsame := StrongPass.sameSlots_started w (nextParity w.registry.parity)
  have hclaimed : ∀ p, ({ w with
      registry := { w.registry with parity := nextParity w.registry.parity },
      sources := ((w.sources.modify .stringTable Source.prologue).modify
        .classLoaderDataGraph Source.prologue).modify .codeCache Source.prologue } : World).claimedSlots p =
      w.claimedSlots p := fun _ => rfl
  generalize ({ w with
      registry := { w.registry with parity := nextParity w.registry.parity },
      sources := ((w.sources.modify .stringTable Source.prologue).modify
        .classLoaderDataGraph Source.prologue).modify .codeCache Source.prologue } : World) = w₁
    at hstart hsame hclaimed
  generalize hit : ({ parity := nextParity w.registry.parity, scan := j.scans + 1 } : StrongPass) = it
    at hstart
  obtain ⟨j₂, hcalls⟩ := StrongPass.keepLaw.calls_eq (fun it c => it.work c.1 c.2) it (c₀ :: cs) w₁
    j₁ fun c hc => StrongPass.follows_keepLaw (hrw c hc)
  -- the calls after the first one run from the pass and the world the first call leaves
  let rest := StrongPass.keepLaw.run (it.after w₁.roots.weakRoots c₀.2) (it.keepEffect c₀.2 w₁) cs
  have hflat : ((it.keepVisits c₀.2 w₁).toArray :: rest.2.2.map List.toArray).flatMap Array.toList =
      (StrongPass.keepLaw.run it w₁ (c₀ :: cs)).2.2.flatten := by
    simp [rest, CallLaw.run, StrongPass.keepLaw, List.flatMap_map]
  have hparity : it.parity = nextParity w.registry.parity := by rw [← hit]
  have hthreads : it.threads.take.1 = true := by rw [← hit]; rfl
  refine ⟨it, (w₁, j₁), hstart, _, (it.keepVisits c₀.2 w₁).toArray, rest.2.2.map List.toArray, _,
    hcalls, ?_, ?_, ?_, ?_⟩
  · -- the global handles: one run of a serial group over a duplicate-free list
    intro i
    have hj : it.group .jniHandles = Claim.serial "jni_handles" := by rw [← hit]; rfl
    rw [hflat, StrongPass.count_run_group (g := .jniHandles) rfl (fun w' hw' _ => hw'.globalSlots),
      hj, Claim.runs_serial (c := Claim.serial "jni_handles") rfl]
    simp only [World.groupSlots, hsame.globalSlots, hsame.seen,
      Sweep.count_seen_nodup w (World.globalSlots_nodup w)]
    simp [StrongGroup.reached, Claim.serial, World.globalSlots]
  · -- the threads: claimed by the first call, and by none after it
    intro t c hc hatt a ha hnz
    have hg : a.strongGroup = some .threads := World.strongGroup_of_mem_threadSlots ha
    have hattached : c ∈ w.registry.attached :=
      List.mem_filter.mpr ⟨Array.mem_toList_iff.mpr (Array.mem_of_getElem? hc), hatt⟩
    have hmem : a ∈ w.claimedSlots (nextParity w.registry.parity) :=
      List.mem_flatMap.mpr ⟨t, Registry.mem_claimed.mpr ⟨c, hc, hatt, hpar c hattached⟩, ha⟩
    refine ⟨?_, fun u hu => ?_⟩
    · have hwalk : it.walks w₁.roots.weakRoots c₀.2 .threads = true := by
        simp [StrongPass.walks, StrongPass.group, StrongGroup.reached, hthreads]
      rw [List.toList_toArray, StrongPass.count_keepVisits it c₀.2 w₁ hg, if_pos hwalk]
      simp only [World.groupSlots, hparity, hclaimed, hsame.seen,
        Sweep.count_seen_nodup w (World.claimedSlots_nodup hsound _)]
      rw [if_pos ⟨hmem, hnz⟩]
    · obtain ⟨l, hl, rfl⟩ := List.mem_map.mp hu
      have hclear : (it.keepEffect c₀.2 w₁).registry.claimed
          (it.after w₁.roots.weakRoots c₀.2).parity = [] := by
        rw [StrongPass.registry_keepEffect, StrongPass.parity_after, if_pos hthreads]
        exact Registry.claimed_claimAll _ _
      rw [List.toList_toArray]
      exact StrongPass.thread_visits_after_claim hg _ _ cs hclear l hl
  · -- the weak global handles: as the global handles, when the call comes to them
    intro i
    have hj : it.group .jniWeakHandles = Claim.serial "jni_weak_handles" := by rw [← hit]; rfl
    rw [hflat, StrongPass.count_run_group (g := .jniWeakHandles) rfl (fun w' hw' _ => hw'.weakSlots),
      hj, Claim.runs_serial (c := Claim.serial "jni_weak_handles") rfl]
    simp only [World.groupSlots, hsame.weakSlots, hsame.seen, hsame.roots,
      Sweep.count_seen_nodup w (World.weakSlots_nodup w)]
    cases w.roots.weakRoots <;> simp [StrongGroup.reached, Claim.serial, World.weakSlots]
  · -- the sources: entered once per run of their group
    intro c
    subst hit
    have h := StrongPass.keepLaw.repeat_run (fun w => w.sources.get c) Source.called
      (fun it c' w => if c.strongGroup.any (it.walks w.roots.weakRoots c'.2) then 1 else 0)
      (fun it c' w => by
        show (it.keepEffect c'.2 w).sources.get c = _
        rw [StrongPass.sources_keepEffect]
        split <;> rfl) { parity := nextParity w.registry.parity, scan := j.scans + 1 } w₁ (c₀ :: cs)
    rw [StrongPass.sum_entries, hsame.roots] at h
    exact h

/-- One thread with one local handle, for object 16, at a safepoint, and one strong pass call
with the visitor that keeps. -/
theorem strong_pass_covers_thread_root :
    let s := Op.runAll [.attach, .makeLocal 0 16, .beginSafepoint] (World.new Table.fresh, {})
    let calls : List (Rewrite × Bool) := [(.keep, false)]
    Reachable s ∧ s.1.registry.atSafepoint = true ∧
      (∀ c ∈ s.1.registry.attached, c.parity ≠ nextParity s.1.registry.parity) ∧ calls ≠ [] ∧
      (∀ c ∈ calls, ∀ v, c.1.apply v = v) ∧
      ∃ it s₁, StrongPass.start false s = .ok it s₁ ∧
        ∃ it' v vs s₂, Scan.calls (fun it c => it.work c.1 c.2) it calls s₁ = .ok (it', v :: vs) s₂ ∧
          (∀ i, (((v :: vs).flatMap Array.toList).map Visit.slot).count (.global i) =
            if i ∈ s.1.registry.table.globals.liveIndices ∧ s.1.readSlot (.global i) ≠ 0 then 1
            else 0) ∧
          (∀ t c, s.1.registry.contexts[t]? = some c → c.attached = true →
            ∀ a ∈ s.1.threadSlots t, s.1.readSlot a ≠ 0 →
              (v.toList.map Visit.slot).count a = 1 ∧
                ∀ u ∈ vs, (u.toList.map Visit.slot).count a = 0) ∧
          (∀ i, (((v :: vs).flatMap Array.toList).map Visit.slot).count (.weak i) =
            if s.1.roots.weakRoots = false ∧ i ∈ s.1.registry.table.weaks.liveIndices ∧
              s.1.readSlot (.weak i) ≠ 0 then 1 else 0) ∧
          ∀ c, s₂.1.sources.get c =
            Nat.repeat Source.called (strongEntries s.1.roots.weakRoots (calls.map Prod.snd) c)
              (s₁.1.sources.get c) :=
  have hreach : Reachable (Op.runAll [.attach, .makeLocal 0 16, .beginSafepoint]
      (World.new Table.fresh, {})) := ⟨_, _, World.new_fresh_initial, rfl⟩
  have hpar : ∀ c ∈ (Op.runAll [.attach, .makeLocal 0 16, .beginSafepoint]
      (World.new Table.fresh, {})).1.registry.attached,
      c.parity ≠ nextParity (Op.runAll [.attach, .makeLocal 0 16, .beginSafepoint]
        (World.new Table.fresh, {})).1.registry.parity := by decide
  have hrw : ∀ c ∈ ([(.keep, false)] : List (Rewrite × Bool)), ∀ v, c.1.apply v = v := by
    simp [Rewrite.apply]
  ⟨hreach, rfl, hpar, List.cons_ne_nil _ _, hrw,
    strong_pass_covers_roots _ _ hreach rfl hpar (List.cons_ne_nil _ _) hrw⟩

end GcRoots

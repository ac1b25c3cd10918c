import GcRoots.Proofs.Walk
import GcRoots.Roots.Pass

namespace GcRoots

/-!
# What walks and passes change in the registry

A walk over the root world writes slots; a pass adds claims of threads. Which registry changes
that amounts to depends on the visitors, so it is said once for any kind of change: a
`Change Registry` is a reflexive and transitive relation between registries, with an invariant
that it carries forward. `Scan.Within k m` says that a walk `m` changes the registry only as `k`
allows, however it ends.

The closure lemmas (`Within.bind`, `Within.claimRun`, `Within.forM`) reduce a whole worker
call to its groups, and a group to the walks it makes: walks over root sources and stack roots
leave the registry alone (`Scan.source_within`, `Scan.stackRoots_within`); a claim replaces a
thread's context by one with the same chain (`Scan.threads_within`). So each pass's worker
call changes the registry only as its walks over global, weak global and local slots do
(`StrongPass.work_within`, `WeakPass.work_within`, `ConcurrentWeakPass.work_within`,
`ThreadPass.work_within`).

The change of any walk, with any visitor, is a retouch (`Registry.retouch`): the blocks
stay where they were and a sound registry stays sound.
-/

/-- A kind of change: a reflexive and transitive relation, with an invariant that it carries
forward. -/
structure Change (ρ : Type) where
  inv : ρ → Prop
  rel : ρ → ρ → Prop
  refl : ∀ r, rel r r
  trans : ∀ {r r' r''}, rel r r' → rel r' r'' → rel r r''
  keeps : ∀ {r r'}, inv r → rel r r' → inv r'

/-- Claiming a thread keeps its chain. -/
theorem Context.claim_chain (c : Context) (p : Nat) : (c.claim p).1.chain = c.chain := by
  unfold Context.claim
  split <;> rfl

namespace Action

/-- An action changes the part `reg` of its state only as `k` allows, however it ends. -/
def Within {σ ρ α : Type} (reg : σ → ρ) (k : Change ρ) (m : Action σ α) : Prop :=
  ∀ (s : σ) (j : Journal), k.inv (reg s) → k.rel (reg s) (reg (final (m (s, j))))

section Closure

variable {σ ρ α β : Type} {reg : σ → ρ} {k : Change ρ}

theorem Within.pure (a : α) : Within reg k (pure a : Action σ α) := fun s _ _ => k.refl (reg s)

theorem Within.emit (e : TraceEntry) : Within reg k (emit e : Action σ Unit) :=
  fun s _ _ => k.refl (reg s)

theorem Within.read : Within reg k (read : Action σ σ) := fun s _ _ => k.refl (reg s)

theorem Within.fail (f : Fault) : Within reg k (fail f : Action σ α) := fun s _ _ => k.refl (reg s)

theorem Within.ofExcept (x : Except Fault α) : Within reg k (ofExcept x : Action σ α) := by
  intro s _ _
  cases x <;> exact k.refl (reg s)

theorem Within.nextScan : Within reg k (nextScan : Action σ Nat) := fun s _ _ => k.refl (reg s)

/-- A change made of two changes of the kind is of the kind. -/
theorem Within.bind {x : Action σ α} {f : α → Action σ β} (hx : Within reg k x)
    (hf : ∀ a, Within reg k (f a)) : Within reg k (x >>= f) := by
  intro s j hi
  rw [final_bind]
  have h₁ := hx s j hi
  rcases hxs : x (s, j) with ⟨a, ⟨s', j'⟩⟩ | ⟨e, ⟨s', j'⟩⟩
  · rw [hxs] at h₁
    exact k.trans h₁ (hf a s' j' (k.keeps hi h₁))
  · rw [hxs] at h₁
    exact h₁

/-- An action that reads the state first: the rest runs on the state read. -/
theorem Within.readBind {f : σ → Action σ α}
    (hf : ∀ s j, k.inv (reg s) → k.rel (reg s) (reg (final (f s (s, j))))) :
    Within reg k (Action.read >>= f) := by
  intro s j hi
  rw [final_bind, read_run]
  exact hf s j hi

theorem Within.update {f : σ → σ} (hf : ∀ s, k.inv (reg s) → k.rel (reg s) (reg (f s))) :
    Within reg k (update f) := fun s _ hi => hf s hi

theorem Within.ite {c : Prop} [Decidable c] {x y : Action σ α} (hx : Within reg k x)
    (hy : Within reg k y) : Within reg k (if c then x else y) := by
  by_cases hc : c
  · rw [if_pos hc]
    exact hx
  · rw [if_neg hc]
    exact hy

/-- A group changes the registry only as its body does. -/
theorem Within.claimRun (c : Claim) {body : Action σ Unit} (hb : Within reg k body) :
    Within reg k (c.run body) := by
  unfold Claim.run
  cases c.take with
  | mk go c' =>
    dsimp only
    cases go
    · exact Within.pure _
    · exact (Within.emit _).bind fun _ => hb.bind fun _ => Within.pure _

/-- An action on another part of the state leaves this part alone. -/
theorem Within.focusOther {τ : Type} {get : σ → τ} {put : σ → τ → σ} (m : Action τ α)
    (hput : ∀ s x, reg (put s x) = reg s) : Within reg k (focus get put m) := by
  intro s j _
  rw [final_focus, hput]
  exact k.refl (reg s)

theorem Within.forM {l : List Nat} {f : Nat → Action σ Unit} (hf : ∀ a ∈ l, Within reg k (f a)) :
    Within reg k (l.forM f) := by
  induction l with
  | nil => exact Within.pure _
  | cons a l ih =>
    unfold List.forM
    exact (hf a List.mem_cons_self).bind fun _ =>
      ih fun b hb => hf b (List.mem_cons_of_mem a hb)

end Closure

end Action

namespace Scan

/-- A walk changes the registry only as `k` allows, however it ends. -/
abbrev Within {α : Type} (k : Change Registry) (m : Scan α) : Prop :=
  Action.Within (fun sw : Sweep World => sw.state.registry) k m

/-! Walks that leave the registry alone. -/

/-- Walking the slots of a root source leaves the registry as it was. -/
theorem registry_source (c : Category) (alive : Option Liveness) (rw : Rewrite)
    (sw : Sweep World) (j : Journal) :
    (Action.final (source c alive rw (sw, j))).state.registry = sw.state.registry := by
  simp only [source, Action.update_run, Action.final_ok]
  -- every candidate is a slot of the source, and writing one leaves the registry alone
  have hw : ∀ (w : World) (a : SlotAddr) (v : Nat),
      a ∈ (List.range (sw.state.sources.get c).slots.size).map (SlotAddr.source c) →
      w.registry = sw.state.registry → (w.writeSlot a v).registry = sw.state.registry := by
    intro w a v ha hw
    obtain ⟨i, _, rfl⟩ := List.mem_map.mp ha
    exact hw
  cases alive with
  | none => exact Sweep.strong_induct (fun w => w.registry = sw.state.registry) hw rfl
  | some a => exact Sweep.weak_induct (fun w => w.registry = sw.state.registry) hw rfl

theorem source_within (k : Change Registry) (c : Category) (alive : Option Liveness) (rw : Rewrite) :
    Within k (source c alive rw) := by
  intro sw j _
  dsimp only
  rw [registry_source]
  exact k.refl _

/-- Walking a thread's stack roots leaves the registry as it was. -/
theorem registry_stackRoots (t : Nat) (rw : Rewrite) (sw : Sweep World) (j : Journal) :
    (Action.final (stackRoots t rw (sw, j))).state.registry = sw.state.registry := by
  simp only [stackRoots, Action.update_run, Action.final_ok]
  rcases hs : sw.state.stackRoots with _ | rows
  · rfl
  · dsimp only
    rcases hrow : rows[t]? with _ | row
    · rfl
    · dsimp only
      refine Sweep.strong_induct (fun w => w.registry = sw.state.registry) ?_ rfl
      intro w a v ha hw
      obtain ⟨i, _, rfl⟩ := List.mem_map.mp ha
      exact hw

theorem stackRoots_within (k : Change Registry) (t : Nat) (rw : Rewrite) :
    Within k (stackRoots t rw) := by
  intro sw j _
  dsimp only
  rw [registry_stackRoots]
  exact k.refl _

/-! Claims of threads. -/

/-- Claiming threads changes the registry only as claims and walks over local slots do. -/
theorem threads_within {k : Change Registry} (p : Nat) (rw : Rewrite)
    (hclaim : ∀ (r : Registry) (t : Nat) (c c' : Context), r.contexts[t]? = some c →
      c'.chain = c.chain → k.rel r { r with contexts := r.contexts.set! t c' })
    (hlocals : ∀ t, Within k (threadLocals t rw)) : Within k (threads p rw) := by
  unfold threads
  refine Action.Within.read.bind fun _ => Action.Within.forM fun t _ => ?_
  unfold claimedThread
  refine Action.Within.readBind fun sw j hi => ?_
  rcases hc : sw.state.registry.contexts[t]? with _ | c
  · exact k.refl _
  dsimp only
  by_cases ha : c.attached = true
  · rw [if_pos ha, Action.final_bind, Action.write_run]
    dsimp only
    have hrel := hclaim _ t c _ hc (Context.claim_chain c p)
    by_cases hok : (c.claim p).2 = true
    · rw [if_pos hok]
      exact k.trans hrel (((hlocals t).bind fun _ => stackRoots_within k t rw)
        ⟨{ sw.state with registry := { sw.state.registry with
          contexts := sw.state.registry.contexts.set! t (c.claim p).1 } }, sw.visits⟩ j
        (k.keeps hi hrel))
    · rw [if_neg hok]
      exact hrel
  · rw [if_neg ha]
    exact k.refl _

end Scan

/-- A strong worker call changes the registry only as its walks over global, weak global and
local slots do. -/
theorem StrongPass.work_within {k : Change Registry} (it : StrongPass) (rw : Rewrite)
    (weakExport : Bool) (hglobals : Scan.Within k (Scan.globals rw))
    (hthreads : Scan.Within k (Scan.threads it.parity rw))
    (hweak : Scan.Within k (Scan.weakGlobals .everything rw)) :
    Scan.Within k (it.work rw weakExport) := by
  unfold StrongPass.work
  refine (Action.Within.emit _).bind fun _ => ?_
  refine (Action.Within.claimRun _ (Scan.source_within k _ _ _)).bind fun ⟨_, _⟩ => ?_
  refine (Action.Within.claimRun _ hglobals).bind fun ⟨_, _⟩ => ?_
  refine (Action.Within.claimRun _ (Scan.source_within k _ _ _)).bind fun ⟨_, _⟩ => ?_
  refine (Action.Within.claimRun _ (Scan.source_within k _ _ _)).bind fun ⟨_, _⟩ => ?_
  refine (Action.Within.claimRun _ (Scan.source_within k _ _ _)).bind fun ⟨_, _⟩ => ?_
  refine (Action.Within.claimRun _ (Scan.source_within k _ _ _)).bind fun ⟨_, _⟩ => ?_
  refine (Action.Within.claimRun _ (Scan.source_within k _ _ _)).bind fun ⟨_, _⟩ => ?_
  refine (Action.Within.claimRun _ hthreads).bind fun ⟨_, _⟩ => ?_
  refine (Action.Within.claimRun _ (Scan.source_within k _ _ _)).bind fun ⟨_, _⟩ => ?_
  refine Action.Within.read.bind fun _ => Action.Within.ite ?_ (Action.Within.ite ?_ (Action.Within.pure _))
  · refine (Action.Within.claimRun _ hweak).bind fun ⟨_, _⟩ => ?_
    refine (Action.Within.claimRun _ (Scan.source_within k _ _ _)).bind fun ⟨_, _⟩ => ?_
    refine (Action.Within.claimRun _ (Scan.source_within k _ _ _)).bind fun ⟨_, _⟩ => ?_
    exact (Action.Within.claimRun _ (Scan.source_within k _ _ _)).bind fun ⟨_, _⟩ => Action.Within.pure _
  · exact (Action.Within.claimRun _ (Scan.source_within k _ _ _)).bind fun ⟨_, _⟩ => Action.Within.pure _

/-- A weak worker call changes the registry only as its walk over the weak global handles
does. -/
theorem WeakPass.work_within {k : Change Registry} (it : WeakPass) (alive : Liveness)
    (rw : Rewrite) (hweak : Scan.Within k (Scan.weakGlobals alive rw)) :
    Scan.Within k (it.work alive rw) := by
  unfold WeakPass.work
  refine (Action.Within.emit _).bind fun _ => ?_
  refine (Action.Within.claimRun _ (Scan.source_within k _ _ _)).bind fun ⟨_, _⟩ => ?_
  refine Action.Within.read.bind fun _ => ?_
  dsimp only
  refine Action.Within.ite (Action.Within.ite ?_ ?_) (Action.Within.pure _)
  · refine (Action.Within.claimRun _ hweak).bind fun ⟨_, _⟩ => (Action.Within.pure _).bind fun _ => ?_
    refine (Action.Within.claimRun _ (Scan.source_within k _ _ _)).bind fun ⟨_, _⟩ => ?_
    refine (Action.Within.claimRun _ (Scan.source_within k _ _ _)).bind fun ⟨_, _⟩ => ?_
    exact (Action.Within.claimRun _ (Scan.source_within k _ _ _)).bind fun ⟨_, _⟩ => Action.Within.pure _
  · refine (Action.Within.pure _).bind fun _ => ?_
    refine (Action.Within.claimRun _ (Scan.source_within k _ _ _)).bind fun ⟨_, _⟩ => ?_
    refine (Action.Within.claimRun _ (Scan.source_within k _ _ _)).bind fun ⟨_, _⟩ => ?_
    exact (Action.Within.claimRun _ (Scan.source_within k _ _ _)).bind fun ⟨_, _⟩ => Action.Within.pure _

/-- A concurrent weak worker call changes the registry only as its walks over segments of the
weak global handles do. -/
theorem ConcurrentWeakPass.work_within {k : Change Registry} (it : ConcurrentWeakPass)
    (alive : Option Liveness) (rw : Rewrite)
    (hweak : ∀ a, alive = some a → ∀ segs, Scan.Within k (Scan.weakSegments a rw segs))
    (hstrong : alive = none → ∀ segs, Scan.Within k (Scan.weakSegmentsStrong rw segs)) :
    Scan.Within k (it.work alive rw) := by
  unfold ConcurrentWeakPass.work
  refine Action.Within.read.bind fun _ => ?_
  dsimp only
  refine Action.Within.ite ?_ (Action.Within.pure _)
  refine (Action.Within.emit _).bind fun _ => ?_
  refine (Action.Within.claimRun _ ?_).bind fun ⟨_, _⟩ => Action.Within.pure _
  cases alive with
  | none => exact hstrong rfl _
  | some a => exact hweak a rfl _

/-- A thread worker call changes the registry only as its claims do. -/
theorem ThreadPass.work_within {k : Change Registry} (it : ThreadPass) (rw : Rewrite)
    (hthreads : Scan.Within k (Scan.threads it.parity rw)) : Scan.Within k (it.work rw) :=
  (Action.Within.emit _).bind fun _ =>
    (Action.Within.claimRun _ hthreads).bind fun ⟨_, _⟩ => Action.Within.pure _

/-! Setting up and tearing down passes. -/

namespace Action

variable {k : Change Registry} {α : Type}

/-- A registry action run on the world's registry changes it as the action does. -/
theorem Within.focus {m : Action Registry α}
    (hm : ∀ r j, k.inv r → k.rel r (final (m (r, j)))) :
    Within World.registry k
      (focus (fun w : World => w.registry) (fun w r => { w with registry := r }) m) := by
  intro w j hi
  rw [final_focus]
  exact hm w.registry j hi

end Action

section Passes

variable {k : Change Registry}

theorem checkSafepoint_within (foreign : Bool) : Action.Within World.registry k (checkSafepoint foreign) := by
  have hcheck : Action.Within World.registry k (do
      let w ← Action.read
      if (!w.registry.atSafepoint) = true then Action.fail Fault.notAtSafepoint else pure ()) :=
    Action.Within.read.bind fun _ => Action.Within.ite (Action.Within.fail _) (Action.Within.pure _)
  unfold checkSafepoint
  exact Action.Within.ite ((Action.Within.fail _).bind fun _ => hcheck) hcheck

theorem prologue_within (c : Category) : Action.Within World.registry k (Scan.prologue c) :=
  Action.Within.update fun w _ => k.refl w.registry

theorem epilogue_within (c : Category) : Action.Within World.registry k (Scan.epilogue c) :=
  Action.Within.update fun w _ => k.refl w.registry

theorem checkAllClaimed_within : Action.Within World.registry k checkAllClaimed :=
  Action.Within.read.bind fun _ => Action.Within.ofExcept _

/-- Advancing the parity changes the registry as a change of parity does. -/
theorem advanceParity_within (hpar : ∀ r : Registry, k.rel r { r with parity := nextParity r.parity }) :
    Action.Within World.registry k advanceParity :=
  Action.Within.focus fun r _ _ => hpar r

theorem StrongPass.start_within (hpar : ∀ r : Registry, k.rel r { r with parity := nextParity r.parity })
    (foreign : Bool) : Action.Within World.registry k (StrongPass.start foreign) := by
  unfold StrongPass.start
  refine (checkSafepoint_within foreign).bind fun _ => (advanceParity_within hpar).bind fun _ => ?_
  refine (prologue_within _).bind fun _ => (prologue_within _).bind fun _ =>
    (prologue_within _).bind fun _ => Action.Within.nextScan.bind fun _ => ?_
  exact (Action.Within.emit _).bind fun _ => Action.Within.pure _

theorem ThreadPass.start_within (hpar : ∀ r : Registry, k.rel r { r with parity := nextParity r.parity })
    (foreign : Bool) : Action.Within World.registry k (ThreadPass.start foreign) := by
  unfold ThreadPass.start
  refine (checkSafepoint_within foreign).bind fun _ => (advanceParity_within hpar).bind fun _ => ?_
  exact Action.Within.nextScan.bind fun _ => (Action.Within.emit _).bind fun _ => Action.Within.pure _

theorem WeakPass.start_within (foreign : Bool) : Action.Within World.registry k (WeakPass.start foreign) := by
  unfold WeakPass.start
  refine (checkSafepoint_within foreign).bind fun _ => (prologue_within _).bind fun _ =>
    (prologue_within _).bind fun _ => Action.Within.nextScan.bind fun _ => ?_
  exact (Action.Within.emit _).bind fun _ => Action.Within.pure _

theorem ConcurrentWeakPass.start_within : Action.Within World.registry k ConcurrentWeakPass.start := by
  unfold ConcurrentWeakPass.start
  exact Action.Within.nextScan.bind fun _ => (Action.Within.emit _).bind fun _ =>
    Action.Within.read.bind fun _ => Action.Within.pure _

theorem StrongPass.finish_within (it : StrongPass) : Action.Within World.registry k it.finish := by
  unfold StrongPass.finish
  exact (epilogue_within _).bind fun _ => (epilogue_within _).bind fun _ =>
    checkAllClaimed_within.bind fun _ => Action.Within.emit _

theorem WeakPass.finish_within (it : WeakPass) : Action.Within World.registry k it.finish := by
  unfold WeakPass.finish
  exact (epilogue_within _).bind fun _ => (epilogue_within _).bind fun _ => Action.Within.emit _

theorem ConcurrentWeakPass.finish_within (it : ConcurrentWeakPass) :
    Action.Within World.registry k it.finish :=
  Action.Within.emit _

theorem ThreadPass.finish_within (it : ThreadPass) : Action.Within World.registry k it.finish := by
  unfold ThreadPass.finish
  exact checkAllClaimed_within.bind fun _ => Action.Within.emit _

end Passes

/-! Walks with any visitor retouch the registry. -/

/-- Rewriting slots, for a sound registry. -/
def Registry.retouch : Change Registry where
  inv := Registry.Sound
  rel := Registry.Retouched
  refl := Registry.Retouched.refl
  trans := fun h h' => h.trans h'
  keeps := fun h hr => h.retouched hr

namespace Scan

open Registry

theorem globals_retouch (rw : Rewrite) : Within retouch (globals rw) :=
  Action.Within.update fun sw _ => Sweep.strong_retouched rw sw fun a ha => by
    obtain ⟨i, _, rfl⟩ := List.mem_map.mp ha
    trivial

theorem weakGlobals_retouch (alive : Liveness) (rw : Rewrite) : Within retouch (weakGlobals alive rw) :=
  Action.Within.update fun sw _ => Sweep.weak_retouched alive rw sw fun a ha => by
    obtain ⟨i, _, rfl⟩ := List.mem_map.mp ha
    trivial

theorem weakSegments_retouch (alive : Liveness) (rw : Rewrite) (segs : List Nat) :
    Within retouch (weakSegments alive rw segs) :=
  Action.Within.update fun sw _ => Sweep.weak_retouched alive rw sw fun a ha => by
    obtain ⟨i, _, rfl⟩ := List.mem_map.mp ha
    trivial

theorem weakSegmentsStrong_retouch (rw : Rewrite) (segs : List Nat) :
    Within retouch (weakSegmentsStrong rw segs) :=
  Action.Within.update fun sw _ => Sweep.strong_retouched rw sw fun a ha => by
    obtain ⟨i, _, rfl⟩ := List.mem_map.mp ha
    trivial

/-- A thread's local slots are handed-out slots of a sound pool, so any visitor may write them. -/
theorem threadLocals_retouch (t : Nat) (rw : Rewrite) : Within retouch (threadLocals t rw) := by
  refine Action.Within.update fun sw hs => ?_
  dsimp only
  rcases hc : sw.state.registry.contexts[t]? with _ | c
  · exact Registry.Retouched.refl _
  dsimp only
  rcases hch : c.chain with _ | ch
  · exact Registry.Retouched.refl _
  dsimp only
  refine Sweep.strong_retouched rw sw fun a ha => ?_
  obtain ⟨i, hi, rfl⟩ := List.mem_map.mp ha
  obtain ⟨_, _, _, hblk⟩ := Chain.mem_handedOut (hs : Registry.Sound _).pool hi
  exact hblk

theorem threads_retouch (p : Nat) (rw : Rewrite) : Within retouch (threads p rw) :=
  threads_within p rw (fun _ _ _ _ hc hch => (Registry.sameBlocks_set hc hch).retouched)
    fun t => threadLocals_retouch t rw

end Scan

end GcRoots

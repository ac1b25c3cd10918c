import GcRoots.Proofs.Walk
import GcRoots.Roots.Pass

namespace GcRoots

/-!
# Operations on a root world

The public interface acts on a root world through the operations of `Op`: the registry's
thread and handle operations, the handle table's global handles, walks over root slots outside
a pass, the four kinds of root pass split into setting up, worker calls and tearing down, and
writes of single slots through a handle or into a root source.

`Op.after` is the state an operation leaves, whether it returned or stopped with a fault: the
operations after it run on that state. `Op.runAll` runs a list of operations in order,
`Op.Allowed` says that each of them is allowed in the world it runs in, and `Reachable` names
the states that some list of operations leads to from a new table.

A worker call takes its pass as an argument, so a run may hand a worker any pass value, not
only one that setting up returned; what is proved of every run holds of these too.
-/

/-- The candidate slots of a walk outside a pass. -/
inductive Walk where
  /-- The global handles of the given segments. -/
  | globals (segs : List Nat)
  /-- The weak global handles of the given segments. -/
  | weaks (segs : List Nat)
  /-- The local handles of a thread, all frames, innermost first. -/
  | locals (t : Nat)

/-- The candidate slots of a walk, chosen in the world it starts in. -/
def Walk.slots (w : World) : Walk → List SlotAddr
  | .globals segs => (w.registry.table.globals.liveIndicesIn segs).map SlotAddr.global
  | .weaks segs => (w.registry.table.weaks.liveIndicesIn segs).map SlotAddr.weak
  | .locals t =>
    match (w.registry.contexts[t]?).bind Context.chain with
    | some ch => (ch.handedOut w.registry.table.pool).map SlotAddr.threadLocal
    | none => []

/-- An operation of the public interface. -/
inductive Op where
  | attach
  | detach (t : Nat)
  | makeLocal (t obj : Nat)
  | destroyLocal (t : Nat) (h : Option Handle)
  | ensureCapacity (t n : Nat)
  | pushFrame (t n : Nat)
  | popFrame (t : Nat) (result : Option Handle)
  | claim (t p : Nat)
  | advanceParity
  | beginSafepoint
  | endSafepoint
  | makeGlobal (obj : Nat) (strategy : FailStrategy)
  | makeWeak (obj : Nat) (strategy : FailStrategy)
  | destroyGlobal (h : Option Handle)
  | destroyWeak (h : Option Handle)
  /-- A walk outside a pass, weak when a liveness test is given. -/
  | walk (target : Walk) (rw : Rewrite) (alive : Option Liveness)
  /-- The threads that parity `p` lets this worker claim, walked in attach order. -/
  | threads (p : Nat) (rw : Rewrite)
  | startStrong (foreign : Bool)
  | workStrong (it : StrongPass) (rw : Rewrite) (weakExport : Bool)
  | finishStrong (it : StrongPass)
  | startWeak (foreign : Bool)
  | workWeak (it : WeakPass) (alive : Liveness) (rw : Rewrite)
  | finishWeak (it : WeakPass)
  | startConcurrent
  | workConcurrent (it : ConcurrentWeakPass) (alive : Option Liveness) (rw : Rewrite)
  | finishConcurrent (it : ConcurrentWeakPass)
  | startThread (foreign : Bool)
  | workThread (it : ThreadPass) (rw : Rewrite)
  | finishThread (it : ThreadPass)
  /-- Writes the slot a handle names, when that slot exists. -/
  | storeSlot (h : Handle) (obj : Nat)
  /-- Writes slot `i` of a root source, when the source has it. -/
  | storeSource (c : Category) (i obj : Nat)

namespace Op

/-- Runs a registry action on the world. -/
def onRegistry {α : Type} (m : Action Registry α) : Action World α :=
  Action.focus (fun w => w.registry) (fun w r => { w with registry := r }) m

/-- Runs a walk on the world, dropping its visits. -/
def scan {α : Type} (m : Scan α) : Action World Unit := do
  let _ ← Scan.visitsOf m
  return ()

/-- Runs an action, dropping its result. -/
def drop {σ α : Type} (m : Action σ α) : Action σ Unit := do
  let _ ← m
  return ()

/-- A walk outside a pass over the world it starts in. -/
def walkWorld (target : Walk) (rw : Rewrite) (alive : Option Liveness) (w : World) : World :=
  let sw : Sweep World := { state := w }
  match alive with
  | some a => (sw.weak a rw (target.slots w)).state
  | none => (sw.strong rw (target.slots w)).state

/-- Runs one operation. -/
def run : Op → Action World Unit
  | .attach => drop (onRegistry Registry.attach)
  | .detach t => onRegistry (Registry.detach t)
  | .makeLocal t obj => drop (onRegistry (Registry.makeLocal t obj))
  | .destroyLocal t h => onRegistry (Registry.destroyLocal t h)
  | .ensureCapacity t n => drop (onRegistry (Registry.ensureCapacity t n))
  | .pushFrame t n => drop (onRegistry (Registry.pushFrame t n))
  | .popFrame t result => drop (onRegistry (Registry.popFrame t result))
  | .claim t p => drop (onRegistry (Registry.claim t p))
  | .advanceParity => drop (onRegistry Registry.advanceParity)
  | .beginSafepoint => onRegistry Registry.beginSafepoint
  | .endSafepoint => onRegistry (Action.update Registry.endSafepoint)
  | .makeGlobal obj strategy => drop (onRegistry (Registry.onTable (Table.makeGlobal obj strategy)))
  | .makeWeak obj strategy => drop (onRegistry (Registry.onTable (Table.makeWeak obj strategy)))
  | .destroyGlobal h => onRegistry do
    let r ← Action.read
    let t ← Action.ofExcept (r.table.destroyGlobal h)
    Action.write { r with table := t }
  | .destroyWeak h => onRegistry do
    let r ← Action.read
    let t ← Action.ofExcept (r.table.destroyWeak h)
    Action.write { r with table := t }
  | .walk target rw alive => Action.update (walkWorld target rw alive)
  | .threads p rw => scan (Scan.threads p rw)
  | .startStrong foreign => drop (StrongPass.start foreign)
  | .workStrong it rw weakExport => scan (it.work rw weakExport)
  | .finishStrong it => it.finish
  | .startWeak foreign => drop (WeakPass.start foreign)
  | .workWeak it alive rw => scan (it.work alive rw)
  | .finishWeak it => it.finish
  | .startConcurrent => drop ConcurrentWeakPass.start
  | .workConcurrent it alive rw => scan (it.work alive rw)
  | .finishConcurrent it => it.finish
  | .startThread foreign => drop (ThreadPass.start foreign)
  | .workThread it rw => scan (it.work rw)
  | .finishThread it => it.finish
  | .storeSlot h obj => Action.update fun w =>
    match w.registry.table.store? h obj with
    | some t => { w with registry := { w.registry with table := t } }
    | none => w
  | .storeSource c i obj => Action.update fun w =>
    match (w.sources.get c).store? i obj with
    | some src => { w with sources := w.sources.set c src }
    | none => w

/-- The state an operation leaves, whether it returned or stopped. -/
def after (op : Op) (s : World × Journal) : World × Journal :=
  match op.run s with
  | .ok _ s' => s'
  | .error _ s' => s'

theorem after_fst (op : Op) (s : World × Journal) : (op.after s).1 = Action.final (op.run s) := by
  unfold after
  cases op.run s <;> rfl

theorem final_drop {σ α : Type} (m : Action σ α) (s : σ × Journal) :
    Action.final (drop m s) = Action.final (m s) :=
  Action.final_bind_pure m (fun _ => ()) s

theorem final_onRegistry {α : Type} (m : Action Registry α) (w : World) (j : Journal) :
    Action.final (onRegistry m (w, j)) = { w with registry := Action.final (m (w.registry, j)) } :=
  Action.final_focus _ _ m (w, j)

theorem final_scan {α : Type} (m : Scan α) (w : World) (j : Journal) :
    Action.final (scan m (w, j)) = (Action.final (m ({ state := w }, j))).state := by
  unfold scan
  rw [Action.final_bind_pure]
  unfold Scan.visitsOf
  cases m ({ state := w }, j) <;> rfl

/-! One equation per operation that is not a root pass: the world it leaves. Later proofs
read an operation through these and never unfold `run`. Each proof lets `exact` unfold `run` at
its one constructor instead of rewriting with the equations of all thirty cases. -/

section After

variable (w : World) (j : Journal)

theorem after_attach_fst :
    (attach.after (w, j)).1 = { w with registry := Action.final (Registry.attach (w.registry, j)) } := by
  rw [after_fst]
  exact (final_drop _ _).trans (final_onRegistry _ _ _)

theorem after_detach_fst (t : Nat) :
    ((detach t).after (w, j)).1 =
      { w with registry := Action.final (Registry.detach t (w.registry, j)) } := by
  rw [after_fst]
  exact final_onRegistry _ _ _

theorem after_makeLocal_fst (t obj : Nat) :
    ((makeLocal t obj).after (w, j)).1 =
      { w with registry := Action.final (Registry.makeLocal t obj (w.registry, j)) } := by
  rw [after_fst]
  exact (final_drop _ _).trans (final_onRegistry _ _ _)

theorem after_destroyLocal_fst (t : Nat) (h : Option Handle) :
    ((destroyLocal t h).after (w, j)).1 =
      { w with registry := Action.final (Registry.destroyLocal t h (w.registry, j)) } := by
  rw [after_fst]
  exact final_onRegistry _ _ _

theorem after_ensureCapacity_fst (t n : Nat) :
    ((ensureCapacity t n).after (w, j)).1 =
      { w with registry := Action.final (Registry.ensureCapacity t n (w.registry, j)) } := by
  rw [after_fst]
  exact (final_drop _ _).trans (final_onRegistry _ _ _)

theorem after_pushFrame_fst (t n : Nat) :
    ((pushFrame t n).after (w, j)).1 =
      { w with registry := Action.final (Registry.pushFrame t n (w.registry, j)) } := by
  rw [after_fst]
  exact (final_drop _ _).trans (final_onRegistry _ _ _)

theorem after_popFrame_fst (t : Nat) (result : Option Handle) :
    ((popFrame t result).after (w, j)).1 =
      { w with registry := Action.final (Registry.popFrame t result (w.registry, j)) } := by
  rw [after_fst]
  exact (final_drop _ _).trans (final_onRegistry _ _ _)

theorem after_claim_fst (t p : Nat) :
    ((claim t p).after (w, j)).1 =
      { w with registry := Action.final (Registry.claim t p (w.registry, j)) } := by
  rw [after_fst]
  exact (final_drop _ _).trans (final_onRegistry _ _ _)

theorem after_advanceParity_fst :
    (advanceParity.after (w, j)).1 =
      { w with registry := Action.final (Registry.advanceParity (w.registry, j)) } := by
  rw [after_fst]
  exact (final_drop _ _).trans (final_onRegistry _ _ _)

theorem after_beginSafepoint_fst :
    (beginSafepoint.after (w, j)).1 =
      { w with registry := Action.final (Registry.beginSafepoint (w.registry, j)) } := by
  rw [after_fst]
  exact final_onRegistry _ _ _

theorem after_endSafepoint_fst :
    (endSafepoint.after (w, j)).1 = { w with registry := w.registry.endSafepoint } := by
  rw [after_fst]
  exact final_onRegistry _ _ _

/-- Making a global handle changes the table alone, as the table's operation does, whether it
returns or stops. -/
theorem after_makeGlobal_fst (obj : Nat) (st : FailStrategy) :
    ((makeGlobal obj st).after (w, j)).1 = { w with registry := { w.registry with
      table := Action.final (Table.makeGlobal obj st (w.registry.table, j)) } } := by
  rw [after_fst]
  refine (final_drop _ _).trans ((final_onRegistry _ _ _).trans ?_)
  rw [Registry.onTable, Action.final_focus]

theorem after_makeWeak_fst (obj : Nat) (st : FailStrategy) :
    ((makeWeak obj st).after (w, j)).1 = { w with registry := { w.registry with
      table := Action.final (Table.makeWeak obj st (w.registry.table, j)) } } := by
  rw [after_fst]
  refine (final_drop _ _).trans ((final_onRegistry _ _ _).trans ?_)
  rw [Registry.onTable, Action.final_focus]

/-- Destroying a global handle puts in the table that destroying gives, or changes nothing
when destroying fails. -/
theorem after_destroyGlobal_fst (h : Option Handle) :
    ((destroyGlobal h).after (w, j)).1 =
      match w.registry.table.destroyGlobal h with
      | .ok t => { w with registry := { w.registry with table := t } }
      | .error _ => w := by
  rw [after_fst]
  refine (final_onRegistry _ _ _).trans ?_
  rcases hg : w.registry.table.destroyGlobal h with e | t <;>
    simp [hg, bind, EStateM.bind, Action.ofExcept, Action.final]

theorem after_destroyWeak_fst (h : Option Handle) :
    ((destroyWeak h).after (w, j)).1 =
      match w.registry.table.destroyWeak h with
      | .ok t => { w with registry := { w.registry with table := t } }
      | .error _ => w := by
  rw [after_fst]
  refine (final_onRegistry _ _ _).trans ?_
  rcases hg : w.registry.table.destroyWeak h with e | t <;>
    simp [hg, bind, EStateM.bind, Action.ofExcept, Action.final]

theorem after_storeSlot_fst (h : Handle) (obj : Nat) :
    ((storeSlot h obj).after (w, j)).1 =
      match w.registry.table.store? h obj with
      | some t => { w with registry := { w.registry with table := t } }
      | none => w := by
  rw [after_fst]
  rfl

theorem after_storeSource_fst (c : Category) (i obj : Nat) :
    ((storeSource c i obj).after (w, j)).1 =
      match (w.sources.get c).store? i obj with
      | some src => { w with sources := w.sources.set c src }
      | none => w := by
  rw [after_fst]
  rfl

theorem after_walk_fst (target : Walk) (rw : Rewrite) (alive : Option Liveness) :
    ((walk target rw alive).after (w, j)).1 = walkWorld target rw alive w := by
  rw [after_fst]
  rfl

end After

/-- Runs operations in order, each on the state the one before left. -/
def runAll (ops : List Op) (s : World × Journal) : World × Journal :=
  ops.foldl (fun s op => op.after s) s

@[simp] theorem runAll_nil (s : World × Journal) : runAll [] s = s := rfl

@[simp] theorem runAll_cons (op : Op) (ops : List Op) (s : World × Journal) :
    runAll (op :: ops) s = runAll ops (op.after s) := rfl

theorem runAll_append (ops ops' : List Op) (s : World × Journal) :
    runAll (ops ++ ops') s = runAll ops' (runAll ops s) := by
  simp [runAll, List.foldl_append]

/-- Each operation of the list is allowed by `ok` in the world it runs in. -/
def Allowed (ok : World → Op → Prop) : List Op → World × Journal → Prop
  | [], _ => True
  | op :: ops, s => ok s.1 op ∧ Allowed ok ops (op.after s)

/-- What every allowed operation keeps, a run of allowed operations keeps. -/
theorem runAll_induct (P : World × Journal → Prop) {ok : World → Op → Prop}
    (hstep : ∀ s op, ok s.1 op → P s → P (op.after s)) :
    ∀ (ops : List Op) (s : World × Journal), Allowed ok ops s → P s → P (runAll ops s)
  | [], _, _, h => h
  | op :: ops, s, ⟨hop, hrest⟩, h => runAll_induct P hstep ops _ hrest (hstep s op hop h)

/-- What every operation keeps, every run keeps. -/
theorem runAll_invariant (P : World × Journal → Prop) (hstep : ∀ s (op : Op), P s → P (op.after s))
    (ops : List Op) (s : World × Journal) (h : P s) : P (runAll ops s) := by
  induction ops generalizing s with
  | nil => exact h
  | cons op ops ih => exact ih _ (hstep s op h)

end Op

/-- A new world: a table made for some configuration, no threads, parity 0 and no safepoint;
any roots configuration, sources and stack roots. -/
def World.Initial (w : World) : Prop :=
  ∃ (c : Config) (t : Table), Table.create c = .ok t ∧ w.registry = { table := t }

/-- The table the default configuration makes. -/
def Table.fresh : Table where
  config := {}
  globals := SlotStorage.create globalStorageName 1048576
  weaks := SlotStorage.create weakStorageName 1048576
  pool := { capacity := 1048576 }

/-- A new world around table `t`: no threads, the default roots configuration, empty root
sources and no stack roots. -/
def World.new (t : Table) : World where
  registry := { table := t }
  roots := {}
  sources := Sources.ofFn fun _ => .empty
  stackRoots := none

theorem World.new_fresh_initial : (World.new Table.fresh).Initial := ⟨{}, _, rfl, rfl⟩

/-- A state some run of operations leads to from a new world. -/
def Reachable (s : World × Journal) : Prop :=
  ∃ (s₀ : World × Journal) (ops : List Op), s₀.1.Initial ∧ Op.runAll ops s₀ = s

/-- An invariant of new worlds that every operation keeps holds of every reachable state. -/
theorem Reachable.induct (P : World × Journal → Prop) (h₀ : ∀ s, s.1.Initial → P s)
    (hstep : ∀ s (op : Op), Reachable s → P s → P (op.after s)) {s : World × Journal}
    (hs : Reachable s) : P s := by
  obtain ⟨s₀, ops, hinit, rfl⟩ := hs
  have key : ∀ (ops : List Op) (s : World × Journal), Reachable s → P s →
      P (Op.runAll ops s) ∧ Reachable (Op.runAll ops s) := by
    intro ops
    induction ops with
    | nil => exact fun s hr h => ⟨h, hr⟩
    | cons op ops ih =>
      intro s hr h
      refine ih _ ?_ (hstep s op hr h)
      obtain ⟨s₀, ops₀, hinit, rfl⟩ := hr
      exact ⟨s₀, ops₀ ++ [op], hinit, by rw [Op.runAll_append]; rfl⟩
  exact (key ops s₀ ⟨s₀, [], hinit, rfl⟩ (h₀ s₀ hinit)).1

end GcRoots

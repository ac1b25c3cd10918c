import GcRoots.Proofs.Storage

namespace GcRoots

/-!
# Handle isolation

A handle stays bound to the object it was made for while later operations leave it alone.
`Registry.Binds t d o h` says what that binding is: a global or weak global handle names an
allocated slot of its storage that holds `o`, and a local handle of thread `t`, made in its
frame at depth `d`, names a slot that this frame owns and that holds `o`. A bound handle
resolves to its object, and a bound local handle is one of its thread's handles.

Every operation keeps the binding unless it is one of those `Op.Spares` rules out: destroying
a handle equal to `h`, writing a slot through `h`, walking slots with a visitor that writes or
with a liveness test that rejects `o`, and, for a local handle, detaching its thread or closing
its frame. Operations on other threads leave the thread's blocks alone (`Registry.Confined`);
allocating takes free slots, opening and closing inner frames leave the frame at depth `d` in
place, and the storages take free slots and remove only the slots they are asked to remove.
Unlinking clears a slot only when its object is dead, and `o` is alive, so that slot is another
one; no handle other than `h` names `h`'s slot.

Main statement: `made_handle_resolves`. An unlinking walk of the global storage clears global
handles too, so the liveness condition is needed for every kind of handle, not only for weak
ones.
-/

namespace BlockPool

/-- A handed-out slot holding `obj` reads `obj`. -/
theorem Issued.slot? {p : BlockPool} {i obj : Nat} (hi : p.Issued i obj) : p.slot? i = some obj := by
  obtain ⟨blk, hblk, _, hslot⟩ := hi
  rw [BlockPool.slot?, hblk, Option.map_some, hslot]

end BlockPool

namespace Action

/-- The value a run returned; `none` when it stopped with a fault. -/
def value? {σ α : Type} : EStateM.Result Fault (σ × Journal) α → Option α
  | .ok a _ => some a
  | .error _ _ => none

theorem value?_eq_some {σ α : Type} {x : EStateM.Result Fault (σ × Journal) α} {a : α}
    (h : value? x = some a) : ∃ s, x = .ok a s := by
  cases x with
  | ok a' s =>
    cases h
    exact ⟨s, rfl⟩
  | error e s => cases h

/-- A focused action that returned ran its inner action to a return. -/
theorem focus_ok_inv {σ τ α : Type} {get : τ → σ} {put : τ → σ → τ} {m : Action σ α}
    {s : τ × Journal} {a : α} {s' : τ × Journal} (h : focus get put m s = .ok a s') :
    ∃ x j, m (get s.1, s.2) = .ok a (x, j) ∧ s' = (put s.1 x, j) := by
  unfold focus at h
  rcases hm : m (get s.1, s.2) with ⟨a', ⟨x, j⟩⟩ | ⟨e, ⟨x, j⟩⟩ <;> rw [hm] at h
  · cases h
    exact ⟨x, j, rfl, rfl⟩
  · cases h

end Action

namespace Registry

/-- The depth of thread `t`'s innermost frame, the number of frames outside it; `none` for an
unknown or detached thread. -/
def depth (r : Registry) (t : Nat) : Option Nat :=
  ((r.contexts[t]?).bind Context.chain).map Chain.depth

/-- Thread `t`'s frame at depth `d` owns local index `i`, and its slot holds `obj`. -/
def Owns (r : Registry) (t d i obj : Nat) : Prop :=
  ∃ c ch, r.contexts[t]? = some c ∧ c.chain = some ch ∧ Chain.Owns (ch, r.table.pool) d i obj

/-- Handle `h` is bound to `obj`: a global or weak global handle names an allocated slot of its
storage holding `obj`; a local handle names a slot of thread `t`'s frame at depth `d` holding
`obj`. -/
def Binds (r : Registry) (t d obj : Nat) : Handle → Prop
  | .strong (.global i) => r.table.globals.Live i obj
  | .weak i => r.table.weaks.Live i obj
  | .strong (.threadLocal i) => r.Owns t d i obj

variable {r r' : Registry} {t d i o : Nat} {h : Handle}

/-- A bound handle resolves to its object. -/
theorem Binds.resolve (hb : r.Binds t d o h) (ho : o ≠ 0) : r.table.resolve (some h) = .ok o := by
  cases h with
  | strong s =>
    cases s with
    | global i => simp [Table.resolve, Table.slot?, hb.2, ho]
    | threadLocal i =>
      obtain ⟨_, _, _, _, _, _, _, hiss⟩ := hb
      simp [Table.resolve, Table.slot?, hiss.slot?, ho]
  | weak i => simp [Table.resolve, Table.slot?, hb.2]

/-- A slot a thread's frame owns is one of the thread's local handles. -/
theorem Owns.isLocal (ho : r.Owns t d i o) : r.isLocal t (.strong (.threadLocal i)) = true := by
  obtain ⟨c, ch, hc, hch, hown⟩ := ho
  simp only [Registry.isLocal, hc, hch]
  exact hown.framesHold

/-- Writing another slot of the pool keeps an owned slot. -/
theorem Owns.store (ho : r.Owns t d i o) {k : Nat} (hk : k ≠ i) (v : Nat) :
    ({ r with table := { r.table with pool := r.table.pool.store k v } } : Registry).Owns t d i o := by
  obtain ⟨c, ch, hc, hch, f, hf, hi, hiss⟩ := ho
  exact ⟨c, ch, hc, hch, f, hf, hi, hiss.store_ne v hk⟩

/-- An owned slot reads its object. -/
theorem Owns.readSlot {w : World} (ho : w.registry.Owns t d i o) : w.readSlot (.threadLocal i) = o := by
  obtain ⟨_, _, _, _, _, _, _, hiss⟩ := ho
  simp [World.readSlot, hiss.slot?]

theorem live_readSlot {s : SlotStorage} (hl : s.Live i o) : (s.slot? i).getD 0 = o := by
  simp [hl.2]

/-- Writing a slot that does not hold `o` keeps a handle bound to `o`: the handle's slot does
hold it, so it is another slot. -/
theorem Binds.writeSlot {w : World} (hb : w.registry.Binds t d o h) {a : SlotAddr}
    (ha : w.readSlot a ≠ o) (v : Nat) : (w.writeSlot a v).registry.Binds t d o h := by
  cases a with
  | global k =>
    cases h with
    | strong s =>
      cases s with
      | global i =>
        have hk : k ≠ i := by
          rintro rfl
          exact ha (live_readSlot hb)
        exact hb.store hk v
      | threadLocal i => exact hb
    | weak i => exact hb
  | weak k =>
    cases h with
    | strong s =>
      cases s with
      | global i => exact hb
      | threadLocal i => exact hb
    | weak i =>
      have hk : k ≠ i := by
        rintro rfl
        exact ha (live_readSlot hb)
      exact hb.store hk v
  | threadLocal k =>
    cases h with
    | strong s =>
      cases s with
      | global i => exact hb
      | threadLocal i =>
        have hk : k ≠ i := by
          rintro rfl
          exact ha hb.readSlot
        exact hb.store hk v
    | weak i => exact hb
  | source c k => exact hb
  | stack u k => exact hb
  | storage k => exact hb

/-- Claims and the parity leave every binding as it was: a claim replaces a context by one with
the same chain. -/
theorem binds_passStable : PassStable fun r => r.Binds t d o h := by
  refine ⟨fun r u c c' hc hch hb => ?_, fun _ hb => hb⟩
  cases h with
  | strong s =>
    cases s with
    | global i => exact hb
    | threadLocal i =>
      obtain ⟨c₀, ch, hc₀, hch₀, hown⟩ := hb
      have hu : u < r.contexts.size := (Array.getElem?_eq_some_iff.mp hc).1
      by_cases htu : u = t
      · subst htu
        rw [hc] at hc₀
        cases hc₀
        exact ⟨c', ch, by rw [Array.getElem?_set!_of_lt hu, if_pos rfl], hch.trans hch₀, hown⟩
      · exact ⟨c₀, ch, by rw [Array.getElem?_set!_of_lt hu, if_neg htu]; exact hc₀, hch₀, hown⟩
  | weak i => exact hb

/-- A walk whose visitor writes nothing and whose liveness test accepts `o` keeps every handle
bound to `o`: it writes back what it reads and clears only dead objects. -/
theorem binds_keeps {rw : Rewrite} {alive : Liveness} (hrw : ∀ v, rw.apply v = v)
    (halive : alive.alive o = true) : Sweep.Keeps (fun r => r.Binds t d o h) rw alive := by
  refine ⟨fun w a _ hb => ?_, fun w a hdead hb => hb.writeSlot (fun he => ?_) 0⟩
  · rw [hrw, World.writeSlot_readSlot]
    exact hb
  · rw [he, halive] at hdead
    cases hdead

/-- Writing through another handle keeps a binding. -/
theorem Binds.store? (hb : r.Binds t d o h) {h' : Handle} (hne : h' ≠ h) {v : Nat} {tb : Table}
    (hs : r.table.store? h' v = some tb) : ({ r with table := tb } : Registry).Binds t d o h := by
  rcases h' with (k | k) | k <;> simp only [Table.store?, Option.map_eq_some_iff] at hs <;>
    obtain ⟨x, hx, rfl⟩ := hs
  · -- a local handle's slot
    cases h with
    | strong s =>
      cases s with
      | global i => exact hb
      | threadLocal i =>
        have hk : k ≠ i := fun hk => hne (by rw [hk])
        have hx' : x = r.table.pool.store k v := by simp [BlockPool.store, hx]
        rw [hx']
        exact hb.store hk v
    | weak i => exact hb
  · -- a global handle's slot
    cases h with
    | strong s =>
      cases s with
      | global i =>
        have hk : k ≠ i := fun hk => hne (by rw [hk])
        exact SlotStorage.store_eq_of_store? hx ▸ SlotStorage.Live.store hb hk v
      | threadLocal i => exact hb
    | weak i => exact hb
  · -- a weak global handle's slot
    cases h with
    | strong s =>
      cases s with
      | global i => exact hb
      | threadLocal i => exact hb
    | weak i =>
      have hk : k ≠ i := fun hk => hne (by rw [hk])
      exact SlotStorage.store_eq_of_store? hx ▸ SlotStorage.Live.store hb hk v

/-- An operation of the registry on threads keeps a binding when it keeps both storages and the
slot a local handle names. -/
theorem Binds.of_storages (hb : r.Binds t d o h) (hs : r.storages = r'.storages)
    (hown : ∀ i, h = .strong (.threadLocal i) → r.Owns t d i o → r'.Owns t d i o) :
    r'.Binds t d o h := by
  obtain ⟨hg, hw⟩ := Prod.mk.inj hs
  cases h with
  | strong s =>
    cases s with
    | global i => exact (show r'.table.globals.Live i o from hg ▸ hb)
    | threadLocal i => exact hown i rfl hb
  | weak i => exact (show r'.table.weaks.Live i o from hw ▸ hb)

/-! Local handles under the operations on threads. -/

/-- An operation confined to another thread keeps the thread's chain and its blocks. -/
theorem Owns.confined (ho : r.Owns t d i o) {u : Nat} (hc : Confined u r r')
    (hu : u ≠ t) : r'.Owns t d i o := by
  obtain ⟨c, ch, hct, hch, hown⟩ := ho
  obtain ⟨c', hc', hcc⟩ := hc.others t (Ne.symm hu) c hct
  have hmem : i / blockSlots ∈ r.heldBut u :=
    mem_heldBut (Ne.symm hu) hct (by simp only [Context.blocks, hch]; exact hown.mem)
  exact ⟨c', ch, hc', hcc.trans hch, hown.untouched (hc.spares.others _ hmem)⟩

/-- An operation that keeps every chain and the pool keeps every owned slot. -/
theorem Owns.same (ho : r.Owns t d i o) (hs : SameBlocks r r') : r'.Owns t d i o := by
  obtain ⟨c, ch, hct, hch, hown⟩ := ho
  obtain ⟨c', hc', hcc⟩ := chain_of_map hs.chains.symm hct
  exact ⟨c', ch, hc', hcc.trans hch, hs.pool ▸ hown⟩

/-- An action on the thread's own chain that keeps the slots the chain owns keeps this one. -/
theorem Owns.onChain (ho : r.Owns t d i o) (h : r.Sound) {α : Type} {m : Action (Chain × BlockPool) α}
    (hm : ∀ (others : List Nat) (ch : Chain) (j : Journal), r.depth t = some ch.depth →
      Chain.Holds others (ch, r.table.pool) → Chain.Owns (ch, r.table.pool) d i o →
      Chain.Owns (Action.final (m ((ch, r.table.pool), j))) d i o)
    (j : Journal) : (Action.final (onChain t m (r, j))).Owns t d i o := by
  obtain ⟨c, ch, hct, hch, hown⟩ := ho
  have ht : t < r.contexts.size := (Array.getElem?_eq_some_iff.mp hct).1
  have hdepth : r.depth t = some ch.depth := by simp [depth, hct, hch]
  rw [onChain_final, hct]
  dsimp only
  rw [hch]
  let s' := Action.final (m ((ch, r.table.pool), j))
  refine ⟨{ c with chain := some s'.1 }, s'.1, ?_, rfl, hm _ _ j hdepth (h.chain hct hch) hown⟩
  rw [Array.getElem?_set!_of_lt ht, if_pos rfl]

/-- Making a local handle on any thread takes a free slot and keeps the owned ones. -/
theorem Owns.makeLocal (ho : r.Owns t d i o) (h : r.Sound) (ho0 : o ≠ 0) (u obj : Nat) (j : Journal) :
    (Action.final (makeLocal u obj (r, j))).Owns t d i o := by
  by_cases hu : u = t
  · subst hu
    unfold makeLocal
    by_cases h0 : obj = 0
    · simp only [h0, if_true]
      exact ho
    · simp only [h0, if_false]
      rw [Action.final_bind_pure]
      exact ho.onChain h (fun _ _ j' _ hc hown => Chain.allocate_owns hc hown ho0 obj j') j
  · exact ho.confined (makeLocal_step h u obj j).2 hu

theorem Owns.ensureCapacity (ho : r.Owns t d i o) (h : r.Sound) (u n : Nat) (j : Journal) :
    (Action.final (ensureCapacity u n (r, j))).Owns t d i o := by
  by_cases hu : u = t
  · subst hu
    unfold ensureCapacity
    simp only [bind, EStateM.bind, Action.read_run]
    split
    · exact ho
    · refine ho.onChain h (fun _ ch j' _ _ hown => ?_) j
      simp only [EStateM.bind, Action.read_run]
      cases checkedAdd (ch.top.live r.table.pool) n with
      | some planned => exact hown.setPlanned planned
      | none => exact hown
  · exact ho.confined (ensureCapacity_step h u n j).2 hu

theorem Owns.pushFrame (ho : r.Owns t d i o) (h : r.Sound) (u n : Nat) (j : Journal) :
    (Action.final (pushFrame u n (r, j))).Owns t d i o := by
  by_cases hu : u = t
  · subst hu
    unfold pushFrame
    simp only [bind, EStateM.bind, Action.read_run]
    split
    · exact ho
    · refine ho.onChain h (fun _ ch j' _ hc hown => ?_) j
      rcases Chain.pushFrame_cases ch r.table.pool j' with ⟨b, p', j'', ha, hr⟩ | ⟨e, hr⟩
      · simp only [EStateM.bind, hr, Action.update_run, Action.pure_run, Action.final_ok]
        have ht := BlockPool.allocate_took hc.pool (fun d hd => hc.custody.lt_of_mem (Or.inr hd)) ha
        exact (hc.push_owns hown ht).setPlanned n
      · simp only [EStateM.bind, hr, Action.final_error]
        exact hown
  · exact ho.confined (pushFrame_step h u n j).2 hu

/-- Closing an inner frame of the thread, or a frame of another thread, keeps the slots the
frame at depth `d` owns; the frame at depth 0 is never closed. -/
theorem Owns.popFrame (ho : r.Owns t d i o) (h : r.Sound) (ho0 : o ≠ 0) (u : Nat)
    (result : Option Handle) (j : Journal) (hd : u = t → r.depth t = some d → d = 0) :
    (Action.final (popFrame u result (r, j))).Owns t d i o := by
  by_cases hu : u = t
  · subst hu
    unfold popFrame
    simp only [bind, EStateM.bind, Action.read_run]
    cases hres : r.table.resolve result with
    | error e => exact ho
    | ok obj =>
      simp only [Action.ofExcept_ok]
      have h₁ := ho.onChain h (m := Chain.popFrame) (fun _ ch j' hdepth hc hown => ?_) j
      · obtain ⟨hs₁, _⟩ := onChain_step Chain.popFrame_safe h u j
        rcases h₁' : Registry.onChain u Chain.popFrame (r, j) with ⟨_, ⟨r₁, j₁⟩⟩ | ⟨e, ⟨r₁, j₁⟩⟩
        · rw [h₁'] at h₁ hs₁
          exact h₁.makeLocal hs₁ ho0 u obj j₁
        · rw [h₁'] at h₁
          exact h₁
      rcases Chain.popFrame_cases hc j' with ⟨_, hr⟩ | ⟨f, rest, p', hout, hrel, hr⟩ <;> rw [hr]
      · exact hown
      -- the innermost frame is at depth at least 1, so it is not the frame at depth `d`
      have hne : d ≠ ch.depth := by
        intro he
        have h0 := hd rfl (he ▸ hdepth)
        simp [Chain.depth, hout] at he
        omega
      exact hc.pop_owns hown hne hout hrel
  · exact ho.confined (popFrame_step h u result j).2 hu

/-- Destroying another local handle nulls another slot. -/
theorem Owns.destroyLocal (ho : r.Owns t d i o) (u : Nat) {h' : Option Handle}
    (hne : h' ≠ some (.strong (.threadLocal i))) (j : Journal) :
    (Action.final (destroyLocal u h' (r, j))).Owns t d i o := by
  rcases destroyLocal_final u h' r j with hr | ⟨k, rfl, _, hr⟩ <;> rw [hr]
  · exact ho
  · exact ho.store (fun hk => hne (by rw [hk])) 0

/-- Attaching adds a thread after every known one. -/
theorem Owns.attach (ho : r.Owns t d i o) (h : r.Sound) (j : Journal) :
    (Action.final (attach (r, j))).Owns t d i o := by
  have ht : t < r.contexts.size := by
    obtain ⟨_, _, hct, _, _⟩ := ho
    exact (Array.getElem?_eq_some_iff.mp hct).1
  exact ho.confined (attach_step h j).2 (Nat.ne_of_gt ht)

/-- Replacing the global storage by one that keeps the handle's slot keeps a binding. -/
theorem Binds.globals (hb : r.Binds t d o h) {g : SlotStorage}
    (hg : ∀ i, h = .strong (.global i) → r.table.globals.Live i o → g.Live i o) :
    ({ r with table := { r.table with globals := g } } : Registry).Binds t d o h := by
  cases h with
  | strong s =>
    cases s with
    | global i => exact hg i rfl hb
    | threadLocal i => exact hb
  | weak i => exact hb

/-- Replacing the weak storage by one that keeps the handle's slot keeps a binding. -/
theorem Binds.weaks (hb : r.Binds t d o h) {g : SlotStorage}
    (hg : ∀ i, h = .weak i → r.table.weaks.Live i o → g.Live i o) :
    ({ r with table := { r.table with weaks := g } } : Registry).Binds t d o h := by
  cases h with
  | strong s =>
    cases s with
    | global i => exact hb
    | threadLocal i => exact hb
  | weak i => exact hg i rfl hb

/-! Making a handle binds it. -/

/-- A local handle that thread `t`'s chain hands out is owned by its innermost frame, at the
depth the thread is at. -/
theorem onChain_allocate_owns (h : r.Sound) (hd : r.depth t = some d) {j j' : Journal} {r' : Registry}
    (hc : onChain t (Chain.allocate o) (r, j) = .ok i (r', j')) : r'.Owns t d i o := by
  unfold onChain at hc
  simp only [bind, EStateM.bind, Action.read_run] at hc
  rcases hct : r.contexts[t]? with _ | c <;> rw [hct] at hc
  · cases hc
  dsimp only at hc
  rcases hch : c.chain with _ | ch <;> rw [hch] at hc
  · cases hc
  dsimp only at hc
  have ht : t < r.contexts.size := (Array.getElem?_eq_some_iff.mp hct).1
  obtain ⟨⟨ch', p'⟩, j₂, ha, hs'⟩ := Action.focus_ok_inv hc
  cases hs'
  have hown := Chain.allocate_owns_result (h.chain hct hch) ha
  -- allocating changes only the innermost frame, so the chain keeps its depth
  obtain ⟨x, j₃, _, hx⟩ := Action.focus_ok_inv ha
  cases hx
  have hdd : ch.depth = d := by simpa [depth, hct, hch] using hd
  refine ⟨_, _, by rw [Array.getElem?_set!_of_lt ht, if_pos rfl], rfl, ?_⟩
  rw [← hdd]
  exact hown

/-- A local handle for a non-null object, made on thread `t` at depth `d`, is bound. -/
theorem makeLocal_binds (h : r.Sound) (hd : r.depth t = some d) {hnd : Handle} {j j' : Journal}
    (hm : makeLocal t o (r, j) = .ok (some hnd) (r', j')) :
    o ≠ 0 ∧ (∃ i, hnd = .strong (.threadLocal i)) ∧ r'.Binds t d o hnd := by
  unfold makeLocal at hm
  by_cases h0 : o = 0
  · simp [h0] at hm
  rw [if_neg h0] at hm
  rcases hc : onChain t (Chain.allocate o) (r, j) with ⟨i, ⟨r₁, j₁⟩⟩ | ⟨e, s₁⟩
  · rw [Action.bind_ok hc] at hm
    cases hm
    exact ⟨h0, ⟨i, rfl⟩, onChain_allocate_owns h hd hc⟩
  · rw [Action.bind_error hc] at hm
    cases hm

/-- A global handle for a non-null object is bound, when the storage is shaped. -/
theorem makeGlobal_binds (hsh : r.Shaped) {strategy : FailStrategy} {hnd : Handle} {j j' : Journal}
    (hm : onTable (Table.makeGlobal o strategy) (r, j) = .ok (some hnd) (r', j')) :
    o ≠ 0 ∧ r'.Binds t d o hnd := by
  obtain ⟨tb, j₂, hm', hs'⟩ := Action.focus_ok_inv hm
  cases hs'
  rcases Table.makeGlobal_cases o strategy r.table j with
    ⟨_, hr⟩ | ⟨_, _, hr⟩ | ⟨k, g, _, h0, hi, hr⟩ <;> rw [hr] at hm' <;> cases hm'
  exact ⟨h0, SlotStorage.live_insert hsh.1 hi⟩

/-- A weak global handle for a non-null object is bound, when the storage is shaped. -/
theorem makeWeak_binds (hsh : r.Shaped) {strategy : FailStrategy} {hnd : Handle} {j j' : Journal}
    (hm : onTable (Table.makeWeak o strategy) (r, j) = .ok (some hnd) (r', j')) :
    o ≠ 0 ∧ r'.Binds t d o hnd := by
  obtain ⟨tb, j₂, hm', hs'⟩ := Action.focus_ok_inv hm
  cases hs'
  rcases Table.makeWeak_cases o strategy r.table j with
    ⟨_, hr⟩ | ⟨_, _, hr⟩ | ⟨k, g, _, h0, hi, hr⟩ <;> rw [hr] at hm' <;> cases hm'
  exact ⟨h0, SlotStorage.live_insert hsh.2 hi⟩

end Registry

/-- In every reachable world the registry is sound. -/
theorem World.sound_of_reachable {s : World × Journal} (hs : Reachable s) : s.1.registry.Sound := by
  obtain ⟨s₀, ops, hinit, rfl⟩ := hs
  exact Op.runAll_sound ops s₀ (Registry.initial_sound hinit).1


namespace Op

/-- The handle an operation hands back: the new handle of `makeLocal`, `makeGlobal` and
`makeWeak`, and the handle `popFrame` passes to the frame outside; `none` for the null handle,
a fault, or an operation that hands back no handle. -/
def returned (op : Op) (s : World × Journal) : Option Handle :=
  match op with
  | .makeLocal t obj => (Action.value? (Registry.makeLocal t obj (s.1.registry, s.2))).join
  | .makeGlobal obj strategy =>
    (Action.value? (Registry.onTable (Table.makeGlobal obj strategy) (s.1.registry, s.2))).join
  | .makeWeak obj strategy =>
    (Action.value? (Registry.onTable (Table.makeWeak obj strategy) (s.1.registry, s.2))).join
  | .popFrame t result => (Action.value? (Registry.popFrame t result (s.1.registry, s.2))).join
  | _ => none

/-- What an operation must not do to handle `h`, bound to `o`: destroy a handle equal to `h`,
write a slot through `h`, walk slots with a visitor that writes, or unlink slots with a
liveness test that rejects `o`. -/
def Leaves (h : Handle) (o : Nat) : Op → Prop
  | .destroyLocal _ h' | .destroyGlobal h' | .destroyWeak h' => h' ≠ some h
  | .storeSlot h' _ => h' ≠ h
  | .walk _ rw alive | .workConcurrent _ alive rw =>
    (∀ v, rw.apply v = v) ∧ ∀ a ∈ alive, a.alive o = true
  | .threads _ rw | .workStrong _ rw _ | .workThread _ rw => ∀ v, rw.apply v = v
  | .workWeak _ alive rw => (∀ v, rw.apply v = v) ∧ alive.alive o = true
  | _ => True

/-- What an operation must not do to a local handle of thread `t` made in its frame at depth
`d`: detach `t`, or close that frame while it is the innermost one (the frame at depth 0 is never
closed). -/
def KeepsFrame (t d : Nat) (w : World) : Op → Prop
  | .detach u => u ≠ t
  | .popFrame u _ => u = t → w.registry.depth t = some d → d = 0
  | _ => True

/-- An operation that leaves handle `h` bound to `o`; for a local handle, also its thread `t`
and its frame at depth `d`. -/
def Spares (h : Handle) (o t d : Nat) (w : World) (op : Op) : Prop :=
  op.Leaves h o ∧ ∀ i, h = .strong (.threadLocal i) → op.KeepsFrame t d w

theorem alive_getD {alive : Option Liveness} {o : Nat} (h : ∀ a ∈ alive, a.alive o = true) :
    (alive.getD .everything).alive o = true := by
  cases alive with
  | none => rfl
  | some a => exact h a rfl

variable {h : Handle} {o t d : Nat}

/-- Every operation that spares a bound handle keeps it bound. -/
theorem binds_after (op : Op) (s : World × Journal) (hs : s.1.registry.Sound) (ho0 : o ≠ 0)
    (hsp : op.Spares h o t d s.1) (hb : s.1.registry.Binds t d o h) :
    (op.after s).1.registry.Binds t d o h := by
  obtain ⟨w, j⟩ := s
  obtain ⟨hl, hf⟩ := hsp
  have hscan : op.Scans (fun r => r.Binds t d o h) → (op.after (w, j)).1.registry.Binds t d o h :=
    fun hsc => scans_keep Registry.binds_passStable hsc (w, j) hb
  -- the operations on threads keep both storages and keep an owned local handle owned
  cases op with
  | attach =>
    rw [after_attach_fst]
    exact hb.of_storages (Registry.attach_storages w.registry j trivial) fun _ _ ho => ho.attach hs j
  | detach u =>
    rw [after_detach_fst]
    exact hb.of_storages (Registry.detach_storages u w.registry j trivial)
      fun i hi ho => ho.confined (Registry.detach_step hs u j).2 (hf i hi)
  | makeLocal u obj =>
    rw [after_makeLocal_fst]
    exact hb.of_storages (Registry.makeLocal_storages u obj w.registry j trivial)
      fun _ _ ho => ho.makeLocal hs ho0 u obj j
  | destroyLocal u hd =>
    rw [after_destroyLocal_fst]
    exact hb.of_storages (Registry.destroyLocal_storages u hd w.registry j trivial)
      fun i hi ho => ho.destroyLocal u (hi ▸ hl) j
  | ensureCapacity u n =>
    rw [after_ensureCapacity_fst]
    exact hb.of_storages (Registry.ensureCapacity_storages u n w.registry j trivial)
      fun _ _ ho => ho.ensureCapacity hs u n j
  | pushFrame u n =>
    rw [after_pushFrame_fst]
    exact hb.of_storages (Registry.pushFrame_storages u n w.registry j trivial)
      fun _ _ ho => ho.pushFrame hs u n j
  | popFrame u result =>
    rw [after_popFrame_fst]
    exact hb.of_storages (Registry.popFrame_storages u result w.registry j trivial)
      fun i hi ho => ho.popFrame hs ho0 u result j (hf i hi)
  | claim u p =>
    rw [after_claim_fst]
    exact hb.of_storages (Registry.claim_storages u p w.registry j trivial)
      fun _ _ ho => ho.same (Registry.claim_same u p _ j)
  | advanceParity =>
    rw [after_advanceParity_fst]
    exact hb.of_storages rfl fun _ _ ho => ho.same (Registry.advanceParity_same _ j)
  | beginSafepoint =>
    rw [after_beginSafepoint_fst]
    exact hb.of_storages (Registry.beginSafepoint_storages w.registry j trivial)
      fun _ _ ho => ho.same (Registry.beginSafepoint_same _ j)
  | endSafepoint => rw [after_endSafepoint_fst]; exact hb
  | makeGlobal obj strategy =>
    rw [after_makeGlobal_fst]
    rcases Table.makeGlobal_cases obj strategy w.registry.table j with
      ⟨r, hr⟩ | ⟨e, r, hr⟩ | ⟨k, g, r, -, hi, hr⟩ <;> rw [hr]
    · exact hb
    · exact hb
    · exact hb.globals fun _ _ hlive => (hlive.insert hi).1
  | makeWeak obj strategy =>
    rw [after_makeWeak_fst]
    rcases Table.makeWeak_cases obj strategy w.registry.table j with
      ⟨r, hr⟩ | ⟨e, r, hr⟩ | ⟨k, g, r, -, hi, hr⟩ <;> rw [hr]
    · exact hb
    · exact hb
    · exact hb.weaks fun _ _ hlive => (hlive.insert hi).1
  | destroyGlobal hd =>
    rw [after_destroyGlobal_fst]
    split
    next tb hg =>
      rcases Table.destroyGlobal_eq hg with rfl | ⟨k, g, rfl, hrem, rfl⟩
      · exact hb
      · exact hb.globals fun i hi hlive => hlive.remove hrem fun hk => hl (by rw [hi, hk])
    next => exact hb
  | destroyWeak hd =>
    rw [after_destroyWeak_fst]
    split
    next tb hg =>
      rcases Table.destroyWeak_eq hg with rfl | ⟨k, g, rfl, hrem, rfl⟩
      · exact hb
      · exact hb.weaks fun i hi hlive => hlive.remove hrem fun hk => hl (by rw [hi, hk])
    next => exact hb
  | storeSlot hd obj =>
    rw [after_storeSlot_fst]
    split
    next tb hst => exact hb.store? hl hst
    next => exact hb
  | storeSource c i obj =>
    rw [after_storeSource_fst]
    split <;> exact hb
  | walk target rw alive => exact hscan (Registry.binds_keeps hl.1 (alive_getD hl.2))
  | threads p rw => exact hscan (Registry.binds_keeps hl rfl)
  | startStrong foreign => exact hscan trivial
  | workStrong it rw we => exact hscan (Registry.binds_keeps hl rfl)
  | finishStrong it => exact hscan trivial
  | startWeak foreign => exact hscan trivial
  | workWeak it alive rw => exact hscan (Registry.binds_keeps hl.1 hl.2)
  | finishWeak it => exact hscan trivial
  | startConcurrent => exact hscan trivial
  | workConcurrent it alive rw => exact hscan (Registry.binds_keeps hl.1 (alive_getD hl.2))
  | finishConcurrent it => exact hscan trivial
  | startThread foreign => exact hscan trivial
  | workThread it rw => exact hscan (Registry.binds_keeps hl rfl)
  | finishThread it => exact hscan trivial

/-- A run of operations that spare a bound handle keeps it bound. -/
theorem binds_runAll (ops : List Op) (s : World × Journal) (hs : s.1.registry.Sound) (ho0 : o ≠ 0)
    (hok : Allowed (Spares h o t d) ops s) (hb : s.1.registry.Binds t d o h) :
    (runAll ops s).1.registry.Binds t d o h := by
  -- the registry stays sound, which the thread operations need
  refine (runAll_induct (fun s => s.1.registry.Sound ∧ s.1.registry.Binds t d o h)
    (fun s op hop hP => ⟨(grows op s.1 s.2 hP.1).1, binds_after op s hP.1 ho0 hop hP.2⟩)
    ops s hok ⟨hs, hb⟩).2

/-- A make operation that hands back a handle ran its registry action to that handle, and the
world it leaves holds the registry that action left. -/
theorem made_run (op : Op) {m : Action Registry (Option Handle)} (hrun : op.run = drop (onRegistry m))
    {w : World} {j : Journal} (hh : (Action.value? (m (w.registry, j))).join = some h) :
    ∃ r' j', m (w.registry, j) = .ok (some h) (r', j') ∧ (op.after (w, j)).1 = { w with registry := r' } := by
  obtain ⟨⟨r', j'⟩, hm⟩ := Action.value?_eq_some (Option.join_eq_some_iff.mp hh)
  refine ⟨r', j', hm, ?_⟩
  rw [after_fst, hrun, final_drop, final_onRegistry, hm]
  rfl

/-- The handle a make operation hands back is bound to its non-null object in the world the
operation leaves; a local handle is made in the thread's innermost frame. -/
theorem made_binds {op : Op} {s : World × Journal} (hs : s.1.registry.Sound)
    (hsh : s.1.registry.Shaped)
    (hop : (op = .makeLocal t o ∧ s.1.registry.depth t = some d) ∨ (∃ st, op = .makeGlobal o st) ∨
      ∃ st, op = .makeWeak o st)
    (hh : op.returned s = some h) :
    o ≠ 0 ∧ (op.after s).1.registry.Binds t d o h ∧
      (op = .makeLocal t o → ∃ i, h = .strong (.threadLocal i)) := by
  obtain ⟨w, j⟩ := s
  rcases hop with ⟨rfl, hd⟩ | ⟨st, rfl⟩ | ⟨st, rfl⟩
  · obtain ⟨r', j', hm, hfin⟩ := made_run (.makeLocal t o) rfl hh
    obtain ⟨h0, hi, hb⟩ := Registry.makeLocal_binds hs hd hm
    rw [hfin]
    exact ⟨h0, hb, fun _ => hi⟩
  · obtain ⟨r', j', hm, hfin⟩ := made_run (.makeGlobal o st) rfl hh
    obtain ⟨h0, hb⟩ := Registry.makeGlobal_binds (t := t) (d := d) hsh hm
    rw [hfin]
    exact ⟨h0, hb, fun hc => by cases hc⟩
  · obtain ⟨r', j', hm, hfin⟩ := made_run (.makeWeak o st) rfl hh
    obtain ⟨h0, hb⟩ := Registry.makeWeak_binds (t := t) (d := d) hsh hm
    rw [hfin]
    exact ⟨h0, hb, fun hc => by cases hc⟩

end Op

/-- A handle that `makeLocal` (on thread `t` at depth `d`), `makeGlobal` or `makeWeak` hands
back for object `o` in a reachable world still resolves to `o` after any run of operations that
spare it, and a local handle stays one of its thread's. -/
theorem made_handle_resolves {s : World × Journal} (hs : Reachable s) {op : Op} {h : Handle}
    {o t d : Nat}
    (hop : (op = .makeLocal t o ∧ s.1.registry.depth t = some d) ∨ (∃ st, op = .makeGlobal o st) ∨
      ∃ st, op = .makeWeak o st)
    (hh : op.returned s = some h) (ops : List Op)
    (hok : Op.Allowed (Op.Spares h o t d) ops (op.after s)) :
    (Op.runAll ops (op.after s)).1.registry.table.resolve (some h) = .ok o ∧
      (op = .makeLocal t o → (Op.runAll ops (op.after s)).1.registry.isLocal t h = true) := by
  have hsound := World.sound_of_reachable hs
  obtain ⟨h0, hb, hloc⟩ := Op.made_binds hsound (World.shaped_of_reachable hs) hop hh
  -- the make operation keeps the registry sound, which the run needs for thread operations
  have hb' := Op.binds_runAll ops _ (Op.grows op s.1 s.2 hsound).1 h0 hok hb
  refine ⟨hb'.resolve h0, fun hl => ?_⟩
  obtain ⟨i, rfl⟩ := hloc hl
  exact Registry.Owns.isLocal hb'

/-- A local handle made on a fresh thread survives an inner frame with its own handle, a global
handle made and destroyed, a walk of the thread's handles whose liveness test keeps its object,
and a safepoint with a thread pass. -/
theorem made_local_handle_survives_frames :
    let s := Op.runAll [.attach] (World.new Table.fresh, {})
    let op : Op := .makeLocal 0 16
    let ops : List Op := [.pushFrame 0 4, .makeLocal 0 32, .popFrame 0 none,
      .makeGlobal 48 .returnNull, .destroyGlobal (some (.strong (.global 0))),
      .walk (.locals 0) .keep (some (.allBut [32])), .beginSafepoint, .threads 1 .keep,
      .endSafepoint]
    Reachable s ∧
      ((op = .makeLocal 0 16 ∧ s.1.registry.depth 0 = some 0) ∨
        (∃ st, op = .makeGlobal 16 st) ∨ ∃ st, op = .makeWeak 16 st) ∧
      op.returned s = some (.strong (.threadLocal 0)) ∧
      Op.Allowed (Op.Spares (.strong (.threadLocal 0)) 16 0 0) ops (op.after s) ∧
      (Op.runAll ops (op.after s)).1.registry.table.resolve (some (.strong (.threadLocal 0))) =
          .ok 16 ∧
        (op = .makeLocal 0 16 →
          (Op.runAll ops (op.after s)).1.registry.isLocal 0 (.strong (.threadLocal 0)) = true) := by
  have hreach : Reachable (Op.runAll [.attach] (World.new Table.fresh, {})) :=
    ⟨_, _, World.new_fresh_initial, rfl⟩
  have hop : (Op.makeLocal 0 16 = .makeLocal 0 16 ∧
      (Op.runAll [.attach] (World.new Table.fresh, {})).1.registry.depth 0 = some 0) ∨
      (∃ st, Op.makeLocal 0 16 = .makeGlobal 16 st) ∨ ∃ st, Op.makeLocal 0 16 = .makeWeak 16 st :=
    Or.inl ⟨rfl, rfl⟩
  have hh : (Op.makeLocal 0 16).returned (Op.runAll [.attach] (World.new Table.fresh, {})) =
      some (.strong (.threadLocal 0)) := rfl
  have hok : Op.Allowed (Op.Spares (.strong (.threadLocal 0)) 16 0 0)
      [.pushFrame 0 4, .makeLocal 0 32, .popFrame 0 none, .makeGlobal 48 .returnNull,
        .destroyGlobal (some (.strong (.global 0))), .walk (.locals 0) .keep (some (.allBut [32])),
        .beginSafepoint, .threads 1 .keep, .endSafepoint]
      ((Op.makeLocal 0 16).after (Op.runAll [.attach] (World.new Table.fresh, {}))) := by
    simp [Op.Allowed, Op.Spares, Op.Leaves, Op.KeepsFrame, Rewrite.apply, Liveness.alive]
  exact ⟨hreach, hop, hh, hok, made_handle_resolves hreach hop hh _ hok⟩

/-- An unlinking walk of the global storage whose liveness test rejects a global handle's
object clears that handle's slot, and the handle no longer resolves. -/
theorem unlinking_walk_clears_global :
    (Op.runAll [.makeGlobal 16 .returnNull, .walk (.globals [0]) .keep (some (.allBut [16]))]
      (World.new Table.fresh, {})).1.registry.table.resolve (some (.strong (.global 0))) =
      .error (.invalidHandle (.strong (.global 0))) := by
  rfl

end GcRoots

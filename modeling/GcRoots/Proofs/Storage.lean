import GcRoots.Proofs.Conservation

namespace GcRoots

/-!
# Slot storages in reachable worlds

Every segment of a slot storage carries its 64 allocation bits and its 64 slots
(`SlotStorage.Shaped`): a new segment is made that way, and every change writes single entries.
In a shaped storage, adding an object leaves it allocated in the slot the storage reports
(`SlotStorage.live_insert`).

An allocated slot keeps its object (`SlotStorage.Live`) through every addition, through the
removal of any other slot and through a write of any other slot: an addition takes a free slot,
and the rest write one slot each (`SlotStorage.Live.insert`, `Live.remove`, `Live.store`).

Operations on threads and local handles leave both storages of the handle table as they were
(`Registry.storages`). A walk changes the registry only by writing the slots it visits and
clearing the dead ones, and a pass besides only claims threads and advances the parity; so a
property of the registry that such writes keep, every walk and pass keeps (`Sweep.Keeps`,
`Op.walks_keep`). Both storages are shaped in every reachable world
(`World.shaped_of_reachable`).
-/

namespace SlotStorage

/-- Every segment has its 64 allocation bits and its 64 slots. -/
def Shaped (s : SlotStorage) : Prop :=
  ∀ (k : Nat) (g : Segment), s.segments[k]? = some g →
    g.used.size = segmentSlots ∧ g.slots.size = segmentSlots

/-- Slot `i` is allocated and holds `obj`. -/
def Live (s : SlotStorage) (i obj : Nat) : Prop :=
  s.isAllocated i = true ∧ s.slot? i = some obj

variable {s s' : SlotStorage} {i k obj : Nat}

/-- A live slot through its segment: the allocation bit is set and the slot holds the object. -/
theorem live_iff : s.Live i obj ↔ ∃ g, s.segments[i / segmentSlots]? = some g ∧
    g.used.getD (i % segmentSlots) false = true ∧ g.slots.getD (i % segmentSlots) 0 = obj := by
  unfold Live isAllocated slot?
  rcases s.segments[i / segmentSlots]? with _ | g <;> simp

/-- The index of position `b` of segment `seg`. -/
theorem index_div {seg b : Nat} (hb : b < segmentSlots) : (seg * segmentSlots + b) / segmentSlots = seg := by
  unfold segmentSlots at *
  omega

theorem index_mod {seg b : Nat} (hb : b < segmentSlots) : (seg * segmentSlots + b) % segmentSlots = b := by
  unfold segmentSlots at *
  omega

/-- Two indices in one segment at one position are one index. -/
theorem eq_of_div_mod {i k : Nat} (hd : k / segmentSlots = i / segmentSlots)
    (hm : k % segmentSlots = i % segmentSlots) : k = i := by
  rw [← Nat.div_add_mod k segmentSlots, ← Nat.div_add_mod i segmentSlots, hd, hm]

/-- Replacing a segment by one that keeps position `i`'s bit and slot keeps slot `i` live. -/
theorem Live.set_segment (hl : s.Live i obj) {seg : Nat} {g' : Segment}
    (hg : ∀ g, s.segments[seg]? = some g → seg = i / segmentSlots →
      g'.used.getD (i % segmentSlots) false = g.used.getD (i % segmentSlots) false ∧
        g'.slots.getD (i % segmentSlots) 0 = g.slots.getD (i % segmentSlots) 0)
    (parts : List Nat) (count : Nat) :
    ({ s with segments := s.segments.set! seg g', partlyUsed := parts, count := count } : SlotStorage).Live i obj := by
  obtain ⟨g, hgi, hused, hslot⟩ := live_iff.mp hl
  refine live_iff.mpr ?_
  by_cases hseg : seg < s.segments.size
  · rw [Array.getElem?_set!_of_lt hseg]
    by_cases hi : seg = i / segmentSlots
    · rw [if_pos hi]
      rw [← hi] at hgi
      obtain ⟨hu, hs⟩ := hg g hgi hi
      exact ⟨g', rfl, hu.trans hused, hs.trans hslot⟩
    · rw [if_neg hi]
      exact ⟨g, hgi, hused, hslot⟩
  · simp only [Array.set!_eq_setIfInBounds, Array.setIfInBounds, dif_neg hseg]
    exact ⟨g, hgi, hused, hslot⟩

/-- Replacing a segment by one with the same sizes keeps the storage shaped. -/
theorem Shaped.set_segment (hs : s.Shaped) {seg : Nat} {g' : Segment}
    (hg : ∀ g, s.segments[seg]? = some g → g'.used.size = g.used.size ∧ g'.slots.size = g.slots.size)
    (parts : List Nat) (count : Nat) :
    ({ s with segments := s.segments.set! seg g', partlyUsed := parts, count := count } : SlotStorage).Shaped := by
  intro m g hm
  by_cases hseg : seg < s.segments.size
  · simp only [Array.getElem?_set!_of_lt hseg] at hm
    split at hm
    · cases hm
      obtain ⟨g₀, hg₀⟩ : ∃ g₀, s.segments[seg]? = some g₀ :=
        ⟨_, Array.getElem?_eq_getElem hseg⟩
      obtain ⟨hu, hsl⟩ := hg g₀ hg₀
      obtain ⟨hu₀, hsl₀⟩ := hs seg g₀ hg₀
      exact ⟨hu.trans hu₀, hsl.trans hsl₀⟩
    · exact hs m g hm
  · simp only [Array.set!_eq_setIfInBounds, Array.setIfInBounds, dif_neg hseg] at hm
    exact hs m g hm

/-! Writing a slot. -/

theorem store_eq_of_store? (h : s.store? k obj = some s') : s' = s.store k obj := by
  simp [store, h]

/-- Writing a slot writes into its segment, or changes nothing when the segment is missing. -/
theorem store_cases (s : SlotStorage) (k v : Nat) :
    s.store k v = s ∨ ∃ g, s.segments[k / segmentSlots]? = some g ∧
      s.store k v = { s with segments := (s.segments.set! (k / segmentSlots)
        { g with slots := g.slots.set! (k % segmentSlots) v }) } := by
  rcases h : s.segments[k / segmentSlots]? with _ | g
  · exact Or.inl (by simp [store, store?, h])
  · exact Or.inr ⟨g, rfl, by simp [store, store?, h]⟩

theorem Shaped.store (hs : s.Shaped) (k v : Nat) : (s.store k v).Shaped := by
  rcases store_cases s k v with h | ⟨g, hg, h⟩ <;> rw [h]
  · exact hs
  refine hs.set_segment (fun g₀ hg₀ => ?_) s.partlyUsed s.count
  rw [hg] at hg₀
  cases hg₀
  simp

/-- Writing another slot keeps a live slot. -/
theorem Live.store (hl : s.Live i obj) (hk : k ≠ i) (v : Nat) : (s.store k v).Live i obj := by
  rcases store_cases s k v with h | ⟨g, hg, h⟩ <;> rw [h]
  · exact hl
  refine hl.set_segment (fun g₀ hg₀ hseg => ?_) s.partlyUsed s.count
  rw [hg] at hg₀
  cases hg₀
  -- the same segment, so another position in it
  have hm : k % segmentSlots ≠ i % segmentSlots := fun hm => hk (eq_of_div_mod hseg hm)
  simp [Array.getD_eq_getD_getElem?, Array.set!_eq_setIfInBounds, hm]

/-! Removing a slot. -/

/-- A removal that succeeds clears an allocated slot's bit and content. -/
theorem remove_eq (h : s.remove k = .ok s') :
    ∃ g, s.segments[k / segmentSlots]? = some g ∧ g.used.getD (k % segmentSlots) false = true ∧
      s' = { s with
        segments := s.segments.set! (k / segmentSlots)
          { used := g.used.set! (k % segmentSlots) false, slots := g.slots.set! (k % segmentSlots) 0 }
        partlyUsed := if g.isFull then k / segmentSlots :: s.partlyUsed else s.partlyUsed
        count := s.count - 1 } := by
  unfold remove at h
  dsimp only at h
  split at h
  · cases h
  · rename_i g hg
    split at h
    · cases h
      exact ⟨g, hg, ‹_›, rfl⟩
    · cases h

theorem Shaped.remove (hs : s.Shaped) (h : s.remove k = .ok s') : s'.Shaped := by
  obtain ⟨g, hg, _, rfl⟩ := remove_eq h
  refine hs.set_segment (fun g₀ hg₀ => ?_) _ _
  rw [hg] at hg₀
  cases hg₀
  simp

/-- Removing another slot keeps a live slot. -/
theorem Live.remove (hl : s.Live i obj) (h : s.remove k = .ok s') (hk : k ≠ i) : s'.Live i obj := by
  obtain ⟨g, hg, _, rfl⟩ := remove_eq h
  refine hl.set_segment (fun g₀ hg₀ hseg => ?_) _ _
  rw [hg] at hg₀
  cases hg₀
  have hm : k % segmentSlots ≠ i % segmentSlots := fun hm => hk (eq_of_div_mod hseg hm)
  simp [Array.getD_eq_getD_getElem?, Array.set!_eq_setIfInBounds, hm]

/-! Adding an object. -/

/-- The lowest free position is a position of the segment whose bit is clear. -/
theorem firstFree?_spec {g : Segment} {b : Nat} (h : g.firstFree? = some b) :
    b < segmentSlots ∧ g.used.getD b false = false := by
  unfold Segment.firstFree? at h
  have hb := List.mem_range.mp (List.mem_of_find?_eq_some h)
  have hfree := List.find?_some h
  simp only [Bool.not_eq_eq_eq_not, Bool.not_true] at hfree
  exact ⟨hb, hfree⟩

/-- Placing an object sets the bit and the slot of a free position of the segment. -/
theorem placeIn_eq {seg : Nat} (h : s.placeIn seg obj = some (s', k)) :
    ∃ g b, s.segments[seg]? = some g ∧ b < segmentSlots ∧ g.used.getD b false = false ∧
      k = seg * segmentSlots + b ∧
      s' = { s with
        segments := s.segments.set! seg { used := g.used.set! b true, slots := g.slots.set! b obj }
        partlyUsed := if ({ used := g.used.set! b true, slots := g.slots.set! b obj } : Segment).isFull
          then s.partlyUsed.tail else s.partlyUsed
        count := s.count + 1 } := by
  unfold placeIn at h
  split at h
  · cases h
  · rename_i g hg
    split at h
    · cases h
    · rename_i b hb
      cases h
      obtain ⟨hlt, hfree⟩ := firstFree?_spec hb
      exact ⟨g, b, hg, hlt, hfree, rfl, rfl⟩

/-- Opening a segment appends an empty one. -/
theorem openSegment?_eq (h : s.openSegment? = some s') :
    s' = { s with segments := s.segments.push {}, partlyUsed := s.segments.size :: s.partlyUsed } := by
  unfold openSegment? at h
  split at h
  · cases h
    rfl
  · cases h

/-- Adding an object places it in a free position of the segment on top of the stack, or of a
segment opened for it. -/
theorem insert?_eq (h : s.insert? obj = some (s', k)) :
    ∃ s₀, (s₀ = s ∨ s.openSegment? = some s₀) ∧ ∃ seg, s₀.placeIn seg obj = some (s', k) := by
  unfold insert? at h
  split at h
  · exact ⟨s, Or.inl rfl, _, h⟩
  · split at h
    · exact ⟨_, Or.inr ‹_›, _, h⟩
    · cases h

theorem Shaped.openSegment (hs : s.Shaped) (h : s.openSegment? = some s') : s'.Shaped := by
  rw [openSegment?_eq h]
  intro m g hm
  simp only [Array.getElem?_push] at hm
  split at hm
  · cases hm
    simp [segmentSlots]
  · exact hs m g hm

theorem Live.openSegment (hl : s.Live i obj) (h : s.openSegment? = some s') : s'.Live i obj := by
  rw [openSegment?_eq h]
  obtain ⟨g, hg, hused, hslot⟩ := live_iff.mp hl
  have hlt : i / segmentSlots < s.segments.size := (Array.getElem?_eq_some_iff.mp hg).1
  refine live_iff.mpr ⟨g, ?_, hused, hslot⟩
  simp only [Array.getElem?_push, if_neg (Nat.ne_of_lt hlt)]
  exact hg

theorem Shaped.placeIn (hs : s.Shaped) {seg : Nat} (h : s.placeIn seg obj = some (s', k)) : s'.Shaped := by
  obtain ⟨g, b, hg, _, _, _, rfl⟩ := placeIn_eq h
  refine hs.set_segment (fun g₀ hg₀ => ?_) _ _
  rw [hg] at hg₀
  cases hg₀
  simp

/-- Placing an object takes a free position, so a live slot keeps its object and is not the
position taken. -/
theorem Live.placeIn (hl : s.Live i obj) {seg o : Nat} (h : s.placeIn seg o = some (s', k)) :
    s'.Live i obj ∧ k ≠ i := by
  obtain ⟨g, b, hg, hb, hfree, rfl, rfl⟩ := placeIn_eq h
  obtain ⟨g₁, hg₁, hused, _⟩ := live_iff.mp hl
  -- the position taken was free, and slot `i`'s is not
  have hne : seg * segmentSlots + b ≠ i := by
    rintro rfl
    rw [index_div hb] at hg₁
    rw [index_mod hb] at hused
    rw [hg] at hg₁
    cases hg₁
    rw [hfree] at hused
    cases hused
  refine ⟨hl.set_segment (fun g₀ hg₀ hseg => ?_) _ _, hne⟩
  rw [hg] at hg₀
  cases hg₀
  have hm : b ≠ i % segmentSlots := by
    intro hm
    apply hne
    rw [hseg, hm]
    unfold segmentSlots
    omega
  simp [Array.getD_eq_getD_getElem?, Array.set!_eq_setIfInBounds, hm]

/-- In a shaped storage the position taken holds the object placed. -/
theorem live_placeIn (hs : s.Shaped) {seg : Nat} (h : s.placeIn seg obj = some (s', k)) :
    s'.Live k obj := by
  obtain ⟨g, b, hg, hb, _, rfl, rfl⟩ := placeIn_eq h
  have hseg : seg < s.segments.size := (Array.getElem?_eq_some_iff.mp hg).1
  obtain ⟨hu, hsl⟩ := hs seg g hg
  refine live_iff.mpr ⟨{ used := g.used.set! b true, slots := g.slots.set! b obj }, ?_, ?_, ?_⟩
  · rw [index_div hb, Array.getElem?_set!_of_lt hseg, if_pos rfl]
  · rw [index_mod hb]
    simp [Array.getD_eq_getD_getElem?, Array.set!_eq_setIfInBounds, hu, hb]
  · rw [index_mod hb]
    simp [Array.getD_eq_getD_getElem?, Array.set!_eq_setIfInBounds, hsl, hb]

theorem Shaped.insert (hs : s.Shaped) (h : s.insert? obj = some (s', k)) : s'.Shaped := by
  obtain ⟨s₀, hs₀ | hs₀, seg, hp⟩ := insert?_eq h
  · subst hs₀
    exact hs.placeIn hp
  · exact (hs.openSegment hs₀).placeIn hp

theorem Live.insert (hl : s.Live i obj) {o : Nat} (h : s.insert? o = some (s', k)) :
    s'.Live i obj ∧ k ≠ i := by
  obtain ⟨s₀, hs₀ | hs₀, seg, hp⟩ := insert?_eq h
  · subst hs₀
    exact hl.placeIn hp
  · exact (hl.openSegment hs₀).placeIn hp

/-- In a shaped storage an added object is live in the slot the storage reports. -/
theorem live_insert (hs : s.Shaped) (h : s.insert? obj = some (s', k)) : s'.Live k obj := by
  obtain ⟨s₀, hs₀ | hs₀, seg, hp⟩ := insert?_eq h
  · subst hs₀
    exact live_placeIn hs hp
  · exact live_placeIn (hs.openSegment hs₀) hp

/-- Adding an object either changes nothing or inserts it, reporting the slot. -/
theorem add_cases (obj : Nat) (s : SlotStorage) (j : Journal) :
    (∃ r, add obj (s, j) = .ok none (s, r)) ∨
    (∃ e r, add obj (s, j) = .error e (s, r)) ∨
    ∃ k s' r, s.insert? obj = some (s', k) ∧ add obj (s, j) = .ok (some k) (s', r) := by
  unfold add
  simp only [bind, EStateM.bind, Action.read_run]
  by_cases hfull : (s.partlyUsed.isEmpty && !decide (s.segments.size < s.segmentCapacity)) = true
  · -- no segment has room and the arena has none left
    refine Or.inl ?_
    split <;> simp [Action.emit, EStateM.bind, pure, EStateM.pure]
  · rcases hi : s.insert? obj with _ | ⟨s', k⟩
    · refine Or.inr (Or.inl ?_)
      split <;> simp [Action.emit, EStateM.bind, Action.fail]
    · refine Or.inr (Or.inr ⟨k, s', ?_⟩)
      split <;> simp [Action.emit, EStateM.bind, Action.write, pure, EStateM.pure]

/-- The storage an addition leaves: the same, or the one the insertion made. -/
theorem add_final (obj : Nat) (s : SlotStorage) (j : Journal) :
    Action.final (add obj (s, j)) = s ∨
      ∃ k s', s.insert? obj = some (s', k) ∧ Action.final (add obj (s, j)) = s' := by
  rcases add_cases obj s j with ⟨r, h⟩ | ⟨e, r, h⟩ | ⟨k, s', r, hi, h⟩ <;> rw [h]
  · exact Or.inl rfl
  · exact Or.inl rfl
  · exact Or.inr ⟨k, s', hi, rfl⟩

end SlotStorage

namespace Table

variable {t : Table} {obj : Nat} {strategy : FailStrategy} {j : Journal}

/-- Making a global handle changes nothing, or inserts the object into the global storage and
hands out a handle for the slot it reports. -/
theorem makeGlobal_cases (obj : Nat) (strategy : FailStrategy) (t : Table) (j : Journal) :
    (∃ r, makeGlobal obj strategy (t, j) = .ok none (t, r)) ∨
    (∃ e r, makeGlobal obj strategy (t, j) = .error e (t, r)) ∨
    ∃ k g r, obj ≠ 0 ∧ t.globals.insert? obj = some (g, k) ∧
      makeGlobal obj strategy (t, j) = .ok (some (.strong (.global k))) ({ t with globals := g }, r) := by
  unfold makeGlobal
  by_cases h0 : obj = 0
  · exact Or.inl ⟨j, by simp [h0]⟩
  rw [if_neg h0]
  rcases SlotStorage.add_cases obj t.globals j with ⟨r, h⟩ | ⟨e, r, h⟩ | ⟨k, g, r, hi, h⟩
  · rw [Action.bind_ok (Action.focus_ok h)]
    cases strategy
    · exact Or.inr (Or.inl ⟨_, r, rfl⟩)
    · exact Or.inl ⟨r, rfl⟩
  · rw [Action.bind_error (Action.focus_error h)]
    exact Or.inr (Or.inl ⟨e, r, rfl⟩)
  · rw [Action.bind_ok (Action.focus_ok h)]
    exact Or.inr (Or.inr ⟨k, g, r, h0, hi, rfl⟩)

/-- Making a weak global handle changes nothing, or inserts the object into the weak storage
and hands out a handle for the slot it reports. -/
theorem makeWeak_cases (obj : Nat) (strategy : FailStrategy) (t : Table) (j : Journal) :
    (∃ r, makeWeak obj strategy (t, j) = .ok none (t, r)) ∨
    (∃ e r, makeWeak obj strategy (t, j) = .error e (t, r)) ∨
    ∃ k g r, obj ≠ 0 ∧ t.weaks.insert? obj = some (g, k) ∧
      makeWeak obj strategy (t, j) = .ok (some (.weak k)) ({ t with weaks := g }, r) := by
  unfold makeWeak
  by_cases h0 : obj = 0
  · exact Or.inl ⟨j, by simp [h0]⟩
  rw [if_neg h0]
  rcases SlotStorage.add_cases obj t.weaks j with ⟨r, h⟩ | ⟨e, r, h⟩ | ⟨k, g, r, hi, h⟩
  · rw [Action.bind_ok (Action.focus_ok h)]
    cases strategy
    · exact Or.inr (Or.inl ⟨_, r, rfl⟩)
    · exact Or.inl ⟨r, rfl⟩
  · rw [Action.bind_error (Action.focus_error h)]
    exact Or.inr (Or.inl ⟨e, r, rfl⟩)
  · rw [Action.bind_ok (Action.focus_ok h)]
    exact Or.inr (Or.inr ⟨k, g, r, h0, hi, rfl⟩)

/-- Destroying a global handle removes its slot from the global storage. -/
theorem destroyGlobal_eq {t' : Table} {h : Option Handle} (hd : t.destroyGlobal h = .ok t') :
    t' = t ∨ ∃ k g, h = some (.strong (.global k)) ∧ t.globals.remove k = .ok g ∧
      t' = { t with globals := g } := by
  rcases h with _ | ((k | k) | k)
  · cases hd
    exact Or.inl rfl
  · simp [destroyGlobal, strongRef, bind, Except.bind] at hd
  · rcases hr : t.globals.remove k with e | g
    · simp [destroyGlobal, strongRef, hr, bind, Except.bind] at hd
    · simp only [destroyGlobal, strongRef, hr, bind, Except.bind, pure, Except.pure,
        Except.ok.injEq] at hd
      exact Or.inr ⟨k, g, rfl, hr, hd.symm⟩
  · simp [destroyGlobal, strongRef, bind, Except.bind] at hd

/-- Destroying a weak global handle removes its slot from the weak storage. -/
theorem destroyWeak_eq {t' : Table} {h : Option Handle} (hd : t.destroyWeak h = .ok t') :
    t' = t ∨ ∃ k g, h = some (.weak k) ∧ t.weaks.remove k = .ok g ∧ t' = { t with weaks := g } := by
  rcases h with _ | (s | k)
  · cases hd
    exact Or.inl rfl
  · simp [destroyWeak, weakRef, bind, Except.bind] at hd
  · rcases hr : t.weaks.remove k with e | g
    · simp [destroyWeak, weakRef, hr, bind, Except.bind] at hd
    · simp only [destroyWeak, weakRef, hr, bind, Except.bind, pure, Except.pure,
        Except.ok.injEq] at hd
      exact Or.inr ⟨k, g, rfl, hr, hd.symm⟩

end Table

namespace Registry

/-- The two storages of the handle table. -/
def storages (r : Registry) : SlotStorage × SlotStorage := (r.table.globals, r.table.weaks)

/-- A registry action that leaves both storages as they were, however it ends. -/
abbrev KeepsStorages {α : Type} (m : Action Registry α) : Prop :=
  Action.Within storages (Change.same _) m

variable {α : Type}

theorem onChain_storages (t : Nat) (m : Action (Chain × BlockPool) α) : KeepsStorages (onChain t m) := by
  intro r j _
  show r.storages = (Action.final (onChain t m (r, j))).storages
  rw [onChain_final]
  split
  · rfl
  · split <;> rfl

theorem makeLocal_storages (t obj : Nat) : KeepsStorages (makeLocal t obj) := by
  unfold makeLocal
  exact Action.Within.ite (Action.Within.pure _)
    ((onChain_storages t _).bind fun _ => Action.Within.pure _)

theorem ensureCapacity_storages (t n : Nat) : KeepsStorages (ensureCapacity t n) := by
  unfold ensureCapacity
  exact Action.Within.read.bind fun _ => Action.Within.ite (Action.Within.pure _) (onChain_storages t _)

theorem pushFrame_storages (t n : Nat) : KeepsStorages (pushFrame t n) := by
  unfold pushFrame
  exact Action.Within.read.bind fun _ => Action.Within.ite (Action.Within.pure _) (onChain_storages t _)

theorem popFrame_storages (t : Nat) (result : Option Handle) : KeepsStorages (popFrame t result) := by
  unfold popFrame
  exact Action.Within.read.bind fun _ => (Action.Within.ofExcept _).bind fun obj =>
    (onChain_storages t _).bind fun _ => makeLocal_storages t obj

theorem destroyLocal_storages (t : Nat) (h : Option Handle) : KeepsStorages (destroyLocal t h) := by
  intro r j _
  show r.storages = (Action.final (destroyLocal t h (r, j))).storages
  rcases destroyLocal_final t h r j with hr | ⟨_, _, _, hr⟩
  · rw [hr]
  · rw [hr]
    rfl

theorem attach_storages : KeepsStorages attach := by
  intro r j _
  show r.storages = (Action.final (attach (r, j))).storages
  rcases attach_final r j with hr | hr | ⟨_, _, _, _, hr⟩ <;> rw [hr] <;> rfl

theorem detach_storages (t : Nat) : KeepsStorages (detach t) := by
  intro r j _
  show r.storages = (Action.final (detach t (r, j))).storages
  rcases detach_final t r j with hr | ⟨_, _, _, _, _, _, hr⟩
  · rw [hr]
  · rw [hr]
    rfl

theorem claim_storages (t p : Nat) : KeepsStorages (claim t p) := by
  intro r j _
  show r.storages = (Action.final (claim t p (r, j))).storages
  unfold claim
  simp only [bind, EStateM.bind, Action.read_run]
  cases r.contexts[t]? <;> rfl

theorem advanceParity_storages : KeepsStorages advanceParity := fun _ _ _ => rfl

theorem beginSafepoint_storages : KeepsStorages beginSafepoint := by
  intro r j _
  show r.storages = (Action.final (beginSafepoint (r, j))).storages
  unfold beginSafepoint
  simp only [bind, EStateM.bind, Action.read_run, Action.write_run]
  split <;> rfl

end Registry

/-! Properties of the registry that walks and passes keep. -/

/-- The change that keeps a property: what holds before holds after. -/
def Change.invariant {ρ : Type} (P : ρ → Prop) : Change ρ where
  inv := P
  rel r r' := P r → P r'
  refl _ := id
  trans h h' := h' ∘ h
  keeps h hr := hr h

namespace Sweep

/-- A registry property that a walk with visitor `rw` and liveness test `alive` keeps: writing
what the visitor makes of a live slot's content keeps it, and so does clearing a dead slot. -/
structure Keeps (P : Registry → Prop) (rw : Rewrite) (alive : Liveness) : Prop where
  visit : ∀ (w : World) (a : SlotAddr), alive.alive (w.readSlot a) = true → P w.registry →
    P (w.writeSlot a (rw.apply (w.readSlot a))).registry
  clear : ∀ (w : World) (a : SlotAddr), alive.alive (w.readSlot a) = false → P w.registry →
    P (w.writeSlot a 0).registry

variable {P : Registry → Prop} {rw : Rewrite} {alive : Liveness}

/-- A property that every write keeps, every walk keeps. -/
theorem Keeps.of_writes (hw : ∀ (w : World) a v, P w.registry → P (w.writeSlot a v).registry) :
    Keeps P rw alive :=
  ⟨fun w a _ => hw w a _, fun w a _ => hw w a 0⟩

theorem Keeps.visitWeak (hk : Keeps P rw alive) (sw : Sweep World) (a : SlotAddr)
    (h : P sw.state.registry) : P (sw.visitWeak alive rw a).state.registry := by
  unfold Sweep.visitWeak Sweep.visitStrong
  simp only [World.slotMemory_read, World.slotMemory_write]
  -- a null slot is skipped, a live object visited and a dead one cleared
  split
  · exact h
  · split
    · exact hk.visit _ a ‹_› h
    · rename_i hl
      exact hk.clear _ a (Bool.eq_false_iff.mpr hl) h

theorem Keeps.weak (hk : Keeps P rw alive) (sw : Sweep World) (slots : List SlotAddr)
    (h : P sw.state.registry) : P (sw.weak alive rw slots).state.registry := by
  induction slots generalizing sw with
  | nil => exact h
  | cons a slots ih => exact ih _ (hk.visitWeak sw a h)

/-- A strong walk is a weak walk that finds everything alive. -/
theorem Keeps.strong (hk : Keeps P rw .everything) (sw : Sweep World) (slots : List SlotAddr)
    (h : P sw.state.registry) : P (sw.strong rw slots).state.registry := by
  rw [← weak_everything]
  exact hk.weak sw slots h

end Sweep

namespace Registry

/-- A registry property that claims of threads and advancing the parity keep. -/
structure PassStable (P : Registry → Prop) : Prop where
  claim : ∀ (r : Registry) (t : Nat) (c c' : Context), r.contexts[t]? = some c →
    c'.chain = c.chain → P r → P { r with contexts := r.contexts.set! t c' }
  parity : ∀ r : Registry, P r → P { r with parity := nextParity r.parity }

end Registry

namespace Scan

variable {P : Registry → Prop} {rw : Rewrite}

theorem globals_keeps (hk : Sweep.Keeps P rw .everything) :
    Within (Change.invariant P) (globals rw) :=
  Action.Within.update fun sw _ h => hk.strong sw _ h

theorem weakGlobals_keeps {alive : Liveness} (hk : Sweep.Keeps P rw alive) :
    Within (Change.invariant P) (weakGlobals alive rw) :=
  Action.Within.update fun sw _ h => hk.weak sw _ h

theorem weakSegments_keeps {alive : Liveness} (hk : Sweep.Keeps P rw alive) (segs : List Nat) :
    Within (Change.invariant P) (weakSegments alive rw segs) :=
  Action.Within.update fun sw _ h => hk.weak sw _ h

theorem weakSegmentsStrong_keeps (hk : Sweep.Keeps P rw .everything) (segs : List Nat) :
    Within (Change.invariant P) (weakSegmentsStrong rw segs) :=
  Action.Within.update fun sw _ h => hk.strong sw _ h

theorem threadLocals_keeps (hk : Sweep.Keeps P rw .everything) (t : Nat) :
    Within (Change.invariant P) (threadLocals t rw) := by
  refine Action.Within.update fun sw _ h => ?_
  dsimp only
  split
  · split
    · exact hk.strong sw _ h
    · exact h
  · exact h

theorem threads_keeps (hP : Registry.PassStable P) (hk : Sweep.Keeps P rw .everything) (p : Nat) :
    Within (Change.invariant P) (threads p rw) :=
  threads_within p rw (fun r t c c' hc hch => hP.claim r t c c' hc hch) (threadLocals_keeps hk)

end Scan

namespace Op

/-- An operation that walks root slots (a walk outside a pass, or a step of a pass) with
visitors and liveness tests whose writes keep `P`. -/
def Scans (P : Registry → Prop) : Op → Prop
  | .walk _ rw alive => Sweep.Keeps P rw (alive.getD .everything)
  | .threads _ rw | .workStrong _ rw _ | .workThread _ rw => Sweep.Keeps P rw .everything
  | .workWeak _ alive rw => Sweep.Keeps P rw alive
  | .workConcurrent _ alive rw => Sweep.Keeps P rw (alive.getD .everything)
  | .startStrong _ | .finishStrong _ | .startWeak _ | .finishWeak _ | .startConcurrent
  | .finishConcurrent _ | .startThread _ | .finishThread _ => True
  | _ => False

variable {P : Registry → Prop}

theorem scan_keeps {α : Type} {m : Scan α} (hm : Scan.Within (Change.invariant P) m) (w : World)
    (j : Journal) (h : P w.registry) : P (Action.final (scan m (w, j))).registry := by
  rw [final_scan]
  exact hm { state := w } j h h

theorem within_keeps {α : Type} {m : Action World α}
    (hm : Action.Within World.registry (Change.invariant P) m) (w : World) (j : Journal)
    (h : P w.registry) : P (Action.final (m (w, j))).registry :=
  hm w j h h

theorem drop_keeps {α : Type} {m : Action World α}
    (hm : Action.Within World.registry (Change.invariant P) m) (w : World) (j : Journal)
    (h : P w.registry) : P (Action.final (drop m (w, j))).registry := by
  rw [final_drop]
  exact hm w j h h

/-- A walk or a step of a pass whose writes keep a property that claims and the parity keep,
keeps it. -/
theorem scans_keep (hP : Registry.PassStable P) {op : Op} (hs : op.Scans P) (s : World × Journal)
    (h : P s.1.registry) : P (op.after s).1.registry := by
  obtain ⟨w, j⟩ := s
  rw [after_fst]
  cases op with
  | walk target rw alive =>
    show P (walkWorld target rw alive w).registry
    unfold walkWorld
    cases alive with
    | none => exact Sweep.Keeps.strong hs _ _ h
    | some a => exact Sweep.Keeps.weak hs _ _ h
  | threads p rw => exact scan_keeps (Scan.threads_keeps hP hs p) w j h
  | startStrong foreign => exact drop_keeps (StrongPass.start_within hP.parity foreign) w j h
  | workStrong it rw we =>
    exact scan_keeps (it.work_within rw we (Scan.globals_keeps hs) (Scan.threads_keeps hP hs _)
      (Scan.weakGlobals_keeps hs)) w j h
  | finishStrong it => exact within_keeps (StrongPass.finish_within it) w j h
  | startWeak foreign => exact drop_keeps (WeakPass.start_within foreign) w j h
  | workWeak it alive rw => exact scan_keeps (it.work_within alive rw (Scan.weakGlobals_keeps hs)) w j h
  | finishWeak it => exact within_keeps (WeakPass.finish_within it) w j h
  | startConcurrent => exact drop_keeps ConcurrentWeakPass.start_within w j h
  | workConcurrent it alive rw =>
    refine scan_keeps (it.work_within alive rw (fun a ha => ?_) (fun ha => ?_)) w j h
    · subst ha
      exact Scan.weakSegments_keeps hs
    · subst ha
      exact Scan.weakSegmentsStrong_keeps hs
  | finishConcurrent it => exact within_keeps (ConcurrentWeakPass.finish_within it) w j h
  | startThread foreign => exact drop_keeps (ThreadPass.start_within hP.parity foreign) w j h
  | workThread it rw => exact scan_keeps (it.work_within rw (Scan.threads_keeps hP hs _)) w j h
  | finishThread it => exact within_keeps (ThreadPass.finish_within it) w j h
  | _ => exact absurd hs id

end Op

namespace Registry

/-- Both storages of the handle table are shaped. -/
def Shaped (r : Registry) : Prop := r.table.globals.Shaped ∧ r.table.weaks.Shaped

variable {r r' : Registry}

theorem Shaped.of_storages (h : r.Shaped) (hs : r.storages = r'.storages) : r'.Shaped := by
  obtain ⟨hg, hw⟩ := Prod.mk.inj hs
  exact ⟨hg ▸ h.1, hw ▸ h.2⟩

/-- Writing any root slot keeps both storages shaped. -/
theorem Shaped.writeSlot {w : World} (h : w.registry.Shaped) (a : SlotAddr) (v : Nat) :
    (w.writeSlot a v).registry.Shaped := by
  cases a with
  | global i => exact ⟨h.1.store i v, h.2⟩
  | weak i => exact ⟨h.1, h.2.store i v⟩
  | threadLocal i => exact h
  | source c i => exact h
  | stack t i => exact h
  | storage i => exact h

theorem shaped_passStable : PassStable Shaped :=
  ⟨fun _ _ _ _ _ _ h => h, fun _ h => h⟩

theorem shaped_keeps (rw : Rewrite) (alive : Liveness) : Sweep.Keeps Shaped rw alive :=
  Sweep.Keeps.of_writes fun _ a v h => h.writeSlot a v

end Registry

namespace Op

/-- Every operation keeps both storages shaped. -/
theorem shaped_after (op : Op) (s : World × Journal) (h : s.1.registry.Shaped) :
    (op.after s).1.registry.Shaped := by
  obtain ⟨w, j⟩ := s
  have hscan : op.Scans Registry.Shaped → (op.after (w, j)).1.registry.Shaped :=
    fun hs => scans_keep Registry.shaped_passStable hs (w, j) h
  -- the operations on threads keep both storages; the others change one slot of one storage
  cases op with
  | attach =>
    rw [after_attach_fst]
    exact h.of_storages (Registry.attach_storages w.registry j trivial)
  | detach t =>
    rw [after_detach_fst]
    exact h.of_storages (Registry.detach_storages t w.registry j trivial)
  | makeLocal t obj =>
    rw [after_makeLocal_fst]
    exact h.of_storages (Registry.makeLocal_storages t obj w.registry j trivial)
  | destroyLocal t hd =>
    rw [after_destroyLocal_fst]
    exact h.of_storages (Registry.destroyLocal_storages t hd w.registry j trivial)
  | ensureCapacity t n =>
    rw [after_ensureCapacity_fst]
    exact h.of_storages (Registry.ensureCapacity_storages t n w.registry j trivial)
  | pushFrame t n =>
    rw [after_pushFrame_fst]
    exact h.of_storages (Registry.pushFrame_storages t n w.registry j trivial)
  | popFrame t result =>
    rw [after_popFrame_fst]
    exact h.of_storages (Registry.popFrame_storages t result w.registry j trivial)
  | claim t p =>
    rw [after_claim_fst]
    exact h.of_storages (Registry.claim_storages t p w.registry j trivial)
  | advanceParity =>
    rw [after_advanceParity_fst]
    exact h.of_storages (Registry.advanceParity_storages w.registry j trivial)
  | beginSafepoint =>
    rw [after_beginSafepoint_fst]
    exact h.of_storages (Registry.beginSafepoint_storages w.registry j trivial)
  | endSafepoint => rw [after_endSafepoint_fst]; exact h
  | makeGlobal obj strategy =>
    rw [after_makeGlobal_fst]
    rcases Table.makeGlobal_cases obj strategy w.registry.table j with
      ⟨r, hr⟩ | ⟨e, r, hr⟩ | ⟨k, g, r, -, hi, hr⟩ <;> rw [hr]
    · exact h
    · exact h
    · exact ⟨h.1.insert hi, h.2⟩
  | makeWeak obj strategy =>
    rw [after_makeWeak_fst]
    rcases Table.makeWeak_cases obj strategy w.registry.table j with
      ⟨r, hr⟩ | ⟨e, r, hr⟩ | ⟨k, g, r, -, hi, hr⟩ <;> rw [hr]
    · exact h
    · exact h
    · exact ⟨h.1, h.2.insert hi⟩
  | destroyGlobal hd =>
    rw [after_destroyGlobal_fst]
    split
    next t' hg =>
      rcases Table.destroyGlobal_eq hg with rfl | ⟨k, g, _, hrem, rfl⟩
      · exact h
      · exact ⟨h.1.remove hrem, h.2⟩
    next => exact h
  | destroyWeak hd =>
    rw [after_destroyWeak_fst]
    split
    next t' hg =>
      rcases Table.destroyWeak_eq hg with rfl | ⟨k, g, _, hrem, rfl⟩
      · exact h
      · exact ⟨h.1, h.2.remove hrem⟩
    next => exact h
  | storeSlot hd obj =>
    rw [after_storeSlot_fst]
    split
    next t' hs =>
      rcases hd with (i | i) | i <;> simp only [Table.store?, Option.map_eq_some_iff] at hs <;>
        obtain ⟨x, hx, rfl⟩ := hs
      · exact h
      · exact ⟨SlotStorage.store_eq_of_store? hx ▸ h.1.store i obj, h.2⟩
      · exact ⟨h.1, SlotStorage.store_eq_of_store? hx ▸ h.2.store i obj⟩
    next => exact h
  | storeSource c i obj =>
    rw [after_storeSource_fst]
    split <;> exact h
  | walk target rw alive => exact hscan (Registry.shaped_keeps rw _)
  | threads p rw => exact hscan (Registry.shaped_keeps rw _)
  | startStrong foreign => exact hscan trivial
  | workStrong it rw we => exact hscan (Registry.shaped_keeps rw _)
  | finishStrong it => exact hscan trivial
  | startWeak foreign => exact hscan trivial
  | workWeak it alive rw => exact hscan (Registry.shaped_keeps rw _)
  | finishWeak it => exact hscan trivial
  | startConcurrent => exact hscan trivial
  | workConcurrent it alive rw => exact hscan (Registry.shaped_keeps rw _)
  | finishConcurrent it => exact hscan trivial
  | startThread foreign => exact hscan trivial
  | workThread it rw => exact hscan (Registry.shaped_keeps rw _)
  | finishThread it => exact hscan trivial

end Op

/-- A new table's storages have no segments. -/
theorem Table.create_shaped {c : Config} {t : Table} (ht : Table.create c = .ok t) :
    ({ table := t } : Registry).Shaped := by
  unfold Table.create at ht
  split at ht
  · cases ht
  split at ht
  · cases ht
  split at ht
  · cases ht
  cases ht
  exact ⟨fun _ _ h => by simp [SlotStorage.create] at h, fun _ _ h => by simp [SlotStorage.create] at h⟩

/-- In every reachable world both storages of the handle table are shaped. -/
theorem World.shaped_of_reachable {s : World × Journal} (hs : Reachable s) : s.1.registry.Shaped := by
  refine Reachable.induct (fun s => s.1.registry.Shaped) (fun s hi => ?_)
    (fun s op _ h => Op.shaped_after op s h) hs
  obtain ⟨c, t, ht, hr⟩ := hi
  rw [hr]
  exact Table.create_shaped ht

end GcRoots

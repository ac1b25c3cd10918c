import GcRoots.Proofs.Storage
import Mathlib.Data.Finset.Card

namespace GcRoots

/-!
# A slot storage is a bounded set of indices

Seen from outside, a slot storage is a finite set of allocated indices (`SlotStorage.allocated`),
each holding an object, below the storage's capacity of whole segments
(`SlotStorage.slotCapacity`). Adding an object puts it at an index outside the set and adds
that index; it fails, changing nothing, exactly when the set is as large as the capacity.
Removing an index of the set deletes it and nulls its slot; removing any other index is a
fault.

The storage keeps this shape because of an invariant (`SlotStorage.Valid`): the count is the
size of the set, slots outside the set are null, and the stack of partly used segments lists
each segment with a free slot exactly once. The stack is also ordered by when its segments last
got a free slot, latest on top (`SlotStorage.stack_recency`), so an addition takes the lowest
free slot of the segment that most recently got room, and opens a new segment only when every
segment is full.

Main statement: `storage_refines_set`.
-/

namespace Segment

/-- A segment is full when each of its positions is allocated. -/
theorem isFull_iff (g : Segment) :
    g.isFull = true ↔ ∀ b < segmentSlots, g.used.getD b false = true := by
  simp [isFull, List.all_eq_true, List.mem_range]

/-- The lowest free position of a segment, characterised. -/
theorem firstFree?_eq_some_iff (g : Segment) (b : Nat) :
    g.firstFree? = some b ↔ b < segmentSlots ∧ g.used.getD b false = false ∧
      ∀ b' < b, g.used.getD b' false = true := by
  simp [firstFree?, List.find?_range_eq_some, and_left_comm]

/-- A segment has no free position exactly when it is full. -/
theorem firstFree?_eq_none_iff (g : Segment) : g.firstFree? = none ↔ g.isFull = true := by
  simp [firstFree?, isFull_iff]

end Segment

namespace SlotStorage

/-- The allocated indices. -/
def allocated (s : SlotStorage) : Finset Nat :=
  (Finset.range (s.segments.size * segmentSlots)).filter fun i => s.isAllocated i

/-- The number of slots the storage may hold: its capacity in whole segments. -/
def slotCapacity (s : SlotStorage) : Nat := s.segmentCapacity * segmentSlots

/-- Segment `k` exists and has a free position. -/
def HasRoom (s : SlotStorage) (k : Nat) : Prop :=
  ∃ g, s.segments[k]? = some g ∧ g.isFull = false

variable {s s' : SlotStorage} {i k obj : Nat}

theorem isAllocated_iff : s.isAllocated i = true ↔
    ∃ g, s.segments[i / segmentSlots]? = some g ∧ g.used.getD (i % segmentSlots) false = true := by
  unfold isAllocated
  rcases s.segments[i / segmentSlots]? with _ | g <;> simp

/-- An allocated index lies in a segment handed out. -/
theorem lt_of_isAllocated (h : s.isAllocated i = true) : i < s.segments.size * segmentSlots := by
  obtain ⟨g, hg, _⟩ := isAllocated_iff.mp h
  have hlt := (Array.getElem?_eq_some_iff.mp hg).1
  have hpos : 0 < segmentSlots := by decide
  have hdiv := Nat.div_add_mod i segmentSlots
  have hmod := Nat.mod_lt i hpos
  -- `i` lies before the first index of segment `i / 64 + 1`
  calc i = segmentSlots * (i / segmentSlots) + i % segmentSlots := hdiv.symm
    _ < segmentSlots * (i / segmentSlots + 1) := by rw [Nat.mul_succ]; omega
    _ ≤ segmentSlots * s.segments.size := Nat.mul_le_mul_left _ hlt
    _ = s.segments.size * segmentSlots := Nat.mul_comm _ _

@[simp] theorem mem_allocated : i ∈ s.allocated ↔ s.isAllocated i = true := by
  unfold allocated
  rw [Finset.mem_filter, Finset.mem_range]
  exact ⟨fun h => h.2, fun h => ⟨lt_of_isAllocated h, h⟩⟩

/-- Index `seg * 64 + b` is allocated when position `b` of segment `seg` is. -/
theorem isAllocated_index {seg b : Nat} {g : Segment} (hg : s.segments[seg]? = some g)
    (hb : b < segmentSlots) : s.isAllocated (seg * segmentSlots + b) = g.used.getD b false := by
  simp [isAllocated, index_div hb, index_mod hb, hg]

/-! Writing one position of one segment. -/

section SetPosition

variable {seg b : Nat} {g : Segment} {u : Bool} {v : Nat}

/-- The allocation bit and the content of index `k`, when its segment exists. -/
def cell? (s : SlotStorage) (k : Nat) : Option (Bool × Nat) :=
  (s.segments[k / segmentSlots]?).map fun g =>
    (g.used.getD (k % segmentSlots) false, g.slots.getD (k % segmentSlots) 0)

theorem isAllocated_eq_cell? (s : SlotStorage) (k : Nat) :
    s.isAllocated k = ((s.cell? k).map Prod.fst).getD false := by
  unfold isAllocated cell?
  rcases s.segments[k / segmentSlots]? with _ | g <;> rfl

theorem slot?_eq_cell? (s : SlotStorage) (k : Nat) : s.slot? k = (s.cell? k).map Prod.snd := by
  unfold slot? cell?
  rcases s.segments[k / segmentSlots]? with _ | g <;> rfl

/-- After position `b` of segment `seg` was set to bit `u` and content `v`, index
`seg * 64 + b` carries them and every other index is as it was. -/
theorem cell?_setPos (hs : s.Shaped) (hg : s.segments[seg]? = some g) (hb : b < segmentSlots)
    (h' : s'.segments = s.segments.set! seg { used := g.used.set! b u, slots := g.slots.set! b v })
    (k : Nat) : s'.cell? k = if k = seg * segmentSlots + b then some (u, v) else s.cell? k := by
  have hseg : seg < s.segments.size := (Array.getElem?_eq_some_iff.mp hg).1
  obtain ⟨hused, hslots⟩ := hs seg g hg
  unfold cell?
  rw [h', Array.getElem?_set!_of_lt hseg]
  by_cases hk : k = seg * segmentSlots + b
  · subst hk
    simp [index_div hb, index_mod hb, Array.getD_eq_getD_getElem?, Array.set!_eq_setIfInBounds,
      hused, hslots, hb]
  · rw [if_neg hk]
    by_cases hd : seg = k / segmentSlots
    · rw [if_pos hd, ← hd, hg]
      -- the same segment, another position
      have hm : b ≠ k % segmentSlots := fun hm => hk (by rw [hd, hm]; exact (Nat.div_add_mod' k _).symm)
      simp [Array.getD_eq_getD_getElem?, Array.set!_eq_setIfInBounds, hm]
    · rw [if_neg hd]

theorem isAllocated_setPos (hs : s.Shaped) (hg : s.segments[seg]? = some g) (hb : b < segmentSlots)
    (h' : s'.segments = s.segments.set! seg { used := g.used.set! b u, slots := g.slots.set! b v })
    (k : Nat) : s'.isAllocated k = if k = seg * segmentSlots + b then u else s.isAllocated k := by
  rw [isAllocated_eq_cell?, cell?_setPos hs hg hb h', isAllocated_eq_cell?]
  split <;> rfl

theorem slot?_setPos (hs : s.Shaped) (hg : s.segments[seg]? = some g) (hb : b < segmentSlots)
    (h' : s'.segments = s.segments.set! seg { used := g.used.set! b u, slots := g.slots.set! b v })
    (k : Nat) : s'.slot? k = if k = seg * segmentSlots + b then some v else s.slot? k := by
  rw [slot?_eq_cell?, cell?_setPos hs hg hb h', slot?_eq_cell?]
  split <;> rfl

/-- Setting a position adds its index to the allocated set or takes it out. -/
theorem allocated_setPos (hs : s.Shaped) (hg : s.segments[seg]? = some g) (hb : b < segmentSlots)
    (h' : s'.segments = s.segments.set! seg { used := g.used.set! b u, slots := g.slots.set! b v }) :
    s'.allocated = if u then insert (seg * segmentSlots + b) s.allocated
      else s.allocated.erase (seg * segmentSlots + b) := by
  ext k
  rw [mem_allocated, isAllocated_setPos hs hg hb h']
  cases u <;> by_cases hk : k = seg * segmentSlots + b <;> simp [hk]

/-- Writing one position of a segment keeps the storage shaped. -/
theorem Shaped.setPos (hs : s.Shaped) (hg : s.segments[seg]? = some g) (b : Nat) (u : Bool)
    (v : Nat) (parts : List Nat) (count : Nat) :
    ({ s with segments := s.segments.set! seg { used := g.used.set! b u, slots := g.slots.set! b v },
              partlyUsed := parts, count := count } : SlotStorage).Shaped := by
  refine hs.set_segment (fun g₀ hg₀ => ?_) parts count
  rw [hg] at hg₀
  cases hg₀
  simp

/-- Replacing segment `seg` by `g₁` gives it room exactly when `g₁` is not full, and leaves the
room of every other segment as it was. -/
theorem hasRoom_setSegment {g₁ : Segment} (hg : s.segments[seg]? = some g)
    (h' : s'.segments = s.segments.set! seg g₁) (m : Nat) :
    s'.HasRoom m ↔ if m = seg then g₁.isFull = false else s.HasRoom m := by
  unfold HasRoom
  rw [h', Array.getElem?_set!_of_lt (Array.getElem?_eq_some_iff.mp hg).1]
  by_cases hm : m = seg
  · subst hm
    simp
  · simp [hm, Ne.symm hm]

end SetPosition

/-! Opening a segment. -/

section OpenSegment

/-- A new segment has room. -/
theorem isFull_empty : (({} : Segment)).isFull = false := rfl

theorem openSegment?_size (h : s.openSegment? = some s') :
    s.segments.size < s.segmentCapacity ∧ s'.segments.size = s.segments.size + 1 := by
  unfold openSegment? at h
  split at h
  · cases h
    exact ⟨‹_›, Array.size_push _⟩
  · cases h

/-- The segments after opening one: the old ones, then the new one at position `size`. -/
theorem getElem?_openSegment (h : s.openSegment? = some s') (m : Nat) :
    s'.segments[m]? = if m = s.segments.size then some {} else s.segments[m]? := by
  rw [openSegment?_eq h, Array.getElem?_push]

/-- Opening a segment allocates nothing. -/
theorem isAllocated_openSegment (h : s.openSegment? = some s') (k : Nat) :
    s'.isAllocated k = s.isAllocated k := by
  unfold isAllocated
  rw [getElem?_openSegment h]
  by_cases hk : k / segmentSlots = s.segments.size
  · -- the new segment allocates nothing, and before it there was no segment
    have hlt : k % segmentSlots < segmentSlots := Nat.mod_lt _ (by decide)
    rw [if_pos hk, hk, Array.getElem?_eq_none (Nat.le_refl _)]
    simp [Array.getD_eq_getD_getElem?, hlt]
  · rw [if_neg hk]

/-- Opening a segment gives its slots, all null, and keeps the others. -/
theorem slot?_openSegment (h : s.openSegment? = some s') (k : Nat) :
    s'.slot? k = if k / segmentSlots = s.segments.size then some 0 else s.slot? k := by
  unfold slot?
  rw [getElem?_openSegment h]
  by_cases hk : k / segmentSlots = s.segments.size
  · have hlt : k % segmentSlots < segmentSlots := Nat.mod_lt _ (by decide)
    simp [hk, Array.getD_eq_getD_getElem?, hlt]
  · simp [hk]

theorem allocated_openSegment (h : s.openSegment? = some s') : s'.allocated = s.allocated := by
  ext k
  rw [mem_allocated, mem_allocated, isAllocated_openSegment h]

theorem hasRoom_openSegment (h : s.openSegment? = some s') (m : Nat) :
    s'.HasRoom m ↔ m = s.segments.size ∨ s.HasRoom m := by
  unfold HasRoom
  rw [getElem?_openSegment h]
  by_cases hm : m = s.segments.size
  · subst hm
    simp [isFull_empty]
  · simp [hm]

/-- A segment with room has been handed out. -/
theorem HasRoom.lt_size (h : s.HasRoom k) : k < s.segments.size := by
  obtain ⟨g, hg, _⟩ := h
  exact (Array.getElem?_eq_some_iff.mp hg).1

end OpenSegment

/-! The invariant of adding and removing. -/

/-- The invariant of a storage that objects are added to and removed from: its segments are
shaped and within the capacity, the count is the number of allocated indices, every slot outside
the allocated set is null, and the stack of partly used segments lists each segment with room
exactly once. -/
structure Valid (s : SlotStorage) : Prop where
  shaped : s.Shaped
  bounded : s.segments.size ≤ s.segmentCapacity
  count_eq : s.count = s.allocated.card
  null_outside : ∀ i, s.isAllocated i = false → (s.slot? i).getD 0 = 0
  stack_nodup : s.partlyUsed.Nodup
  mem_stack : ∀ k, k ∈ s.partlyUsed ↔ s.HasRoom k

/-- A new storage has no segments, so it is valid. -/
theorem valid_create (name : String) (c : Nat) : (create name c).Valid where
  shaped := by
    intro k g hk
    simp [create] at hk
  bounded := Nat.zero_le _
  count_eq := by simp [create, allocated]
  null_outside := by
    intro i _
    simp [create, slot?]
  stack_nodup := List.nodup_nil
  mem_stack := by
    intro k
    simp [create, HasRoom]

/-- A full segment is not on the stack. -/
theorem Valid.not_mem_stack_of_full (hv : s.Valid) (hg : s.segments[k]? = some g)
    (hf : g.isFull = true) : k ∉ s.partlyUsed := by
  intro hm
  obtain ⟨g₁, hg₁, hf₁⟩ := (hv.mem_stack k).mp hm
  rw [hg] at hg₁
  cases hg₁
  simp_all

/-- Opening a segment keeps the storage valid, pushes the new segment and allocates nothing. -/
theorem Valid.openSegment (hv : s.Valid) (h : s.openSegment? = some s') :
    s'.Valid ∧ s'.partlyUsed = s.segments.size :: s.partlyUsed ∧ s'.allocated = s.allocated ∧
      s'.segments.size = s.segments.size + 1 := by
  obtain ⟨hlt, hsize⟩ := openSegment?_size h
  have hstack : s'.partlyUsed = s.segments.size :: s.partlyUsed := by rw [openSegment?_eq h]
  have hcount : s'.count = s.count := by rw [openSegment?_eq h]
  have hcap : s'.segmentCapacity = s.segmentCapacity := by rw [openSegment?_eq h]
  refine ⟨⟨hv.shaped.openSegment h, by omega, ?_, fun i hi => ?_, ?_, fun k => ?_⟩, hstack,
    allocated_openSegment h, hsize⟩
  · rw [hcount, allocated_openSegment h, hv.count_eq]
  · rw [isAllocated_openSegment h] at hi
    rw [slot?_openSegment h]
    split
    · rfl
    · exact hv.null_outside i hi
  · -- the new segment was not on the stack: every segment there has been handed out
    rw [hstack]
    refine List.nodup_cons.mpr ⟨fun hm => ?_, hv.stack_nodup⟩
    exact Nat.lt_irrefl _ ((hv.mem_stack _).mp hm).lt_size
  · rw [hstack, List.mem_cons, hasRoom_openSegment h, hv.mem_stack]

/-! Adding an object. -/

/-- What adding `obj` at index `i` did to storage `s`, leaving `s'`: `i` was free and the lowest
free index of its segment; it joined the allocated set and holds `obj`; every other slot reads
as before; and the segment was the one on top of the stack or, with the stack empty, a new
one. -/
structure Added (s : SlotStorage) (obj i : Nat) (s' : SlotStorage) : Prop where
  fresh : i ∉ s.allocated
  lowest : ∀ k, k / segmentSlots = i / segmentSlots → k < i → k ∈ s.allocated
  allocated_eq : s'.allocated = insert i s.allocated
  slot_eq : s'.slot? i = some obj
  slot_other : ∀ k ≠ i, (s'.slot? k).getD 0 = (s.slot? k).getD 0
  segment : (s.partlyUsed.head? = some (i / segmentSlots) ∧ s'.segments.size = s.segments.size) ∨
    (s.partlyUsed = [] ∧ i / segmentSlots = s.segments.size ∧
      s'.segments.size = s.segments.size + 1)

/-- Placing an object in the lowest free position `b` of segment `seg`. -/
theorem placeIn_eq_some {seg b : Nat} {g : Segment} (hg : s.segments[seg]? = some g)
    (hb : g.firstFree? = some b) (obj : Nat) :
    s.placeIn seg obj = some ({ s with
      segments := s.segments.set! seg { used := g.used.set! b true, slots := g.slots.set! b obj }
      partlyUsed := if ({ used := g.used.set! b true, slots := g.slots.set! b obj } : Segment).isFull
        then s.partlyUsed.tail else s.partlyUsed
      count := s.count + 1 }, seg * segmentSlots + b) := by
  simp only [placeIn, hg, hb]

/-- Placing an object in the segment on top of the stack of a valid storage: it takes the
lowest free position, the storage stays valid, and the stack keeps the segment while it has
room. -/
theorem Valid.placeIn_top (hv : s.Valid) {seg : Nat} (htop : s.partlyUsed.head? = some seg)
    (obj : Nat) :
    ∃ i s', s.placeIn seg obj = some (s', i) ∧ s'.Valid ∧ s.Added obj i s' ∧
      s'.partlyUsed.Sublist s.partlyUsed := by
  -- the segment on top has room, so it has a lowest free position
  have hstack : s.partlyUsed = seg :: s.partlyUsed.tail := List.eq_cons_of_mem_head? htop
  obtain ⟨g, hg, hroom⟩ := (hv.mem_stack seg).mp (List.mem_of_mem_head? htop)
  obtain ⟨b, hb⟩ : ∃ b, g.firstFree? = some b := by
    refine Option.ne_none_iff_exists'.mp fun hnone => ?_
    rw [(Segment.firstFree?_eq_none_iff g).mp hnone] at hroom
    cases hroom
  obtain ⟨hblt, hbfree, hbelow⟩ := (Segment.firstFree?_eq_some_iff g b).mp hb
  refine ⟨_, _, placeIn_eq_some hg hb obj, ?_⟩
  generalize hg' : ({ used := g.used.set! b true, slots := g.slots.set! b obj } : Segment) = g'
  generalize hs' : ({ s with
      segments := s.segments.set! seg g'
      partlyUsed := if g'.isFull then s.partlyUsed.tail else s.partlyUsed
      count := s.count + 1 } : SlotStorage) = s'
  have hseg' : s'.segments = s.segments.set! seg
      { used := g.used.set! b true, slots := g.slots.set! b obj } := by rw [← hs', ← hg']
  have halloc := isAllocated_setPos hv.shaped hg hblt hseg'
  have hslot := slot?_setPos hv.shaped hg hblt hseg'
  have hroom' := hasRoom_setSegment hg (show s'.segments = s.segments.set! seg g' by rw [← hs'])
  have hfresh : seg * segmentSlots + b ∉ s.allocated := by
    rw [mem_allocated, isAllocated_index hg hblt, hbfree]
    exact Bool.false_ne_true
  have hset : s'.allocated = insert (seg * segmentSlots + b) s.allocated := by
    rw [allocated_setPos hv.shaped hg hblt hseg', if_pos rfl]
  have hsize : s'.segments.size = s.segments.size := by rw [hseg']; simp
  have hnotin : seg ∉ s.partlyUsed.tail := by
    have hnd := hv.stack_nodup
    rw [hstack] at hnd
    exact (List.nodup_cons.mp hnd).1
  refine ⟨⟨?_, ?_, ?_, fun k hk => ?_, ?_, fun m => ?_⟩, ⟨hfresh, fun k hkd hlt => ?_, hset, ?_,
    fun k hk => ?_, Or.inl ⟨by rw [index_div hblt]; exact htop, hsize⟩⟩, ?_⟩
  · rw [← hs', ← hg']
    exact hv.shaped.setPos hg b true obj _ _
  · rw [hsize, ← hs']
    exact hv.bounded
  · rw [hset, Finset.card_insert_of_notMem hfresh, ← hv.count_eq, ← hs']
  · -- a slot outside the new set is outside the old one, and not the slot written
    rw [halloc] at hk
    have hne : k ≠ seg * segmentSlots + b := by
      intro he
      rw [if_pos he] at hk
      cases hk
    rw [if_neg hne] at hk
    rw [hslot, if_neg hne]
    exact hv.null_outside k hk
  · rw [← hs']
    split
    · exact hv.stack_nodup.sublist (List.tail_sublist _)
    · exact hv.stack_nodup
  · -- the segment written keeps its place exactly while it has room
    rw [hroom', ← hs']
    by_cases hm : m = seg
    · subst hm
      by_cases hf : g'.isFull
      · simp [hf, hnotin]
      · simp [hf, List.mem_of_mem_head? htop]
    · rw [if_neg hm, ← hv.mem_stack]
      split
      · rw [hstack, List.mem_cons] at *
        simp [hm]
      · exact Iff.rfl
  · -- an index before `b` in the same segment: the lowest free position is `b`
    rw [index_div hblt] at hkd
    have hkb : k % segmentSlots < b := by
      have := Nat.div_add_mod' k segmentSlots
      rw [hkd] at this
      omega
    rw [mem_allocated, isAllocated_iff]
    exact ⟨g, hkd ▸ hg, hbelow _ hkb⟩
  · rw [hslot, if_pos rfl]
  · rw [hslot, if_neg hk]
  · rw [← hs']
    split
    · exact List.tail_sublist _
    · exact List.Sublist.refl _

/-- A valid storage with a segment on its stack or room for a new segment takes an object: on
top of the stack, or in a new segment when the stack is empty. The stack loses entries, or gains
one segment that was not on it. -/
theorem Valid.insert (hv : s.Valid)
    (hroom : s.partlyUsed ≠ [] ∨ s.segments.size < s.segmentCapacity) (obj : Nat) :
    ∃ i s', s.insert? obj = some (s', i) ∧ s'.Valid ∧ s.Added obj i s' ∧
      (s'.partlyUsed.Sublist s.partlyUsed ∨
        ∃ x, x ∉ s.partlyUsed ∧ s'.partlyUsed = x :: s.partlyUsed) := by
  rcases hstack : s.partlyUsed with _ | ⟨seg, rest⟩
  · -- an empty stack: open a segment and use it
    have hlt : s.segments.size < s.segmentCapacity := by
      rcases hroom with h | h
      · exact absurd hstack h
      · exact h
    obtain ⟨s₁, hopen⟩ : ∃ s₁, s.openSegment? = some s₁ := by
      unfold openSegment?
      rw [if_pos hlt]
      exact ⟨_, rfl⟩
    obtain ⟨hv₁, hstack₁, halloc₁, hsize₁⟩ := hv.openSegment hopen
    rw [hstack, ← hstack] at hstack₁
    obtain ⟨i, s', hp, hv', hadd, hsub⟩ := hv₁.placeIn_top (by rw [hstack₁]; rfl) obj
    have hins : s.insert? obj = some (s', i) := by
      simp only [insert?, hstack, hopen]
      exact hp
    rcases hadd.segment with ⟨hhead, hsize'⟩ | ⟨hnil, -⟩
    · have hseg : i / segmentSlots = s.segments.size := by
        rw [hstack₁, hstack] at hhead
        exact (Option.some.inj hhead).symm
      refine ⟨i, s', hins, hv', ⟨?_, fun k hk hlt' => ?_, ?_, hadd.slot_eq, fun k hk => ?_,
        Or.inr ⟨hstack, hseg, by rw [hsize', hsize₁]⟩⟩, ?_⟩
      · rw [← halloc₁]
        exact hadd.fresh
      · rw [← halloc₁]
        exact hadd.lowest k hk hlt'
      · rw [hadd.allocated_eq, halloc₁]
      · -- the new segment's slots read null, as missing slots did
        rw [hadd.slot_other k hk, slot?_openSegment hopen]
        split
        · rename_i hkseg
          have hnone : s.slot? k = none := by
            simp [slot?, hkseg]
          rw [hnone]
          rfl
        · rfl
      · -- the stack is the new segment or nothing
        rw [hstack₁, hstack] at hsub
        rcases List.sublist_singleton.mp hsub with h | h
        · exact Or.inl (by rw [h])
        · exact Or.inr ⟨s.segments.size, by simp, h⟩
    · rw [hstack₁] at hnil
      cases hnil
  · -- the segment on top of the stack has room
    have htop : s.partlyUsed.head? = some seg := by rw [hstack]; rfl
    obtain ⟨i, s', hp, hv', hadd, hsub⟩ := hv.placeIn_top htop obj
    have hins : s.insert? obj = some (s', i) := by
      simp only [insert?, hstack]
      exact hp
    exact ⟨i, s', hins, hv', hadd, Or.inl (by rw [← hstack]; exact hsub)⟩

/-- The stack is empty exactly when every segment handed out is full, that is when the allocated
set is every index of those segments. -/
theorem Valid.stack_nil_iff (hv : s.Valid) :
    s.partlyUsed = [] ↔ s.allocated = Finset.range (s.segments.size * segmentSlots) := by
  constructor
  · intro hnil
    ext k
    rw [mem_allocated, Finset.mem_range]
    refine ⟨lt_of_isAllocated, fun hk => ?_⟩
    -- the segment of `k` exists and has no room, so it is full
    have hseg : k / segmentSlots < s.segments.size := by
      rw [Nat.div_lt_iff_lt_mul (by decide)]
      exact hk
    obtain ⟨g, hg⟩ : ∃ g, s.segments[k / segmentSlots]? = some g :=
      ⟨_, Array.getElem?_eq_getElem hseg⟩
    have hfull : g.isFull = true := by
      by_contra hf
      have := (hv.mem_stack _).mpr ⟨g, hg, by simpa using hf⟩
      rw [hnil] at this
      cases this
    exact isAllocated_iff.mpr ⟨g, hg, (Segment.isFull_iff g).mp hfull _ (Nat.mod_lt _ (by decide))⟩
  · intro hall
    refine List.eq_nil_iff_forall_not_mem.mpr fun m hm => ?_
    -- a segment with room has a free position, whose index would be allocated
    obtain ⟨g, hg, hroom⟩ := (hv.mem_stack m).mp hm
    obtain ⟨b, hfirst⟩ : ∃ b, g.firstFree? = some b := by
      refine Option.ne_none_iff_exists'.mp fun hnone => ?_
      rw [(Segment.firstFree?_eq_none_iff g).mp hnone] at hroom
      cases hroom
    obtain ⟨hb, hfree, -⟩ := (Segment.firstFree?_eq_some_iff g b).mp hfirst
    have hlt : m * segmentSlots + b < s.segments.size * segmentSlots := by
      have hm' := ((hv.mem_stack m).mp hm).lt_size
      have : (m + 1) * segmentSlots ≤ s.segments.size * segmentSlots :=
        Nat.mul_le_mul_right _ hm'
      rw [Nat.succ_mul] at this
      omega
    have hin : m * segmentSlots + b ∈ s.allocated := by
      rw [hall]
      exact Finset.mem_range.mpr hlt
    rw [mem_allocated, isAllocated_index hg hb] at hin
    simp [hin] at hfree

/-- A valid storage has no room for one more object exactly when its allocated set is as large
as its capacity. -/
theorem Valid.full_iff (hv : s.Valid) :
    (s.partlyUsed = [] ∧ ¬ s.segments.size < s.segmentCapacity) ↔
      s.allocated.card = s.slotCapacity := by
  have hsub : s.allocated ⊆ Finset.range (s.segments.size * segmentSlots) :=
    Finset.filter_subset _ _
  have hle : s.allocated.card ≤ s.segments.size * segmentSlots := by
    simpa using Finset.card_le_card hsub
  have hbound := hv.bounded
  unfold slotCapacity
  constructor
  · rintro ⟨hnil, hcap⟩
    rw [hv.stack_nil_iff.mp hnil, Finset.card_range]
    congr 1
    omega
  · intro hcard
    -- the capacity bounds the segments from below as well, and the set fills them
    have hsegs : s.segments.size = s.segmentCapacity := by
      have : s.segmentCapacity * segmentSlots ≤ s.segments.size * segmentSlots := by omega
      have := Nat.le_of_mul_le_mul_right this (by decide : 0 < segmentSlots)
      omega
    have hall : s.allocated = Finset.range (s.segments.size * segmentSlots) := by
      refine Finset.eq_of_subset_of_card_le hsub ?_
      rw [Finset.card_range, hcard, hsegs]
    exact ⟨hv.stack_nil_iff.mpr hall, by omega⟩

/-- A storage with no room reports that it is full and changes nothing. -/
theorem add_of_full (hfull : s.partlyUsed = [] ∧ ¬ s.segments.size < s.segmentCapacity)
    (obj : Nat) (j : Journal) : ∃ j', add obj (s, j) = .ok none (s, j') := by
  unfold add
  simp only [bind, EStateM.bind, Action.read_run]
  split <;> simp [hfull.1, hfull.2, Action.emit, EStateM.bind, pure, EStateM.pure]

/-- A storage with room adds the object where its insertion puts it. -/
theorem add_of_insert? (hroom : ¬ (s.partlyUsed = [] ∧ ¬ s.segments.size < s.segmentCapacity))
    {s' : SlotStorage} (h : s.insert? obj = some (s', i)) (j : Journal) :
    ∃ j', add obj (s, j) = .ok (some i) (s', j') := by
  have hc : (s.partlyUsed.isEmpty && !decide (s.segments.size < s.segmentCapacity)) = false := by
    simpa using hroom
  unfold add
  simp only [bind, EStateM.bind, Action.read_run]
  split <;> simp [hc, h, Action.emit, Action.write, EStateM.bind, pure, EStateM.pure]

/-- Adding an object to a valid storage: it reports that the storage is full, and changes
nothing, exactly when the allocated set is as large as the capacity; otherwise it adds the object
at an index the storage hands back. The storage stays valid, and its stack loses entries or gains
one segment that was not on it. The check that the segment on top has a free slot never fails. -/
theorem Valid.add (hv : s.Valid) (obj : Nat) (j : Journal) :
    ∃ r s' j', add obj (s, j) = .ok r (s', j') ∧ s'.Valid ∧
      (r = none ↔ s.allocated.card = s.slotCapacity) ∧ (r = none → s' = s) ∧
      (∀ i, r = some i → s.Added obj i s') ∧
      (s'.partlyUsed.Sublist s.partlyUsed ∨
        ∃ x, x ∉ s.partlyUsed ∧ s'.partlyUsed = x :: s.partlyUsed) := by
  by_cases hfull : s.partlyUsed = [] ∧ ¬ s.segments.size < s.segmentCapacity
  · obtain ⟨j', h⟩ := add_of_full hfull obj j
    exact ⟨none, s, j', h, hv, by simpa using hv.full_iff.mp hfull, fun _ => rfl, nofun,
      Or.inl (List.Sublist.refl _)⟩
  · have hroom : s.partlyUsed ≠ [] ∨ s.segments.size < s.segmentCapacity := by
      by_cases hnil : s.partlyUsed = []
      · exact Or.inr (by simpa [hnil] using hfull)
      · exact Or.inl hnil
    obtain ⟨i, s', hins, hv', hadd, hstack⟩ := hv.insert hroom obj
    obtain ⟨j', h⟩ := add_of_insert? hfull hins j
    refine ⟨some i, s', j', h, hv', ?_, nofun, fun k hk => ?_, hstack⟩
    · simpa using fun hcard => hfull (hv.full_iff.mpr hcard)
    · cases hk
      exact hadd

/-! Removing an index. -/

/-- Removing an allocated index from a valid storage deletes it from the allocated set and
nulls its slot, and leaves every other slot as it was. The storage stays valid; its stack is
unchanged, or gains the index's segment when that segment was full. -/
theorem Valid.remove_mem (hv : s.Valid) (hi : i ∈ s.allocated) :
    ∃ s', s.remove i = .ok s' ∧ s'.Valid ∧ s'.allocated = s.allocated.erase i ∧
      s'.slot? i = some 0 ∧ (∀ k ≠ i, s'.slot? k = s.slot? k) ∧
      (s'.partlyUsed = s.partlyUsed ∨ ∃ x, x ∉ s.partlyUsed ∧ s'.partlyUsed = x :: s.partlyUsed) := by
  obtain ⟨g, hg, hused⟩ := isAllocated_iff.mp (mem_allocated.mp hi)
  have hb : i % segmentSlots < segmentSlots := Nat.mod_lt _ (by decide)
  have hi' : i / segmentSlots * segmentSlots + i % segmentSlots = i := Nat.div_add_mod' i _
  generalize hg' : ({ used := g.used.set! (i % segmentSlots) false
                      slots := g.slots.set! (i % segmentSlots) 0 } : Segment) = g'
  have hrem : s.remove i = .ok { s with
      segments := s.segments.set! (i / segmentSlots) g'
      partlyUsed := if g.isFull then i / segmentSlots :: s.partlyUsed else s.partlyUsed
      count := s.count - 1 } := by
    rw [← hg']
    simp only [remove, hg, hused, ↓reduceIte]
  generalize hs' : ({ s with
      segments := s.segments.set! (i / segmentSlots) g'
      partlyUsed := if g.isFull then i / segmentSlots :: s.partlyUsed else s.partlyUsed
      count := s.count - 1 } : SlotStorage) = s' at hrem
  refine ⟨s', hrem, ?_⟩
  have hseg' : s'.segments = s.segments.set! (i / segmentSlots)
      { used := g.used.set! (i % segmentSlots) false
        slots := g.slots.set! (i % segmentSlots) 0 } := by rw [← hs', ← hg']
  have halloc := isAllocated_setPos hv.shaped hg hb hseg'
  have hslot := slot?_setPos hv.shaped hg hb hseg'
  have hroom := hasRoom_setSegment hg
    (show s'.segments = s.segments.set! (i / segmentSlots) g' by rw [← hs'])
  rw [hi'] at halloc hslot
  have hset : s'.allocated = s.allocated.erase i := by
    rw [allocated_setPos hv.shaped hg hb hseg', hi', if_neg Bool.false_ne_true]
  -- the segment has room afterwards: the position removed is free
  have hroom' : g'.isFull = false := by
    rw [← hg']
    by_contra hf
    have := (Segment.isFull_iff _).mp (by simpa using hf) _ hb
    simp [Array.getD_eq_getD_getElem?, (hv.shaped _ g hg).1, hb] at this
  have hsize : s'.segments.size = s.segments.size := by rw [hseg']; simp
  refine ⟨⟨?_, ?_, ?_, fun k hk => ?_, ?_, fun m => ?_⟩, hset, ?_, fun k hk => ?_, ?_⟩
  · rw [← hs', ← hg']
    exact hv.shaped.setPos hg (i % segmentSlots) false 0 _ _
  · rw [hsize, ← hs']
    exact hv.bounded
  · rw [hset, Finset.card_erase_of_mem hi, ← hv.count_eq, ← hs']
  · rw [hslot]
    split
    · rfl
    · rw [halloc, if_neg ‹_›] at hk
      exact hv.null_outside k hk
  · -- a full segment was not on the stack
    rw [← hs']
    split
    · exact List.nodup_cons.mpr ⟨hv.not_mem_stack_of_full hg ‹_›, hv.stack_nodup⟩
    · exact hv.stack_nodup
  · rw [hroom, ← hs']
    by_cases hm : m = i / segmentSlots
    · subst hm
      rw [if_pos rfl, hroom']
      split
      · simp
      · -- a segment that was not full already had room, so it was on the stack
        simp only [iff_true]
        exact (hv.mem_stack _).mpr ⟨g, hg, by simpa using ‹¬ g.isFull = true›⟩
    · rw [if_neg hm, ← hv.mem_stack]
      split
      · simp [hm]
      · exact Iff.rfl
  · rw [hslot, if_pos rfl]
  · rw [hslot, if_neg hk]
  · rw [← hs']
    split
    · exact Or.inr ⟨i / segmentSlots, hv.not_mem_stack_of_full hg ‹_›, rfl⟩
    · exact Or.inl rfl

/-- Removing an index that is not allocated is a fault: a slot out of range when its segment was
never handed out, else a release of an unallocated slot. -/
theorem remove_of_not_mem (hi : i ∉ s.allocated) :
    s.remove i = .error (if i / segmentSlots < s.segments.size then .unallocatedSlot s.name i
      else .slotOutOfRange s.name i) := by
  rw [mem_allocated] at hi
  unfold remove
  rcases hg : s.segments[i / segmentSlots]? with _ | g
  · have hge : s.segments.size ≤ i / segmentSlots := Array.getElem?_eq_none_iff.mp hg
    simp [Nat.not_lt.mpr hge]
  · have hlt : i / segmentSlots < s.segments.size := (Array.getElem?_eq_some_iff.mp hg).1
    have hfree : g.used.getD (i % segmentSlots) false = false := by
      simpa [isAllocated, hg] using hi
    simp only [hg, hfree, hlt, Bool.false_eq_true, ↓reduceIte]

/-! Runs of additions and removals. -/

/-- A call on a slot storage: add an object, or remove an index. -/
inductive Call where
  | add (obj : Nat)
  | remove (i : Nat)
  deriving Repr

/-- The storage a call leaves, whether it returned or stopped: a removal that faults changes
nothing. The trace entries a call records are no part of the storage. -/
def Call.apply : Call → SlotStorage → SlotStorage
  | .add obj, s => Action.final (SlotStorage.add obj (s, {}))
  | .remove i, s =>
    match s.remove i with
    | .ok s' => s'
    | .error _ => s

/-- The storage after a run of calls. -/
def runCalls (cs : List Call) (s : SlotStorage) : SlotStorage :=
  cs.foldl (fun s c => c.apply s) s

@[simp] theorem runCalls_nil : runCalls [] s = s := rfl

theorem runCalls_append_call (cs : List Call) (c : Call) :
    runCalls (cs ++ [c]) s = c.apply (runCalls cs s) := by
  simp [runCalls, List.foldl_append]

/-- No call changes the capacity. -/
theorem segmentCapacity_apply (c : Call) : (c.apply s).segmentCapacity = s.segmentCapacity := by
  cases c with
  | add obj =>
    rcases add_final obj s {} with h | ⟨k, s', hi, h⟩ <;> simp only [Call.apply, h]
    obtain ⟨s₀, hs₀ | hs₀, seg, hp⟩ := insert?_eq hi
    · subst hs₀
      obtain ⟨_, _, _, _, _, _, rfl⟩ := placeIn_eq hp
      rfl
    · obtain ⟨_, _, _, _, _, _, rfl⟩ := placeIn_eq hp
      rw [openSegment?_eq hs₀]
  | remove i =>
    simp only [Call.apply]
    split
    · rename_i s' h
      obtain ⟨_, _, _, rfl⟩ := remove_eq h
      rfl
    · rfl

theorem segmentCapacity_runCalls (cs : List Call) :
    (runCalls cs s).segmentCapacity = s.segmentCapacity := by
  induction cs generalizing s with
  | nil => rfl
  | cons c cs ih => exact (ih (s := c.apply s)).trans (segmentCapacity_apply c)

/-- Every call keeps a storage valid; its stack loses entries, or gains one segment that was
not on it. -/
theorem Valid.apply (hv : s.Valid) (c : Call) :
    (c.apply s).Valid ∧ ((c.apply s).partlyUsed.Sublist s.partlyUsed ∨
      ∃ x, x ∉ s.partlyUsed ∧ (c.apply s).partlyUsed = x :: s.partlyUsed) := by
  cases c with
  | add obj =>
    obtain ⟨r, s', j', h, hv', -, -, -, hstack⟩ := hv.add obj {}
    simp only [Call.apply, h, Action.final_ok]
    exact ⟨hv', hstack⟩
  | remove i =>
    by_cases hi : i ∈ s.allocated
    · obtain ⟨s', h, hv', -, -, -, hstack⟩ := hv.remove_mem hi
      simp only [Call.apply, h]
      refine ⟨hv', ?_⟩
      rcases hstack with heq | hpush
      · exact Or.inl (heq ▸ List.Sublist.refl _)
      · exact Or.inr hpush
    · simp only [Call.apply, remove_of_not_mem hi]
      exact ⟨hv, Or.inl (List.Sublist.refl _)⟩

theorem valid_runCalls (hv : s.Valid) (cs : List Call) : (runCalls cs s).Valid := by
  induction cs generalizing s with
  | nil => exact hv
  | cons c cs ih => exact ih (hv.apply c).1

/-! The stack is ordered by when its segments last got room. -/

/-- The call at position `n` of the run `cs` from `s₀` gave segment `k` room it did not have
before. -/
def Opened (s₀ : SlotStorage) (cs : List Call) (n k : Nat) : Prop :=
  n < cs.length ∧ ¬ (runCalls (cs.take n) s₀).HasRoom k ∧
    (runCalls (cs.take (n + 1)) s₀).HasRoom k

/-- In the run `cs` from `s₀`, segment `a` last got room after every time segment `b` did. -/
def OpenedAfter (s₀ : SlotStorage) (cs : List Call) (a b : Nat) : Prop :=
  ∃ n, Opened s₀ cs n a ∧ ∀ m, Opened s₀ cs m b → m < n

/-- The openings of a run with one more call: those of the run, and what the last call opened. -/
theorem opened_append_call {s₀ : SlotStorage} {cs : List Call} {c : Call} {n k : Nat} :
    Opened s₀ (cs ++ [c]) n k ↔ Opened s₀ cs n k ∨
      (n = cs.length ∧ ¬ (runCalls cs s₀).HasRoom k ∧ (c.apply (runCalls cs s₀)).HasRoom k) := by
  unfold Opened
  rw [List.length_append, List.length_singleton]
  rcases Nat.lt_or_ge n cs.length with hlt | hge
  · -- an earlier call: the prefixes of the longer run are those of the run
    rw [List.take_append_of_le_length (by omega), List.take_append_of_le_length (by omega)]
    constructor
    · rintro ⟨-, h⟩
      exact Or.inl ⟨hlt, h⟩
    · rintro (⟨-, h⟩ | ⟨rfl, -⟩)
      · exact ⟨by omega, h⟩
      · omega
  · rcases Nat.eq_or_lt_of_le hge with rfl | hgt
    · rw [List.take_append_of_le_length (Nat.le_refl _), List.take_length,
        List.take_of_length_le (by simp), runCalls_append_call]
      constructor
      · rintro ⟨-, h⟩
        exact Or.inr ⟨rfl, h⟩
      · rintro (⟨h, -⟩ | ⟨-, h⟩)
        · omega
        · exact ⟨by omega, h⟩
    · constructor
      · rintro ⟨h, -⟩
        omega
      · rintro (⟨h, -⟩ | ⟨h, -⟩) <;> omega

/-- One more call keeps an ordering whose later segment had room before the call. -/
theorem OpenedAfter.append_call {s₀ : SlotStorage} {cs : List Call} {c : Call} {a b : Nat}
    (h : OpenedAfter s₀ cs a b) (hb : (runCalls cs s₀).HasRoom b) :
    OpenedAfter s₀ (cs ++ [c]) a b := by
  obtain ⟨n, hn, hlast⟩ := h
  refine ⟨n, opened_append_call.mpr (Or.inl hn), fun m hm => ?_⟩
  rcases opened_append_call.mp hm with hm | ⟨-, hno, -⟩
  · exact hlast m hm
  · exact absurd hb hno

/-- From a valid storage with an empty stack, every run keeps the stack ordered by when its
segments last got room, latest on top. -/
theorem stack_recency {s₀ : SlotStorage} (h₀ : s₀.Valid) (hnil : s₀.partlyUsed = [])
    (cs : List Call) : (runCalls cs s₀).partlyUsed.Pairwise (OpenedAfter s₀ cs) := by
  induction cs using List.reverseRecOn with
  | nil => rw [runCalls_nil, hnil]; exact List.Pairwise.nil
  | append_singleton cs c ih =>
    have hv := valid_runCalls h₀ cs
    obtain ⟨hv', hstep⟩ := hv.apply c
    -- every segment on the old stack had room before the call
    have hold : ∀ b ∈ (runCalls cs s₀).partlyUsed, (runCalls cs s₀).HasRoom b :=
      fun b hb => (hv.mem_stack b).mp hb
    rw [runCalls_append_call]
    rcases hstep with hsub | ⟨x, hx, hpush⟩
    · exact (ih.sublist hsub).imp_of_mem fun _ hb hab => hab.append_call (hold _ (hsub.subset hb))
    · -- the pushed segment got room with this call, after every segment below it
      rw [hpush, List.pairwise_cons]
      refine ⟨fun b hb => ⟨cs.length, opened_append_call.mpr (Or.inr ⟨rfl, ?_, ?_⟩),
        fun m hm => ?_⟩, ih.imp_of_mem fun _ hb hab => hab.append_call (hold _ hb)⟩
      · rw [← hv.mem_stack]
        exact hx
      · rw [← hv'.mem_stack, hpush]
        exact List.mem_cons_self
      · rcases opened_append_call.mp hm with ⟨hlt, -⟩ | ⟨-, hno, -⟩
        · exact hlt
        · exact absurd (hold b hb) hno

/-! The storage as a bounded set. -/

/-- The storage `s`, reached from `s₀` by the calls `cs`, behaves as a set of indices below the
capacity of `s₀`: the invariant holds, the stack is ordered by when its segments last got room,
the next addition either reports the storage full (exactly when the set is as large as the
capacity) or adds the lowest free index of the segment that most recently got room, and the
next removal deletes an index of the set or is a fault. -/
structure RefinesSet (s₀ : SlotStorage) (cs : List Call) (s : SlotStorage) : Prop where
  valid : s.Valid
  below : ∀ i ∈ s.allocated, i < s₀.slotCapacity
  recency : s.partlyUsed.Pairwise (OpenedAfter s₀ cs)
  add : ∀ obj j, ∃ r s' j', SlotStorage.add obj (s, j) = .ok r (s', j') ∧
    (r = none ↔ s.allocated.card = s₀.slotCapacity) ∧ (r = none → s' = s) ∧
    ∀ i, r = some i → s.Added obj i s' ∧
      (∀ k, s.HasRoom k → k ≠ i / segmentSlots → OpenedAfter s₀ cs (i / segmentSlots) k) ∧
      (s.segments.size < s'.segments.size → ∀ k, ¬ s.HasRoom k)
  remove_mem : ∀ i ∈ s.allocated, ∃ s', s.remove i = .ok s' ∧
    s'.allocated = s.allocated.erase i ∧ s'.slot? i = some 0 ∧ ∀ k ≠ i, s'.slot? k = s.slot? k
  remove_not_mem : ∀ i ∉ s.allocated, s.remove i = .error
    (if i / segmentSlots < s.segments.size then .unallocatedSlot s.name i
      else .slotOutOfRange s.name i)

/-- The segment an addition uses is, of the segments with room, the one that most recently got
room. -/
theorem Valid.added_latest {s₀ : SlotStorage} {cs : List Call} (hv : s.Valid)
    (hrec : s.partlyUsed.Pairwise (OpenedAfter s₀ cs)) {s' : SlotStorage}
    (hadd : s.Added obj i s') (k : Nat) (hk : s.HasRoom k) (hne : k ≠ i / segmentSlots) :
    OpenedAfter s₀ cs (i / segmentSlots) k := by
  rcases hadd.segment with ⟨htop, -⟩ | ⟨hnil, -⟩
  · -- the segment is on top, and `k`, with room, is below it
    have hstack := List.eq_cons_of_mem_head? htop
    have hmem := (hv.mem_stack k).mpr hk
    rw [hstack] at hrec hmem
    rcases List.mem_cons.mp hmem with heq | htail
    · exact absurd heq hne
    · exact List.rel_of_pairwise_cons hrec htail
  · have hmem := (hv.mem_stack k).mpr hk
    rw [hnil] at hmem
    cases hmem

/-- An addition opens a new segment only when no segment has room. -/
theorem Valid.no_room_of_added_grows (hv : s.Valid) {s' : SlotStorage} (hadd : s.Added obj i s')
    (hgrow : s.segments.size < s'.segments.size) (k : Nat) : ¬ s.HasRoom k := by
  rcases hadd.segment with ⟨-, hsize⟩ | ⟨hnil, -⟩
  · omega
  · intro hk
    have hmem := (hv.mem_stack k).mpr hk
    rw [hnil] at hmem
    cases hmem

/-- Every run of calls from a new storage leaves a storage that behaves as a bounded set. -/
theorem refinesSet_runCalls (name : String) (c : Nat) (cs : List Call) :
    RefinesSet (create name c) cs (runCalls cs (create name c)) := by
  have h₀ := valid_create name c
  have hv := valid_runCalls h₀ cs
  have hrec := stack_recency h₀ rfl cs
  have hcap : (runCalls cs (create name c)).slotCapacity = (create name c).slotCapacity := by
    unfold slotCapacity
    rw [segmentCapacity_runCalls]
  refine ⟨hv, fun i hi => ?_, hrec, fun obj j => ?_, fun i hi => ?_, fun i hi => remove_of_not_mem hi⟩
  · -- an allocated index lies in a segment handed out, and there are no more than the capacity
    rw [← hcap]
    exact Nat.lt_of_lt_of_le (lt_of_isAllocated (mem_allocated.mp hi))
      (Nat.mul_le_mul_right _ hv.bounded)
  · obtain ⟨r, s', j', h, -, hnone, hsame, hadded, -⟩ := hv.add obj j
    exact ⟨r, s', j', h, hcap ▸ hnone, hsame, fun i hi =>
      ⟨hadded i hi, hv.added_latest hrec (hadded i hi), hv.no_room_of_added_grows (hadded i hi)⟩⟩
  · obtain ⟨s', h, -, hset, hslot, hother, -⟩ := hv.remove_mem hi
    exact ⟨s', h, hset, hslot, hother⟩

/-- What an addition leaves, whatever journal it records into: the storage unchanged when it
has no room, else the storage its insertion makes. -/
theorem final_add (obj : Nat) (s : SlotStorage) (j : Journal) :
    Action.final (SlotStorage.add obj (s, j)) =
      if s.partlyUsed = [] ∧ ¬ s.segments.size < s.segmentCapacity then s
      else ((s.insert? obj).map Prod.fst).getD s := by
  split
  · obtain ⟨j', h⟩ := add_of_full ‹_› obj j
    rw [h]
    rfl
  · rename_i hroom
    rcases hi : s.insert? obj with _ | ⟨s', i⟩
    · -- no insertion: the check on the segment fails and nothing changes
      have hc : (s.partlyUsed.isEmpty && !decide (s.segments.size < s.segmentCapacity)) = false := by
        simpa using hroom
      unfold SlotStorage.add
      simp only [bind, EStateM.bind, Action.read_run]
      split <;> simp [hc, hi, Action.emit, Action.fail, EStateM.bind, Action.final]
    · obtain ⟨j', h⟩ := add_of_insert? hroom hi j
      rw [h]
      rfl

/-- Applies a call, if there is one. -/
def applyOption : Option Call → SlotStorage → SlotStorage
  | some c, s => c.apply s
  | none, s => s

theorem runCalls_filterMap_cons {α : Type} (f : α → Option Call) (x : α) (xs : List α) :
    runCalls ((x :: xs).filterMap f) s = runCalls (xs.filterMap f) (applyOption (f x) s) := by
  rw [List.filterMap_cons]
  cases f x <;> rfl

end SlotStorage

namespace Table

/-- The table after making a global handle holds the global storage that adding the object
leaves, whether the handle was made or the storage was full; a null object changes nothing. -/
theorem final_makeGlobal (obj : Nat) (st : FailStrategy) (t : Table) (j : Journal) :
    Action.final (makeGlobal obj st (t, j)) =
      if obj = 0 then t else { t with globals := Action.final (SlotStorage.add obj (t.globals, j)) } := by
  unfold makeGlobal
  by_cases h0 : obj = 0
  · simp [h0]
  · rw [if_neg h0, if_neg h0]
    rcases h : SlotStorage.add obj (t.globals, j) with ⟨a, x, j'⟩ | ⟨e, x, j'⟩
    · rw [Action.bind_ok (Action.focus_ok h)]
      rcases a with _ | i
      · cases st <;> rfl
      · rfl
    · rw [Action.bind_error (Action.focus_error h)]
      rfl

/-- The table after making a weak global handle holds the weak storage that adding the object
leaves. -/
theorem final_makeWeak (obj : Nat) (st : FailStrategy) (t : Table) (j : Journal) :
    Action.final (makeWeak obj st (t, j)) =
      if obj = 0 then t else { t with weaks := Action.final (SlotStorage.add obj (t.weaks, j)) } := by
  unfold makeWeak
  by_cases h0 : obj = 0
  · simp [h0]
  · rw [if_neg h0, if_neg h0]
    rcases h : SlotStorage.add obj (t.weaks, j) with ⟨a, x, j'⟩ | ⟨e, x, j'⟩
    · rw [Action.bind_ok (Action.focus_ok h)]
      rcases a with _ | i
      · cases st <;> rfl
      · rfl
    · rw [Action.bind_error (Action.focus_error h)]
      rfl

/-- A new table's storages are new storages of the configured capacities. -/
theorem create_storages {c : Config} {t : Table} (h : create c = .ok t) :
    t.globals = SlotStorage.create globalStorageName c.globalCapacity ∧
      t.weaks = SlotStorage.create weakStorageName c.weakGlobalCapacity := by
  unfold create at h
  split_ifs at h
  cases h
  exact ⟨rfl, rfl⟩

end Table

namespace Op

/-- The operations that make and destroy global and weak global handles. -/
def OnStorages : Op → Prop
  | .makeGlobal _ _ | .makeWeak _ _ | .destroyGlobal _ | .destroyWeak _ => True
  | _ => False

/-- The call a handle operation makes on the global storage, if any. -/
def globalCall : Op → Option SlotStorage.Call
  | .makeGlobal obj _ => if obj = 0 then none else some (.add obj)
  | .destroyGlobal (some (.strong (.global i))) => some (.remove i)
  | _ => none

/-- The call a handle operation makes on the weak global storage, if any. -/
def weakCall : Op → Option SlotStorage.Call
  | .makeWeak obj _ => if obj = 0 then none else some (.add obj)
  | .destroyWeak (some (.weak i)) => some (.remove i)
  | _ => none

/-- An operation on the storages changes each storage by the call it makes on it, if any. -/
theorem storages_after {op : Op} (hop : op.OnStorages) (s : World × Journal) :
    (op.after s).1.registry.table.globals =
        SlotStorage.applyOption op.globalCall s.1.registry.table.globals ∧
      (op.after s).1.registry.table.weaks =
        SlotStorage.applyOption op.weakCall s.1.registry.table.weaks := by
  obtain ⟨w, j⟩ := s
  cases op with
  | makeGlobal obj st =>
    rw [after_makeGlobal_fst]
    by_cases h0 : obj = 0 <;>
      simp [Table.final_makeGlobal, h0, globalCall, weakCall, SlotStorage.applyOption,
        SlotStorage.Call.apply, SlotStorage.final_add]
  | makeWeak obj st =>
    rw [after_makeWeak_fst]
    by_cases h0 : obj = 0 <;>
      simp [Table.final_makeWeak, h0, globalCall, weakCall, SlotStorage.applyOption,
        SlotStorage.Call.apply, SlotStorage.final_add]
  | destroyGlobal h =>
    rw [after_destroyGlobal_fst]
    -- only a global handle reaches the storage; the others fail or, for null, do nothing
    rcases h with _ | ((i | i) | i)
    · exact ⟨rfl, rfl⟩
    · exact ⟨rfl, rfl⟩
    · simp only [Table.destroyGlobal, Table.strongRef, globalCall, weakCall,
        SlotStorage.applyOption, SlotStorage.Call.apply]
      rcases hr : w.registry.table.globals.remove i with e | g <;>
        simp [hr, bind, Except.bind, pure, Except.pure]
    · exact ⟨rfl, rfl⟩
  | destroyWeak h =>
    rw [after_destroyWeak_fst]
    rcases h with _ | (x | i)
    · exact ⟨rfl, rfl⟩
    · exact ⟨rfl, rfl⟩
    · simp only [Table.destroyWeak, Table.weakRef, globalCall, weakCall,
        SlotStorage.applyOption, SlotStorage.Call.apply]
      rcases hr : w.registry.table.weaks.remove i with e | g <;>
        simp [hr, bind, Except.bind, pure, Except.pure]
  | _ => exact (hop : False).elim

/-- A run of operations on the storages changes each storage by the run of the calls they
make on it. -/
theorem storages_runAll (ops : List Op) (hops : ∀ op ∈ ops, op.OnStorages) (s : World × Journal) :
    (runAll ops s).1.registry.table.globals =
        SlotStorage.runCalls (ops.filterMap globalCall) s.1.registry.table.globals ∧
      (runAll ops s).1.registry.table.weaks =
        SlotStorage.runCalls (ops.filterMap weakCall) s.1.registry.table.weaks := by
  induction ops generalizing s with
  | nil => exact ⟨rfl, rfl⟩
  | cons op ops ih =>
    obtain ⟨hg, hw⟩ := storages_after (hops op List.mem_cons_self) s
    obtain ⟨ig, iw⟩ := ih (fun o ho => hops o (List.mem_cons_of_mem op ho)) (op.after s)
    rw [runAll_cons, ig, iw, hg, hw, SlotStorage.runCalls_filterMap_cons,
      SlotStorage.runCalls_filterMap_cons]
    exact ⟨rfl, rfl⟩

end Op

/-- A slot storage refines a bounded set of indices. From a new storage of capacity `c`, every
run of additions and removals leaves a storage that behaves as a set of indices below
`64 * ⌈c / 64⌉` (`SlotStorage.RefinesSet`). The handle table's global and weak storages are such
runs: making and destroying global and weak global handles changes each storage by exactly the
additions and removals they make on it. -/
theorem storage_refines_set :
    (∀ (name : String) (c : Nat) (cs : List SlotStorage.Call),
      (SlotStorage.create name c).slotCapacity =
          (c + segmentSlots - 1) / segmentSlots * segmentSlots ∧
        SlotStorage.RefinesSet (SlotStorage.create name c) cs
          (SlotStorage.runCalls cs (SlotStorage.create name c))) ∧
    ∀ (cfg : Config) (t : Table) (ops : List Op) (s : World × Journal),
      Table.create cfg = .ok t → s.1.registry.table = t → (∀ op ∈ ops, op.OnStorages) →
        (Op.runAll ops s).1.registry.table.globals =
            SlotStorage.runCalls (ops.filterMap Op.globalCall)
              (SlotStorage.create globalStorageName cfg.globalCapacity) ∧
          (Op.runAll ops s).1.registry.table.weaks =
            SlotStorage.runCalls (ops.filterMap Op.weakCall)
              (SlotStorage.create weakStorageName cfg.weakGlobalCapacity) := by
  refine ⟨fun name c cs => ⟨rfl, SlotStorage.refinesSet_runCalls name c cs⟩, ?_⟩
  intro cfg t ops s hcreate ht hops
  obtain ⟨hg, hw⟩ := Table.create_storages hcreate
  rw [← hg, ← hw, ← ht]
  exact Op.storages_runAll ops hops s

/-- Making a global and a weak global handle and destroying the global one, in a new world, runs
an addition and a removal on the global storage and an addition on the weak one. -/
theorem storage_refines_set_table_run :
    Table.create {} = .ok Table.fresh ∧
      (World.new Table.fresh, ({} : Journal)).1.registry.table = Table.fresh ∧
      (∀ op ∈ [Op.makeGlobal 16 .returnNull, .makeWeak 32 .returnNull,
        .destroyGlobal (some (.strong (.global 0)))], op.OnStorages) ∧
      (Op.runAll [.makeGlobal 16 .returnNull, .makeWeak 32 .returnNull,
          .destroyGlobal (some (.strong (.global 0)))]
          (World.new Table.fresh, {})).1.registry.table.globals =
        SlotStorage.runCalls [.add 16, .remove 0]
          (SlotStorage.create globalStorageName ({} : Config).globalCapacity) ∧
      (Op.runAll [.makeGlobal 16 .returnNull, .makeWeak 32 .returnNull,
          .destroyGlobal (some (.strong (.global 0)))]
          (World.new Table.fresh, {})).1.registry.table.weaks =
        SlotStorage.runCalls [.add 32]
          (SlotStorage.create weakStorageName ({} : Config).weakGlobalCapacity) := by
  have hops : ∀ op ∈ [Op.makeGlobal 16 .returnNull, .makeWeak 32 .returnNull,
      .destroyGlobal (some (.strong (.global 0)))], op.OnStorages := by
    intro op hop
    simp only [List.mem_cons, List.not_mem_nil, or_false] at hop
    rcases hop with rfl | rfl | rfl <;> trivial
  exact ⟨rfl, rfl, hops, storage_refines_set.2 {} Table.fresh _ _ rfl rfl hops⟩

end GcRoots

import GcRoots.Proofs.Registry
import GcRoots.Proofs.Sweep
import GcRoots.Roots.World

namespace GcRoots

/-!
# Walks over the root world

A visitor that keeps its slot writes back what it read, and writing a slot's own content back
changes nothing (`World.writeSlot_readSlot`). A walk with such a visitor therefore leaves the
world as it was and visits exactly the candidates that are not null, in order, with the content
they had when the walk began (`Sweep.strong_keep`). A weak walk with such a visitor may only
clear slots whose objects are dead (`Sweep.weak_keep_induct`).

A walk with any visitor writes only its candidate slots (`Sweep.strong_induct`,
`Sweep.weak_induct`). Writing handed-out local slots, or slots outside the block pool, leaves
the blocks of the registry where they were (`Registry.Retouched`): the same chains, the same
queue and arena, the same tops, so a sound registry stays sound.
-/

/-- Writing back what an array holds changes nothing. -/
theorem Array.set!_getD_self (a : Array Nat) (k : Nat) : a.set! k (a.getD k 0) = a := by
  rw [Array.set!_eq_setIfInBounds, Array.setIfInBounds]
  by_cases hk : k < a.size
  · rw [dif_pos hk, Array.getD_eq_getD_getElem?, Array.getElem?_eq_getElem hk, Option.getD_some]
    exact Array.set_getElem_self hk
  · rw [dif_neg hk]

namespace BlockPool

theorem store_slot_self (p : BlockPool) (i : Nat) : p.store i ((p.slot? i).getD 0) = p := by
  rcases h : p.blocks[i / blockSlots]? with _ | blk
  · simp [store, store?, h]
  · have hlt : i / blockSlots < p.blocks.size := (Array.getElem?_eq_some_iff.mp h).1
    have hget : p.blocks[i / blockSlots] = blk := (Array.getElem?_eq_some_iff.mp h).2
    rw [store_eq h]
    simp only [slot?, h, Option.map_some, Option.getD_some, Array.set!_getD_self]
    have hset : p.blocks.set! (i / blockSlots) { blk with } = p.blocks := by
      rw [← hget, Array.set!_eq_setIfInBounds, Array.setIfInBounds, dif_pos hlt,
        Array.set_getElem_self]
    rw [hset]

end BlockPool

namespace SlotStorage

theorem store_slot_self (s : SlotStorage) (i : Nat) : s.store i ((s.slot? i).getD 0) = s := by
  rcases h : s.segments[i / segmentSlots]? with _ | g
  · simp [store, store?, h]
  · have hlt : i / segmentSlots < s.segments.size := (Array.getElem?_eq_some_iff.mp h).1
    have hget : s.segments[i / segmentSlots] = g := (Array.getElem?_eq_some_iff.mp h).2
    simp only [store, store?, slot?, h, Option.map_some, Option.getD_some, Array.set!_getD_self]
    have hset : s.segments.set! (i / segmentSlots) { g with } = s.segments := by
      rw [← hget, Array.set!_eq_setIfInBounds, Array.setIfInBounds, dif_pos hlt,
        Array.set_getElem_self]
    rw [hset]

end SlotStorage

theorem Source.store?_self (src : Source) (i : Nat) :
    (src.store? i (src.slots.getD i 0)).getD src = src := by
  cases src with
  | listed s c p e =>
    by_cases hi : i < s.size
    · simp only [Source.store?, Source.slots, if_pos hi, Array.set!_getD_self, Option.getD_some]
    · simp [Source.store?, hi]
  | closure s =>
    by_cases hi : i < s.size
    · simp only [Source.store?, Source.slots, if_pos hi, Array.set!_getD_self, Option.getD_some]
    · simp [Source.store?, hi]
  | counting c p e => rfl
  | empty => rfl

namespace Sources

/-- In a list whose keys are distinct, looking up an entry's key finds that entry. -/
theorem lookup_of_mem {l : List (Category × Source)} (hl : (l.map Prod.fst).Nodup)
    {p : Category × Source} (hp : p ∈ l) : l.lookup p.1 = some p.2 := by
  induction l with
  | nil => simp at hp
  | cons q l ih =>
    obtain ⟨k, v⟩ := q
    simp only [List.map_cons, List.nodup_cons] at hl
    rcases List.mem_cons.mp hp with rfl | hp
    · simp
    · have hne : p.1 ≠ k := fun h => hl.1 (h ▸ List.mem_map_of_mem hp)
      have hb : (p.1 == k) = false := by simpa [beq_iff_eq] using hne
      simp only [List.lookup_cons, hb]
      exact ih hl.2 hp

/-- Putting back the source a category already has changes nothing. -/
theorem set_get_self (m : Sources) (c : Category) : m.set c (m.get c) = m := by
  have hnodup : (m.entries.map Prod.fst).Nodup := by
    rw [m.keys]
    decide
  have hentries : (m.entries.map fun p => if p.1 = c then (c, m.get c) else p) = m.entries := by
    conv => rhs; rw [← List.map_id m.entries]
    apply List.map_congr_left
    intro p hp
    by_cases hpc : p.1 = c
    · have hget : m.get c = p.2 := by
        rw [get, ← hpc, lookup_of_mem hnodup hp, Option.getD_some]
      rw [if_pos hpc, hget, ← hpc]
      rfl
    · rw [if_neg hpc]
      rfl
  cases m
  simp only [set, mk.injEq]
  exact hentries

end Sources

namespace World

/-- Writing a slot's own content back leaves the world as it was. -/
theorem writeSlot_readSlot (w : World) (a : SlotAddr) : w.writeSlot a (w.readSlot a) = w := by
  cases a with
  | global i => simp [writeSlot, readSlot, SlotStorage.store_slot_self]
  | weak i => simp [writeSlot, readSlot, SlotStorage.store_slot_self]
  | threadLocal i => simp [writeSlot, readSlot, BlockPool.store_slot_self]
  | source c i =>
    simp only [writeSlot, readSlot, Sources.modify, Source.store?_self, Sources.set_get_self]
  | stack tn i =>
    obtain ⟨r, cfg, src, _ | rows⟩ := w
    · rfl
    · rcases hrow : rows[tn]? with _ | row
      · simp [writeSlot, hrow]
      · have htn : tn < rows.size := (Array.getElem?_eq_some_iff.mp hrow).1
        have hget : rows[tn] = row := (Array.getElem?_eq_some_iff.mp hrow).2
        by_cases hi : i < row.size
        · have hset : rows.set! tn (row.set! i (row.getD i 0)) = rows := by
            rw [Array.set!_getD_self, ← hget, Array.set!_eq_setIfInBounds, Array.setIfInBounds,
              dif_pos htn, Array.set_getElem_self]
          simp only [writeSlot, readSlot, hrow, hi, Option.map_some, Option.bind_some, if_true,
            ← Array.getD_eq_getD_getElem?, hset]
        · simp [writeSlot, readSlot, hrow, hi]
  | storage i => rfl

@[simp] theorem slotMemory_read (w : World) (a : SlotAddr) : SlotMemory.readSlot w a = w.readSlot a :=
  rfl

@[simp] theorem slotMemory_write (w : World) (a : SlotAddr) (v : Nat) :
    SlotMemory.writeSlot w a v = w.writeSlot a v := rfl

end World

namespace Sweep

/-- The visits a walk that writes nothing makes over `slots` in world `w`: every slot that is
not null, in order, with its content. -/
def seen (w : World) (slots : List SlotAddr) : List Visit :=
  slots.filterMap fun a => if w.readSlot a = 0 then none else some ⟨a, w.readSlot a⟩

@[simp] theorem seen_nil (w : World) : seen w [] = [] := rfl

theorem seen_cons (w : World) (a : SlotAddr) (slots : List SlotAddr) :
    seen w (a :: slots) = seen w [a] ++ seen w slots := by
  simp only [seen, List.filterMap_cons, List.filterMap_nil]
  split <;> rfl

theorem visitStrong_keep (sw : Sweep World) (a : SlotAddr) :
    sw.visitStrong .keep a = { sw with visits := sw.visits ++ (seen sw.state [a]).toArray } := by
  by_cases ha : sw.state.readSlot a = 0
  · simp [visitStrong, seen, ha]
  · simp [visitStrong, seen, ha, Rewrite.apply, World.writeSlot_readSlot]

/-- A walk with a visitor that keeps every slot leaves the world as it was and visits the
slots that are not null, in order, with their contents. -/
theorem strong_keep (sw : Sweep World) (slots : List SlotAddr) :
    sw.strong .keep slots = { sw with visits := sw.visits ++ (seen sw.state slots).toArray } := by
  induction slots generalizing sw with
  | nil => simp [strong]
  | cons a slots ih =>
    have h := ih (sw.visitStrong .keep a)
    simp only [strong, List.foldl_cons] at h ⊢
    rw [h, visitStrong_keep, seen_cons sw.state a slots]
    simp [Array.append_assoc]

/-- A weak walk that finds everything alive is a strong walk. -/
theorem weak_everything (rw : Rewrite) (sw : Sweep World) (slots : List SlotAddr) :
    sw.weak .everything rw slots = sw.strong rw slots :=
  (strong_eq_weak_everything rw sw slots).symm

/-- What every write of a walk keeps, the walk keeps. -/
theorem strong_induct (P : World → Prop) {rw : Rewrite} {slots : List SlotAddr}
    (hw : ∀ w a v, a ∈ slots → P w → P (w.writeSlot a v)) {sw : Sweep World} (h : P sw.state) :
    P (sw.strong rw slots).state := by
  rw [strong_eq_weak_everything]
  exact weak_preserves .everything rw P hw sw h

theorem weak_induct (P : World → Prop) {alive : Liveness} {rw : Rewrite} {slots : List SlotAddr}
    (hw : ∀ w a v, a ∈ slots → P w → P (w.writeSlot a v)) {sw : Sweep World} (h : P sw.state) :
    P (sw.weak alive rw slots).state :=
  weak_preserves alive rw P hw sw h

end Sweep

/-- A handed-out slot of a frame lies in one of its blocks, below that block's top. -/
theorem Frame.mem_handedOut {f : Frame} {p : BlockPool} (hp : p.Sound) {i : Nat}
    (hi : i ∈ f.handedOut p) :
    i / blockSlots ∈ f.blocks.toList ∧
      ∃ blk, p.blocks[i / blockSlots]? = some blk ∧ i % blockSlots < blk.top := by
  simp only [Frame.handedOut, List.mem_flatMap] at hi
  obtain ⟨b, hb, hi⟩ := hi
  rcases hblk : p.blocks[b]? with _ | blk
  · simp [BlockPool.block?, hblk] at hi
  · simp only [BlockPool.block?, hblk, List.mem_map, List.mem_range] at hi
    obtain ⟨k, hk, rfl⟩ := hi
    have hk' : k < blockSlots := Nat.lt_of_lt_of_le hk (hp.blocks b blk hblk).top_le
    rw [BlockPool.index_div hk', BlockPool.index_mod hk']
    exact ⟨hb, blk, hblk, hk⟩

theorem Chain.mem_handedOut {c : Chain} {p : BlockPool} (hp : p.Sound) {i : Nat}
    (hi : i ∈ c.handedOut p) :
    ∃ f ∈ c.frames, i / blockSlots ∈ f.blocks.toList ∧
      ∃ blk, p.blocks[i / blockSlots]? = some blk ∧ i % blockSlots < blk.top := by
  obtain ⟨f, hf, hi⟩ := List.mem_flatMap.mp hi
  exact ⟨f, hf, Frame.mem_handedOut hp hi⟩

namespace World

/-- A slot whose writing only retouches the registry: a handed-out local slot, or any slot
outside the block pool. -/
def Writable (w : World) : SlotAddr → Prop
  | .threadLocal i => w.registry.HandsOut i
  | _ => True

theorem Writable.retouched {w w' : World} (h : Registry.Retouched w.registry w'.registry)
    {a : SlotAddr} (ha : w.Writable a) : w'.Writable a := by
  cases a with
  | threadLocal i => exact h.handsOut ha
  | _ => trivial

/-- Writing a writable slot only retouches the registry. -/
theorem retouched_writeSlot (w : World) {a : SlotAddr} (v : Nat) (ha : w.Writable a) :
    Registry.Retouched w.registry (w.writeSlot a v).registry := by
  cases a with
  | threadLocal i => exact Registry.retouched_store w.registry (Or.inr ha)
  | global i => exact Registry.SameBlocks.retouched ⟨rfl, rfl⟩
  | weak i => exact Registry.SameBlocks.retouched ⟨rfl, rfl⟩
  | source c i => exact Registry.Retouched.refl _
  | stack tn i => exact Registry.Retouched.refl _
  | storage i => exact Registry.Retouched.refl _

end World

namespace Sweep

/-- A walk over writable slots, with any visitor, only retouches the registry. -/
theorem strong_retouched (rw : Rewrite) (sw : Sweep World) {slots : List SlotAddr}
    (hs : ∀ a ∈ slots, sw.state.Writable a) :
    Registry.Retouched sw.state.registry (sw.strong rw slots).state.registry := by
  refine strong_induct (fun w => Registry.Retouched sw.state.registry w.registry)
    (fun w a v ha hw => hw.trans (w.retouched_writeSlot v ?_)) (Registry.Retouched.refl _)
  exact (hs a ha).retouched hw

theorem weak_retouched (alive : Liveness) (rw : Rewrite) (sw : Sweep World)
    {slots : List SlotAddr} (hs : ∀ a ∈ slots, sw.state.Writable a) :
    Registry.Retouched sw.state.registry (sw.weak alive rw slots).state.registry := by
  refine weak_induct (fun w => Registry.Retouched sw.state.registry w.registry)
    (fun w a v ha hw => hw.trans (w.retouched_writeSlot v ?_)) (Registry.Retouched.refl _)
  exact (hs a ha).retouched hw

end Sweep

end GcRoots

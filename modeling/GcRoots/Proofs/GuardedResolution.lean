import GcRoots.Proofs.Conservation

namespace GcRoots

/-!
# Guarded resolution of handle words

Native code may hand back any machine word as a handle. Guarded resolution decodes the word and
reads the slot it names, and it never faults: it is plain resolution with every fault read as
null (`Table.resolveGuarded_eq_resolve`). For a non-null object `o` it returns `o` exactly when
the word decodes to a handle whose slot exists and holds `o` (`Table.resolveGuarded_eq_iff`).

Nothing in it checks that a local slot was handed out. That a slot above its block's top reads
null is a property of the pool, not of the lookup: it holds while the pool is clean, which
every run that writes block slots only where a thread handed them out keeps it
(`Op.runAll_clean`). A write through the handle of a closed frame breaks it, and guarded
resolution then returns what was written (`stale_write_resolves_through_guard`).

Main statement: `guarded_resolution_reads_live_slot`.
-/

namespace Table

/-- Guarded resolution is resolution of the decoded word, with a fault read as null. -/
theorem resolveGuarded_eq_resolve (t : Table) (w : Nat) :
    t.resolveGuarded w = (t.resolve (Handle.ofWord? w)).toOption.getD 0 := by
  unfold resolveGuarded
  cases Handle.ofWord? w with
  | none => rfl
  | some h =>
    -- a weak slot is read as it is; a strong slot that holds null is a fault of `resolve`
    cases h with
    | weak i => rcases hs : t.slot? (.weak i) with _ | v <;> simp [resolve, hs, Except.toOption]
    | strong s =>
      rcases hs : t.slot? (.strong s) with _ | v
      · simp [resolve, hs, Except.toOption]
      · by_cases hv : v = 0 <;> simp [resolve, hs, hv, Except.toOption]

/-- Guarded resolution returns a non-null object exactly when the word names a slot that
holds it. -/
theorem resolveGuarded_eq_iff (t : Table) (w : Nat) {o : Nat} (ho : o ≠ 0) :
    t.resolveGuarded w = o ↔ ∃ h, Handle.ofWord? w = some h ∧ t.slot? h = some o := by
  unfold resolveGuarded
  cases Handle.ofWord? w with
  | none => simp [Ne.symm ho]
  | some h => rcases hs : t.slot? h with _ | v <;> simp [hs, Ne.symm ho]

end Table

/-- In a clean pool, a slot that holds an object is one its block has handed out. -/
theorem BlockPool.Clean.handedOut {p : BlockPool} (hc : p.Clean) {i o : Nat}
    (hs : p.slot? i = some o) (ho : o ≠ 0) :
    ∃ blk, p.blocks[i / blockSlots]? = some blk ∧ i % blockSlots < blk.top := by
  simp only [BlockPool.slot?, Option.map_eq_some_iff] at hs
  obtain ⟨blk, hblk, hslot⟩ := hs
  refine ⟨blk, hblk, Nat.lt_of_not_le fun hle => ho ?_⟩
  rw [← hslot]
  exact hc _ blk hblk _ hle

/-- Guarded resolution in every state that a run from a new world reaches. It is resolution
with every fault read as null, so it never faults. For a non-null object `o` it returns `o`
exactly when the word decodes to a handle whose slot exists and holds `o`. So null words and
words with an empty payload, words naming a block or segment beyond the arenas and slots holding
null (destroyed handles whose slot was not reused, cleared weak handles) all give null. When the
run writes block slots only where a thread handed them out, a local handle that resolves names a
slot its block has handed out, so slots above their block's top give null as well. -/
theorem guarded_resolution_reads_live_slot {s₀ : World × Journal} (h₀ : s₀.1.Initial)
    (ops : List Op) (w : Nat) {o : Nat} (ho : o ≠ 0) :
    let t := (Op.runAll ops s₀).1.registry.table
    t.resolveGuarded w = (t.resolve (Handle.ofWord? w)).toOption.getD 0 ∧
      (t.resolveGuarded w = o ↔ ∃ h, Handle.ofWord? w = some h ∧ t.slot? h = some o) ∧
      (Op.Allowed (fun w op => op.Tidy w) ops s₀ → t.resolveGuarded w = o →
        ∀ i, Handle.ofWord? w = some (.strong (.threadLocal i)) →
          ∃ blk, t.pool.blocks[i / blockSlots]? = some blk ∧ i % blockSlots < blk.top) := by
  intro t
  refine ⟨t.resolveGuarded_eq_resolve w, t.resolveGuarded_eq_iff w ho, fun htidy hg i hi => ?_⟩
  -- a tidy run keeps the pool clean, and a clean pool holds objects only in handed-out slots
  obtain ⟨hs₀, hc₀, -⟩ := Registry.initial_sound h₀
  have hclean : t.pool.Clean := Op.runAll_clean ops s₀ htidy hs₀ hc₀
  obtain ⟨h, hw, hs⟩ := (t.resolveGuarded_eq_iff w ho).mp hg
  rw [hi, Option.some.injEq] at hw
  subst hw
  exact hclean.handedOut hs ho

/-- The first local handle of a new thread, word 6, resolves through the guard to its object,
from a slot its block handed out. -/
theorem guarded_resolution_of_first_local :
    let t := (Op.runAll [.attach, .makeLocal 0 16] (World.new Table.fresh, {})).1.registry.table
    t.resolveGuarded 6 = 16 ∧ ∃ blk, t.pool.blocks[0]? = some blk ∧ 0 < blk.top := by
  intro t
  have hg : t.resolveGuarded 6 = 16 := by decide +kernel
  obtain ⟨-, -, hlive⟩ := guarded_resolution_reads_live_slot
    (show (World.new Table.fresh, ({} : Journal)).1.Initial from World.new_fresh_initial)
    [.attach, .makeLocal 0 16] 6 (show (16 : Nat) ≠ 0 by decide)
  exact ⟨hg, hlive ⟨trivial, trivial, trivial⟩ hg 0 (by decide)⟩

/-- A write through the handle of a closed frame lands in its released block, above that
block's top, and guarded resolution of the handle's word reads it back. -/
theorem stale_write_resolves_through_guard :
    let t := (Op.runAll [.attach, .makeLocal 0 16, .pushFrame 0 16, .makeLocal 0 32,
      .popFrame 0 none, .storeSlot (.strong (.threadLocal 32)) 48]
      (World.new Table.fresh, {})).1.registry.table
    t.pool.queue = [1] ∧ (t.pool.blocks[1]?).map Block.top = some 0 ∧
      Handle.ofWord? 134 = some (.strong (.threadLocal 32)) ∧ t.resolveGuarded 134 = 48 := by
  intro t
  decide +kernel

end GcRoots

import GcRoots.Proofs.Final
import GcRoots.Proofs.Overflow
import Mathlib.Data.List.Induction

namespace GcRoots
namespace Arena

/-!
# Chunked arenas

The chunks of an arena lie end to end: chunk `k` starts at `chunkStart k` and holds
`chunkLen k = 16 · 2^k` indices, and `locate` is the inverse of `(k, o) ↦ chunkStart k + o` on
the offsets `o < chunkLen k` (`locate_spec`, `locate_chunkStart_add`). Its chunk grows with the
index, by at most one from an index to the next (`locate_fst_le`, `locate_fst_succ_le`), so an
index is the first of its chunk exactly when its chunk is not in use yet (`startsChunk_iff`).

On an arena, every operation keeps `Wf`: the table has a place for each chunk of the capacity,
and the reserved chunks are exactly the first `chunksInUse len`, each of full length. So `push`
never runs past the table, records a chunk where the storage and the block pool record one, and
hands out the indices in order up to the capacity (`push_of_lt`, `pushes_run`), `get` finds
every element handed out in a reserved chunk
(`get_of_lt`), elements at distinct indices are distinct places (`get_modify_of_ne`), and the
bytes reserved are the closed form `reservedBytes` of the number of elements
(`reserved_eq_reservedBytes`).

The block pool and the storages keep their blocks and segments in arrays. An array of at most
`c` elements is the content of an arena of capacity `c`, element for element, reserving the
closed form for its size (`Reachable.of_array`); in every reachable state the pool's blocks and
each storage's segments are within their capacities, so they are the contents of such arenas
and their memory figures are the bytes those arenas reserve (`World.arenas_of_reachable`).
-/

/-! ### Addressing -/

theorem chunkLen_eq_pow (k : Nat) : chunkLen k = Nat.pow 2 (k + 4) := by
  have h : Nat.pow 2 (k + 4) = Nat.pow 2 k * 16 := Nat.pow_add 2 k 4
  unfold chunkLen
  omega

theorem sixteen_le_chunkLen (k : Nat) : 16 ≤ chunkLen k := by
  have h : 1 ≤ Nat.pow 2 k := Nat.one_le_two_pow
  unfold chunkLen
  omega

theorem chunkStart_add_sixteen (k : Nat) : chunkStart k + 16 = chunkLen k := by
  have h := sixteen_le_chunkLen k
  unfold chunkLen at h
  unfold chunkStart chunkLen
  omega

/-- Each chunk starts where the one before it ends. -/
theorem chunkStart_succ (k : Nat) : chunkStart (k + 1) = chunkStart k + chunkLen k := by
  have hsucc : Nat.pow 2 (k + 1) = Nat.pow 2 k * 2 := Nat.pow_succ 2 k
  have h : 1 ≤ Nat.pow 2 k := Nat.one_le_two_pow
  unfold chunkStart chunkLen
  omega

/-- A later chunk starts no earlier than an earlier one ends. -/
theorem chunkStart_add_chunkLen_le {k l : Nat} (h : k < l) :
    chunkStart k + chunkLen k ≤ chunkStart l := by
  induction l with
  | zero => omega
  | succ l ih =>
    rw [chunkStart_succ]
    rcases Nat.lt_succ_iff_lt_or_eq.mp h with hlt | rfl
    · have := ih hlt
      omega
    · omega

theorem log2_pow_add {n o : Nat} (ho : o < Nat.pow 2 n) : Nat.log2 (Nat.pow 2 n + o) = n := by
  have hsucc : Nat.pow 2 (n + 1) = Nat.pow 2 n * 2 := Nat.pow_succ 2 n
  rw [Nat.log2_eq_iff (by omega)]
  show Nat.pow 2 n ≤ Nat.pow 2 n + o ∧ Nat.pow 2 n + o < Nat.pow 2 (n + 1)
  exact ⟨by omega, by omega⟩

/-- The index at offset `o` of chunk `k` is located there. -/
theorem locate_chunkStart_add {k o : Nat} (ho : o < chunkLen k) :
    locate (chunkStart k + o) = (k, o) := by
  have hlen := chunkLen_eq_pow k
  have hstart := chunkStart_add_sixteen k
  have hlog : Nat.log2 (chunkStart k + o + 16) = k + 4 := by
    rw [show chunkStart k + o + 16 = Nat.pow 2 (k + 4) + o by omega]
    exact log2_pow_add (by omega)
  simp only [locate, hlog, Prod.mk.injEq]
  omega

/-- Every index lies at some offset of some chunk: the chunk is read off the highest bit of the
index plus 16. -/
theorem exists_chunkStart_add (i : Nat) : ∃ k o, o < chunkLen k ∧ chunkStart k + o = i := by
  have h0 : i + 16 ≠ 0 := by omega
  have hlo : Nat.pow 2 (Nat.log2 (i + 16)) ≤ i + 16 := Nat.log2_self_le h0
  have hhi : i + 16 < Nat.pow 2 (Nat.log2 (i + 16) + 1) := Nat.lt_log2_self
  have h4 : 4 ≤ Nat.log2 (i + 16) := (Nat.le_log2 h0).mpr (by omega)
  obtain ⟨k, hk⟩ : ∃ k, Nat.log2 (i + 16) = k + 4 := ⟨Nat.log2 (i + 16) - 4, by omega⟩
  rw [hk] at hlo hhi
  have hsucc : Nat.pow 2 (k + 4 + 1) = Nat.pow 2 (k + 4) * 2 := Nat.pow_succ 2 (k + 4)
  have hlen := chunkLen_eq_pow k
  have hstart := chunkStart_add_sixteen k
  exact ⟨k, i + 16 - Nat.pow 2 (k + 4), by omega, by omega⟩

/-- `locate` gives each index an offset inside its chunk, and the chunk's start plus the offset
is the index back. With `locate_chunkStart_add`, `locate` is a bijection from the indices onto
the pairs `(k, o)` with `o < chunkLen k`. -/
theorem locate_spec (i : Nat) :
    (locate i).2 < chunkLen (locate i).1 ∧ chunkStart (locate i).1 + (locate i).2 = i := by
  obtain ⟨k, o, ho, rfl⟩ := exists_chunkStart_add i
  rw [locate_chunkStart_add ho]
  exact ⟨ho, rfl⟩

theorem locate_inj {i j : Nat} (h : locate i = locate j) : i = j := by
  rw [← (locate_spec i).2, ← (locate_spec j).2, h]

theorem locate_fst (i : Nat) : (locate i).1 = chunkOf i := rfl

/-- The chunk of an index grows with the index. -/
theorem locate_fst_le {i j : Nat} (h : i ≤ j) : (locate i).1 ≤ (locate j).1 := by
  obtain ⟨hi, hi'⟩ := locate_spec i
  obtain ⟨hj, hj'⟩ := locate_spec j
  apply Nat.le_of_not_lt
  intro hlt
  have := chunkStart_add_chunkLen_le hlt
  omega

/-- The next index lies in the same chunk or the next one. -/
theorem locate_fst_succ_le (i : Nat) : (locate (i + 1)).1 ≤ (locate i).1 + 1 := by
  obtain ⟨hi, hi'⟩ := locate_spec i
  obtain ⟨hj, hj'⟩ := locate_spec (i + 1)
  apply Nat.le_of_not_lt
  intro hlt
  have hfar := chunkStart_add_chunkLen_le hlt
  have hnext := chunkStart_succ (locate i).1
  have hpos := sixteen_le_chunkLen ((locate i).1 + 1)
  omega

/-! ### Chunks in use -/

theorem chunkCount_eq_chunksInUse (c : Nat) : chunkCount c = chunksInUse c := rfl

theorem chunksInUse_succ (n : Nat) : chunksInUse (n + 1) = (locate n).1 + 1 := by
  simp [chunksInUse, locate_fst]

theorem chunksInUse_mono {m n : Nat} (h : m ≤ n) : chunksInUse m ≤ chunksInUse n := by
  cases m with
  | zero => simp [chunksInUse]
  | succ m =>
    obtain ⟨n, rfl⟩ : ∃ n', n = n' + 1 := ⟨n - 1, by omega⟩
    rw [chunksInUse_succ, chunksInUse_succ]
    have := locate_fst_le (Nat.le_of_succ_le_succ h)
    omega

/-- An index handed out lies in a chunk in use. -/
theorem locate_fst_lt_chunksInUse {i n : Nat} (h : i < n) : (locate i).1 < chunksInUse n := by
  obtain ⟨n, rfl⟩ : ∃ n', n = n' + 1 := ⟨n - 1, by omega⟩
  rw [chunksInUse_succ]
  have := locate_fst_le (Nat.le_of_lt_succ h)
  omega

/-- The next index to hand out lies in a chunk in use or in the first chunk after them. -/
theorem locate_fst_le_chunksInUse (n : Nat) : (locate n).1 ≤ chunksInUse n := by
  cases n with
  | zero => simp [chunksInUse, locate_fst, chunkOf_lt_sixteen]
  | succ n =>
    rw [chunksInUse_succ]
    exact locate_fst_succ_le n

/-- An index is the first of its chunk exactly when its chunk is not in use yet: the condition the
storage and the block pool record a chunk by is the one the arena reserves a chunk by. -/
theorem startsChunk_iff (n : Nat) : startsChunk n = true ↔ chunksInUse n ≤ (locate n).1 := by
  obtain ⟨ho, hn⟩ := locate_spec n
  have hfirst : startsChunk n = true ↔ (locate n).2 = 0 := by
    unfold startsChunk
    rw [beq_iff_eq, ← locate_fst]
    omega
  rw [hfirst]
  cases n with
  | zero =>
    rw [show chunksInUse 0 = 0 from rfl]
    omega
  | succ m =>
    obtain ⟨hom, hm⟩ := locate_spec m
    have hstep := chunkStart_succ (locate m).1
    rw [chunksInUse_succ]
    -- the chunk of `m + 1` is that of `m` or the next one
    rcases Nat.eq_or_lt_of_le (locate_fst_le (Nat.le_add_right m 1)) with hk | hk
    · rw [← hk] at hn ⊢
      omega
    · have hnext : (locate (m + 1)).1 = (locate m).1 + 1 := by
        have := locate_fst_succ_le m
        omega
      rw [hnext] at hn ⊢
      omega

/-- The elements of the first `m` chunks, summed over a table whose reserved places are the first
`m` of its `N`. -/
theorem foldl_reserved_first_chunks (p : Nat → Bool) (m size N : Nat)
    (hp : ∀ c < N, p c = decide (c < m)) :
    (List.range N).foldl (fun total c => if p c then total + chunkLen c * size else total) 0 =
      16 * (Nat.pow 2 (min N m) - 1) * size := by
  induction N with
  | zero => simp
  | succ N ih =>
    rw [List.range_succ, List.foldl_append, ih (fun c hc => hp c (by omega))]
    simp only [List.foldl_cons, List.foldl_nil, hp N (by omega), decide_eq_true_eq]
    by_cases hN : N < m
    · have hsucc : Nat.pow 2 (N + 1) = Nat.pow 2 N * 2 := Nat.pow_succ 2 N
      have hpos : 1 ≤ Nat.pow 2 N := Nat.one_le_two_pow
      rw [if_pos hN, Nat.min_eq_left (by omega), Nat.min_eq_left (by omega), chunkLen,
        ← Nat.add_mul]
      congr 1
      omega
    · rw [if_neg hN, Nat.min_eq_right (by omega), Nat.min_eq_right (by omega)]

/-! ### One lemma per operation -/

section Operations

variable {α : Type}

theorem isReserved_iff_exists (a : Arena α) (c : Nat) :
    a.isReserved c = true ↔ ∃ elems, a.chunks[c]? = some (some elems) := by
  unfold isReserved
  rcases a.chunks[c]? with _ | _ | elems <;> simp

theorem withCapacity_of_fits {c : Nat} (h : capacityFits c = true) :
    (withCapacity c : Except Fault (Arena α)) =
      .ok { chunks := Array.replicate (chunkCount c) none, len := 0, capacity := c } := by
  simp [withCapacity, h]

theorem withCapacity_eq_ok {c : Nat} {a : Arena α} (h : withCapacity c = .ok a) :
    a = { chunks := Array.replicate (chunkCount c) none, len := 0, capacity := c } := by
  unfold withCapacity at h
  split at h
  · cases h
    rfl
  · cases h

theorem get_of_len_le {a : Arena α} {i : Nat} (h : a.len ≤ i) : a.get i = .ok none := by
  simp [get, h, pure, Except.pure]

/-- `get` at an index handed out whose chunk is reserved reads the index's offset in the chunk. -/
theorem get_of_reserved {a : Arena α} {i : Nat} {elems : Array α}
    (hc : a.chunks[(locate i).1]? = some (some elems)) (h : i < a.len) :
    a.get i =
      match elems[(locate i).2]? with
      | some x => .ok (some x)
      | none => .error (.indexOutOfBounds elems.size (locate i).2) := by
  simp only [get, Nat.not_le.mpr h, if_false, chunk?, hc, bind, Except.bind, pure, Except.pure]
  rcases elems[(locate i).2]? with _ | x <;> rfl

/-- `get` reads the length, the size of the table and the place of the index's chunk only. -/
theorem get_congr {a b : Arena α} {i : Nat} (hlen : a.len ≤ i ↔ b.len ≤ i)
    (hsize : a.chunks.size = b.chunks.size)
    (hc : a.chunks[(locate i).1]? = b.chunks[(locate i).1]?) : a.get i = b.get i := by
  by_cases h : a.len ≤ i
  · rw [get_of_len_le h, get_of_len_le (hlen.mp h)]
  · simp only [get, if_neg h, if_neg (mt hlen.mpr h), chunk?, hsize, hc]

theorem modify_of_len_le {a : Arena α} {i : Nat} (h : a.len ≤ i) (f : α → α) :
    a.modify i f = a := by
  simp [modify, h]

/-- A write through a reference leaves the arena as it was or replaces one place of its table. -/
theorem modify_cases (a : Arena α) (i : Nat) (f : α → α) :
    a.modify i f = a ∨ ∃ k place, a.modify i f = { a with chunks := a.chunks.set! k place } := by
  unfold modify
  split
  · exact Or.inl rfl
  · split
    split
    · exact Or.inr ⟨_, _, rfl⟩
    · exact Or.inl rfl

theorem modify_len (a : Arena α) (i : Nat) (f : α → α) : (a.modify i f).len = a.len := by
  rcases modify_cases a i f with h | ⟨k, place, h⟩ <;> rw [h]

theorem modify_capacity (a : Arena α) (i : Nat) (f : α → α) :
    (a.modify i f).capacity = a.capacity := by
  rcases modify_cases a i f with h | ⟨k, place, h⟩ <;> rw [h]

theorem size_chunks_modify (a : Arena α) (i : Nat) (f : α → α) :
    (a.modify i f).chunks.size = a.chunks.size := by
  rcases modify_cases a i f with h | ⟨k, place, h⟩ <;> simp [h, Array.set!_eq_setIfInBounds]

/-- The table after a write through an index handed out, whose chunk is reserved: that chunk with
the element at the index's offset changed, every other place as it was. -/
theorem getElem?_chunks_modify {a : Arena α} {i : Nat} {elems : Array α} (h : i < a.len)
    (hc : a.chunks[(locate i).1]? = some (some elems)) (f : α → α) (c : Nat) :
    (a.modify i f).chunks[c]? =
      if (locate i).1 = c then some (some (elems.modify (locate i).2 f)) else a.chunks[c]? := by
  have hk : (locate i).1 < a.chunks.size := (Array.getElem?_eq_some_iff.mp hc).1
  have hm : a.modify i f =
      { a with chunks := a.chunks.set! (locate i).1 (some (elems.modify (locate i).2 f)) } := by
    simp [modify, Nat.not_le.mpr h, hc]
  rw [hm]
  simp [Array.set!_eq_setIfInBounds, Array.getElem?_setIfInBounds, hk]

/-- A write through the reference at index `i` changes the element there by `f`. -/
theorem get_modify_self {a : Arena α} {i : Nat} {x : α} (hx : a.get i = .ok (some x))
    (f : α → α) : (a.modify i f).get i = .ok (some (f x)) := by
  have hi : i < a.len := Nat.lt_of_not_le fun h => by simp [get_of_len_le h] at hx
  rcases hc : a.chunks[(locate i).1]? with _ | _ | elems
  · simp [get, Nat.not_le.mpr hi, chunk?, hc, bind, Except.bind] at hx
  · simp [get, Nat.not_le.mpr hi, chunk?, hc, bind, Except.bind, pure, Except.pure] at hx
  · have hox : elems[(locate i).2]? = some x := by
      rw [get_of_reserved hc hi] at hx
      rcases he : elems[(locate i).2]? with _ | y <;> simp_all
    have hc' := getElem?_chunks_modify hi hc f (locate i).1
    rw [if_pos rfl] at hc'
    rw [get_of_reserved hc' (by rwa [modify_len])]
    simp [Array.getElem?_modify, hox]

/-- A write through the reference at index `i` leaves the element at every other index as it
was: distinct indices are distinct elements. -/
theorem get_modify_of_ne {a : Arena α} {i j : Nat} (hij : j ≠ i) (f : α → α) :
    (a.modify i f).get j = a.get j := by
  by_cases hi : a.len ≤ i
  · rw [modify_of_len_le hi]
  rcases hc : a.chunks[(locate i).1]? with _ | _ | elems
  · simp [modify, hi, hc]
  · simp [modify, hi, hc]
  have hchunk := getElem?_chunks_modify (Nat.lt_of_not_le hi) hc f (locate j).1
  by_cases hsame : (locate j).1 = (locate i).1
  · -- the same chunk, so another offset
    have ho : (locate i).2 ≠ (locate j).2 := fun ho =>
      hij (locate_inj (Prod.ext hsame ho.symm))
    by_cases hj : a.len ≤ j
    · rw [get_of_len_le hj]
      exact get_of_len_le (by rwa [modify_len])
    · have hcj : a.chunks[(locate j).1]? = some (some elems) := by rw [hsame]; exact hc
      rw [if_pos hsame.symm] at hchunk
      rw [get_of_reserved hcj (Nat.lt_of_not_le hj),
        get_of_reserved hchunk (by rw [modify_len]; omega)]
      simp only [Array.getElem?_modify, if_neg ho, Array.size_modify]
  · rw [if_neg (Ne.symm hsame)] at hchunk
    exact get_congr (by rw [modify_len]) (size_chunks_modify a i f) hchunk

/-! ### The shape every arena keeps -/

/-- The shape of an arena that every operation keeps: a place for each chunk its capacity needs,
at most `capacity` elements handed out, the reserved chunks exactly the first `chunksInUse len`,
and each reserved chunk of its full length. -/
structure Wf (a : Arena α) : Prop where
  size_eq : a.chunks.size = chunkCount a.capacity
  len_le : a.len ≤ a.capacity
  isReserved_iff : ∀ c, a.isReserved c = true ↔ c < chunksInUse a.len
  chunk_size : ∀ c elems, a.chunks[c]? = some (some elems) → elems.size = chunkLen c

theorem wf_withCapacity {c : Nat} {a : Arena α} (h : withCapacity c = .ok a) :
    a.Wf ∧ a.len = 0 ∧ a.capacity = c := by
  obtain rfl := withCapacity_eq_ok h
  refine ⟨⟨by simp, Nat.zero_le _, fun k => ?_, fun k e he => ?_⟩, rfl, rfl⟩
  · simp only [isReserved, Array.getElem?_replicate]
    split <;> simp [chunksInUse]
  · simp [Array.getElem?_replicate] at he

namespace Wf

variable {a : Arena α}

/-- Every index below the capacity lies in a chunk the table has a place for. -/
theorem locate_lt_size (hw : a.Wf) {i : Nat} (hi : i < a.capacity) :
    (locate i).1 < a.chunks.size := by
  rw [hw.size_eq, chunkCount_eq_chunksInUse]
  exact locate_fst_lt_chunksInUse hi

/-- The chunk of an element handed out is reserved, with room for its offset. -/
theorem chunk_of_lt (hw : a.Wf) {i : Nat} (hi : i < a.len) :
    ∃ elems, a.chunks[(locate i).1]? = some (some elems) ∧ (locate i).2 < elems.size := by
  obtain ⟨elems, hc⟩ := (isReserved_iff_exists a _).mp
    ((hw.isReserved_iff _).mpr (locate_fst_lt_chunksInUse hi))
  refine ⟨elems, hc, ?_⟩
  rw [hw.chunk_size _ _ hc]
  exact (locate_spec i).1

/-- Every element handed out is found. -/
theorem get_of_lt (hw : a.Wf) {i : Nat} (hi : i < a.len) : ∃ x, a.get i = .ok (some x) := by
  obtain ⟨elems, hc, ho⟩ := hw.chunk_of_lt hi
  refine ⟨elems[(locate i).2], ?_⟩
  rw [get_of_reserved hc hi, Array.getElem?_eq_getElem ho]

/-- A write through a reference keeps the shape: it changes an element, never a chunk. -/
theorem modify (hw : a.Wf) (i : Nat) (f : α → α) : (a.modify i f).Wf := by
  by_cases hi : a.len ≤ i
  · rw [modify_of_len_le hi]
    exact hw
  rcases hc : a.chunks[(locate i).1]? with _ | _ | elems
  · simpa [Arena.modify, hi, hc] using hw
  · simpa [Arena.modify, hi, hc] using hw
  have hget := getElem?_chunks_modify (Nat.lt_of_not_le hi) hc f
  refine ⟨?_, ?_, fun c => ?_, fun c e he => ?_⟩
  · rw [size_chunks_modify, modify_capacity]
    exact hw.size_eq
  · rw [modify_len, modify_capacity]
    exact hw.len_le
  · rw [modify_len, ← hw.isReserved_iff c, isReserved_iff_exists, isReserved_iff_exists, hget c]
    split
    · subst c
      simp [hc]
    · rfl
  · rw [hget c] at he
    split at he
    · subst c
      cases he
      rw [Array.size_modify]
      exact hw.chunk_size _ _ hc
    · exact hw.chunk_size c e he

/-- Handing out the next index inside a reserved chunk keeps the shape: the chunks in use stay. -/
theorem advance (hw : a.Wf) (h : a.len < a.capacity)
    (hres : a.isReserved (locate a.len).1 = true) :
    ({ a with len := a.len + 1 } : Arena α).Wf := by
  have hin := (hw.isReserved_iff _).mp hres
  have hsucc := chunksInUse_succ a.len
  have hmono := chunksInUse_mono (Nat.le_add_right a.len 1)
  refine ⟨hw.size_eq, h, fun c => ?_, hw.chunk_size⟩
  show a.isReserved c = true ↔ c < chunksInUse (a.len + 1)
  rw [show chunksInUse (a.len + 1) = chunksInUse a.len by omega]
  exact hw.isReserved_iff c

/-- Handing out the first index of the chunk after those in use, and reserving that chunk with a
full-length array, keeps the shape. -/
theorem reserve (hw : a.Wf) (h : a.len < a.capacity)
    (hnot : a.isReserved (locate a.len).1 = false) {fresh : Array α}
    (hfresh : fresh.size = chunkLen (locate a.len).1) :
    ({ a with chunks := a.chunks.set! (locate a.len).1 (some fresh), len := a.len + 1 } :
      Arena α).Wf := by
  have hk := hw.locate_lt_size h
  -- the index's chunk is not in use, so it is the first chunk after them
  have hat : (locate a.len).1 = chunksInUse a.len := by
    have hle := locate_fst_le_chunksInUse a.len
    have hout : ¬ (locate a.len).1 < chunksInUse a.len := fun hlt => by
      simp [(hw.isReserved_iff _).mpr hlt] at hnot
    omega
  have hsucc := chunksInUse_succ a.len
  have hget : ∀ c, (a.chunks.set! (locate a.len).1 (some fresh))[c]? =
      if (locate a.len).1 = c then some (some fresh) else a.chunks[c]? := by
    intro c
    simp [Array.set!_eq_setIfInBounds, Array.getElem?_setIfInBounds, hk]
  refine ⟨by simp [hw.size_eq], h, fun c => ?_, fun c e he => ?_⟩
  · show ((a.chunks.set! (locate a.len).1 (some fresh))[c]?).join.isSome = true ↔
      c < chunksInUse (a.len + 1)
    rw [hget c]
    split
    · simp only [Option.join_some, Option.isSome_some, true_iff]
      omega
    · refine (hw.isReserved_iff c).trans ⟨fun hc => ?_, fun hc => ?_⟩ <;> omega
  · change (a.chunks.set! (locate a.len).1 (some fresh))[c]? = some (some e) at he
    rw [hget c] at he
    split at he
    · subst c
      cases he
      exact hfresh
    · exact hw.chunk_size c e he

end Wf

section Push

variable [Inhabited α]

theorem push_of_capacity_le {a : Arena α} (h : a.capacity ≤ a.len) (j : Journal) :
    push (a, j) = .ok none (a, j) := by
  simp [push, h, bind, EStateM.bind]

theorem push_of_reserved {a : Arena α} (h : a.len < a.capacity) {elems : Array α}
    (hc : a.chunks[(locate a.len).1]? = some (some elems)) (j : Journal) :
    push (a, j) = .ok (some a.len) ({ a with len := a.len + 1 }, j) := by
  simp [push, Nat.not_le.mpr h, bind, EStateM.bind, chunk?, hc]

/-- The first index of a chunk not yet reserved reserves it, full of default elements, and
records it. -/
theorem push_of_unreserved {a : Arena α} (h : a.len < a.capacity)
    (hc : a.chunks[(locate a.len).1]? = some none) (j : Journal) :
    push (a, j) = .ok (some a.len)
      ({ a with
          chunks := a.chunks.set! (locate a.len).1
            (some (Array.replicate (chunkLen (locate a.len).1) default))
          len := a.len + 1 },
       { j with
          entries := j.entries.push (.arenaChunk (locate a.len).1 (chunkLen (locate a.len).1)) }) := by
  simp [push, Nat.not_le.mpr h, bind, EStateM.bind, chunk?, hc]

/-- Pushing into an arena below its capacity hands out the next index and never runs past the
chunk table: the index's chunk is reserved already, or it is the first chunk after those in use
and is reserved now, and recorded, as the storage and the block pool record it. The elements
handed out before stay where they are. -/
theorem Wf.push_of_lt {a : Arena α} (hw : a.Wf) (h : a.len < a.capacity) (j : Journal) :
    ∃ a', push (a, j) = .ok (some a.len) (a',
        if startsChunk a.len then
          { j with entries := j.entries.push (.arenaChunk (chunkOf a.len) (chunkLen (chunkOf a.len))) }
        else j) ∧
      a'.Wf ∧ a'.len = a.len + 1 ∧ a'.capacity = a.capacity ∧ ∀ i < a.len, a'.get i = a.get i := by
  have hlen : ∀ i < a.len, (a.len + 1 ≤ i ↔ a.len ≤ i) := fun i hi => by omega
  have hstarts := startsChunk_iff a.len
  rcases hc : a.chunks[(locate a.len).1]? with _ | _ | elems
  · -- the table has a place for the chunk of every index below the capacity
    have hk := hw.locate_lt_size h
    rw [Array.getElem?_eq_none_iff] at hc
    omega
  · have hnot : a.isReserved (locate a.len).1 = false := by simp [isReserved, hc]
    -- the chunk is not in use, so it is the one after those in use
    have hout : ¬ (locate a.len).1 < chunksInUse a.len := fun hlt => by
      simp [(hw.isReserved_iff _).mpr hlt] at hnot
    rw [if_pos (hstarts.mpr (Nat.le_of_not_lt hout))]
    refine ⟨_, push_of_unreserved h hc j, hw.reserve h hnot Array.size_replicate, rfl, rfl,
      fun i hi => get_congr (hlen i hi) (by simp) ?_⟩
    -- an earlier index lies in a chunk in use, which the push leaves alone
    have hne : (locate a.len).1 ≠ (locate i).1 := by
      have hin := locate_fst_lt_chunksInUse hi
      omega
    simp [Array.set!_eq_setIfInBounds, Array.getElem?_setIfInBounds_ne hne]
  · have hres : a.isReserved (locate a.len).1 = true :=
      (isReserved_iff_exists a _).mpr ⟨elems, hc⟩
    have hin := (hw.isReserved_iff _).mp hres
    rw [if_neg (fun hs => Nat.lt_irrefl _ (Nat.lt_of_lt_of_le hin (hstarts.mp hs)))]
    exact ⟨_, push_of_reserved h hc j, hw.advance h hres, rfl, rfl,
      fun i hi => get_congr (hlen i hi) rfl rfl⟩

/-- A push that returns keeps the shape and the capacity. -/
theorem Wf.push {a a' : Arena α} (hw : a.Wf) {j j' : Journal} {r : Option Nat}
    (h : Arena.push (a, j) = .ok r (a', j')) : a'.Wf ∧ a'.capacity = a.capacity := by
  by_cases hlt : a.len < a.capacity
  · obtain ⟨a₁, hpush, hw₁, -, hcap, -⟩ := hw.push_of_lt hlt j
    rw [hpush] at h
    cases h
    exact ⟨hw₁, hcap⟩
  · rw [push_of_capacity_le (Nat.le_of_not_lt hlt)] at h
    cases h
    exact ⟨hw, rfl⟩

/-- The arenas an arena of capacity `c` passes through: made by `withCapacity c`, then pushed
into and written through, in any order. -/
inductive Reachable (c : Nat) : Arena α → Prop
  | made {a : Arena α} : withCapacity c = .ok a → Reachable c a
  | pushed {a a' : Arena α} {j j' : Journal} {r : Option Nat} :
      Reachable c a → Arena.push (a, j) = .ok r (a', j') → Reachable c a'
  | written {a : Arena α} (i : Nat) (f : α → α) : Reachable c a → Reachable c (a.modify i f)

/-- Every arena reached has the shape, and the capacity it was made with. -/
theorem Reachable.wf {c : Nat} {a : Arena α} (h : Reachable c a) : a.Wf ∧ a.capacity = c := by
  induction h with
  | made h =>
    obtain ⟨hw, -, hcap⟩ := wf_withCapacity h
    exact ⟨hw, hcap⟩
  | pushed _ hp ih =>
    obtain ⟨hw', hcap⟩ := ih.1.push hp
    exact ⟨hw', hcap.trans ih.2⟩
  | written i f _ ih => exact ⟨ih.1.modify i f, (modify_capacity _ i f).trans ih.2⟩

/-- `n` pushes in a row, with their results in order. -/
def pushes : Nat → Action (Arena α) (List (Option Nat))
  | 0 => pure []
  | n + 1 => do
    let r ← push
    let rs ← pushes n
    return r :: rs

theorem map_range'_of_capacity_le {c s : Nat} (h : c ≤ s) (n : Nat) :
    (List.range' s n).map (fun k => if k < c then some k else none) = List.replicate n none := by
  induction n generalizing s with
  | zero => rfl
  | succ n ih =>
    rw [List.range'_succ, List.map_cons, if_neg (by omega), ih (by omega)]
    rfl

/-- Pushes hand out the next indices in order up to the capacity and nothing after it, and never
fault; the arena they leave is reached, with the indices handed out up to the capacity. -/
theorem Reachable.pushes_run {c : Nat} {a : Arena α} (hr : Reachable c a) (n : Nat)
    (j : Journal) :
    ∃ a' j', pushes n (a, j) =
        .ok ((List.range' a.len n).map fun k => if k < c then some k else none) (a', j') ∧
      Reachable c a' ∧ a'.len = min (a.len + n) c := by
  induction n generalizing a j with
  | zero =>
    obtain ⟨hw, hcap⟩ := hr.wf
    exact ⟨a, j, rfl, hr, by have := hw.len_le; omega⟩
  | succ n ih =>
    obtain ⟨hw, hcap⟩ := hr.wf
    by_cases h : a.len < c
    · obtain ⟨a₁, hpush, -, hlen₁, -, -⟩ := hw.push_of_lt (hcap ▸ h) j
      obtain ⟨a', j', hrun, hr', hlen'⟩ := ih (hr.pushed hpush) _
      refine ⟨a', j', ?_, hr', by omega⟩
      rw [pushes, Action.bind_ok hpush, Action.bind_ok hrun, hlen₁, List.range'_succ,
        List.map_cons, if_pos h]
      rfl
    · have hfull : a.capacity ≤ a.len := hcap ▸ Nat.le_of_not_lt h
      obtain ⟨a', j', hrun, hr', hlen'⟩ := ih hr j
      refine ⟨a', j', ?_, hr', by omega⟩
      rw [pushes, Action.bind_ok (push_of_capacity_le hfull j), Action.bind_ok hrun,
        List.range'_succ, List.map_cons, if_neg h, map_range'_of_capacity_le (Nat.le_of_not_lt h),
        map_range'_of_capacity_le (by omega)]
      rfl

end Push

/-- The bytes the reserved chunks hold are those of the first `chunksInUse len` chunks. -/
theorem Wf.reserved_eq_reservedBytes {a : Arena α} (hw : a.Wf) (size : Nat) :
    a.reserved size = reservedBytes a.len size := by
  have hle : chunksInUse a.len ≤ a.chunks.size := by
    rw [hw.size_eq, chunkCount_eq_chunksInUse]
    exact chunksInUse_mono hw.len_le
  have hp : ∀ c < a.chunks.size, a.isReserved c = decide (c < chunksInUse a.len) := by
    intro c _
    rw [Bool.eq_iff_iff, decide_eq_true_iff]
    exact hw.isReserved_iff c
  unfold reserved
  rw [foldl_reserved_first_chunks a.isReserved (chunksInUse a.len) size a.chunks.size hp,
    Nat.min_eq_right hle]
  rfl

/-- The bytes reserved once `n` indices are handed out: `size · 16 · (2^(K+1) - 1)` with `K` the
chunk of the last index, none before the first. -/
theorem reservedBytes_eq (n size : Nat) :
    reservedBytes n size =
      if n = 0 then 0 else size * 16 * (Nat.pow 2 ((locate (n - 1)).1 + 1) - 1) := by
  unfold reservedBytes reservedElements
  cases n with
  | zero => simp [chunksInUse]
  | succ n =>
    rw [chunksInUse_succ, if_neg (Nat.succ_ne_zero n), Nat.add_sub_cancel, Nat.mul_comm,
      ← Nat.mul_assoc]

/-! ### The arena as a whole -/

section Whole

variable [Inhabited α]

/-- The chunked arena: `locate` is a bijection from the indices onto the pairs `(k, o)` with
`o < chunkLen k`, and its chunk grows with the index; an arena whose capacity fits a word is
made with a place for the chunk of each of its indices; pushes into a new arena of capacity `c`
return `0, 1, …, c - 1` and then nothing, and never fault; and in every arena reached, `get i`
finds an element exactly when `i` has been handed out, a write through one index changes that
element and no other, the reserved chunks are the first ones, and the bytes they hold are
`size · 16 · (2^(K+1) - 1)` for the chunk `K` of the last index handed out. -/
theorem arena_addressing_and_growth :
    (∀ i, (locate i).2 < chunkLen (locate i).1 ∧ chunkStart (locate i).1 + (locate i).2 = i) ∧
    (∀ k o, o < chunkLen k → locate (chunkStart k + o) = (k, o)) ∧
    (∀ i j, i ≤ j → (locate i).1 ≤ (locate j).1) ∧
    (∀ c, c ≤ wordModulus - 16 → ∃ a : Arena α, withCapacity c = .ok a ∧
      a.chunks.size = chunkCount c ∧
      ∀ i < c, (locate i).1 < a.chunks.size ∧ (locate i).2 < chunkLen (locate i).1) ∧
    (∀ c (a : Arena α), withCapacity c = .ok a → ∀ n j, ∃ a' j',
      pushes n (a, j) = .ok ((List.range n).map fun k => if k < c then some k else none) (a', j') ∧
        Reachable c a' ∧ a'.len = min n c) ∧
    ∀ c (a : Arena α), Reachable c a →
      (∀ i, (∃ x, a.get i = .ok (some x)) ↔ i < a.len) ∧
      (∀ i, a.len ≤ i → a.get i = .ok none) ∧
      (∀ i j x (f : α → α), a.get i = .ok (some x) → j ≠ i →
        (a.modify i f).get i = .ok (some (f x)) ∧ (a.modify i f).get j = a.get j) ∧
      (∀ k, a.isReserved k = true ↔ k < chunksInUse a.len) ∧
      ∀ size, a.reserved size =
        if a.len = 0 then 0 else size * 16 * (Nat.pow 2 ((locate (a.len - 1)).1 + 1) - 1) := by
  refine ⟨locate_spec, fun k o ho => locate_chunkStart_add ho, fun i j h => locate_fst_le h,
    fun c hc => ?_, fun c a ha n j => ?_, fun c a hr => ?_⟩
  · -- the chunk count is that of the last index, so every index has a place
    have hmod : wordModulus = 18446744073709551616 := rfl
    refine ⟨_, withCapacity_of_fits ((capacityFits_iff c).mpr (by omega)), by simp,
      fun i hi => ⟨?_, (locate_spec i).1⟩⟩
    simpa [chunkCount_eq_chunksInUse] using locate_fst_lt_chunksInUse hi
  · obtain ⟨-, hlen, -⟩ := wf_withCapacity ha
    obtain ⟨a', j', hrun, hr', hlen'⟩ := (Reachable.made ha).pushes_run n j
    rw [hlen, ← List.range_eq_range'] at hrun
    exact ⟨a', j', hrun, hr', by rw [hlen', hlen, Nat.zero_add]⟩
  · obtain ⟨hw, -⟩ := hr.wf
    have hfound : ∀ i, (∃ x, a.get i = .ok (some x)) → i < a.len := by
      rintro i ⟨x, hx⟩
      apply Nat.lt_of_not_le
      intro h
      rw [get_of_len_le h] at hx
      cases hx
    exact ⟨fun i => ⟨hfound i, hw.get_of_lt⟩, fun i => get_of_len_le,
      fun i j x f hx hij => ⟨get_modify_self hx f, get_modify_of_ne hij f⟩, hw.isReserved_iff,
      fun size => (hw.reserved_eq_reservedBytes size).trans (reservedBytes_eq a.len size)⟩

/-- An arena of capacity 20 has places for two chunks, and 21 pushes into it return the indices
`0` to `19` and then nothing. -/
theorem arena_of_capacity_twenty :
    ∃ a : Arena Nat, withCapacity 20 = .ok a ∧ a.chunks.size = 2 ∧
      ∃ a' j', pushes 21 (a, ({} : Journal)) =
        .ok ((List.range 20).map some ++ [none]) (a', j') := by
  obtain ⟨-, -, -, hmade, hrun, -⟩ := @arena_addressing_and_growth Nat _
  obtain ⟨a, ha, hsize, -⟩ := hmade 20 (by decide)
  obtain ⟨a', j', h, -⟩ := hrun 20 a ha 21 {}
  refine ⟨a, ha, hsize.trans (by decide), a', j', h.trans ?_⟩
  rw [show ((List.range 21).map fun k => if k < 20 then some k else none) =
    (List.range 20).map some ++ [none] by decide]

end Whole

/-! ### Arrays as arenas -/

section Contents

variable [Inhabited α]

/-- Any list of at most `c` elements is the content of an arena of capacity `c` that can be set
up: made empty, pushed into once per element, and each element written through its reference. -/
theorem Reachable.of_list {c : Nat} (hfit : capacityFits c = true) (l : List α)
    (hl : l.length ≤ c) :
    ∃ a : Arena α, Reachable c a ∧ a.len = l.length ∧ ∀ i, a.get i = .ok l[i]? := by
  induction l using List.reverseRecOn with
  | nil =>
    exact ⟨_, .made (withCapacity_of_fits hfit), rfl, fun i => get_of_len_le (Nat.zero_le i)⟩
  | append_singleton l x ih =>
    rw [List.length_append, List.length_singleton] at hl
    obtain ⟨a, hr, hlen, hget⟩ := ih (by omega)
    obtain ⟨hw, hcap⟩ := hr.wf
    -- push a default element for `x`, then write `x` through its reference
    obtain ⟨a₁, hpush, hw₁, hlen₁, -, hold⟩ := hw.push_of_lt (by omega) {}
    obtain ⟨y, hy⟩ := hw₁.get_of_lt (i := a.len) (by omega)
    refine ⟨a₁.modify a.len fun _ => x, (hr.pushed hpush).written _ _, ?_, fun i => ?_⟩
    · rw [modify_len, hlen₁, hlen, List.length_append, List.length_singleton]
    rcases Nat.lt_trichotomy i a.len with hi | rfl | hi
    · rw [get_modify_of_ne (Nat.ne_of_lt hi), hold i hi, hget i,
        List.getElem?_append_left (hlen ▸ hi)]
    · rw [get_modify_self hy, List.getElem?_append_right (by omega), hlen, Nat.sub_self]
      rfl
    · rw [get_of_len_le (by rw [modify_len, hlen₁]; omega), List.getElem?_eq_none (by simp; omega)]

/-- An array of at most `c` elements is the content of an arena of capacity `c` that can be set
up, and the arena reserves the bytes of the closed form for its size. -/
theorem Reachable.of_array {c : Nat} (hfit : capacityFits c = true) (xs : Array α)
    (hxs : xs.size ≤ c) :
    ∃ a : Arena α, Reachable c a ∧ a.len = xs.size ∧ (∀ i, a.get i = .ok xs[i]?) ∧
      ∀ size, a.reserved size = reservedBytes xs.size size := by
  obtain ⟨a, hr, hlen, hget⟩ := of_list hfit xs.toList (by simpa using hxs)
  rw [Array.length_toList] at hlen
  refine ⟨a, hr, hlen, fun i => by rw [hget, Array.getElem?_toList], fun size => ?_⟩
  rw [hr.wf.1.reserved_eq_reservedBytes, hlen]

end Contents

end Operations

end Arena

instance : Inhabited Block := ⟨{}⟩

instance : Inhabited Segment := ⟨{}⟩

/-- The blocks of a bounded pool are the elements of a chunked arena of the pool's capacity, one
for one, and the pool's memory figure is the bytes that arena reserves. -/
theorem BlockPool.Bounded.arena {p : BlockPool} (h : p.Bounded) :
    ∃ a : Arena Block, Arena.Reachable p.capacity a ∧ a.len = p.blocks.size ∧
      (∀ b, a.get b = .ok p.blocks[b]?) ∧ a.reserved blockBytes = p.memory := by
  obtain ⟨a, hr, hlen, hget, hres⟩ := Arena.Reachable.of_array h.capacityFits p.blocks h.1
  exact ⟨a, hr, hlen, hget, hres blockBytes⟩

/-- The segments of a bounded storage are the elements of a chunked arena of its segment
capacity, one for one, and its memory figure is its record and the bytes that arena reserves. -/
theorem SlotStorage.Bounded.arena {s : SlotStorage} (h : s.Bounded) :
    ∃ a : Arena Segment, Arena.Reachable s.segmentCapacity a ∧ a.len = s.segments.size ∧
      (∀ k, a.get k = .ok s.segments[k]?) ∧ storageRecordBytes + a.reserved segmentBytes = s.memory := by
  obtain ⟨a, hr, hlen, hget, hres⟩ := Arena.Reachable.of_array h.capacityFits s.segments h.1
  exact ⟨a, hr, hlen, hget, by rw [hres]; rfl⟩

/-- In every reachable state the block pool and both storages hold the elements of chunked
arenas of their capacities, one for one, and report the bytes those arenas reserve. -/
theorem World.arenas_of_reachable {s : World × Journal} (hs : Reachable s) :
    (∃ a : Arena Block, Arena.Reachable s.1.registry.table.pool.capacity a ∧
      a.len = s.1.registry.table.pool.blocks.size ∧
      (∀ b, a.get b = .ok s.1.registry.table.pool.blocks[b]?) ∧
      a.reserved blockBytes = s.1.registry.table.pool.memory) ∧
    (∀ st ∈ [s.1.registry.table.globals, s.1.registry.table.weaks],
      ∃ a : Arena Segment, Arena.Reachable st.segmentCapacity a ∧ a.len = st.segments.size ∧
        (∀ k, a.get k = .ok st.segments[k]?) ∧ storageRecordBytes + a.reserved segmentBytes = st.memory) := by
  have h := World.provisioned_of_reachable hs
  refine ⟨h.pool.arena, fun st hst => ?_⟩
  simp only [List.mem_cons, List.not_mem_nil, or_false] at hst
  rcases hst with rfl | rfl
  · exact h.globals.arena
  · exact h.weaks.arena

end GcRoots

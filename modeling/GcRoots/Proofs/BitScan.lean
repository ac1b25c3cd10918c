import GcRoots.Storage.Basic
import Mathlib.Algebra.Group.Nat.Defs
import Mathlib.Data.Nat.Find
import Mathlib.Logic.Function.Iterate

namespace GcRoots

/-!
# Scanning the set bits of a word

A segment scan reads the segment's allocation word and runs a loop: while the word is not zero,
take its lowest set bit (`trailingZeros`) and clear it (`clearLowestBit`, `x & (x - 1)`). For
every word below `2^64` the loop reaches exactly the set bits of the word, lowest first, each
once, and ends after as many turns as the word has set bits (`popcount`).

The argument rests on one reading of the word one below `x`, whose lowest set bit is `k`: the
bits below `k` set, bit `k` clear, the rest as in `x` (`testBit_sub_one`). So `x ^ (x - 1)` sets
the bits up to `k` and its logarithm is `k` (`trailingZeros_eq`), and `x & (x - 1)` clears `k`
and keeps every other bit (`testBit_clearLowestBit`): the set bits of a word are `k` followed by
the set bits of the cleared word (`filter_testBit_eq_cons`). What the whole loop reaches follows by induction on its
turns (`bitScan_eq_filter`), and so does the number of turns it takes
(`clearLowestBit_iterate_popcount`).

A segment's allocation word has bit `b` set exactly when position `b` is allocated
(`Segment.testBit_allocationWord`), so the scan of a segment lists its allocated positions in
ascending order (`Segment.livePositions_eq_filter`).
-/

/-- The number of set bits of a word. -/
def popcount (x : Nat) : Nat := (List.range wordBits).countP x.testBit

/-- A word below `2^64` has no set bit at position 64 or above. -/
theorem testBit_of_lt_wordModulus {x i : Nat} (hx : x < wordModulus) (hi : wordBits ≤ i) :
    x.testBit i = false := by
  apply Nat.testBit_lt_two_pow
  calc x < wordModulus := hx
    _ = 2 ^ wordBits := rfl
    _ ≤ 2 ^ i := Nat.pow_le_pow_right (by decide) hi

/-- A nonzero word has a lowest set bit. -/
theorem exists_lowestBit {x : Nat} (hx0 : x ≠ 0) :
    ∃ k, x.testBit k = true ∧ ∀ j < k, x.testBit j = false := by
  have h := Nat.exists_testBit_of_ne_zero hx0
  refine ⟨Nat.find h, Nat.find_spec h, fun j hj => ?_⟩
  simpa using Nat.find_min h hj

section LowestBit

variable {x k : Nat} (hk : x.testBit k = true) (hlow : ∀ j < k, x.testBit j = false)
include hk hlow

/-- One below a word whose lowest set bit is `k`: the bits below `k` are set, bit `k` is clear,
and every bit above `k` is that of the word. -/
theorem testBit_sub_one (i : Nat) :
    (x - 1).testBit i = if i < k then true else if i = k then false else x.testBit i := by
  -- below position `k + 1` the word reads `2^k`, so `x = 2^(k+1) * m + 2^k`
  have hmod : x % 2 ^ (k + 1) = 2 ^ k := by
    apply Nat.eq_of_testBit_eq
    intro j
    rw [Nat.testBit_mod_two_pow, Nat.testBit_two_pow]
    rcases Nat.lt_trichotomy j k with hj | rfl | hj
    · simp [hlow j hj, Nat.ne_of_gt hj]
    · simp [hk]
    · simp [Nat.ne_of_lt hj, show ¬ j < k + 1 by omega]
  obtain ⟨m, hx⟩ : ∃ m, x = 2 ^ (k + 1) * m + 2 ^ k :=
    ⟨x / 2 ^ (k + 1), by rw [← hmod]; exact (Nat.div_add_mod x _).symm⟩
  have hpos : 0 < 2 ^ k := Nat.two_pow_pos k
  have hlt : 2 ^ k < 2 ^ (k + 1) := Nat.pow_lt_pow_succ (by decide)
  -- so `x - 1 = 2^(k+1) * m + (2^k - 1)`, and above `k` both read the bits of `m`
  have hx1 : x - 1 = 2 ^ (k + 1) * m + (2 ^ k - 1) := by omega
  have hbit : x.testBit i = if i < k + 1 then decide (k = i) else m.testBit (i - (k + 1)) := by
    rw [hx, Nat.testBit_two_pow_mul_add m hlt, Nat.testBit_two_pow]
  rw [hx1, Nat.testBit_two_pow_mul_add m (by omega), Nat.testBit_two_pow_sub_one, hbit]
  rcases Nat.lt_trichotomy i k with hi | rfl | hi
  · simp [hi, Nat.lt_succ_of_lt hi]
  · simp
  · simp [Nat.not_lt_of_gt hi, Nat.ne_of_gt hi, show ¬ i < k + 1 by omega]

/-- Clearing the lowest set bit `k` of a word clears `k` and keeps every other bit. -/
theorem testBit_clearLowestBit (i : Nat) :
    (clearLowestBit x).testBit i = (x.testBit i && i != k) := by
  rw [clearLowestBit, Nat.testBit_and, testBit_sub_one hk hlow]
  rcases Nat.lt_trichotomy i k with hi | rfl | hi
  · simp [hlow i hi]
  · simp
  · simp [Nat.not_lt_of_gt hi, Nat.ne_of_gt hi]

/-- The bits `x ^ (x - 1)` sets are those up to the lowest set bit of `x`. -/
theorem xor_sub_one_eq : x ^^^ (x - 1) = 2 ^ (k + 1) - 1 := by
  apply Nat.eq_of_testBit_eq
  intro i
  rw [Nat.testBit_xor, testBit_sub_one hk hlow, Nat.testBit_two_pow_sub_one]
  rcases Nat.lt_trichotomy i k with hi | rfl | hi
  · simp [hlow i hi, hi, Nat.lt_succ_of_lt hi]
  · simp [hk]
  · simp [Nat.not_lt_of_gt hi, Nat.ne_of_gt hi, show ¬ i < k + 1 by omega]

/-- The trailing zeros of a word are the positions below its lowest set bit. -/
theorem trailingZeros_eq : trailingZeros x = k := by
  have hx0 : x ≠ 0 := by
    rintro rfl
    simp at hk
  have hpos : 0 < 2 ^ k := Nat.two_pow_pos k
  have hsucc : 2 ^ (k + 1) = 2 ^ k * 2 := Nat.pow_succ 2 k
  rw [trailingZeros, if_neg hx0, xor_sub_one_eq hk hlow, Nat.log2_eq_iff (by omega)]
  omega

end LowestBit

/-- The positions below `k + 1 + d` where `p` holds are `k` followed by those where `q` holds,
when `p` and `q` agree above `k`, neither holds below it, and only `p` holds at `k`. -/
theorem filter_range_lowest {p q : Nat → Bool} {k : Nat} (hp : p k = true) (hq : q k = false)
    (hlow : ∀ j < k, p j = false ∧ q j = false) (hhigh : ∀ j, k < j → p j = q j) (d : Nat) :
    (List.range (k + 1 + d)).filter p = k :: (List.range (k + 1 + d)).filter q := by
  induction d with
  | zero =>
    have hp0 : (List.range k).filter p = [] :=
      List.filter_eq_nil_iff.mpr fun j hj => by simp [(hlow j (List.mem_range.mp hj)).1]
    have hq0 : (List.range k).filter q = [] :=
      List.filter_eq_nil_iff.mpr fun j hj => by simp [(hlow j (List.mem_range.mp hj)).2]
    rw [Nat.add_zero, List.range_succ, List.filter_append, List.filter_append, hp0, hq0]
    simp [hp, hq]
  | succ d ih =>
    have hd := hhigh (k + 1 + d) (by omega)
    rw [← Nat.add_assoc, List.range_succ, List.filter_append, List.filter_append, ih,
      List.filter_cons, List.filter_cons, hd]
    rfl

/-- The set bits of a nonzero word below `2^64` are its lowest set bit followed by the set bits
of the word with that bit cleared. -/
theorem filter_testBit_eq_cons {x : Nat} (hx0 : x ≠ 0) (hx : x < wordModulus) :
    (List.range wordBits).filter x.testBit =
      trailingZeros x :: (List.range wordBits).filter (clearLowestBit x).testBit := by
  obtain ⟨k, hk, hlow⟩ := exists_lowestBit hx0
  have hclear := testBit_clearLowestBit hk hlow
  -- the lowest set bit lies below 64
  have hk64 : k < wordBits := Nat.lt_of_not_le fun h => by
    rw [testBit_of_lt_wordModulus hx h] at hk
    cases hk
  obtain ⟨d, hd⟩ : ∃ d, wordBits = k + 1 + d := ⟨wordBits - k - 1, by omega⟩
  rw [trailingZeros_eq hk hlow, hd]
  refine filter_range_lowest hk (by simp [hclear]) (fun j hj => ?_) (fun j hj => ?_) d
  · simp [hclear, hlow j hj]
  · simp [hclear, Nat.ne_of_gt hj]

theorem clearLowestBit_lt {x : Nat} (hx : x < wordModulus) : clearLowestBit x < wordModulus :=
  Nat.lt_of_le_of_lt Nat.and_le_left hx

@[simp] theorem popcount_zero : popcount 0 = 0 := by
  simp [popcount]

theorem popcount_le (x : Nat) : popcount x ≤ wordBits := by
  have h := List.countP_le_length (p := x.testBit) (l := List.range wordBits)
  rwa [List.length_range] at h

/-- Clearing the lowest set bit of a nonzero word removes exactly one set bit. -/
theorem popcount_clearLowestBit {x : Nat} (hx0 : x ≠ 0) (hx : x < wordModulus) :
    popcount (clearLowestBit x) + 1 = popcount x := by
  simp only [popcount, List.countP_eq_length_filter, filter_testBit_eq_cons hx0 hx,
    List.length_cons]

/-- A scan of a word below `2^64`, given at least as many turns as the word has set bits,
reaches exactly the set bits of the word, lowest first. -/
theorem bitScan_eq_filter {n x : Nat} (hx : x < wordModulus) (hn : popcount x ≤ n) :
    Segment.bitScan n x = (List.range wordBits).filter x.testBit := by
  induction n generalizing x with
  | zero =>
    -- no turn is left, and none is needed: the word has no set bit below 64
    have h0 : ((List.range wordBits).filter x.testBit).length = 0 := by
      rw [← List.countP_eq_length_filter]
      exact Nat.le_zero.mp hn
    rw [List.length_eq_zero_iff.mp h0]
    rfl
  | succ n ih =>
    by_cases hx0 : x = 0
    · subst hx0
      simp [Segment.bitScan]
    · have hc := popcount_clearLowestBit hx0 hx
      rw [Segment.bitScan, if_neg hx0, filter_testBit_eq_cons hx0 hx,
        ih (clearLowestBit_lt hx) (by omega)]

/-- The scan loop ends after exactly as many turns as the word has set bits: clearing the lowest
set bit that many times leaves zero, and no fewer times does. -/
theorem clearLowestBit_iterate_popcount {x : Nat} (hx : x < wordModulus) :
    clearLowestBit^[popcount x] x = 0 ∧ ∀ t < popcount x, clearLowestBit^[t] x ≠ 0 := by
  induction h : popcount x generalizing x with
  | zero =>
    refine ⟨?_, fun t ht => absurd ht (Nat.not_lt_zero t)⟩
    rw [Function.iterate_zero_apply]
    -- a nonzero word would have a set bit
    refine Decidable.by_contra fun hx0 => ?_
    have hc := popcount_clearLowestBit hx0 hx
    omega
  | succ n ih =>
    have hx0 : x ≠ 0 := by
      rintro rfl
      simp at h
    have hc := popcount_clearLowestBit hx0 hx
    obtain ⟨hend, hbefore⟩ := ih (clearLowestBit_lt hx) (by omega)
    refine ⟨by rw [Function.iterate_succ_apply]; exact hend, fun t ht => ?_⟩
    cases t with
    | zero => exact hx0
    | succ t =>
      rw [Function.iterate_succ_apply]
      exact hbefore t (by omega)

namespace Segment

/-- Bit `b` of a segment's allocation word is set exactly when position `b` is allocated. -/
theorem testBit_allocationWord (g : Segment) (b : Nat) :
    g.allocationWord.testBit b = (decide (b < segmentSlots) && g.used.getD b false) := by
  -- the word is built from zero by setting the bit of each allocated position in turn
  have hfold : ∀ (l : List Nat) (w : Nat),
      (l.foldl (fun w a => if g.used.getD a false then w ||| 1 <<< a else w) w).testBit b =
        (w.testBit b || (decide (b ∈ l) && g.used.getD b false)) := by
    intro l
    induction l with
    | nil => simp
    | cons a l ih =>
      intro w
      rw [List.foldl_cons, ih]
      by_cases hab : a = b
      · subst hab
        by_cases ha : g.used.getD a false = true <;> simp [ha]
      · by_cases ha : g.used.getD a false = true <;>
          simp [ha, Nat.one_shiftLeft, hab, Ne.symm hab]
  rw [allocationWord, hfold]
  simp

theorem allocationWord_lt (g : Segment) : g.allocationWord < wordModulus := by
  show g.allocationWord < 2 ^ 64
  refine Nat.lt_pow_two_of_testBit _ fun i hi => ?_
  rw [testBit_allocationWord]
  simp [show ¬ i < segmentSlots from Nat.not_lt.mpr hi]

/-- The scan of a segment lists its allocated positions in ascending order, each once. -/
theorem livePositions_eq_filter (g : Segment) :
    g.livePositions = (List.range segmentSlots).filter fun b => g.used.getD b false := by
  rw [livePositions, bitScan_eq_filter g.allocationWord_lt (popcount_le _)]
  apply List.filter_congr
  intro b hb
  have hb' : b < segmentSlots := List.mem_range.mp hb
  rw [testBit_allocationWord, decide_eq_true hb', Bool.true_and]

end Segment

end GcRoots

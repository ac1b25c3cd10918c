namespace GcRoots

/-!
# Machine words

Handle words, object addresses, slot indices and counters are 64-bit machine words. The
library keeps them as natural numbers below `wordModulus`. Arithmetic that must not overflow
is checked: it yields `none` where the machine would trap. Arithmetic that wraps is reduced
modulo the word size. A bitmap word is read bit by bit: `trailingZeros` finds its lowest set
bit and `clearLowestBit` clears it.
-/

/-- The number of distinct 64-bit words. -/
def wordModulus : Nat := Nat.pow 2 64

/-- The number of distinct 32-bit words: claim parities are 32 bits wide. -/
def halfWordModulus : Nat := Nat.pow 2 32

/-- A sum that must fit in a word; `none` when it does not. -/
def checkedAdd (a b : Nat) : Option Nat :=
  if a + b < wordModulus then some (a + b) else none

/-- A product that must fit in a word; `none` when it does not. -/
def checkedMul (a b : Nat) : Option Nat :=
  if a * b < wordModulus then some (a * b) else none

/-- A signed offset added to a word, modulo the word size. -/
def wrappingOffset (a : Nat) (delta : Int) : Nat :=
  ((a + delta) % (wordModulus : Int)).toNat

/-- The number of bits of a word. -/
def wordBits : Nat := 64

/-- The number of trailing zero bits of a word: the position of its lowest set bit, or the word
width for the zero word. The bits `x ^ (x - 1)` sets are those up to the lowest set bit of `x`. -/
def trailingZeros (x : Nat) : Nat := if x = 0 then wordBits else Nat.log2 (x ^^^ (x - 1))

/-- A word with its lowest set bit cleared, `x & (x - 1)`. -/
def clearLowestBit (x : Nat) : Nat := x &&& (x - 1)

theorem checkedAdd_eq_some {a b c : Nat} (h : checkedAdd a b = some c) : c = a + b := by
  unfold checkedAdd at h
  split at h
  · exact (Option.some.inj h).symm
  · cases h

theorem wrappingOffset_lt (a : Nat) (delta : Int) : wrappingOffset a delta < wordModulus := by
  unfold wrappingOffset
  have hpos : (0 : Int) < (wordModulus : Int) := by decide
  have h1 := Int.emod_nonneg (a + delta) (Int.ne_of_gt hpos)
  have h2 := Int.emod_lt_of_pos (a + delta) hpos
  omega

end GcRoots

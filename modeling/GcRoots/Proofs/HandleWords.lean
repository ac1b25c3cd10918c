import GcRoots.Table
import Mathlib.Data.Set.Function

namespace GcRoots
namespace Handle

/-!
# Handle words

A handle's word is its index plus one, shifted left past the two tag bits, with the weak tag in
bit 0 and the local tag in bit 1. Decoding reads the payload (the word shifted right by two),
gives null when it is zero, and otherwise takes the weak tag first, so a word with both tag
bits set decodes as weak.

The largest index a word can carry is `maxHandleIndex`, one less than the largest payload. The
words of handles up to that index are exactly the machine words with a non-zero payload whose
two tag bits are not both set, and encoding and decoding are inverse bijections between the two
(`word_bijOn`). For each payload, the word with both tag bits set is the one that is no
handle's word: it decodes like the word two below it (`ofWord?_sub_two`).

Main statement: `word_round_trip`.
-/

/-- The payload of a handle's word is its index plus one. -/
@[simp] theorem word_div_four (h : Handle) : h.word / 4 = h.index + 1 := by
  cases h with
  | strong s => cases s <;> simp only [word, index] <;> omega
  | weak i => simp only [word, index]; omega

/-- The two tag bits of a handle's word are never both set. -/
theorem word_mod_four_ne (h : Handle) : h.word % 4 ≠ 3 := by
  cases h with
  | strong s => cases s <;> simp only [word] <;> omega
  | weak i => simp only [word]; omega

/-- The weak tag of a handle's word says whether the handle is weak. -/
@[simp] theorem wordIsWeak_word (h : Handle) : wordIsWeak h.word = h.isWeak := by
  cases h with
  | strong s =>
    cases s with
    | threadLocal i =>
      have h2 : ((i + 1) * 4 + 2) % 2 = 0 := by omega
      simp [wordIsWeak, word, isWeak, h2]
    | global i =>
      have h2 : ((i + 1) * 4) % 2 = 0 := by omega
      simp [wordIsWeak, word, isWeak, h2]
  | weak i =>
    have h2 : ((i + 1) * 4 + 1) % 2 = 1 := by omega
    simp [wordIsWeak, word, isWeak, h2]

/-- The word of a handle whose index is at most `maxHandleIndex` fits in a machine word. -/
theorem word_lt_wordModulus {h : Handle} (hi : h.index ≤ maxHandleIndex) : h.word < wordModulus := by
  have hmax : maxHandleIndex = 4611686018427387902 := rfl
  have hmod : wordModulus = 18446744073709551616 := rfl
  -- the word is four times its payload plus a tag of at most 2
  have hpay := word_div_four h
  have htag := word_mod_four_ne h
  omega

/-- A word decodes to null exactly when its payload is zero. -/
theorem ofWord?_eq_none_iff (w : Nat) : ofWord? w = none ↔ w / 4 = 0 := by
  unfold ofWord?
  split_ifs <;> simp_all

/-- A decoded handle's index is the word's payload less one. -/
theorem index_ofWord? {w : Nat} {h : Handle} (hd : ofWord? w = some h) : h.index + 1 = w / 4 := by
  unfold ofWord? at hd
  split_ifs at hd with h0 <;> (cases hd; simp only [index]; omega)

/-- A decoded machine word carries an index of at most `maxHandleIndex`. -/
theorem index_le_of_ofWord? {w : Nat} {h : Handle} (hw : w < wordModulus) (hd : ofWord? w = some h) :
    h.index ≤ maxHandleIndex := by
  have hmax : maxHandleIndex = 4611686018427387902 := rfl
  have hmod : wordModulus = 18446744073709551616 := rfl
  have := index_ofWord? hd
  omega

/-- A decoded word is its handle's word exactly when its tag bits are not both set. -/
theorem word_eq_iff_of_ofWord? {w : Nat} {h : Handle} (hd : ofWord? w = some h) :
    h.word = w ↔ w % 4 ≠ 3 := by
  constructor
  · rintro rfl
    exact word_mod_four_ne h
  · exact word_ofWord? hd

/-- A decoded handle is weak exactly when its word carries the weak tag. -/
theorem isWeak_ofWord? {w : Nat} {h : Handle} (hd : ofWord? w = some h) :
    h.isWeak = wordIsWeak w := by
  unfold ofWord? at hd
  split_ifs at hd with h0 hodd <;> (cases hd; simp [isWeak, wordIsWeak, hodd])

/-- A word with both tag bits set decodes like the word two below it, which carries the weak
tag alone. -/
theorem ofWord?_sub_two {w : Nat} (hw : w % 4 = 3) : ofWord? (w - 2) = ofWord? w := by
  have hpay : (w - 2) / 4 = w / 4 := by omega
  have hodd : w % 2 = 1 := by omega
  have hodd' : (w - 2) % 2 = 1 := by omega
  simp [ofWord?, hpay, hodd, hodd']

/-- The handles up to `maxHandleIndex` and the machine words with a non-zero payload whose tag
bits are not both set are in bijection through encoding. -/
theorem word_bijOn :
    Set.BijOn word {h | h.index ≤ maxHandleIndex}
      {w | w < wordModulus ∧ w / 4 ≠ 0 ∧ w % 4 ≠ 3} := by
  refine ⟨fun h hi => ⟨word_lt_wordModulus hi, by simp, word_mod_four_ne h⟩,
    fun a _ b _ hab => ?_, fun w hw => ?_⟩
  · -- decoding tells the two handles apart
    have hdec := ofWord?_word a
    rw [hab, ofWord?_word] at hdec
    exact (Option.some.inj hdec).symm
  · obtain ⟨hlt, hpay, htag⟩ := hw
    obtain ⟨h, hd⟩ := Option.ne_none_iff_exists'.mp (mt (ofWord?_eq_none_iff w).mp hpay)
    exact ⟨h, index_le_of_ofWord? hlt hd, word_ofWord? hd htag⟩

/-- Encoding and decoding handle words. A handle with index at most `maxHandleIndex` decodes
back from its word, which is a non-null machine word whose weak tag is the handle's. A machine
word decodes to null exactly when its payload is zero; otherwise it decodes to a handle with
index at most `maxHandleIndex`, whose word is the decoded word unless both tag bits are set, in
which case the word two below decodes to the same weak handle. So encoding is a bijection from
the bounded handles onto the words with a non-zero payload whose tag bits are not both set, and
decoding inverts it. -/
theorem word_round_trip :
    (∀ h : Handle, h.index ≤ maxHandleIndex →
      ofWord? h.word = some h ∧ h.word ≠ 0 ∧ h.word < wordModulus ∧
        wordIsWeak h.word = h.isWeak) ∧
    (∀ w < wordModulus, (ofWord? w = none ↔ w / 4 = 0) ∧
      ∀ h, ofWord? w = some h →
        h.index ≤ maxHandleIndex ∧ (h.word = w ↔ w % 4 ≠ 3) ∧
          (w % 4 = 3 → ofWord? (w - 2) = some h ∧ h.isWeak = true)) ∧
    Set.BijOn word {h | h.index ≤ maxHandleIndex}
      {w | w < wordModulus ∧ w / 4 ≠ 0 ∧ w % 4 ≠ 3} := by
  refine ⟨fun h hi => ⟨ofWord?_word h, Nat.pos_iff_ne_zero.mp (word_pos h),
      word_lt_wordModulus hi, wordIsWeak_word h⟩,
    fun w hw => ⟨ofWord?_eq_none_iff w, fun h hd => ⟨index_le_of_ofWord? hw hd,
      word_eq_iff_of_ofWord? hd, fun h3 => ?_⟩⟩, word_bijOn⟩
  -- both tag bits set: the weak tag is among them, and the word two below keeps it alone
  have hodd : w % 2 = 1 := by omega
  refine ⟨(ofWord?_sub_two h3).trans hd, ?_⟩
  rw [isWeak_ofWord? hd]
  simp [wordIsWeak, hodd]

end Handle
end GcRoots

import GcRoots.Text

namespace GcRoots

/-!
# Handles and handle words

A handle names one root slot. A strong handle names a slot of a thread's local handle blocks
(by local index) or of the global storage (by global index). A weak handle names a slot of the
weak global storage.

A handle travels as a machine word: the index plus one, shifted left by two, with tag bits
below. Bit 0 marks a weak handle and bit 1 a thread-local one. A word whose payload (the word
shifted right by two) is zero is the null handle.

Main statements: `ofWord?_word` (decoding a handle's word gives the handle back) and
`word_ofWord?` (a word that decodes re-encodes to itself unless both tag bits are set).
-/

/-- The slot a strong handle names: a local index (block number times 32 plus the slot in the
block) or a global storage index. -/
inductive SlotRef where
  | threadLocal (index : Nat)
  | global (index : Nat)
  deriving DecidableEq, Repr

/-- A non-null handle. -/
inductive Handle where
  | strong (slot : SlotRef)
  | weak (index : Nat)
  deriving DecidableEq, Repr

namespace Handle

/-- Shorthand for a strong thread-local handle. -/
abbrev local_ (i : Nat) : Handle := .strong (.threadLocal i)

/-- Shorthand for a strong global handle. -/
abbrev global (i : Nat) : Handle := .strong (.global i)

/-- The machine word of a handle. -/
def word : Handle → Nat
  | .strong (.threadLocal i) => (i + 1) * 4 + 2
  | .strong (.global i) => (i + 1) * 4
  | .weak i => (i + 1) * 4 + 1

/-- Decodes a handle word: payload zero is null; otherwise bit 0 selects weak, else bit 1
selects thread-local, else global. -/
def ofWord? (w : Nat) : Option Handle :=
  if w / 4 = 0 then none
  else if w % 2 = 1 then some (.weak (w / 4 - 1))
  else if w % 4 = 2 then some (.strong (.threadLocal (w / 4 - 1)))
  else some (.strong (.global (w / 4 - 1)))

/-- The word of an optional handle; null is zero. -/
def wordOf : Option Handle → Nat
  | none => 0
  | some h => h.word

/-- Whether a handle is weak. -/
def isWeak : Handle → Bool
  | .weak _ => true
  | .strong _ => false

/-- The slot index a handle carries, whatever its kind. -/
def index : Handle → Nat
  | .strong (.threadLocal i) | .strong (.global i) | .weak i => i

/-- Whether a handle word carries the weak tag, read from bit 0 alone without decoding. -/
def wordIsWeak (w : Nat) : Bool := w % 2 == 1

theorem ofWord?_word (h : Handle) : ofWord? h.word = some h := by
  cases h with
  | strong s =>
    cases s with
    | threadLocal i =>
      have h1 : ¬ ((i + 1) * 4 + 2) / 4 = 0 := by omega
      have h2 : ¬ ((i + 1) * 4 + 2) % 2 = 1 := by omega
      have h3 : ((i + 1) * 4 + 2) % 4 = 2 := by omega
      have h4 : ((i + 1) * 4 + 2) / 4 - 1 = i := by omega
      simp only [word, ofWord?, h1, h2, h3, h4, if_false, if_true]
    | global i =>
      have h1 : ¬ ((i + 1) * 4) / 4 = 0 := by omega
      have h2 : ¬ ((i + 1) * 4) % 2 = 1 := by omega
      have h3 : ¬ ((i + 1) * 4) % 4 = 2 := by omega
      have h4 : ((i + 1) * 4) / 4 - 1 = i := by omega
      simp only [word, ofWord?, h1, h2, h3, h4, if_false]
  | weak i =>
    have h1 : ¬ ((i + 1) * 4 + 1) / 4 = 0 := by omega
    have h2 : ((i + 1) * 4 + 1) % 2 = 1 := by omega
    have h4 : ((i + 1) * 4 + 1) / 4 - 1 = i := by omega
    simp only [word, ofWord?, h1, h2, h4, if_false, if_true]

/-- Local index 32, slot 0 of block 1, travels as the word 134. -/
example : (Handle.local_ 32).word = 134 ∧ ofWord? 134 = some (.local_ 32) := by decide

theorem word_ofWord? {w : Nat} {h : Handle} (hd : ofWord? w = some h) (hw : w % 4 ≠ 3) :
    h.word = w := by
  unfold ofWord? at hd
  split at hd
  · cases hd
  · split at hd
    · cases hd; simp only [word]; omega
    · split at hd
      · cases hd; simp only [word]; omega
      · cases hd; simp only [word]; omega

/-- With both tag bits set, a word decodes as a weak handle whose own word is two less. -/
example : ofWord? 7 = some (.weak 0) ∧ (Handle.weak 0).word = 5 := by decide

theorem word_pos (h : Handle) : 0 < h.word := by
  cases h with
  | strong s => cases s <;> simp [word]
  | weak i => simp [word]

end Handle

namespace SlotRef

/-- Diagnostic text of a slot reference, such as `Local(LocalIndex(3))`. -/
def text : SlotRef → String
  | .threadLocal i => "Local(LocalIndex(" ++ toString i ++ "))"
  | .global i => "Global(GlobalIndex(" ++ toString i ++ "))"

end SlotRef

namespace Handle

/-- Diagnostic text of a handle, such as `Strong(Global(GlobalIndex(0)))` or
`Weak(GlobalIndex(2))`. -/
def text : Handle → String
  | .strong s => "Strong(" ++ s.text ++ ")"
  | .weak i => "Weak(GlobalIndex(" ++ toString i ++ "))"

/-- Diagnostic text of a handle word, such as `RawHandle(0x1e)`. -/
def wordText (w : Nat) : String :=
  "RawHandle(" ++ Text.hex w ++ ")"

end Handle

/-- Diagnostic text of an object address, such as `ObjectRef(0x10)`. -/
def objectText (obj : Nat) : String :=
  "ObjectRef(" ++ Text.hex obj ++ ")"

/-- Diagnostic text of an optional object: `None` for the null address, else
`Some(ObjectRef(0x…))`. -/
def optionalObjectText (obj : Nat) : String :=
  if obj = 0 then "None" else "Some(" ++ objectText obj ++ ")"

end GcRoots

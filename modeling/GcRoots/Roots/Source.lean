import GcRoots.Visit

namespace GcRoots

/-!
# Root sources

A root source is asked before a scan (prologue), during it (a walk over its slots) and after it
(epilogue). This library knows four kinds of source:
- a listed source: a list of slots that counts its walks, prologues and epilogues;
- a counting source: no slots, but the same three counters;
- the empty source, which has nothing and counts nothing;
- a closure source: a list of slots that counts nothing.

The sources of a world form a table with one entry per category. `Sources.get_set` says that
replacing one entry leaves the others as they were.
-/

/-- A root source. -/
inductive Source where
  | listed (slots : Array Nat) (calls prologues epilogues : Nat)
  | counting (calls prologues epilogues : Nat)
  | empty
  | closure (slots : Array Nat)
  deriving Repr

namespace Source

/-- A listed source over the given slots, with its counters at zero. -/
def ofList (slots : Array Nat) : Source := .listed slots 0 0 0

/-- The source after a walk has begun. -/
def called : Source → Source
  | .listed s c p e => .listed s (c + 1) p e
  | .counting c p e => .counting (c + 1) p e
  | s => s

/-- The source after a prologue. -/
def prologue : Source → Source
  | .listed s c p e => .listed s c (p + 1) e
  | .counting c p e => .counting c (p + 1) e
  | s => s

/-- The source after an epilogue. -/
def epilogue : Source → Source
  | .listed s c p e => .listed s c p (e + 1)
  | .counting c p e => .counting c p (e + 1)
  | s => s

/-- The slots a walk goes through. -/
def slots : Source → Array Nat
  | .listed s _ _ _ => s
  | .closure s => s
  | _ => #[]

/-- Writes slot `i`; `none` when the source has no such slot. -/
def store? (src : Source) (i : Nat) (obj : Nat) : Option Source :=
  match src with
  | .listed s c p e => if i < s.size then some (.listed (s.set! i obj) c p e) else none
  | .closure s => if i < s.size then some (.closure (s.set! i obj)) else none
  | _ => none

end Source

/-- The source of every category: one entry for each category, in the order of `Category.all`.
A table of entries, rather than a function, keeps each update a value of its own, so reading a
source costs the same however many updates came before. -/
structure Sources where
  entries : List (Category × Source)
  keys : entries.map Prod.fst = Category.all

namespace Sources

/-- The sources that `f` gives each category. -/
def ofFn (f : Category → Source) : Sources where
  entries := Category.all.map fun c => (c, f c)
  keys := by simp [List.map_map, Function.comp_def]

/-- The source of category `c`. Every category has an entry, so the empty source stands in
for none. -/
def get (m : Sources) (c : Category) : Source :=
  (m.entries.lookup c).getD .empty

/-- Replaces the source of one category. -/
def set (m : Sources) (c : Category) (s : Source) : Sources where
  entries := m.entries.map fun p => if p.1 = c then (c, s) else p
  keys := by
    rw [← m.keys, List.map_map]
    apply List.map_congr_left
    intro p _
    by_cases h : p.1 = c <;> simp [h]

/-- Changes the source of one category. -/
def modify (m : Sources) (c : Category) (g : Source → Source) : Sources :=
  m.set c (g (m.get c))

theorem get_ofFn (f : Category → Source) (c : Category) : (ofFn f).get c = f c := by
  cases c <;> rfl

theorem lookup_replace_self (c : Category) (s : Source) :
    ∀ l : List (Category × Source), c ∈ l.map Prod.fst →
      (l.map fun p => if p.1 = c then (c, s) else p).lookup c = some s
  | [], h => by simp at h
  | (k, v) :: l, h => by
    by_cases hk : k = c
    · simp [hk]
    · have hc : c ∈ l.map Prod.fst := by
        simp only [List.map_cons, List.mem_cons] at h
        rcases h with h | h
        · exact absurd h.symm hk
        · exact h
      have hb : (c == k) = false := by simpa [beq_iff_eq] using Ne.symm hk
      simp [List.lookup_cons, hk, hb, lookup_replace_self c s l hc]

theorem lookup_replace_other (c c' : Category) (s : Source) (h : c' ≠ c) :
    ∀ l : List (Category × Source),
      (l.map fun p => if p.1 = c then (c, s) else p).lookup c' = l.lookup c'
  | [] => rfl
  | (k, v) :: l => by
    by_cases hk : k = c
    · have hb : (c' == c) = false := by simpa [beq_iff_eq] using h
      simp [List.lookup_cons, hk, hb, lookup_replace_other c c' s h l]
    · by_cases hk' : c' = k
      · simp [hk, hk']
      · have hb : (c' == k) = false := by simpa [beq_iff_eq] using hk'
        simp [List.lookup_cons, hk, hb, lookup_replace_other c c' s h l]

theorem mem_keys (m : Sources) (c : Category) : c ∈ m.entries.map Prod.fst := by
  rw [m.keys]; cases c <;> decide

/-- Reading after a replacement gives the new source for its category and the old one
elsewhere. -/
theorem get_set (m : Sources) (c c' : Category) (s : Source) :
    (m.set c s).get c' = if c' = c then s else m.get c' := by
  by_cases h : c' = c
  · rw [h]
    simp [get, set, lookup_replace_self c s m.entries (mem_keys m c)]
  · simp [get, set, h, lookup_replace_other c c' s h m.entries]

theorem get_modify (m : Sources) (c c' : Category) (g : Source → Source) :
    (m.modify c g).get c' = if c' = c then g (m.get c) else m.get c' := by
  simp [modify, get_set]

end Sources

end GcRoots

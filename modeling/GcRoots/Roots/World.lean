import GcRoots.Thread.Registry
import GcRoots.Roots.Source

namespace GcRoots

/-!
# The root world

Everything a root scan reaches: the registry (with the handle table and the threads), the
configuration of which roots are weak, the root sources and, when installed, the stack roots
of each thread by number.
-/

/-- Which roots a scan treats as weak. -/
structure RootsConfig where
  /-- Weak roots are scanned by the weak iterator rather than as strong roots. -/
  weakRoots : Bool := true
  /-- Weak global handles are scanned concurrently rather than by the weak iterator. -/
  concurrentWeakGlobals : Bool := true
  deriving Repr

/-- Diagnostic text of a roots configuration. -/
def RootsConfig.text (c : RootsConfig) : String :=
  "RootsConfig \x7b weak_roots: " ++ toString c.weakRoots ++
    ", concurrent_jni_weak_global_handles: " ++ toString c.concurrentWeakGlobals ++ " \x7d"

/-- The root world. -/
structure World where
  registry : Registry
  roots : RootsConfig
  sources : Sources
  /-- Stack roots by thread number, when stack roots are installed. -/
  stackRoots : Option (Array (Array Nat))

namespace World

/-- Reads a root slot; missing slots read as null. -/
def readSlot (w : World) : SlotAddr → Nat
  | .global i => (w.registry.table.globals.slot? i).getD 0
  | .weak i => (w.registry.table.weaks.slot? i).getD 0
  | .threadLocal i => (w.registry.table.pool.slot? i).getD 0
  | .source c i => (w.sources.get c).slots.getD i 0
  | .stack t i => ((w.stackRoots.bind fun s => s[t]?).bind fun s => s[i]?).getD 0
  | .storage _ => 0

/-- Writes a root slot; missing slots are left alone. -/
def writeSlot (w : World) (a : SlotAddr) (v : Nat) : World :=
  let r := w.registry
  let t := r.table
  match a with
  | .global i => { w with registry := { r with table := { t with globals := t.globals.store i v } } }
  | .weak i => { w with registry := { r with table := { t with weaks := t.weaks.store i v } } }
  | .threadLocal i => { w with registry := { r with table := { t with pool := t.pool.store i v } } }
  | .source c i => { w with sources := w.sources.modify c fun s => (s.store? i v).getD s }
  | .stack tn i =>
    { w with stackRoots := w.stackRoots.map fun s =>
        match s[tn]? with
        | some row => if i < row.size then s.set! tn (row.set! i v) else s
        | none => s }
  | .storage _ => w

instance : SlotMemory World := ⟨World.readSlot, World.writeSlot⟩

/-- Diagnostic text of the root set. -/
def text (w : World) : String :=
  "RootSet \x7b registry: " ++ w.registry.text ++ ", config: " ++ w.roots.text ++ ", .. \x7d"

end World

end GcRoots

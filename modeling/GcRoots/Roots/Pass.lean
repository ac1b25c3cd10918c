import GcRoots.Roots.World
import GcRoots.Roots.Claim

namespace GcRoots

/-!
# Root passes

A root pass scans the roots of the world with one or more worker calls. Four kinds exist:

* strong: every strong root, thread by thread for the threads it claims; the weak roots too
  when the configuration does not treat them as weak;
* weak: the weak sources and, unless they are scanned concurrently, the weak global handles,
  clearing dead entries;
* concurrent weak: the weak global handles, segment by segment, without a safepoint;
* thread: the threads only.

The strong, weak and thread passes need the registry's own safepoint. The strong and thread
passes advance the claim parity, claim each registered thread once, and check when they end
that every registered thread was claimed. Each worker call records a `root_pass` span, and
setting up and tearing down a pass record events.
-/

/-- A walk over the world that records visits. -/
abbrev Scan := Action (Sweep World)

/-- Runs a walk on a world and returns its visits. -/
def Scan.visitsOf {α : Type} (m : Scan α) : Action World (α × Array Visit) := fun s =>
  match m ({ state := s.1 }, s.2) with
  | .ok a (sw, j) => .ok (a, sw.visits) (sw.state, j)
  | .error e (sw, j) => .error e (sw.state, j)

namespace Scan

/-- Walks the slots of one source: strongly, or weakly with a liveness test. The walk counts
as a call of the source. -/
def source (c : Category) (alive : Option Liveness) (rw : Rewrite) : Scan Unit :=
  Action.update fun sw =>
    let w := sw.state
    let src := w.sources.get c
    let sw' : Sweep World := { sw with state := { w with sources := w.sources.set c src.called } }
    let addrs := (List.range src.slots.size).map (SlotAddr.source c)
    match alive with
    | none => sw'.strong rw addrs
    | some a => sw'.weak a rw addrs

/-- Walks the global handles. -/
def globals (rw : Rewrite) : Scan Unit :=
  Action.update fun sw =>
    sw.strong rw (sw.state.registry.table.globals.liveIndices.map SlotAddr.global)

/-- Walks the given segments of the weak global handles with a liveness test. -/
def weakSegments (alive : Liveness) (rw : Rewrite) (segs : List Nat) : Scan Unit :=
  Action.update fun sw =>
    sw.weak alive rw ((sw.state.registry.table.weaks.liveIndicesIn segs).map SlotAddr.weak)

/-- Walks the given segments of the weak global handles as strong roots. -/
def weakSegmentsStrong (rw : Rewrite) (segs : List Nat) : Scan Unit :=
  Action.update fun sw =>
    sw.strong rw ((sw.state.registry.table.weaks.liveIndicesIn segs).map SlotAddr.weak)

/-- Walks all weak global handles with a liveness test. -/
def weakGlobals (alive : Liveness) (rw : Rewrite) : Scan Unit :=
  Action.update fun sw =>
    sw.weak alive rw (sw.state.registry.table.weaks.liveIndices.map SlotAddr.weak)

/-- Walks the local handles of thread `t`, all frames, innermost first. -/
def threadLocals (t : Nat) (rw : Rewrite) : Scan Unit :=
  Action.update fun sw =>
    let r := sw.state.registry
    match r.contexts[t]? with
    | some c =>
      match c.chain with
      | some ch => sw.strong rw ((ch.handedOut r.table.pool).map SlotAddr.threadLocal)
      | none => sw
    | none => sw

/-- Walks the stack roots of thread `t`, when stack roots are installed. -/
def stackRoots (t : Nat) (rw : Rewrite) : Scan Unit :=
  Action.update fun sw =>
    match sw.state.stackRoots with
    | some rows =>
      match rows[t]? with
      | some row => sw.strong rw ((List.range row.size).map (SlotAddr.stack t))
      | none => sw
    | none => sw

/-- Claims thread `t` for parity `p` and, if the claim succeeds, walks its locals and then its
stack roots. -/
def claimedThread (p : Nat) (rw : Rewrite) (t : Nat) : Scan Unit := do
  let sw ← Action.read
  let r := sw.state.registry
  match r.contexts[t]? with
  | some c =>
    if c.attached then
      let (c', ok) := c.claim p
      Action.write { sw with state := { sw.state with
        registry := { r with contexts := r.contexts.set! t c' } } }
      if ok then
        threadLocals t rw
        stackRoots t rw
  | none => return

/-- Walks every registered thread that parity `p` lets this worker claim, in attach order. -/
def threads (p : Nat) (rw : Rewrite) : Scan Unit := do
  let n := (← Action.read).state.registry.contexts.size
  (List.range n).forM (claimedThread p rw)

/-- Calls the prologue of one source. -/
def prologue (c : Category) : Action World Unit :=
  Action.update fun w => { w with sources := w.sources.modify c Source.prologue }

/-- Calls the epilogue of one source. -/
def epilogue (c : Category) : Action World Unit :=
  Action.update fun w => { w with sources := w.sources.modify c Source.epilogue }

end Scan

/-- Checks that a pass runs at its registry's safepoint. -/
def checkSafepoint (foreign : Bool) : Action World Unit := do
  if foreign then Action.fail .foreignSafepoint
  if !(← Action.read).registry.atSafepoint then Action.fail .notAtSafepoint

/-- Advances the registry's claim parity. -/
def advanceParity : Action World Nat :=
  Action.focus (fun w => w.registry) (fun w r => { w with registry := r }) Registry.advanceParity

/-- Fails unless every registered thread carries the registry's parity. -/
def checkAllClaimed : Action World Unit := do
  Action.ofExcept (← Action.read).registry.assertAllClaimed

/-- Diagnostic text of a list of groups. -/
def groupsText (gs : List Claim) : String :=
  "[" ++ ", ".intercalate (gs.map Claim.text) ++ "]"

/-- The strong pass. -/
structure StrongPass where
  parity : Nat
  scan : Nat
  vmUniverse : Claim := .serial "universe"
  jniHandles : Claim := .serial "jni_handles"
  jniWeakHandles : Claim := .serial "jni_weak_handles"
  objectSynchronizer : Claim := .serial "object_synchronizer"
  management : Claim := .serial "management"
  jvmtiExport : Claim := .serial "jvmti_export"
  jvmtiWeakExport : Claim := .serial "jvmti_weak_export"
  trace : Claim := .serial "trace"
  systemDictionary : Claim := .serial "system_dictionary"
  classLoaderDataGraph : Claim := .parallel "class_loader_data_graph"
  threads : Claim := .parallel "threads"
  codeCache : Claim := .parallel "code_cache"
  stringTable : Claim := .parallel "string_table"

namespace StrongPass

/-- Sets up a strong pass: checks the safepoint, advances the parity, runs the prologues of
the string table, the class loader data graph and the code cache, and begins a scan. -/
def start (foreign : Bool) : Action World StrongPass := do
  checkSafepoint foreign
  let parity ← advanceParity
  Scan.prologue .stringTable
  Scan.prologue .classLoaderDataGraph
  Scan.prologue .codeCache
  let scan ← Action.nextScan
  Action.emit (.iteratorSetup .strong scan (some parity))
  return { parity, scan }

/-- The groups in reporting order. -/
def groups (it : StrongPass) : List Claim :=
  [it.vmUniverse, it.jniHandles, it.objectSynchronizer, it.management, it.jvmtiExport,
    it.systemDictionary, it.classLoaderDataGraph, it.threads, it.codeCache, it.jniWeakHandles,
    it.jvmtiWeakExport, it.trace, it.stringTable]

/-- One worker call. Weak sources are walked as strong roots when the configuration does not
treat them as weak; otherwise the weak export alone is walked when asked for. -/
def work (it : StrongPass) (rw : Rewrite) (weakExport : Bool) : Scan StrongPass := do
  Action.emit (.rootPass .strong it.scan)
  let (_, u) ← it.vmUniverse.run (Scan.source .vmUniverse none rw)
  let (_, jh) ← it.jniHandles.run (Scan.globals rw)
  let (_, os) ← it.objectSynchronizer.run (Scan.source .objectSynchronizer none rw)
  let (_, mg) ← it.management.run (Scan.source .management none rw)
  let (_, je) ← it.jvmtiExport.run (Scan.source .jvmtiExport none rw)
  let (_, sd) ← it.systemDictionary.run (Scan.source .systemDictionary none rw)
  let (_, cl) ← it.classLoaderDataGraph.run (Scan.source .classLoaderDataGraph none rw)
  let (_, th) ← it.threads.run (Scan.threads it.parity rw)
  let (_, cc) ← it.codeCache.run (Scan.source .codeCache none rw)
  let it := { it with vmUniverse := u, jniHandles := jh, objectSynchronizer := os,
                      management := mg, jvmtiExport := je, systemDictionary := sd,
                      classLoaderDataGraph := cl, threads := th, codeCache := cc }
  if !(← Action.read).state.roots.weakRoots then
    let (_, jw) ← it.jniWeakHandles.run (Scan.weakGlobals .everything rw)
    let (_, we) ← it.jvmtiWeakExport.run (Scan.source .jvmtiWeakExport (some .everything) rw)
    let (_, tr) ← it.trace.run (Scan.source .trace (some .everything) rw)
    let (_, st) ← it.stringTable.run (Scan.source .stringTable (some .everything) rw)
    return { it with jniWeakHandles := jw, jvmtiWeakExport := we, trace := tr, stringTable := st }
  else if weakExport then
    let (_, we) ← it.jvmtiWeakExport.run (Scan.source .jvmtiWeakExport (some .everything) rw)
    return { it with jvmtiWeakExport := we }
  else return it

/-- Tears the pass down: epilogues of the code cache and the export source, then the check
that every registered thread was claimed, then the teardown event. -/
def finish (it : StrongPass) : Action World Unit := do
  Scan.epilogue .codeCache
  Scan.epilogue .jvmtiExport
  checkAllClaimed
  Action.emit (.iteratorTeardown .strong it.scan)

/-- Diagnostic text. -/
def text (it : StrongPass) : String :=
  "StrongRootIterator \x7b parity: " ++ toString it.parity ++ ", groups: " ++
    groupsText it.groups ++ ", .. \x7d"

end StrongPass

/-- The weak pass. -/
structure WeakPass where
  scan : Nat
  jniWeakHandles : Claim := .serial "jni_weak_handles"
  jvmtiWeakExport : Claim := .serial "jvmti_weak_export"
  trace : Claim := .serial "trace"
  symbolTable : Claim := .parallel "symbol_table"
  stringTable : Claim := .parallel "string_table"

namespace WeakPass

/-- Sets up a weak pass: checks the safepoint, runs the prologues of the symbol and string
tables, and begins a scan. -/
def start (foreign : Bool) : Action World WeakPass := do
  checkSafepoint foreign
  Scan.prologue .symbolTable
  Scan.prologue .stringTable
  let scan ← Action.nextScan
  Action.emit (.iteratorSetup .weak scan none)
  return { scan }

/-- The groups in reporting order. -/
def groups (it : WeakPass) : List Claim :=
  [it.symbolTable, it.jniWeakHandles, it.jvmtiWeakExport, it.trace, it.stringTable]

/-- One worker call with a liveness test. -/
def work (it : WeakPass) (alive : Liveness) (rw : Rewrite) : Scan WeakPass := do
  Action.emit (.rootPass .weak it.scan)
  let (_, sy) ← it.symbolTable.run (Scan.source .symbolTable (some alive) rw)
  let it := { it with symbolTable := sy }
  let cfg := (← Action.read).state.roots
  if cfg.weakRoots then
    let it ← if !cfg.concurrentWeakGlobals then do
        let (_, jw) ← it.jniWeakHandles.run (Scan.weakGlobals alive rw)
        pure { it with jniWeakHandles := jw }
      else pure it
    let (_, we) ← it.jvmtiWeakExport.run (Scan.source .jvmtiWeakExport (some alive) rw)
    let (_, tr) ← it.trace.run (Scan.source .trace (some alive) rw)
    let (_, st) ← it.stringTable.run (Scan.source .stringTable (some alive) rw)
    return { it with jvmtiWeakExport := we, trace := tr, stringTable := st }
  else return it

/-- Tears the pass down: epilogues of the symbol and string tables, then the teardown event. -/
def finish (it : WeakPass) : Action World Unit := do
  Scan.epilogue .symbolTable
  Scan.epilogue .stringTable
  Action.emit (.iteratorTeardown .weak it.scan)

/-- Diagnostic text. -/
def text (it : WeakPass) : String :=
  "WeakRootIterator \x7b groups: " ++ groupsText it.groups ++ ", .. \x7d"

end WeakPass

/-- The concurrent weak pass over the weak global handles. -/
structure ConcurrentWeakPass where
  scan : Nat
  cursor : SlotStorage.Cursor
  jniWeakHandles : Claim := .parallel "jni_weak_handles"

namespace ConcurrentWeakPass

/-- Sets up a concurrent weak pass: begins a scan and takes a cursor over the weak global
handles' segments. -/
def start : Action World ConcurrentWeakPass := do
  let scan ← Action.nextScan
  Action.emit (.iteratorSetup .concurrentWeak scan none)
  return { scan, cursor := (← Action.read).registry.table.weaks.cursor }

/-- One worker call; `alive` is absent for a walk without liveness test. The pass does nothing
unless weak roots are weak and scanned concurrently. -/
def work (it : ConcurrentWeakPass) (alive : Option Liveness) (rw : Rewrite) :
    Scan ConcurrentWeakPass := do
  let cfg := (← Action.read).state.roots
  if cfg.weakRoots && cfg.concurrentWeakGlobals then
    Action.emit (.rootPass .concurrentWeak it.scan)
    let (segs, cursor) := it.cursor.claimAll
    let body := match alive with
      | some a => Scan.weakSegments a rw segs
      | none => Scan.weakSegmentsStrong rw segs
    let (_, g) ← it.jniWeakHandles.run body
    return { it with cursor, jniWeakHandles := g }
  else return it

/-- Tears the pass down. -/
def finish (it : ConcurrentWeakPass) : Action World Unit :=
  Action.emit (.iteratorTeardown .concurrentWeak it.scan)

/-- Diagnostic text. -/
def text (it : ConcurrentWeakPass) : String :=
  "ConcurrentWeakRootIterator \x7b par_state: " ++ it.cursor.text ++ ", group: " ++
    it.jniWeakHandles.text ++ ", .. \x7d"

end ConcurrentWeakPass

/-- The thread pass. -/
structure ThreadPass where
  parity : Nat
  scan : Nat
  threads : Claim := .parallel "threads"

namespace ThreadPass

/-- Sets up a thread pass: checks the safepoint, advances the parity and begins a scan. -/
def start (foreign : Bool) : Action World ThreadPass := do
  checkSafepoint foreign
  let parity ← advanceParity
  let scan ← Action.nextScan
  Action.emit (.iteratorSetup .thread scan (some parity))
  return { parity, scan }

/-- One worker call. -/
def work (it : ThreadPass) (rw : Rewrite) : Scan ThreadPass := do
  Action.emit (.rootPass .thread it.scan)
  let (_, th) ← it.threads.run (Scan.threads it.parity rw)
  return { it with threads := th }

/-- Tears the pass down: the check that every registered thread was claimed, then the teardown
event. -/
def finish (it : ThreadPass) : Action World Unit := do
  checkAllClaimed
  Action.emit (.iteratorTeardown .thread it.scan)

/-- Diagnostic text. -/
def text (it : ThreadPass) : String :=
  "ThreadRootIterator \x7b parity: " ++ toString it.parity ++ ", group: " ++ it.threads.text ++
    ", .. \x7d"

end ThreadPass

/-- A pass of any of the four kinds, as it stands between worker calls. -/
inductive Pass where
  | strong (it : StrongPass)
  | weak (it : WeakPass)
  | concurrentWeak (it : ConcurrentWeakPass)
  | thread (it : ThreadPass)

namespace Pass

/-- The pass's groups in reporting order. -/
def groups : Pass → List Claim
  | .strong it => it.groups
  | .weak it => it.groups
  | .concurrentWeak it => [it.jniWeakHandles]
  | .thread it => [it.threads]

/-- The claim parity of a strong or thread pass. -/
def parity? : Pass → Option Nat
  | .strong it => some it.parity
  | .thread it => some it.parity
  | _ => none

/-- Tears the pass down. -/
def finish : Pass → Action World Unit
  | .strong it => it.finish
  | .weak it => it.finish
  | .concurrentWeak it => it.finish
  | .thread it => it.finish

/-- Diagnostic text. -/
def text : Pass → String
  | .strong it => it.text
  | .weak it => it.text
  | .concurrentWeak it => it.text
  | .thread it => it.text

end Pass

end GcRoots

import GcRoots.Word
import GcRoots.Text
import GcRoots.Handle
import GcRoots.Fault
import GcRoots.Trace
import GcRoots.Action
import GcRoots.Arena
import GcRoots.Storage.Basic
import GcRoots.Block.Basic
import GcRoots.Block.Chain
import GcRoots.Table
import GcRoots.Thread.Context
import GcRoots.Thread.Registry
import GcRoots.Thread.FrameScope
import GcRoots.Roots.Category
import GcRoots.Visit
import GcRoots.Roots.Source
import GcRoots.Roots.World
import GcRoots.Roots.Claim
import GcRoots.Roots.Pass
import GcRoots.Scenario.Value
import GcRoots.Scenario.Value.Reader
import GcRoots.Scenario.Value.Printer
import GcRoots.Scenario.Run
import GcRoots.Scenario.Visitor
import GcRoots.Scenario.Raw
import GcRoots.Scenario.Script
import GcRoots.Scenario.StorageKind
import GcRoots.Scenario.ClaimKind
import GcRoots.Scenario.ChainKind
import GcRoots.Scenario.Table.Setup
import GcRoots.Scenario.Table.Ops
import GcRoots.Scenario.Table.Worker
import GcRoots.Scenario.Table.Step
import GcRoots.Scenario.Answer
import GcRoots.Proofs.Final
import GcRoots.Proofs.BitScan
import GcRoots.Proofs.Sweep
import GcRoots.Proofs.Pool
import GcRoots.Proofs.Frame
import GcRoots.Proofs.Chain
import GcRoots.Proofs.Registry
import GcRoots.Proofs.Walk
import GcRoots.Proofs.Ops
import GcRoots.Proofs.Scans
import GcRoots.Proofs.Conservation
import GcRoots.Proofs.Claiming
import GcRoots.Proofs.StrongCall
import GcRoots.Proofs.Coverage
import GcRoots.Proofs.StrongClaiming
import GcRoots.Proofs.Storage
import GcRoots.Proofs.Isolation
import GcRoots.Proofs.Capacity
import GcRoots.Proofs.HandleWords
import GcRoots.Proofs.StorageSet
import GcRoots.Proofs.Overflow
import GcRoots.Proofs.Atomicity
import GcRoots.Proofs.Scoping
import GcRoots.Proofs.WeakPass
import GcRoots.Proofs.ConcurrentWeak
import GcRoots.Proofs.Allocation
import GcRoots.Proofs.Growth
import GcRoots.Proofs.FrameCycle
import GcRoots.Proofs.GuardedResolution
import GcRoots.Proofs.StorageScan
import GcRoots.Proofs.ChunkedArena

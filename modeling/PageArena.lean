import PageArena.Allocator.BatchHeap
import PageArena.Allocator.Layout
import PageArena.Allocator.Pool
import PageArena.Allocator.Strategy
import PageArena.Duration
import PageArena.Errno
import PageArena.Error.Arena
import PageArena.Error.Cause
import PageArena.Error.Host
import PageArena.Event
import PageArena.Host.Geometry
import PageArena.Host.Inquiry
import PageArena.Host.Survey
import PageArena.Kernel
import PageArena.Memory
import PageArena.OsCall
import PageArena.OsFamily
import PageArena.Proofs.Word
import PageArena.Raw.Allocation
import PageArena.Raw.Buffers
import PageArena.Raw.Heap
import PageArena.Raw.Observer
import PageArena.Raw.Surface
import PageArena.Region.Basic
import PageArena.Region.Operations
import PageArena.Scope
import PageArena.Session.Basic
import PageArena.Session.Perform
import PageArena.Session.Run
import PageArena.Session.Slots
import PageArena.Session.Step
import PageArena.Text.Form
import PageArena.Text.Quoted
import PageArena.Tuning
import PageArena.VirtualMemory
import PageArena.Word
import PageArena.World
import PageArena.Proofs.Arithmetic
import PageArena.Proofs.SystemCall
import PageArena.Proofs.Region.Course
import PageArena.Proofs.Region.Continues
import PageArena.Proofs.Region.Run
import PageArena.Proofs.Region.Rollback
import PageArena.Proofs.Region.LiveSpans
import PageArena.Proofs.Region.Access
import PageArena.Proofs.Region.FirstUse
import PageArena.Proofs.Region.Handles
import PageArena.Proofs.Region.Undo
import PageArena.Proofs.Region.Steady
import PageArena.Proofs.Region.Erasure
import PageArena.Proofs.Region.Outline
import PageArena.Proofs.Region.Indistinct
import PageArena.Proofs.Allocator.Pool
import PageArena.Proofs.Allocator.Sharing
import PageArena.Proofs.Allocator.Occasions
import PageArena.Proofs.Allocator.Pacing
import PageArena.Proofs.Allocator.Tenure
import PageArena.Proofs.Allocator.Loss
import PageArena.Proofs.Allocator.LiveSpans
import PageArena.Proofs.Allocator.Contents
import PageArena.Proofs.Allocator.Stays
import PageArena.Proofs.Allocator.BatchHeap
import PageArena.Proofs.Allocator.Depot
import PageArena.Proofs.Silence
import PageArena.Proofs.Region.Release
import PageArena.Proofs.Region.TurnedDown
import PageArena.Proofs.Allocator.Supplied
import PageArena.Proofs.Allocator.SideBySide
import PageArena.Proofs.Session.Holding
import PageArena.Proofs.Session.Course
import PageArena.Proofs.Session.Acts
import PageArena.Proofs.Session.Ending
import PageArena.Proofs.Session.Release
import PageArena.Proofs.Session.Upkeep
import PageArena.Proofs.Session.Scopes
import PageArena.Proofs.Reports
import PageArena.Proofs.Defects
import PageArena.Proofs.Region.Exact
import PageArena.Proofs.Session.Zeroed
import PageArena.Proofs.Host
import PageArena.Proofs.Raw.Custody
import PageArena.Proofs.Raw.Bytes
import PageArena.Proofs.Rounding
import PageArena.Proofs.Region.Spare
import PageArena.Proofs.Session.Sparing

import Enlil.Lib.AlignedBlock
import Enlil.Lib.Run
import Enlil.Lib.Memory
import Enlil.Lib.Machine
import Enlil.Lib.Redo
import Enlil.Lib.LinkedQueue
import Enlil.Lib.SortedMap
import Enlil.Pmm.Buddy
import Enlil.Pmm.BuddyInvariant
import Enlil.Pmm.BuddyCalls
import Enlil.Pmm.BuddyRuns
import Enlil.Pmm.DoubleFree
import Enlil.Pmm.Slab
import Enlil.Pmm.SlabInvariant
import Enlil.Pmm.SlabCalls
import Enlil.Pmm.SlabRuns
import Enlil.Ext4.Volume
import Enlil.Ext4.Cache
import Enlil.Ext4.Journal
import Enlil.Ext4.JournalWrites
import Enlil.Ext4.JournalHeader
import Enlil.Ext4.JournalCrash
import Enlil.Ext4.Stable
import Enlil.Ext4.CommitRuns
import Enlil.Ext4.FailedCommits
import Enlil.Sched.Task
import Enlil.Sched.Process
import Enlil.Sched.RunQueue
import Enlil.Sched.Dispatch
import Enlil.Sched.QueueCalls
import Enlil.Sched.QueueRuns
import Enlil.Sched.Turns
import Enlil.Sched.Urgency
import Enlil.Sched.Lifetime
import Enlil.Sched.ProcessCounts
import Enlil.Sched.ProcessLog
import Enlil.Sched.ProcessRuns
import Enlil.Sched.ForkLimit
import Enlil.Ksem.Semaphore
import Enlil.Ksem.Handles
import Enlil.Ksem.Tokens
import Enlil.Ksem.TokenRuns
import Enlil.Cap.Table
import Enlil.Cap.Tokens
import Enlil.Cap.Confinement
import Enlil.Futex.Table
import Enlil.Futex.Queues
import Enlil.Futex.Requeue
import Enlil.Futex.Calls
import Enlil.Futex.Wakeups
import Enlil.Kmon.Monitor
import Enlil.Kmon.Sections
import Enlil.Kmon.Ownership
import Enlil.Kmon.Exclusion
import Enlil.Kmon.Clients
import Enlil.Kmon.Grants
import Enlil.Ipc.Port
import Enlil.Ipc.Steps
import Enlil.Ipc.Clients
import Enlil.Ipc.Requests
import Enlil.Mmu.Space
import Enlil.Mmu.UserCopy
import Enlil.Mmu.Regions
import Enlil.Mmu.Spaces
import Enlil.Signal.Signal
import Enlil.Signal.Sigreturn
import Enlil.Signal.Tasks
import Enlil.Signal.Masks
import Enlil.Signal.Kill
import Enlil.Pmm.Ledger
import Enlil.Mmu.Accounts
import Enlil.Mmu.Mappings
import Enlil.Mmu.Fits
import Enlil.Mmu.RegionAccounts
import Enlil.Mmu.CopyOnWrite
import Enlil.Mmu.SpaceAccounts
import Enlil.Mmu.CloneAccounts
import Enlil.Mmu.Sessions
import Enlil.Mmu.References
import Enlil.Mmu.Isolation
import Enlil.Mmu.UserWrites
import Enlil.Signal.RoundTrip
import Enlil.Mmu.Extents
import Enlil.Mmu.Tracking
import Enlil.Terminal.Acknowledged
import Enlil.Syscall.Results
import Enlil.Sysv.Stale
import Enlil.Fd.Edges
import Enlil.Fd.Watches
import Enlil.Fd.Interests
import Enlil.Fd.TrafficAccounts
import Enlil.Vfs.Readonly
import Enlil.Terminal.Cursor
import Enlil.Net.Stream
import Enlil.Net.Sender
import Enlil.Vfsd.MountTable
import Enlil.Initrd.Listing
import Enlil.Vfsd.ReadonlyMounts
import Enlil.Devfs.Sessions
import Enlil.Pmm.FreeRange
import Enlil.Pthread.Mutex
import Enlil.Pthread.Exit
import Enlil.Drivers.Blk
import Enlil.Wld.Framing
import Enlil.Wld.Isolation
import Enlil.Wld.Survival
import Enlil.Wld.Objects
import Enlil.Sched.TimedWaits
import Enlil.Kmon.Broadcast
import Enlil.Mmu.Local
import Enlil.Mmu.Atomic
import Enlil.Mmu.Remap
import Enlil.Timer.Clock
import Enlil.Sysv.Semops
import Enlil.Sched.IntervalTimers
import Enlil.Fd.Seek
import Enlil.Fd.Vectored
import Enlil.Fd.Getdents
import Enlil.Lib.Reach
import Enlil.Flock.Locks
import Enlil.Flock.Deadlock
import Enlil.Lib.Records
import Enlil.Terminal.Canonical
import Enlil.Terminal.Tty
import Enlil.Terminal.CanonicalRuns
import Enlil.Lib.LinkWalk
import Enlil.Vfs.Components
import Enlil.Vfs.Resolution
import Enlil.Vfs.ResolutionLoop
import Enlil.Vmm.Areas
import Enlil.Vmm.WriteBack
import Enlil.Vmm.Shared
import Enlil.Vfsd.Fallback
import Enlil.Terminal.Utf8
import Enlil.Net.Checksum
import Enlil.Net.Wire
import Enlil.Libc.Strtol
import Enlil.Libc.Fnmatch
import Enlil.Libc.Malloc
import Enlil.Libc.MallocRuns

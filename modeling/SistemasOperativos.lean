import SistemasOperativos.Bootloader.Bmfs
import SistemasOperativos.Bootloader.BmfsAdding
import SistemasOperativos.Bootloader.BmfsCreate
import SistemasOperativos.Bootloader.BmfsDirectory
import SistemasOperativos.Bootloader.BmfsSession
import SistemasOperativos.Bootloader.BmfsStore
import SistemasOperativos.Bootloader.DiskImage
import SistemasOperativos.Foundation.ByteMemory
import SistemasOperativos.Foundation.CString
import SistemasOperativos.Foundation.FirstFit
import SistemasOperativos.Foundation.HeapTree
import SistemasOperativos.Foundation.Interval
import SistemasOperativos.Foundation.LittleEndian
import SistemasOperativos.Foundation.Memory
import SistemasOperativos.Foundation.Numeral
import SistemasOperativos.Foundation.Path
import SistemasOperativos.Foundation.Ring
import SistemasOperativos.Foundation.RingBuffer
import SistemasOperativos.Foundation.Rotation
import SistemasOperativos.Foundation.SlotArray
import SistemasOperativos.Foundation.Sorting
import SistemasOperativos.Foundation.Tally
import SistemasOperativos.Foundation.TurnOrder
import SistemasOperativos.Foundation.WordStack
import SistemasOperativos.Foundation.Wrapping
import SistemasOperativos.Kernel.BuddyAllocator
import SistemasOperativos.Kernel.BuddyCoalescing
import SistemasOperativos.Kernel.BuddyCompleteness
import SistemasOperativos.Kernel.BuddyFrame
import SistemasOperativos.Kernel.BuddyHeap
import SistemasOperativos.Kernel.BuddyIsolation
import SistemasOperativos.Kernel.BuddyObservation
import SistemasOperativos.Kernel.BuddyRoundTrip
import SistemasOperativos.Kernel.BuddySafety
import SistemasOperativos.Kernel.Bypass
import SistemasOperativos.Kernel.ContextSwitch
import SistemasOperativos.Kernel.FormattedText
import SistemasOperativos.Kernel.GuardNames
import SistemasOperativos.Kernel.Handles
import SistemasOperativos.Kernel.HeapCalls
import SistemasOperativos.Kernel.HeapIsolation
import SistemasOperativos.Kernel.HeapLayout
import SistemasOperativos.Kernel.HeapList
import SistemasOperativos.Kernel.HeapRecords
import SistemasOperativos.Kernel.HeapRefusal
import SistemasOperativos.Kernel.HeapReuse
import SistemasOperativos.Kernel.HeapSizes
import SistemasOperativos.Kernel.InterruptedRemoval
import SistemasOperativos.Kernel.KernelAreas
import SistemasOperativos.Kernel.KernelRun
import SistemasOperativos.Kernel.Keyboard
import SistemasOperativos.Kernel.KillingOthers
import SistemasOperativos.Kernel.MachineContext
import SistemasOperativos.Kernel.Malloc
import SistemasOperativos.Kernel.MallocSafety
import SistemasOperativos.Kernel.ModuleLoader
import SistemasOperativos.Kernel.Mouse
import SistemasOperativos.Kernel.Mutex
import SistemasOperativos.Kernel.MutexExclusion
import SistemasOperativos.Kernel.MutexTable
import SistemasOperativos.Kernel.NaiveConsole
import SistemasOperativos.Kernel.PageOwnership
import SistemasOperativos.Kernel.Pipe
import SistemasOperativos.Kernel.PipeArrays
import SistemasOperativos.Kernel.PipeClosing
import SistemasOperativos.Kernel.PipeContention
import SistemasOperativos.Kernel.PipeCreation
import SistemasOperativos.Kernel.PipeQueue
import SistemasOperativos.Kernel.PipeRefinement
import SistemasOperativos.Kernel.PipeRefusal
import SistemasOperativos.Kernel.PipeTable
import SistemasOperativos.Kernel.PipeWaiting
import SistemasOperativos.Kernel.PrintFormat
import SistemasOperativos.Kernel.Process
import SistemasOperativos.Kernel.ProcessListing
import SistemasOperativos.Kernel.ProcessLookup
import SistemasOperativos.Kernel.ProcessRemoval
import SistemasOperativos.Kernel.ProcessRing
import SistemasOperativos.Kernel.ProcessTable
import SistemasOperativos.Kernel.PutNumber
import SistemasOperativos.Kernel.RoundRobin
import SistemasOperativos.Kernel.ScanFormat
import SistemasOperativos.Kernel.Scheduler
import SistemasOperativos.Kernel.SchedulerEffects
import SistemasOperativos.Kernel.SchedulerRing
import SistemasOperativos.Kernel.Screen
import SistemasOperativos.Kernel.ScreenRows
import SistemasOperativos.Kernel.Semaphore
import SistemasOperativos.Kernel.SemaphoreCounting
import SistemasOperativos.Kernel.SemaphoreRefusal
import SistemasOperativos.Kernel.SemaphoreSlots
import SistemasOperativos.Kernel.SleepRing
import SistemasOperativos.Kernel.SleepTable
import SistemasOperativos.Kernel.SlotReuse
import SistemasOperativos.Kernel.StateAssignments
import SistemasOperativos.Kernel.StringComparison
import SistemasOperativos.Kernel.Synchronization
import SistemasOperativos.Kernel.SystemCalls
import SistemasOperativos.Kernel.TableBounds
import SistemasOperativos.Kernel.TableNames
import SistemasOperativos.Kernel.Terminal
import SistemasOperativos.Kernel.TextLayout
import SistemasOperativos.Kernel.ThreadLocks
import SistemasOperativos.Kernel.ThreadPages
import SistemasOperativos.Kernel.ThreadStacks
import SistemasOperativos.Kernel.ThreadSwitching
import SistemasOperativos.Kernel.TurnQueue
import SistemasOperativos.Kernel.WaitQueue
import SistemasOperativos.Kernel.Wakeup
import SistemasOperativos.Kernel.WakingOrder
import SistemasOperativos.Semantics.Observation
import SistemasOperativos.Semantics.Run
import SistemasOperativos.Semantics.Simulation
import SistemasOperativos.Toolchain.ModulePacker
import SistemasOperativos.Userland.ForkHandover
import SistemasOperativos.Userland.Philosophers
import SistemasOperativos.Userland.ProducersConsumers
import SistemasOperativos.Userland.Shell
import SistemasOperativos.Userland.ShellThreads
import SistemasOperativos.Userland.Throughput
import SistemasOperativos.Userland.TypedLine

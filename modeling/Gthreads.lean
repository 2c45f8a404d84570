import Gthreads.Accounts
import Gthreads.Admitted
import Gthreads.CalleeSaved
import Gthreads.CondFifo
import Gthreads.Context
import Gthreads.Cursor
import Gthreads.Destroy
import Gthreads.Dispatched
import Gthreads.Dispatcher
import Gthreads.Divergence
import Gthreads.Exclusion
import Gthreads.FailedWait
import Gthreads.FifoSem
import Gthreads.Footprint
import Gthreads.FuzzRuns
import Gthreads.Generator
import Gthreads.HolderOnly
import Gthreads.Housing
import Gthreads.JoinOnce
import Gthreads.Lib.Brackets
import Gthreads.Lib.ByteMemory
import Gthreads.Lib.Bytes
import Gthreads.Lib.CountingSem
import Gthreads.Lib.Exec
import Gthreads.Lib.Ledger
import Gthreads.Lib.Ring
import Gthreads.Lib.Simulation
import Gthreads.Lib.Tally
import Gthreads.Lib.WaitMap
import Gthreads.Machine
import Gthreads.Modes
import Gthreads.MutexEvents
import Gthreads.MutexWake
import Gthreads.Narrated
import Gthreads.Payload
import Gthreads.Permits
import Gthreads.Process
import Gthreads.Progress
import Gthreads.Queues
import Gthreads.RecordReplay
import Gthreads.Resources
import Gthreads.Restart
import Gthreads.RoundTrip
import Gthreads.RuntimeInvariant
import Gthreads.Segments
import Gthreads.Semaphore
import Gthreads.ShortWrites
import Gthreads.SideBySide
import Gthreads.Slots
import Gthreads.StackMemory
import Gthreads.StackSizing
import Gthreads.Switches
import Gthreads.Tamper
import Gthreads.Terminal
import Gthreads.Transparent
import Gthreads.UserMemory
import Gthreads.WaitQueue
import Gthreads.YieldOrder

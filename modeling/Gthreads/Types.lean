/-
  The data model of the runtime (`include/gthreads/gthreads.h`, `src/internal/runtime_state.h`,
  and the object layouts of `src/sync/*.c`).

  The C program is one process with one CPU and many stacks.  Its state is modelled in three
  parts, so that a function of the source touches only the part it reads in the source:

  * `Core`   — the thread table, its cached counters, `scheduler_ctx`, the synchronisation
               objects in user memory, and which code the CPU is executing (`Cpu`);
  * the scheduler's selection state and the trace subsystem, in their own modules.

  CONTROL.  `gth_ctx_swap(from, to)` saves the continuation of the running stack in `from` and
  continues at the one stored in `to`.  A continuation (`Kont`) is a stack (`Ctx`: main's or a
  slot's) together with the place inside the runtime at which it called `gth_ctx_swap` (`Frame`,
  with the local variables that are live there).  Between two swaps the running stack executes
  one code segment; the machine takes one step per segment.

  GHOST DATA.  `hist` records what happened (returned calls, dispatches, resumptions, ...) and
  `issued` counts `next_tid++`; no modelled function reads them.  `events` collects the
  instrumentation calls (`gth_trace_*`) of the current code segment, in order.
-/
import Gthreads.WaitQueue

namespace Gth

/-- A position in `threads[GTH_MAX_THREADS]`, `GTH_MAX_THREADS = 128`. -/
abbrev Slot := Fin 128

instance (n : Nat) : OfNat Slot n := ⟨Fin.ofNat 128 n⟩

/-- `gth_tid_t`; tid 0 is main. -/
abbrev Tid := Nat

/-- The address of an object in user memory; 0 is `NULL`. -/
abbrev Addr := Nat

/-- `gth_status_t`. -/
inductive Status where
  | ok | einval | enomem | estate | ebusy | etimedout | enotfound | einternal
  deriving DecidableEq, Repr

/-- `gth_thread_state_t`. -/
inductive ThreadState where
  | empty | ready | running | blocked | done | canceled
  deriving DecidableEq, Repr

/-- `gth_thread_is_terminal`. -/
def threadIsTerminal : ThreadState → Bool
  | .done | .canceled => true
  | _ => false

/-- `gth_sched_policy_t`. -/
inductive Policy where
  | rr | priority
  deriving DecidableEq, Repr

/-- `gth_runtime_config_t`, less its two flags that nothing reads. -/
structure Config where
  stackSizeBytes : BitVec 64
  policy : Policy
  quantumUs : Nat
  replaySeed : BitVec 32
  deriving DecidableEq

/-! ## Control -/

/-- The stacks: main's own one and one per slot. -/
inductive Ctx where
  | main
  | green (i : Slot)
  deriving DecidableEq, Repr

/-- Who called `gth_scheduler_run_next`: `gth_thread_yield` outside any thread, or the loop of
    `gth_scheduler_run_until` inside `gth_thread_join(tid, retval)`, which keeps a pointer to the
    record it found (`target`).  `out` says whether `retval` is non-`NULL`. -/
inductive Caller where
  | yield
  | join (tid : Tid) (out : Bool) (target : Slot)
  deriving DecidableEq, Repr

/-- The places at which a stack can be suspended in `gth_ctx_swap`, or a fresh context. -/
inductive Frame where
  /-- Fresh: `gth_context_thread_trampoline` is about to call the entry function. -/
  | entry
  /-- In `gth_thread_yield`. -/
  | yield
  /-- In a `gth_thread_block` of `gth_mutex_lock(m)`, about to test `locked` in its loop; with
      `via = some c` the call is the re-lock of `gth_cond_wait(c, m)`. -/
  | lock (m : Addr) (mySlot : Nat) (via : Option Addr)
  /-- In `gth_sem_wait(s)`. -/
  | semWait (s : Addr)
  /-- In `gth_cond_wait(c, m)`, before its `gth_mutex_lock(m)`. -/
  | condWait (c m : Addr)
  /-- In `gth_scheduler_run_next`, with its `previous_tid`.  `act` numbers the activation. -/
  | runNext (act : Nat) (prev : Tid) (caller : Caller)
  deriving DecidableEq, Repr

/-- The content of a `gth_ctx_t` that has been filled. -/
structure Kont where
  ctx : Ctx
  frame : Frame
  deriving DecidableEq, Repr

/-- What the CPU executes next. -/
inductive Cpu where
  /-- User code on stack `x`, about to make an API call. -/
  | user (x : Ctx)
  /-- `gth_scheduler_run_next` on stack `x`, about to pick a thread. -/
  | sched (x : Ctx) (caller : Caller)
  /-- `gth_ctx_swap` has loaded `k`; `none` is a context nothing was ever stored in. -/
  | swap (k : Option Kont)
  deriving DecidableEq, Repr

/-! ## Calls and what is observed of them -/

/-- What the kernel answers to the `mmap` and `mprotect` of one `gth_stack_allocate`. -/
structure MapEnv where
  /-- The address `mmap` returns; `none` is `MAP_FAILED`. -/
  mmap : Option (BitVec 64)
  mprotectOk : Bool
  deriving DecidableEq

/-- The API calls a thread or main can make.  `exit r` is the return of an entry function.
    `outTid`, `out` say whether the out-pointer is non-`NULL`; `attr` is the priority in the
    attributes, if any are given; `fn = 0` is a `NULL` entry function. -/
inductive Call where
  | create (outTid : Bool) (attr : Option Nat) (fn arg : Nat) (env : MapEnv)
  | yield
  | join (tid : Tid) (out : Bool)
  | cancel (tid : Tid)
  | exit (retval : Nat)
  | self
  | getStats (out : Bool)
  | mutexInit (m : Addr)
  | mutexLock (m : Addr)
  | mutexTrylock (m : Addr)
  | mutexUnlock (m : Addr)
  | mutexDestroy (m : Addr)
  | semInit (s : Addr) (initialCount : Nat)
  | semWait (s : Addr)
  | semPost (s : Addr)
  | semDestroy (s : Addr)
  | condInit (c : Addr)
  | condWait (c m : Addr)
  | condSignal (c : Addr)
  | condBroadcast (c : Addr)
  | condDestroy (c : Addr)
  deriving DecidableEq

/-- The status a call returns and the values it stores through its out-pointers. -/
structure Ret where
  status : Status
  out : List Nat := []
  deriving DecidableEq, Repr

/-- One entry of the ghost history.  A `tid` is that of the thread whose stack runs, 0 for main. -/
inductive Obs where
  /-- A call returned to user code. -/
  | ret (tid : Tid) (call : Call) (r : Ret)
  /-- Activation `act` of `gth_scheduler_run_next` on stack `x` switched to slot `i`. -/
  | dispatch (act : Nat) (x : Ctx) (i : Slot) (tid : Tid)
  /-- Control came back to activation `act` on stack `x`. -/
  | resume (act : Nat) (x : Ctx)
  /-- Stack `x` left the CPU for the continuation `k` found in `scheduler_ctx`. -/
  | leave (x : Ctx) (k : Option Kont)
  /-- `gth_cond_wait(c, m)` released `m`. -/
  | condRelease (tid : Tid) (c m : Addr)
  /-- `gth_sem_wait(s)` decremented the count. -/
  | semTake (tid : Tid) (s : Addr)
  /-- `gth_sem_wait(s)` queued its caller. -/
  | semBlock (tid : Tid) (s : Addr)
  /-- `gth_sem_post(s)` took the slot of thread `tid` off the queue. -/
  | semWake (tid : Tid) (s : Addr)
  deriving DecidableEq

/-! ## Trace events -/

/-- `gth_event_type_t`. -/
inductive EventType where
  | none | threadCreate | threadExit | threadCancel | contextSwitch | threadYield
  | threadBlock | threadUnblock | mutexLock | mutexUnlock | mutexWait | mutexWake
  | semWait | semPost | semWake | condWait | condSignal | condBroadcast
  | runtimeInit | runtimeShutdown
  deriving DecidableEq, Repr

/-- The numbers of the enumeration. -/
def EventType.code : EventType → Nat
  | .none => 0
  | .threadCreate => 1
  | .threadExit => 2
  | .threadCancel => 3
  | .contextSwitch => 10
  | .threadYield => 11
  | .threadBlock => 20
  | .threadUnblock => 21
  | .mutexLock => 30
  | .mutexUnlock => 31
  | .mutexWait => 32
  | .mutexWake => 33
  | .semWait => 40
  | .semPost => 41
  | .semWake => 42
  | .condWait => 50
  | .condSignal => 51
  | .condBroadcast => 52
  | .runtimeInit => 90
  | .runtimeShutdown => 91

/-- The arguments of one `gth_trace_record(type, tid, data1, data2)` call. -/
structure Event where
  type : EventType
  tid : Tid
  data1 : Nat
  data2 : Nat
  deriving DecidableEq, Repr

/-! The instrumentation functions of `src/trace/trace.c`. -/

def traceContextSwitch (fromTid toTid : Tid) : Event := ⟨.contextSwitch, fromTid, fromTid, toTid⟩
def traceThreadCreate (tid : Tid) : Event := ⟨.threadCreate, tid, 0, 0⟩
def traceThreadExit (tid : Tid) (retval : Nat) : Event := ⟨.threadExit, tid, retval, 0⟩
def traceThreadCancel (targetTid : Tid) : Event := ⟨.threadCancel, targetTid, 0, 0⟩
/-- The only caller passes `GTH_BLOCK_REASON_NONE = 0`. -/
def traceThreadBlock (tid : Tid) (reason : Nat) : Event := ⟨.threadBlock, tid, reason, 0⟩
def traceThreadUnblock (tid : Tid) : Event := ⟨.threadUnblock, tid, 0, 0⟩
def traceThreadYield (tid : Tid) : Event := ⟨.threadYield, tid, 0, 0⟩
def traceMutexLock (tid : Tid) (m : Addr) : Event := ⟨.mutexLock, tid, m, 0⟩
def traceMutexUnlock (tid : Tid) (m : Addr) : Event := ⟨.mutexUnlock, tid, m, 0⟩
def traceMutexWait (tid : Tid) (m : Addr) : Event := ⟨.mutexWait, tid, m, 0⟩
def traceMutexWake (tid : Tid) (m : Addr) : Event := ⟨.mutexWake, tid, m, 0⟩
def traceSemWait (tid : Tid) (s : Addr) (countBefore : Nat) : Event :=
  ⟨.semWait, tid, s, countBefore⟩
def traceSemPost (tid : Tid) (s : Addr) (countAfter : Nat) : Event := ⟨.semPost, tid, s, countAfter⟩
def traceSemWake (tid : Tid) (s : Addr) : Event := ⟨.semWake, tid, s, 0⟩
def traceCondWait (tid : Tid) (c : Addr) : Event := ⟨.condWait, tid, c, 0⟩
def traceCondSignal (tid : Tid) (c : Addr) (targetTid : Tid) : Event :=
  ⟨.condSignal, tid, c, targetTid⟩
def traceCondBroadcast (tid : Tid) (c : Addr) (wakeCount : Nat) : Event :=
  ⟨.condBroadcast, tid, c, wakeCount⟩

/-! ## The core state -/

/-- `gth_stack_allocation_t`. -/
structure StackAllocation where
  memory : BitVec 64 := 0
  totalSize : BitVec 64 := 0
  stackSize : BitVec 64 := 0
  stackTop : BitVec 64 := 0
  guardPage : BitVec 64 := 0
  deriving DecidableEq

/-- `gth_thread_record_t`; the defaults are what `memset` leaves. -/
structure ThreadRecord where
  tid : Tid := 0
  fn : Nat := 0
  arg : Nat := 0
  retval : Nat := 0
  priority : Nat := 0
  state : ThreadState := .empty
  ctx : Option Kont := none
  stack : StackAllocation := {}
  slotIndex : Nat := 0

/-- `gth_mutex_impl_t`. -/
structure MutexImpl where
  initialized : Nat := 0
  locked : Nat := 0
  owner : Tid := 0
  wq : WaitQueue := {}

/-- A mutex without its queue. -/
structure MutexCell where
  initialized : Nat
  locked : Nat
  owner : Tid

def MutexImpl.cell (impl : MutexImpl) : MutexCell := ⟨impl.initialized, impl.locked, impl.owner⟩

/-- `gth_sem_impl_t`. -/
structure SemImpl where
  initialized : Nat := 0
  count : Nat := 0
  wq : WaitQueue := {}

/-- `gth_cond_impl_t`. -/
structure CondImpl where
  initialized : Nat := 0
  wq : WaitQueue := {}

/-- The part of `gth_runtime_state_t` that threads and synchronisation work on, with the objects
    in user memory, the CPU and the ghost data. -/
structure Core where
  initialized : Bool := false
  config : Config
  /-- `sysconf(_SC_PAGESIZE)`, cached by `gth_page_size`. -/
  pageSize : BitVec 64
  nextTid : Tid := 0
  currentTid : Tid := 0
  contextSwitches : Nat := 0
  runnableThreads : Nat := 0
  blockedThreads : Nat := 0
  schedulerCtx : Option Kont := none
  threads : Slot → ThreadRecord := fun _ => {}
  mutexes : Addr → MutexImpl := fun _ => {}
  sems : Addr → SemImpl := fun _ => {}
  conds : Addr → CondImpl := fun _ => {}
  cpu : Cpu := .user .main
  events : List Event := []
  hist : List Obs := []
  /-- Ghost: how often `gth_scheduler_run_next` has switched to a thread. -/
  acts : Nat := 0
  /-- Ghost: `next_tid - 1` without the wrap-around. -/
  issued : Nat := 0

namespace Core

/-- Store a thread record. -/
def setThread (s : Core) (i : Slot) (t : ThreadRecord) : Core :=
  { s with threads := Function.update s.threads i t }

def setMutex (s : Core) (m : Addr) (impl : MutexImpl) : Core :=
  { s with mutexes := Function.update s.mutexes m impl }

def setSem (s : Core) (a : Addr) (impl : SemImpl) : Core :=
  { s with sems := Function.update s.sems a impl }

def setCond (s : Core) (c : Addr) (impl : CondImpl) : Core :=
  { s with conds := Function.update s.conds c impl }

/-- One instrumentation call. -/
def emit (s : Core) (e : Event) : Core := { s with events := s.events ++ [e] }

/-- Ghost: append to the history. -/
def log (s : Core) (o : Obs) : Core := { s with hist := o :: s.hist }

/-- The tid of the thread whose stack `x` is. -/
def ctxTid (s : Core) : Ctx → Tid
  | .main => 0
  | .green i => (s.threads i).tid

/-- A call made on stack `x` returns to user code. -/
def ret (s : Core) (x : Ctx) (call : Call) (r : Ret) : Core :=
  { s with cpu := .user x, hist := .ret (s.ctxTid x) call r :: s.hist }

end Core
end Gth

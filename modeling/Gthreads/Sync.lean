/-
  Mutexes, semaphores and condition variables (`src/sync/mutex.c`, `sem.c`, `cond.c`).

  The objects live in user memory, addressed by `Addr`.  A slot number enters a wait queue as a
  `uint8_t` (`% 256`) and comes out of it as a plain number.
-/
import Gthreads.Thread

namespace Gth
namespace Core

/-- What `unlock`, `post` and `signal` do with a slot number they took off a queue: the
    instrumentation call `e` and the wake-up, unless it is the `0xFF` of an empty queue. -/
def wakeWaiter (s : Core) (waiterSlot : Nat) (e : Event) : Core :=
  if waiterSlot ≠ 0xFF then ((s.emit e).threadUnblockSlot waiterSlot).2 else s

/-! ## Mutexes -/

/-- `gth_mutex_init`. -/
def mutexInit (s : Core) (m : Addr) : Status × Core :=
  if m = 0 then (.einval, s)
  else (.ok, s.setMutex m
    { initialized := 1, locked := 0, owner := 0, wq := ({} : WaitQueue).wqInit wqFixedSlots })

/-- The call a `gth_mutex_lock` belongs to: the user's own, or `gth_cond_wait(c, m)`. -/
def lockCall (m : Addr) : Option Addr → Call
  | none => .mutexLock m
  | some c => .condWait c m

/-- The end of `gth_mutex_lock`: take the mutex. -/
def lockAcquire (s : Core) (x : Ctx) (m : Addr) (via : Option Addr) : Core :=
  let s := s.setMutex m { s.mutexes m with locked := 1, owner := s.threadSelf }
  let s := s.emit (traceMutexLock s.threadSelf m)
  s.ret x (lockCall m via) ⟨.ok, []⟩

/-- The `while (impl->locked != 0U)` loop of `gth_mutex_lock`.  It is left as soon as the thread
    blocks; only if `gth_thread_block` refused would it go round again, each time with one more
    entry in the queue, so `fuel` above the capacity is never used up. -/
def lockLoop (s : Core) (x : Ctx) (m : Addr) (mySlot : Nat) (via : Option Addr) : Nat → Core
  | 0 => s.ret x (lockCall m via) ⟨.ebusy, []⟩
  | fuel + 1 =>
    if (s.mutexes m).locked ≠ 0 then
      if (s.mutexes m).wq.wqIsFull then s.ret x (lockCall m via) ⟨.ebusy, []⟩
      else
        let s := s.setMutex m
          { s.mutexes m with wq := (s.mutexes m).wq.wqEnqueue (mySlot % 256) }
        match s.threadBlock x (.lock m mySlot via) with
        | some t => t
        | none => lockLoop s x m mySlot via fuel
    else s.lockAcquire x m via

/-- `gth_mutex_lock`. -/
def mutexLock (s : Core) (x : Ctx) (m : Addr) (via : Option Addr) : Core :=
  if m = 0 then s.ret x (lockCall m via) ⟨.einval, []⟩
  else if (s.mutexes m).initialized = 0 then s.ret x (lockCall m via) ⟨.estate, []⟩
  else if (s.mutexes m).locked ≠ 0 then
    if (s.mutexes m).owner = s.threadSelf then s.ret x (lockCall m via) ⟨.ebusy, []⟩
    else
      let mySlot := s.threadCurrentSlotIndex
      if 128 ≤ mySlot then s.ret x (lockCall m via) ⟨.estate, []⟩
      else if (s.mutexes m).wq.wqIsFull then s.ret x (lockCall m via) ⟨.ebusy, []⟩
      else
        let s := s.setMutex m
          { s.mutexes m with wq := (s.mutexes m).wq.wqEnqueue (mySlot % 256) }
        let s := s.emit (traceMutexWait s.threadSelf m)
        match s.threadBlock x (.lock m mySlot via) with
        | some t => t
        | none => s.lockLoop x m mySlot via (wqFixedSlots + 1)
  else s.lockAcquire x m via

/-- `gth_mutex_trylock`. -/
def mutexTrylock (s : Core) (m : Addr) : Status × Core :=
  if m = 0 then (.einval, s)
  else if (s.mutexes m).initialized = 0 then (.estate, s)
  else if (s.mutexes m).locked ≠ 0 then (.ebusy, s)
  else (.ok, s.setMutex m { s.mutexes m with locked := 1, owner := s.threadSelf })

/-- `gth_mutex_unlock`. -/
def mutexUnlock (s : Core) (m : Addr) : Status × Core :=
  if m = 0 then (.einval, s)
  else if (s.mutexes m).initialized = 0 then (.estate, s)
  else if (s.mutexes m).locked = 0 then (.estate, s)
  else if (s.mutexes m).owner ≠ 0 ∧ (s.mutexes m).owner ≠ s.threadSelf then (.estate, s)
  else
    let s := s.setMutex m { s.mutexes m with locked := 0, owner := 0 }
    let s :=
      if (s.mutexes m).wq.wqIsEmpty = false then
        let waiterSlot := (s.mutexes m).wq.wqDequeue.1
        let s := s.setMutex m { s.mutexes m with wq := (s.mutexes m).wq.wqDequeue.2 }
        s.wakeWaiter waiterSlot (traceMutexWake s.threadSelf m)
      else s
    (.ok, s.emit (traceMutexUnlock s.threadSelf m))

/-- `gth_mutex_destroy`. -/
def mutexDestroy (s : Core) (m : Addr) : Status × Core :=
  if m = 0 then (.einval, s)
  else if (s.mutexes m).initialized = 0 then (.estate, s)
  else if (s.mutexes m).locked ≠ 0 then (.ebusy, s)
  else if (s.mutexes m).wq.wqIsEmpty = false then (.ebusy, s)
  else (.ok, s.setMutex m {})

/-! ## Semaphores -/

/-- `gth_sem_init`; the count is a `uint32_t`. -/
def semInit (s : Core) (a : Addr) (initialCount : Nat) : Status × Core :=
  if a = 0 then (.einval, s)
  else (.ok, s.setSem a
    { initialized := 1, count := initialCount % 2 ^ 32,
      wq := ({} : WaitQueue).wqInit wqFixedSlots })

/-- `gth_sem_wait`. -/
def semWait (s : Core) (x : Ctx) (a : Addr) : Core :=
  if a = 0 then s.ret x (.semWait a) ⟨.einval, []⟩
  else if (s.sems a).initialized = 0 then s.ret x (.semWait a) ⟨.estate, []⟩
  else if (s.sems a).count = 0 then
    let mySlot := s.threadCurrentSlotIndex
    if h : mySlot < 128 then
      if (s.sems a).wq.wqIsFull then s.ret x (.semWait a) ⟨.ebusy, []⟩
      else
        let i : Slot := ⟨mySlot, h⟩
        let s := s.setThread i { s.threads i with state := .blocked }
        let s := { s with blockedThreads := incr64 s.blockedThreads }
        let s := s.setSem a { s.sems a with wq := (s.sems a).wq.wqEnqueue (mySlot % 256) }
        let s := s.log (.semBlock (s.ctxTid x) a)
        let s := s.emit (traceSemWait s.threadSelf a 0)
        s.swapOut i x (.semWait a)
    else s.ret x (.semWait a) ⟨.estate, []⟩
  else
    let s := s.setSem a { s.sems a with count := (s.sems a).count - 1 }
    let s := s.log (.semTake (s.ctxTid x) a)
    let s := s.emit (traceSemWait s.threadSelf a ((s.sems a).count + 1))
    s.ret x (.semWait a) ⟨.ok, []⟩

/-- `gth_sem_post`. -/
def semPost (s : Core) (a : Addr) : Status × Core :=
  if a = 0 then (.einval, s)
  else if (s.sems a).initialized = 0 then (.estate, s)
  else if (s.sems a).wq.wqIsEmpty = false then
    let waiterSlot := (s.sems a).wq.wqDequeue.1
    let s := s.setSem a { s.sems a with wq := (s.sems a).wq.wqDequeue.2 }
    let s := s.log (.semWake (s.threadAt waiterSlot).tid a)
    let s := s.wakeWaiter waiterSlot (traceSemWake s.threadSelf a)
    (.ok, s.emit (traceSemPost s.threadSelf a (s.sems a).count))
  else if (s.sems a).count = 2 ^ 32 - 1 then (.einval, s)
  else
    let s := s.setSem a { s.sems a with count := (s.sems a).count + 1 }
    (.ok, s.emit (traceSemPost s.threadSelf a (s.sems a).count))

/-- `gth_sem_destroy`. -/
def semDestroy (s : Core) (a : Addr) : Status × Core :=
  if a = 0 then (.einval, s)
  else if (s.sems a).initialized = 0 then (.estate, s)
  else if (s.sems a).wq.wqIsEmpty = false then (.ebusy, s)
  else (.ok, s.setSem a {})

/-! ## Condition variables -/

/-- `gth_cond_init`. -/
def condInit (s : Core) (c : Addr) : Status × Core :=
  if c = 0 then (.einval, s)
  else (.ok, s.setCond c { initialized := 1, wq := ({} : WaitQueue).wqInit wqFixedSlots })

/-- `gth_cond_wait`.  The caller is marked and queued before the mutex is released; if that fails,
    both are undone. -/
def condWait (s : Core) (x : Ctx) (c m : Addr) : Core :=
  if c = 0 ∨ m = 0 then s.ret x (.condWait c m) ⟨.einval, []⟩
  else if (s.conds c).initialized = 0 then s.ret x (.condWait c m) ⟨.estate, []⟩
  else
    let mySlot := s.threadCurrentSlotIndex
    if h : mySlot < 128 then
      if (s.conds c).wq.wqIsFull then s.ret x (.condWait c m) ⟨.ebusy, []⟩
      else
        let i : Slot := ⟨mySlot, h⟩
        let s := s.setThread i { s.threads i with state := .blocked }
        let s := { s with blockedThreads := incr64 s.blockedThreads }
        let s := s.setCond c { s.conds c with wq := (s.conds c).wq.wqEnqueue (mySlot % 256) }
        let s := s.emit (traceCondWait s.threadSelf c)
        match s.mutexUnlock m with
        | (.ok, s) => (s.log (.condRelease (s.ctxTid x) c m)).swapOut i x (.condWait c m)
        | (status, s) =>
          let s := s.setThread i { s.threads i with state := .running }
          let s := { s with blockedThreads := decrPos s.blockedThreads }
          let s := s.setCond c { s.conds c with wq := ((s.conds c).wq.wqRemove (mySlot % 256)).2 }
          s.ret x (.condWait c m) ⟨status, []⟩
    else s.ret x (.condWait c m) ⟨.estate, []⟩

/-- `gth_cond_signal`. -/
def condSignal (s : Core) (c : Addr) : Status × Core :=
  if c = 0 then (.einval, s)
  else if (s.conds c).initialized = 0 then (.estate, s)
  else if (s.conds c).wq.wqIsEmpty = false then
    let waiterSlot := (s.conds c).wq.wqDequeue.1
    let s := s.setCond c { s.conds c with wq := (s.conds c).wq.wqDequeue.2 }
    (.ok, s.wakeWaiter waiterSlot (traceCondSignal s.threadSelf c (s.threadAt waiterSlot).tid))
  else (.ok, s)

/-- The loop of `gth_cond_broadcast`, with the `wake_count` so far.  Every iteration takes one
    entry off the queue, so the number of entries at the start is enough `fuel`. -/
def broadcastLoop (s : Core) (c : Addr) (wakeCount : Nat) : Nat → Nat × Core
  | 0 => (wakeCount, s)
  | fuel + 1 =>
    if (s.conds c).wq.wqIsEmpty = false then
      let waiterSlot := (s.conds c).wq.wqDequeue.1
      let s := s.setCond c { s.conds c with wq := (s.conds c).wq.wqDequeue.2 }
      if waiterSlot ≠ 0xFF then
        broadcastLoop (s.threadUnblockSlot waiterSlot).2 c (wakeCount + 1) fuel
      else broadcastLoop s c wakeCount fuel
    else (wakeCount, s)

/-- `gth_cond_broadcast`. -/
def condBroadcast (s : Core) (c : Addr) : Status × Core :=
  if c = 0 then (.einval, s)
  else if (s.conds c).initialized = 0 then (.estate, s)
  else
    let (wakeCount, s) := s.broadcastLoop c 0 (s.conds c).wq.count
    (.ok, s.emit (traceCondBroadcast s.threadSelf c wakeCount))

/-- `gth_cond_destroy`. -/
def condDestroy (s : Core) (c : Addr) : Status × Core :=
  if c = 0 then (.einval, s)
  else if (s.conds c).initialized = 0 then (.estate, s)
  else if (s.conds c).wq.wqIsEmpty = false then (.ebusy, s)
  else (.ok, s.setCond c {})

end Core
end Gth

/-
  Threads (`src/runtime/runtime.c`, `src/thread/thread.c`, `src/context/context.c`).

  Functions that return to their caller are modelled as functions `Core → Status × Core` (or with
  a `Ret` when they store values); functions that can switch stacks return the `Core` in which the
  CPU has left the running code segment.  The scheduler itself (`gth_scheduler_run_next`) needs a
  pick and is entered by setting the CPU to `.sched`; see `Gthreads.Core`.
-/
import Gthreads.Stack

namespace Gth

/-- `x + 1` on a `uint64_t`. -/
def incr64 (x : Nat) : Nat := (x + 1) % 2 ^ 64

/-- `if (x > 0U) x -= 1U;` -/
def decrPos (x : Nat) : Nat := if 0 < x then x - 1 else x

/-! ## Lookups in the thread table -/

/-- `gth_runtime_find_thread`: the first non-`EMPTY` slot with this tid. -/
def findThread (threads : Slot → ThreadRecord) (tid : Tid) : Option Slot :=
  (List.finRange 128).find? fun i =>
    decide ((threads i).state ≠ .empty) && decide ((threads i).tid = tid)

/-- What `gth_runtime_find_thread` finds is occupied and has the tid. -/
theorem findThread_some {threads : Slot → ThreadRecord} {tid : Tid} {i : Slot}
    (h : findThread threads tid = some i) :
    (threads i).state ≠ .empty ∧ (threads i).tid = tid := by
  have hfound := List.find?_some h
  rw [Bool.and_eq_true] at hfound
  exact ⟨of_decide_eq_true hfound.1, of_decide_eq_true hfound.2⟩

/-- No two threads have the same tid. -/
def DistinctTids (threads : Slot → ThreadRecord) : Prop :=
  ∀ i j, (threads i).state ≠ .empty → (threads j).state ≠ .empty →
    (threads i).tid = (threads j).tid → i = j

/-- With distinct tids the lookup finds the slot of a thread. -/
theorem DistinctTids.find {threads : Slot → ThreadRecord} (h : DistinctTids threads) {i : Slot}
    (hi : (threads i).state ≠ .empty) : findThread threads (threads i).tid = some i := by
  have hsome : (findThread threads (threads i).tid).isSome := by
    apply List.find?_isSome.mpr
    refine ⟨i, List.mem_finRange i, ?_⟩
    rw [Bool.and_eq_true]
    exact ⟨decide_eq_true hi, decide_eq_true rfl⟩
  obtain ⟨j, hj⟩ := Option.isSome_iff_exists.mp hsome
  obtain ⟨hne, htid⟩ := findThread_some hj
  rw [hj, h j i hne hi htid]

/-- `gth_runtime_alloc_thread_slot`: the first `EMPTY` slot. -/
def allocThreadSlot (threads : Slot → ThreadRecord) : Option Slot :=
  (List.finRange 128).find? fun i => decide ((threads i).state = .empty)

/-- `gth_runtime_stats_snapshot_t`. -/
structure StatsSnapshot where
  total : Nat := 0
  runnable : Nat := 0
  blocked : Nat := 0
  finished : Nat := 0
  deriving DecidableEq

/-- One iteration of the loop of `gth_runtime_snapshot_stats`. -/
def snapshotStep (snap : StatsSnapshot) (t : ThreadRecord) : StatsSnapshot :=
  if t.state = .empty then snap
  else
    let snap := { snap with total := snap.total + 1 }
    if t.state = .ready then { snap with runnable := snap.runnable + 1 }
    else if t.state = .blocked then { snap with blocked := snap.blocked + 1 }
    else if threadIsTerminal t.state then { snap with finished := snap.finished + 1 }
    else snap

/-- `gth_runtime_snapshot_stats`. -/
def runtimeSnapshotStats (threads : Slot → ThreadRecord) : StatsSnapshot :=
  (List.finRange 128).foldl (fun snap i => snapshotStep snap (threads i)) {}

namespace Core

/-- `gth_thread_self`. -/
def threadSelf (s : Core) : Tid := if s.initialized then s.currentTid else 0

/-- `gth_thread_current_slot_index`: 128 when there is no current thread. -/
def threadCurrentSlotIndex (s : Core) : Nat :=
  if s.currentTid = 0 then 128
  else match findThread s.threads s.currentTid with
    | none => 128
    | some i => (s.threads i).slotIndex

/-- The record at `threads[n]`, for a slot number held as a plain number. -/
def threadAt (s : Core) (n : Nat) : ThreadRecord := if h : n < 128 then s.threads ⟨n, h⟩ else {}

/-- `gth_runtime_get_stats`. -/
def runtimeGetStats (s : Core) (out : Bool) : Ret :=
  if out = false then ⟨.einval, []⟩
  else if s.initialized = false then ⟨.estate, []⟩
  else
    let snapshot := runtimeSnapshotStats s.threads
    ⟨.ok, [s.contextSwitches, snapshot.runnable, snapshot.blocked]⟩

/-! ## State changes and their counters -/

/-- `gth_runtime_account_state_change`. -/
def accountStateChange (s : Core) (old new : ThreadState) : Core :=
  if old = new then s
  else
    let s :=
      if old = .ready then { s with runnableThreads := decrPos s.runnableThreads }
      else if old = .blocked then { s with blockedThreads := decrPos s.blockedThreads }
      else s
    if new = .ready then { s with runnableThreads := incr64 s.runnableThreads }
    else if new = .blocked then { s with blockedThreads := incr64 s.blockedThreads }
    else s

/-- `gth_runtime_set_thread_state`. -/
def setThreadState (s : Core) (i : Slot) (new : ThreadState) : Core :=
  if (s.threads i).state = new then s
  else
    let s := s.accountStateChange (s.threads i).state new
    s.setThread i { s.threads i with state := new }

/-- `gth_thread_release_slot`: the record is zeroed. -/
def threadReleaseSlot (s : Core) (i : Slot) : Core :=
  let s :=
    if (s.threads i).state = .ready then { s with runnableThreads := decrPos s.runnableThreads }
    else if (s.threads i).state = .blocked then
      { s with blockedThreads := decrPos s.blockedThreads }
    else s
  s.setThread i {}

/-- `gth_thread_unblock_slot`. -/
def threadUnblockSlot (s : Core) (slotIndex : Nat) : Status × Core :=
  if s.initialized = false then (.estate, s)
  else if h : slotIndex < 128 then
    let i : Slot := ⟨slotIndex, h⟩
    if (s.threads i).state ≠ .blocked then (.estate, s)
    else
      let s := s.setThread i { s.threads i with state := .ready }
      let s := { s with blockedThreads := decrPos s.blockedThreads }
      let s := { s with runnableThreads := incr64 s.runnableThreads }
      (.ok, s.emit (traceThreadUnblock (s.threads i).tid))
  else (.einval, s)

/-! ## Switching to the dispatcher -/

/-- `gth_ctx_swap(&threads[i].ctx, &state->scheduler_ctx)` on stack `x`. -/
def swapOut (s : Core) (i : Slot) (x : Ctx) (frame : Frame) : Core :=
  let s := s.setThread i { s.threads i with ctx := some ⟨x, frame⟩ }
  { s with cpu := .swap s.schedulerCtx, hist := .leave x s.schedulerCtx :: s.hist }

/-- `gth_thread_block` on stack `x`; `none` when it returns `GTH_ESTATE`, having done nothing. -/
def threadBlock (s : Core) (x : Ctx) (frame : Frame) : Option Core :=
  if s.initialized = false then none
  else if s.currentTid = 0 then none
  else match findThread s.threads s.currentTid with
    | none => none
    | some i =>
      let s := s.emit (traceThreadBlock s.currentTid 0)
      let s := s.setThread i { s.threads i with state := .blocked }
      let s := { s with blockedThreads := incr64 s.blockedThreads }
      some (s.swapOut i x frame)

/-- `gth_thread_yield`.  With no current thread it enters `gth_scheduler_run_next`. -/
def threadYield (s : Core) (x : Ctx) : Core :=
  if s.initialized = false then s.ret x .yield ⟨.estate, []⟩
  else if s.currentTid = 0 then { s with cpu := .sched x .yield }
  else match findThread s.threads s.currentTid with
    | none => s.ret x .yield ⟨.estate, []⟩
    | some i =>
      let s := s.emit (traceThreadYield s.currentTid)
      let s := s.setThread i { s.threads i with state := .ready }
      let s := { s with runnableThreads := incr64 s.runnableThreads }
      s.swapOut i x .yield

/-- The end of `gth_context_thread_trampoline(i)`, after the entry function returned `result`.
    The context saved by its last `gth_ctx_swap` is a local variable and is not kept. -/
def threadExit (s : Core) (i : Slot) (result : Nat) : Core :=
  let s :=
    if (s.threads i).state ≠ .canceled then
      s.setThread i { s.threads i with retval := result, state := .done }
    else s.setThread i { s.threads i with retval := 0 }
  let s := s.emit (traceThreadExit (s.threads i).tid (s.threads i).retval)
  let s := { s with currentTid := 0 }
  { s with cpu := .swap s.schedulerCtx, hist := .leave (.green i) s.schedulerCtx :: s.hist }

/-! ## Create, cancel, join -/

/-- `gth_thread_create`.  `gth_context_init_thread` fails only on `NULL` arguments, which it never
    gets here; it leaves a context that starts the trampoline on the slot's stack. -/
def threadCreate (s : Core) (outTid : Bool) (attr : Option Nat) (fn arg : Nat) (env : MapEnv) :
    Ret × Core :=
  if s.initialized = false then (⟨.estate, []⟩, s)
  else if outTid = false ∨ fn = 0 then (⟨.einval, []⟩, s)
  else match allocThreadSlot s.threads with
    | none => (⟨.enomem, []⟩, s)
    | some i =>
      let tid := s.nextTid
      let s := { s with nextTid := incr64 s.nextTid, issued := s.issued + 1 }
      match stackAllocate s.pageSize env s.config.stackSizeBytes with
      | (.ok, stack) =>
        let s := s.setThread i
          { tid := tid, fn := fn, arg := arg, retval := 0, priority := attr.getD 0,
            state := .ready, ctx := some ⟨.green i, .entry⟩, stack := stack, slotIndex := i }
        let s := { s with runnableThreads := incr64 s.runnableThreads }
        (⟨.ok, [tid]⟩, s.emit (traceThreadCreate tid))
      | (status, _) => (⟨status, []⟩, s.setThread i {})

/-- `gth_thread_cancel`. -/
def threadCancel (s : Core) (tid : Tid) : Status × Core :=
  if s.initialized = false then (.estate, s)
  else if tid = 0 then (.einval, s)
  else match findThread s.threads tid with
    | none => (.enotfound, s)
    | some i =>
      if threadIsTerminal (s.threads i).state then (.estate, s)
      else
        let s := s.emit (traceThreadCancel tid)
        let s :=
          if (s.threads i).state = .blocked then (s.threadUnblockSlot (s.threads i).slotIndex).2
          else s
        let s := s.setThreadState i .canceled
        (.ok, s.setThread i { s.threads i with retval := 0 })

/-- The end of `gth_thread_join`: hand out the result of the thread in slot `i`, free the slot. -/
def joinFinish (s : Core) (x : Ctx) (tid : Tid) (out : Bool) (i : Slot) : Core :=
  let retval := if out then [(s.threads i).retval] else []
  (s.threadReleaseSlot i).ret x (.join tid out) ⟨.ok, retval⟩

/-- The loop test of `gth_scheduler_run_until` inside `gth_thread_join`, with the pointer `target`
    it keeps, and what follows the loop: either one more `gth_scheduler_run_next`, or the join
    looks its thread up again. -/
def joinLoop (s : Core) (x : Ctx) (tid : Tid) (out : Bool) (target : Slot) : Core :=
  if threadIsTerminal (s.threads target).state then
    match findThread s.threads tid with
    | none => s.ret x (.join tid out) ⟨.enotfound, []⟩
    | some i => s.joinFinish x tid out i
  else { s with cpu := .sched x (.join tid out target) }

/-- `gth_thread_join`.  The checks of `gth_scheduler_run_until` before its loop repeat what has
    just been checked here. -/
def threadJoin (s : Core) (x : Ctx) (tid : Tid) (out : Bool) : Core :=
  if s.initialized = false then s.ret x (.join tid out) ⟨.estate, []⟩
  else if tid = 0 then s.ret x (.join tid out) ⟨.einval, []⟩
  else if tid = s.currentTid then s.ret x (.join tid out) ⟨.estate, []⟩
  else match findThread s.threads tid with
    | none => s.ret x (.join tid out) ⟨.enotfound, []⟩
    | some i =>
      if threadIsTerminal (s.threads i).state then s.joinFinish x tid out i
      else s.joinLoop x tid out i

end Core
end Gth

/-
  The core machine: one step per code segment.

  * `exec`     — the stack `x` in user code makes an API call; runs until the call returns, enters
                 the scheduler or switches stacks;
  * `resume`   — `gth_ctx_swap` has loaded a continuation; runs it up to the same points;
  * `runNext`  — the rest of `gth_scheduler_run_next` once a thread (or none) has been picked, up
                 to its `gth_ctx_swap`.

  The pick is a parameter here: which thread is chosen is the business of the scheduler's modes,
  and no other part of the core depends on it.
-/
import Gthreads.Sync

namespace Gth
namespace Core

/-- A call that has returned without leaving the CPU. -/
def done (x : Ctx) (call : Call) (r : Status × Core) : Core := r.2.ret x call ⟨r.1, []⟩

/-- The API calls, made by user code on stack `x`.  Main has no entry function to return from. -/
def exec (s : Core) (x : Ctx) (call : Call) : Core :=
  match call with
  | .create outTid attr fn arg env =>
    let r := s.threadCreate outTid attr fn arg env
    r.2.ret x call r.1
  | .yield => s.threadYield x
  | .join tid out => s.threadJoin x tid out
  | .cancel tid => done x call (s.threadCancel tid)
  | .exit retval => match x with
    | .main => s
    | .green i => s.threadExit i retval
  | .self => s.ret x call ⟨.ok, [s.threadSelf]⟩
  | .getStats out => s.ret x call (s.runtimeGetStats out)
  | .mutexInit m => done x call (s.mutexInit m)
  | .mutexLock m => s.mutexLock x m none
  | .mutexTrylock m => done x call (s.mutexTrylock m)
  | .mutexUnlock m => done x call (s.mutexUnlock m)
  | .mutexDestroy m => done x call (s.mutexDestroy m)
  | .semInit a n => done x call (s.semInit a n)
  | .semWait a => s.semWait x a
  | .semPost a => done x call (s.semPost a)
  | .semDestroy a => done x call (s.semDestroy a)
  | .condInit c => done x call (s.condInit c)
  | .condWait c m => s.condWait x c m
  | .condSignal c => done x call (s.condSignal c)
  | .condBroadcast c => done x call (s.condBroadcast c)
  | .condDestroy c => done x call (s.condDestroy c)

/-- The continuation `k` runs on its stack. -/
def resume (s : Core) (k : Kont) : Core :=
  match k.frame with
  | .entry => { s with cpu := .user k.ctx }
  | .yield => s.ret k.ctx .yield ⟨.ok, []⟩
  | .lock m mySlot via => s.lockLoop k.ctx m mySlot via (wqFixedSlots + 1)
  | .semWait a => s.ret k.ctx (.semWait a) ⟨.ok, []⟩
  | .condWait c m => s.mutexLock k.ctx m (some c)
  | .runNext act prev caller =>
    -- back in `gth_scheduler_run_next`, which returns `GTH_OK` to its caller
    let s := { s with currentTid := prev, hist := .resume act k.ctx :: s.hist }
    match caller with
    | .yield => s.ret k.ctx .yield ⟨.ok, []⟩
    | .join tid out target => s.joinLoop k.ctx tid out target

/-- `gth_scheduler_run_next` on stack `x` after its pick. -/
def runNext (s : Core) (x : Ctx) (caller : Caller) (pick : Option Slot) : Core :=
  match pick with
  | none => match caller with
    | .yield => s.ret x .yield ⟨.enotfound, []⟩
    | .join tid out _ => s.ret x (.join tid out) ⟨.ebusy, []⟩
  | some i =>
    let previousTid := s.currentTid
    let s := s.emit (traceContextSwitch previousTid (s.threads i).tid)
    let s := s.setThread i { s.threads i with state := .running }
    let s :=
      { s with currentTid := (s.threads i).tid, contextSwitches := incr64 s.contextSwitches }
    let s := { s with runnableThreads := decrPos s.runnableThreads }
    { s with
      schedulerCtx := some ⟨x, .runNext s.acts previousTid caller⟩
      cpu := .swap (s.threads i).ctx
      hist := .dispatch s.acts x i (s.threads i).tid :: s.hist
      acts := s.acts + 1 }

end Core
end Gth

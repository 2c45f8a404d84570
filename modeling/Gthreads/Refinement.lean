/-
  The core refines the kernel.

  `Core.kernel` forgets the bookkeeping and reads the ring buffers as lists.  In a well-formed
  state with well-formed rings, every code segment of the core is one transition of the kernel
  (`exec_refines`, `runNext_refines`, `resume_refines`), so a property that survives the kernel's
  transitions holds in every run of the code (`Kernel.Inv.reach`).
-/
import Gthreads.Kernel

namespace Gth

def SemImpl.cell (impl : SemImpl) : SemCell := ⟨impl.initialized, impl.count⟩

/-- What is stored at an object. -/
def Obj.Impl : Obj → Type
  | .mutex _ => MutexImpl
  | .sem _ => SemImpl
  | .cond _ => CondImpl

def Obj.wqOf : (b : Obj) → b.Impl → WaitQueue
  | .mutex _ => MutexImpl.wq
  | .sem _ => SemImpl.wq
  | .cond _ => CondImpl.wq

namespace Core

/-- Read an object, of whatever kind. -/
def obj (s : Core) : (b : Obj) → b.Impl
  | .mutex m => s.mutexes m
  | .sem a => s.sems a
  | .cond c => s.conds c

/-- Store an object. -/
def setObj (s : Core) : (b : Obj) → b.Impl → Core
  | .mutex m => s.setMutex m
  | .sem a => s.setSem a
  | .cond c => s.setCond c

theorem obj_setObj_self (s : Core) : ∀ (b : Obj) (impl : b.Impl), (s.setObj b impl).obj b = impl
  | .mutex m, impl => Function.update_self (β := fun _ => MutexImpl) m impl s.mutexes
  | .sem a, impl => Function.update_self (β := fun _ => SemImpl) a impl s.sems
  | .cond c, impl => Function.update_self (β := fun _ => CondImpl) c impl s.conds

theorem obj_setObj_of_ne (s : Core) {b o : Obj} (h : o ≠ b) (impl : b.Impl) :
    (s.setObj b impl).obj o = s.obj o := by
  cases b with
  | mutex m =>
    cases o with
    | mutex m' => exact Function.update_of_ne (fun e => h (congrArg Obj.mutex e)) impl s.mutexes
    | _ => rfl
  | sem a =>
    cases o with
    | sem a' => exact Function.update_of_ne (fun e => h (congrArg Obj.sem e)) impl s.sems
    | _ => rfl
  | cond c =>
    cases o with
    | cond c' => exact Function.update_of_ne (fun e => h (congrArg Obj.cond e)) impl s.conds
    | _ => rfl

/-- The wait queues of all objects, as lists. -/
def queue (s : Core) : Obj → List Nat
  | .mutex m => (s.mutexes m).wq.toList
  | .sem a => (s.sems a).wq.toList
  | .cond c => (s.conds c).wq.toList

/-- What the kernel sees of a core state. -/
def kernel (s : Core) : Kernel where
  threads := s.threads
  mutex := fun m => (s.mutexes m).cell
  sem := fun a => (s.sems a).cell
  cond := fun c => (s.conds c).initialized
  queue := s.queue
  cpu := s.cpu
  hist := s.hist

/-- All ring buffers are well formed, and that of a mutex that is not initialised has no room: a
    thread woken after its mutex was destroyed cannot queue up again. -/
structure QueuesWf (s : Core) : Prop where
  mutex : ∀ m, (s.mutexes m).wq.Wf
  sem : ∀ a, (s.sems a).wq.Wf
  cond : ∀ c, (s.conds c).wq.Wf
  closed : ∀ m, (s.mutexes m).initialized = 0 → (s.mutexes m).wq.capacity = 0

variable {s t : Core} {x : Ctx} {i : Slot} {k : Kont}

/-! ## Updates seen by the kernel -/

theorem queue_eq (s : Core) : ∀ b : Obj, s.queue b = (b.wqOf (s.obj b)).toList
  | .mutex _ => rfl
  | .sem _ => rfl
  | .cond _ => rfl

/-- The queue of the object that is stored changes, no other one. -/
theorem queue_setObj (s : Core) (b : Obj) (impl : b.Impl) :
    (s.setObj b impl).queue = Function.update s.queue b (b.wqOf impl).toList := by
  refine Function.eq_update_iff.mpr ⟨?_, fun o ho => ?_⟩
  · rw [queue_eq, obj_setObj_self]
  · rw [queue_eq, queue_eq, obj_setObj_of_ne s ho]

theorem kernel_setMutex (s : Core) (m : Addr) (impl : MutexImpl) :
    (s.setMutex m impl).kernel
      = (s.kernel.setMutex m impl.cell).setQueue (.mutex m) impl.wq.toList := by
  have hcell := Function.comp_update MutexImpl.cell s.mutexes m impl
  have hqueue : (s.setMutex m impl).queue = _ := queue_setObj s (.mutex m) impl
  unfold kernel
  rw [hqueue]
  exact congrArg (Kernel.mk _ · _ _ _ _ _) hcell

/-- The fields of a mutex change, its queue does not. -/
theorem kernel_setLock (s : Core) (m : Addr) (locked : Nat) (owner : Tid) :
    (s.setMutex m { s.mutexes m with locked := locked, owner := owner }).kernel
      = s.kernel.setMutex m { s.kernel.mutex m with locked := locked, owner := owner } := by
  rw [kernel_setMutex]
  exact Kernel.setQueue_self (s.kernel.setMutex m _) (.mutex m)

theorem kernel_setSem (s : Core) (a : Addr) (impl : SemImpl) :
    (s.setSem a impl).kernel
      = (s.kernel.setSem a impl.cell).setQueue (.sem a) impl.wq.toList := by
  have hcell := Function.comp_update SemImpl.cell s.sems a impl
  have hqueue : (s.setSem a impl).queue = _ := queue_setObj s (.sem a) impl
  unfold kernel
  rw [hqueue]
  exact congrArg (Kernel.mk _ _ · _ _ _ _) hcell

/-- The count of a semaphore changes, its queue does not. -/
theorem kernel_setCount (s : Core) (a : Addr) (count : Nat) :
    (s.setSem a { s.sems a with count := count }).kernel
      = s.kernel.setSem a { s.kernel.sem a with count := count } := by
  rw [kernel_setSem]
  exact Kernel.setQueue_self (s.kernel.setSem a _) (.sem a)

theorem kernel_setCond (s : Core) (c : Addr) (impl : CondImpl) :
    (s.setCond c impl).kernel
      = (s.kernel.setCond c impl.initialized).setQueue (.cond c) impl.wq.toList := by
  have hcell := Function.comp_update CondImpl.initialized s.conds c impl
  have hqueue : (s.setCond c impl).queue = _ := queue_setObj s (.cond c) impl
  unfold kernel
  rw [hqueue]
  exact congrArg (Kernel.mk _ _ _ · _ _ _) hcell

theorem kernel_ret (s : Core) (x : Ctx) (c : Call) (r : Ret) :
    (s.ret x c r).kernel = s.kernel.ret x c r := by
  cases x <;> rfl

theorem kernel_ctxTid (s : Core) (x : Ctx) : s.kernel.ctxTid x = s.ctxTid x := by
  cases x <;> rfl

theorem kernel_tidAt (s : Core) (n : Nat) : s.kernel.tidAt n = (s.threadAt n).tid := by
  unfold Kernel.tidAt threadAt
  by_cases hn : n < 128
  · rw [dif_pos hn, dif_pos hn]
    rfl
  · rw [dif_neg hn, dif_neg hn]

theorem kernel_parkBlocked (hk : s.schedulerCtx = some k) (f : Frame) :
    (s.parkBlocked i f).kernel = (s.kernel.suspend i .blocked f).leave i k := by
  simp only [parkBlocked, hk]
  rfl

theorem kernel_threadUnblockSlot (hinit : s.initialized = true) (n : Nat) :
    (s.threadUnblockSlot n).2.kernel = s.kernel.unblock n := by
  rcases threadUnblockSlot_cases hinit n with ⟨hnb, h⟩ | ⟨i, rfl, hst, h⟩
  · rw [h]
    exact (Kernel.unblock_other hnb).symm
  · rw [h]
    exact (Kernel.unblock_blocked (s := s.kernel) hst).symm

theorem kernel_wakeWaiter (hinit : s.initialized = true) (n : Nat) (e : Event) :
    (s.wakeWaiter n e).kernel = s.kernel.unblock n := by
  unfold wakeWaiter
  by_cases hn : n = 0xFF
  · rw [if_neg (not_not_intro hn)]
    exact (Kernel.unblock_other fun i hi => absurd i.isLt (by omega)).symm
  · rw [if_pos hn]
    exact kernel_threadUnblockSlot (s := s.emit e) hinit n

/-! ## The rings stay well formed -/

theorem QueuesWf.setMutex (h : s.QueuesWf) (m : Addr) {o : MutexImpl} (hi : o.wq.Wf)
    (hc : o.initialized = 0 → o.wq.capacity = 0) : (s.setMutex m o).QueuesWf := by
  have hboth : ∀ m', ((s.setMutex m o).mutexes m').wq.Wf ∧
      (((s.setMutex m o).mutexes m').initialized = 0 →
        ((s.setMutex m o).mutexes m').wq.capacity = 0) := by
    intro m'
    by_cases hm : m' = m
    · subst hm
      simp only [Core.setMutex, Function.update_self]
      exact ⟨hi, hc⟩
    · simp only [Core.setMutex, Function.update_of_ne hm]
      exact ⟨h.mutex m', h.closed m'⟩
  exact ⟨fun m' => (hboth m').1, h.sem, h.cond, fun m' => (hboth m').2⟩

theorem QueuesWf.setSem (h : s.QueuesWf) (a : Addr) {o : SemImpl} (hi : o.wq.Wf) :
    (s.setSem a o).QueuesWf := by
  refine ⟨h.mutex, fun a' => ?_, h.cond, h.closed⟩
  by_cases ha : a' = a
  · subst ha
    simp only [Core.setSem, Function.update_self]
    exact hi
  · simp only [Core.setSem, Function.update_of_ne ha]
    exact h.sem a'

theorem QueuesWf.setCond (h : s.QueuesWf) (c : Addr) {o : CondImpl} (hi : o.wq.Wf) :
    (s.setCond c o).QueuesWf := by
  refine ⟨h.mutex, h.sem, fun c' => ?_, h.closed⟩
  by_cases hc : c' = c
  · subst hc
    simp only [Core.setCond, Function.update_self]
    exact hi
  · simp only [Core.setCond, Function.update_of_ne hc]
    exact h.cond c'

theorem QueuesWf.threadUnblockSlot (h : s.QueuesWf) (hinit : s.initialized = true) (n : Nat) :
    (s.threadUnblockSlot n).2.QueuesWf := by
  rcases threadUnblockSlot_cases hinit n with ⟨-, hw⟩ | ⟨i, -, -, hw⟩
  · rw [hw]
    exact h
  · rw [hw]
    exact ⟨h.mutex, h.sem, h.cond, h.closed⟩

theorem QueuesWf.wakeWaiter (h : s.QueuesWf) (hinit : s.initialized = true) (n : Nat) (e : Event) :
    (s.wakeWaiter n e).QueuesWf := by
  rcases wakeWaiter_cases hinit n e with ⟨-, es, hw⟩ | ⟨i, -, -, hw⟩
  · rw [hw]
    exact ⟨h.mutex, h.sem, h.cond, h.closed⟩
  · rw [hw]
    exact ⟨h.mutex, h.sem, h.cond, h.closed⟩

/-! ## Taking the head of a queue -/

/-- Unlocking a mutex with waiters wakes the first one. -/
theorem kernel_popMutex (hinit : s.initialized = true) {m : Addr} (hwf : (s.mutexes m).wq.Wf)
    (hne : (s.mutexes m).wq.wqIsEmpty = false) (locked : Nat) (owner : Tid) (e : Event) :
    ((s.setMutex m { s.mutexes m with
        locked := locked, owner := owner, wq := (s.mutexes m).wq.wqDequeue.2 }).wakeWaiter
      (s.mutexes m).wq.wqDequeue.1 e).kernel
      = (s.kernel.setMutex m { s.kernel.mutex m with locked := locked, owner := owner }).wake
          (.mutex m) := by
  have hhead : (s.kernel.setMutex m { s.kernel.mutex m with
      locked := locked, owner := owner }).queue (.mutex m)
      = (s.mutexes m).wq.wqDequeue.1 :: (s.mutexes m).wq.wqDequeue.2.toList :=
    WaitQueue.toList_wqDequeue hwf hne
  rw [kernel_wakeWaiter (s := s.setMutex m _) hinit, kernel_setMutex, Kernel.wake_cons hhead]
  rfl

theorem kernel_popSem (hinit : s.initialized = true) {a : Addr} (hwf : (s.sems a).wq.Wf)
    (hne : (s.sems a).wq.wqIsEmpty = false) (o : Obs) (e : Event) :
    (((s.setSem a { s.sems a with wq := (s.sems a).wq.wqDequeue.2 }).log o).wakeWaiter
      (s.sems a).wq.wqDequeue.1 e).kernel = (s.kernel.log o).wake (.sem a) := by
  have hhead : (s.kernel.log o).queue (.sem a)
      = (s.sems a).wq.wqDequeue.1 :: (s.sems a).wq.wqDequeue.2.toList :=
    WaitQueue.toList_wqDequeue hwf hne
  have hself : (s.setSem a { s.sems a with wq := (s.sems a).wq.wqDequeue.2 }).kernel
      = s.kernel.setQueue (.sem a) (s.sems a).wq.wqDequeue.2.toList := by
    rw [kernel_setSem]
    exact congrArg (Kernel.setQueue · _ _) (Kernel.setSem_self s.kernel a)
  rw [kernel_wakeWaiter (s := (s.setSem a _).log o) hinit, Kernel.wake_cons hhead]
  exact congrArg (fun K : Kernel => (K.log o).unblock _) hself

theorem kernel_popCond {c : Addr} (hwf : (s.conds c).wq.Wf)
    (hne : (s.conds c).wq.wqIsEmpty = false) :
    (s.setCond c { s.conds c with wq := (s.conds c).wq.wqDequeue.2 }).kernel.unblock
      (s.conds c).wq.wqDequeue.1 = s.kernel.wake (.cond c) := by
  have hhead : s.kernel.queue (.cond c)
      = (s.conds c).wq.wqDequeue.1 :: (s.conds c).wq.wqDequeue.2.toList :=
    WaitQueue.toList_wqDequeue hwf hne
  rw [kernel_setCond, Kernel.wake_cons hhead]
  exact congrArg (fun K : Kernel => (K.setQueue _ _).unblock _) (Kernel.setCond_self s.kernel c)

/-! ## Joining a queue -/

theorem kernel_pushMutex {m : Addr} (hwf : (s.mutexes m).wq.Wf)
    (hfull : (s.mutexes m).wq.wqIsFull = false) (n : Nat) :
    (s.setMutex m { s.mutexes m with wq := (s.mutexes m).wq.wqEnqueue n }).kernel
      = s.kernel.setQueue (.mutex m) (s.kernel.queue (.mutex m) ++ [n]) := by
  rw [kernel_setMutex, WaitQueue.toList_wqEnqueue hwf hfull]
  exact congrArg (Kernel.setQueue · _ _) (Kernel.setMutex_self s.kernel m)

theorem kernel_pushSem {a : Addr} (hwf : (s.sems a).wq.Wf)
    (hfull : (s.sems a).wq.wqIsFull = false) (n : Nat) :
    (s.setSem a { s.sems a with wq := (s.sems a).wq.wqEnqueue n }).kernel
      = s.kernel.setQueue (.sem a) (s.kernel.queue (.sem a) ++ [n]) := by
  rw [kernel_setSem, WaitQueue.toList_wqEnqueue hwf hfull]
  exact congrArg (Kernel.setQueue · _ _) (Kernel.setSem_self s.kernel a)

theorem kernel_pushCond {c : Addr} (hwf : (s.conds c).wq.Wf)
    (hfull : (s.conds c).wq.wqIsFull = false) (n : Nat) :
    (s.setCond c { s.conds c with wq := (s.conds c).wq.wqEnqueue n }).kernel
      = s.kernel.setQueue (.cond c) (s.kernel.queue (.cond c) ++ [n]) := by
  rw [kernel_setCond, WaitQueue.toList_wqEnqueue hwf hfull]
  exact congrArg (Kernel.setQueue · _ _) (Kernel.setCond_self s.kernel c)

/-! ## Code segments are transitions -/

/-- The code segment from `s` to `t` is a transition of the kernel. -/
structure Refines (s : Core) (l : Option (Ctx × Call)) (t : Core) : Prop where
  step : Kernel.Step s.kernel l t.kernel
  queues : t.QueuesWf

/-- Where a thread that leaves the CPU goes. -/
theorem Live.dispatcher (h : s.Live (.green i)) :
    ∃ k : Kont, s.schedulerCtx = some k ∧ Kernel.IsDispatcher k := by
  obtain ⟨act, caller, hsched, -⟩ := h.ctx.sched
  exact ⟨_, hsched, act, caller, rfl⟩

theorem QueuesWf.ret (h : s.QueuesWf) (x : Ctx) (c : Call) (r : Ret) : (s.ret x c r).QueuesWf :=
  ⟨h.mutex, h.sem, h.cond, h.closed⟩

/-- A call that has returned an error without a trace. -/
theorem refines_fail (hq : s.QueuesWf) (hcpu : s.cpu = .user x) {c : Call} {st : Status}
    (hst : st ≠ .ok) : s.Refines (some (x, c)) (s.ret x c ⟨st, []⟩) := by
  refine ⟨?_, hq.ret x c _⟩
  rw [kernel_ret]
  exact .thread (.fail x c st hcpu hst)

section
variable {l : Option (Ctx × Call)} {m : Addr} {via : Option Addr}

theorem refines_acquire (h : s.Live x) (hq : s.QueuesWf) (hat : s.kernel.Locking x m via l)
    (hfree : (s.mutexes m).locked = 0) : s.Refines l (s.lockAcquire x m via) := by
  have hset := hq.setMutex m (o := { s.mutexes m with locked := 1, owner := s.threadSelf })
    (hq.mutex m) (hq.closed m)
  refine ⟨?_, ⟨hset.mutex, hset.sem, hset.cond, hset.closed⟩⟩
  have hkernel : (s.lockAcquire x m via).kernel
      = (s.kernel.setMutex m { s.kernel.mutex m with
          locked := 1, owner := s.kernel.ctxTid x }).ret x (lockCall m via) ⟨.ok, []⟩ := by
    unfold lockAcquire
    rw [kernel_ret, h.threadSelf, kernel_ctxTid]
    exact congrArg (Kernel.ret · _ _ _) (kernel_setLock s m 1 _)
  rw [hkernel]
  exact .mutex (.acquire x m via l hat hfree)

theorem refines_lockPark (h : s.Live (.green i)) (hq : s.QueuesWf)
    (hat : s.kernel.Locking (.green i) m via l) (hlocked : (s.mutexes m).locked ≠ 0)
    (hfull : (s.mutexes m).wq.wqIsFull = false) (es : List Event) :
    s.Refines l (s.lockPark i m via es) := by
  obtain ⟨k, hk, hmain⟩ := h.dispatcher
  have hpush := hq.setMutex m (o := { s.mutexes m with wq := (s.mutexes m).wq.wqEnqueue i })
    (WaitQueue.wf_wqEnqueue (hq.mutex m) i)
    (fun h0 => (WaitQueue.capacity_wqEnqueue _ _).trans (hq.closed m h0))
  have hinit : (s.mutexes m).initialized ≠ 0 := by
    intro h0
    have hcap := hq.closed m h0
    rw [WaitQueue.wqIsFull, decide_eq_false_iff_not] at hfull
    omega
  refine ⟨?_, ⟨hpush.mutex, hpush.sem, hpush.cond, hpush.closed⟩⟩
  have hkernel : (s.lockPark i m via es).kernel
      = (s.kernel.wait i (.mutex m) (.lock m i via)).leave i k := by
    unfold lockPark
    rw [kernel_parkBlocked (by exact hk)]
    exact congrArg (fun K : Kernel => (K.suspend i .blocked _).leave i k)
      (kernel_pushMutex (hq.mutex m) hfull i)
  rw [hkernel]
  exact .mutex (.lockBlock i m via l k hat hinit hlocked hmain)

/-- `gth_mutex_lock`, called by the user or by `gth_cond_wait`. -/
theorem refines_mutexLock (h : s.Live x) (hq : s.QueuesWf)
    (hat : (s.mutexes m).initialized ≠ 0 → s.kernel.Locking x m via l)
    (hfail : ∀ st, st ≠ .ok →
      Kernel.Step s.kernel l (s.kernel.ret x (lockCall m via) ⟨st, []⟩)) :
    s.Refines l (s.mutexLock x m via) := by
  rcases mutexLock_cases h.knows m via with ⟨st, hst, -, heq⟩ | ⟨hi, hfree, heq⟩ |
      ⟨i, es, rfl, -, hi, hlocked, -, hfull, heq⟩
  · rw [heq]
    refine ⟨?_, hq.ret x _ _⟩
    rw [kernel_ret]
    exact hfail st hst
  · rw [heq]
    exact refines_acquire h hq (hat hi) hfree
  · rw [heq]
    exact refines_lockPark h hq (hat hi) hlocked hfull es

/-- The loop of `gth_mutex_lock`, after a wake-up. -/
theorem refines_lockLoop (h : s.Live (.green i)) (hq : s.QueuesWf)
    (hcpu : s.cpu = .swap (some ⟨.green i, .lock m i via⟩)) (fuel : Nat) :
    s.Refines none (s.lockLoop (.green i) m i via (fuel + 1)) := by
  have hat : s.kernel.Locking (.green i) m via none := .woken i via rfl hcpu
  rcases lockLoop_cases h.current m via fuel with ⟨hlocked, -, heq⟩ | ⟨hlocked, hfull, es, heq⟩ |
      ⟨hfree, heq⟩
  · rw [heq]
    refine ⟨?_, hq.ret _ _ _⟩
    rw [kernel_ret]
    exact .mutex (.lockBusy i m via hcpu hlocked)
  · rw [heq]
    exact refines_lockPark h hq hat hlocked hfull es
  · rw [heq]
    exact refines_acquire h hq hat hfree

end

/-- A call that returned without leaving the CPU, seen by the kernel. -/
theorem kernel_done (x : Ctx) (c : Call) (r : Status × Core) :
    (done x c r).kernel = r.2.kernel.ret x c ⟨r.1, []⟩ :=
  kernel_ret r.2 x c _

theorem refines_error (hq : s.QueuesWf) (hcpu : s.cpu = .user x) (c : Call) (st : Status)
    (hst : st ≠ .ok) : s.Refines (some (x, c)) (done x c (st, s)) :=
  refines_fail hq hcpu hst

theorem refines_mutexUnlock (h : s.Live x) (hq : s.QueuesWf) (hcpu : s.cpu = .user x) (m : Addr) :
    s.Refines (some (x, .mutexUnlock m)) (done x (.mutexUnlock m) (s.mutexUnlock m)) := by
  rcases mutexUnlock_cases (s := s) m with ⟨st, hst, hu⟩ | ⟨-, hi, hlocked, howner, hu⟩
  · rw [hu]
    exact refines_error hq hcpu _ st hst
  · rw [h.threadSelf, ← kernel_ctxTid] at howner
    have hstep := Kernel.Step.mutex (.unlock (s := s.kernel) x m hcpu hi hlocked howner)
    rcases hu with ⟨hempty, e, hu⟩ | ⟨hempty, e, e', hu⟩
    · have hset := hq.setMutex m (o := { s.mutexes m with locked := 0, owner := 0 })
        (hq.mutex m) (hq.closed m)
      refine ⟨?_, by rw [hu]; exact ⟨hset.mutex, hset.sem, hset.cond, hset.closed⟩⟩
      rw [Kernel.wake_nil ((WaitQueue.wqIsEmpty_iff _).mp hempty)] at hstep
      rw [kernel_done, hu]
      rw [← kernel_setLock] at hstep
      exact hstep
    · have hset := (hq.setMutex m (o := { s.mutexes m with
          locked := 0, owner := 0, wq := (s.mutexes m).wq.wqDequeue.2 })
        (WaitQueue.wf_wqDequeue (hq.mutex m))
        (fun h0 => (WaitQueue.capacity_wqDequeue _).trans (hq.closed m h0))).wakeWaiter h.body.init
          (s.mutexes m).wq.wqDequeue.1 e
      refine ⟨?_, by rw [hu]; exact ⟨hset.mutex, hset.sem, hset.cond, hset.closed⟩⟩
      rw [← kernel_popMutex h.body.init (hq.mutex m) hempty 0 0 e] at hstep
      rw [kernel_done, hu]
      exact hstep

theorem refines_mutexTrylock (h : s.Live x) (hq : s.QueuesWf) (hcpu : s.cpu = .user x) (m : Addr) :
    s.Refines (some (x, .mutexTrylock m)) (done x (.mutexTrylock m) (s.mutexTrylock m)) := by
  unfold mutexTrylock
  by_cases hm : m = 0
  · rw [if_pos hm]
    exact refines_error hq hcpu _ _ (by decide)
  rw [if_neg hm]
  by_cases hi : (s.mutexes m).initialized = 0
  · rw [if_pos hi]
    exact refines_error hq hcpu _ _ (by decide)
  rw [if_neg hi]
  by_cases hl : (s.mutexes m).locked = 0
  · rw [if_neg (not_not_intro hl)]
    have hset := hq.setMutex m (o := { s.mutexes m with locked := 1, owner := s.threadSelf })
      (hq.mutex m) (hq.closed m)
    refine ⟨?_, hset.ret x _ _⟩
    have hstep := Kernel.Step.mutex (.trylock (s := s.kernel) x m hcpu hi hl)
    rw [kernel_ctxTid, ← h.threadSelf] at hstep
    rw [kernel_done]
    rw [← kernel_setLock] at hstep
    exact hstep
  · rw [if_pos hl]
    exact refines_error hq hcpu _ _ (by decide)

theorem refines_mutexInit (hq : s.QueuesWf) (hcpu : s.cpu = .user x) (m : Addr) :
    s.Refines (some (x, .mutexInit m)) (done x (.mutexInit m) (s.mutexInit m)) := by
  unfold mutexInit
  by_cases hm : m = 0
  · rw [if_pos hm]
    exact refines_error hq hcpu _ _ (by decide)
  rw [if_neg hm]
  refine ⟨?_, (hq.setMutex m (WaitQueue.wf_wqInit _ (Nat.le_refl _)) (by nofun)).ret x _ _⟩
  rw [kernel_done, kernel_setMutex]
  exact .mutex (.init x m hcpu)

theorem refines_mutexDestroy (hq : s.QueuesWf) (hcpu : s.cpu = .user x) (m : Addr) :
    s.Refines (some (x, .mutexDestroy m)) (done x (.mutexDestroy m) (s.mutexDestroy m)) := by
  unfold mutexDestroy
  by_cases hm : m = 0
  · rw [if_pos hm]
    exact refines_error hq hcpu _ _ (by decide)
  rw [if_neg hm]
  by_cases hi : (s.mutexes m).initialized = 0
  · rw [if_pos hi]
    exact refines_error hq hcpu _ _ (by decide)
  rw [if_neg hi]
  by_cases hl : (s.mutexes m).locked = 0
  · rw [if_neg (not_not_intro hl)]
    cases hempty : (s.mutexes m).wq.wqIsEmpty with
    | false => exact refines_error hq hcpu _ _ (by decide)
    | true =>
      refine ⟨?_, (hq.setMutex m (o := {}) WaitQueue.wf_zero (fun _ => rfl)).ret x _ _⟩
      rw [if_neg (by decide), kernel_done, kernel_setMutex]
      exact .mutex (.destroy x m hcpu hl ((WaitQueue.wqIsEmpty_iff _).mp hempty))
  · rw [if_pos hl]
    exact refines_error hq hcpu _ _ (by decide)

theorem refines_semInit (hq : s.QueuesWf) (hcpu : s.cpu = .user x) (a : Addr) (n : Nat) :
    s.Refines (some (x, .semInit a n)) (done x (.semInit a n) (s.semInit a n)) := by
  unfold semInit
  by_cases ha : a = 0
  · rw [if_pos ha]
    exact refines_error hq hcpu _ _ (by decide)
  rw [if_neg ha]
  refine ⟨?_, (hq.setSem a (WaitQueue.wf_wqInit _ (Nat.le_refl _))).ret x _ _⟩
  rw [kernel_done, kernel_setSem]
  exact .sem (.init x a n hcpu)

theorem refines_semDestroy (hq : s.QueuesWf) (hcpu : s.cpu = .user x) (a : Addr) :
    s.Refines (some (x, .semDestroy a)) (done x (.semDestroy a) (s.semDestroy a)) := by
  unfold semDestroy
  by_cases ha : a = 0
  · rw [if_pos ha]
    exact refines_error hq hcpu _ _ (by decide)
  rw [if_neg ha]
  by_cases hi : (s.sems a).initialized = 0
  · rw [if_pos hi]
    exact refines_error hq hcpu _ _ (by decide)
  rw [if_neg hi]
  cases hempty : (s.sems a).wq.wqIsEmpty with
  | false => exact refines_error hq hcpu _ .ebusy (by decide)
  | true =>
    refine ⟨?_, (hq.setSem a (o := {}) WaitQueue.wf_zero).ret x _ _⟩
    rw [if_neg (by decide), kernel_done, kernel_setSem]
    exact .sem (.destroy x a hcpu ((WaitQueue.wqIsEmpty_iff _).mp hempty))

theorem refines_semPost (h : s.Live x) (hq : s.QueuesWf) (hcpu : s.cpu = .user x) (a : Addr) :
    s.Refines (some (x, .semPost a)) (done x (.semPost a) (s.semPost a)) := by
  rcases semPost_cases (s := s) a with ⟨st, hst, hp⟩ | ⟨hi, hne, e, e', hp⟩ |
      ⟨hi, hempty, hmax, e, hp⟩
  · rw [hp]
    exact refines_error hq hcpu _ st hst
  · have hpop := hq.setSem a (o := { s.sems a with wq := (s.sems a).wq.wqDequeue.2 })
      (WaitQueue.wf_wqDequeue (hq.sem a))
    have hwake := QueuesWf.wakeWaiter (s := (s.setSem a _).log
      (.semWake (s.threadAt (s.sems a).wq.wqDequeue.1).tid a))
      ⟨hpop.mutex, hpop.sem, hpop.cond, hpop.closed⟩ h.body.init (s.sems a).wq.wqDequeue.1 e
    refine ⟨?_, by rw [hp]; exact ⟨hwake.mutex, hwake.sem, hwake.cond, hwake.closed⟩⟩
    have hstep := Kernel.Step.sem (.wake (s := s.kernel) x a _ _ hcpu hi
      (WaitQueue.toList_wqDequeue (hq.sem a) hne))
    rw [kernel_tidAt, ← kernel_popSem h.body.init (hq.sem a) hne _ e] at hstep
    rw [kernel_done, hp]
    exact hstep
  · have hset := hq.setSem a (o := { s.sems a with count := (s.sems a).count + 1 }) (hq.sem a)
    refine ⟨?_, by rw [hp]; exact ⟨hset.mutex, hset.sem, hset.cond, hset.closed⟩⟩
    have hstep := Kernel.Step.sem (.give (s := s.kernel) x a hcpu hi
      ((WaitQueue.wqIsEmpty_iff _).mp hempty) hmax)
    rw [← kernel_setCount] at hstep
    rw [kernel_done, hp]
    exact hstep

theorem refines_semWait (h : s.Live x) (hq : s.QueuesWf) (hcpu : s.cpu = .user x) (a : Addr) :
    s.Refines (some (x, .semWait a)) (s.semWait x a) := by
  rcases semWait_cases h.knows a with ⟨st, hst, hw⟩ | ⟨hi, hc, es, hw⟩ |
      ⟨i, es, rfl, -, hi, hc, hfull, hw⟩
  · rw [hw]
    exact refines_fail hq hcpu hst
  · have hset := hq.setSem a (o := { s.sems a with count := (s.sems a).count - 1 }) (hq.sem a)
    refine ⟨?_, by rw [hw]; exact ⟨hset.mutex, hset.sem, hset.cond, hset.closed⟩⟩
    have hstep := Kernel.Step.sem (.take (s := s.kernel) x a hcpu hi hc)
    rw [← kernel_setCount, kernel_ctxTid] at hstep
    rw [hw, kernel_ret]
    exact hstep
  · obtain ⟨k, hk, hmain⟩ := h.dispatcher
    have hpush := hq.setSem a (o := { s.sems a with wq := (s.sems a).wq.wqEnqueue i })
      (WaitQueue.wf_wqEnqueue (hq.sem a) i)
    refine ⟨?_, by rw [hw]; exact ⟨hpush.mutex, hpush.sem, hpush.cond, hpush.closed⟩⟩
    have hstep := Kernel.Step.sem (.block (s := s.kernel) i a k hcpu hi hc hmain)
    rw [hw, kernel_parkBlocked (by exact hk)]
    exact Eq.mp (congrArg (fun K : Kernel => Kernel.Step _ _
      (((K.log _).suspend i .blocked _).leave i k)) (kernel_pushSem (hq.sem a) hfull i).symm) hstep

theorem refines_condInit (hq : s.QueuesWf) (hcpu : s.cpu = .user x) (c : Addr) :
    s.Refines (some (x, .condInit c)) (done x (.condInit c) (s.condInit c)) := by
  unfold condInit
  by_cases hc : c = 0
  · rw [if_pos hc]
    exact refines_error hq hcpu _ _ (by decide)
  rw [if_neg hc]
  refine ⟨?_, (hq.setCond c (WaitQueue.wf_wqInit _ (Nat.le_refl _))).ret x _ _⟩
  rw [kernel_done, kernel_setCond]
  exact .cond (.init x c hcpu)

theorem refines_condDestroy (hq : s.QueuesWf) (hcpu : s.cpu = .user x) (c : Addr) :
    s.Refines (some (x, .condDestroy c)) (done x (.condDestroy c) (s.condDestroy c)) := by
  unfold condDestroy
  by_cases hc : c = 0
  · rw [if_pos hc]
    exact refines_error hq hcpu _ _ (by decide)
  rw [if_neg hc]
  by_cases hi : (s.conds c).initialized = 0
  · rw [if_pos hi]
    exact refines_error hq hcpu _ _ (by decide)
  rw [if_neg hi]
  cases hempty : (s.conds c).wq.wqIsEmpty with
  | false => exact refines_error hq hcpu _ .ebusy (by decide)
  | true =>
    refine ⟨?_, (hq.setCond c (o := {}) WaitQueue.wf_zero).ret x _ _⟩
    rw [if_neg (by decide), kernel_done, kernel_setCond]
    exact .cond (.destroy x c hcpu ((WaitQueue.wqIsEmpty_iff _).mp hempty))

theorem refines_condSignal (h : s.Live x) (hq : s.QueuesWf) (hcpu : s.cpu = .user x) (c : Addr) :
    s.Refines (some (x, .condSignal c)) (done x (.condSignal c) (s.condSignal c)) := by
  have hstep := Kernel.Step.cond (.signal (s := s.kernel) x c hcpu)
  rcases condSignal_cases (s := s) c with ⟨st, hst, hs⟩ | ⟨hempty, hs⟩ | ⟨-, hne, e, hs⟩
  · rw [hs]
    exact refines_error hq hcpu _ st hst
  · rw [Kernel.wake_nil ((WaitQueue.wqIsEmpty_iff _).mp hempty)] at hstep
    refine ⟨?_, by rw [hs]; exact hq.ret x _ _⟩
    rw [kernel_done, hs]
    exact hstep
  · have hwake := (hq.setCond c (o := { s.conds c with wq := (s.conds c).wq.wqDequeue.2 })
      (WaitQueue.wf_wqDequeue (hq.cond c))).wakeWaiter h.body.init (s.conds c).wq.wqDequeue.1 e
    refine ⟨?_, by rw [hs]; exact hwake.ret x _ _⟩
    rw [← kernel_popCond (hq.cond c) hne,
      ← kernel_wakeWaiter (s := s.setCond c _) h.body.init _ e] at hstep
    rw [kernel_done, hs]
    exact hstep

/-- The loop of `gth_cond_broadcast` wakes waiter after waiter. -/
theorem kernel_broadcastLoop {c : Addr} : ∀ (fuel : Nat) (s : Core) (wakeCount : Nat),
    s.initialized = true → s.QueuesWf →
    (s.broadcastLoop c wakeCount fuel).2.kernel = s.kernel.wakes (.cond c) fuel ∧
      (s.broadcastLoop c wakeCount fuel).2.QueuesWf := by
  intro fuel
  induction fuel with
  | zero => exact fun s _ _ hq => ⟨rfl, hq⟩
  | succ fuel ih =>
    intro s wakeCount hinit hq
    unfold broadcastLoop Kernel.wakes
    cases hempty : (s.conds c).wq.wqIsEmpty with
    | true =>
      have hnil : s.kernel.queue (.cond c) = [] := (WaitQueue.wqIsEmpty_iff _).mp hempty
      rw [if_neg (by decide), Kernel.wake_nil hnil, Kernel.wakes_nil hnil]
      exact ⟨rfl, hq⟩
    | false =>
      rw [if_pos rfl, ← kernel_popCond (hq.cond c) hempty]
      have hpop := hq.setCond c (o := { s.conds c with wq := (s.conds c).wq.wqDequeue.2 })
        (WaitQueue.wf_wqDequeue (hq.cond c))
      dsimp only
      by_cases hff : (s.conds c).wq.wqDequeue.1 = 0xFF
      · rw [if_neg (not_not_intro hff),
          Kernel.unblock_other fun i hi => absurd i.isLt (by omega)]
        exact ih _ _ hinit hpop
      · rw [if_pos hff, ← kernel_threadUnblockSlot (s := s.setCond c _) hinit]
        refine ih _ _ ?_ (hpop.threadUnblockSlot hinit _)
        exact (congrArg Prod.fst ((s.setCond c _).threadUnblockSlot_fixed _)).trans hinit

theorem refines_condBroadcast (h : s.Live x) (hq : s.QueuesWf) (hcpu : s.cpu = .user x)
    (c : Addr) :
    s.Refines (some (x, .condBroadcast c)) (done x (.condBroadcast c) (s.condBroadcast c)) := by
  rcases condBroadcast_cases (s := s) c with ⟨st, hst, hb⟩ | ⟨-, e, hb⟩
  · rw [hb]
    exact refines_error hq hcpu _ st hst
  · obtain ⟨hkernel, hloop⟩ := kernel_broadcastLoop (c := c) (s.conds c).wq.count s 0 h.body.init hq
    refine ⟨?_, by rw [hb]; exact ⟨hloop.mutex, hloop.sem, hloop.cond, hloop.closed⟩⟩
    have hstep := Kernel.Step.cond (.broadcast (s := s.kernel) x c hcpu)
    rw [show (s.kernel.queue (.cond c)).length = (s.conds c).wq.count from
      WaitQueue.length_toList _, ← hkernel] at hstep
    rw [kernel_done, hb]
    exact hstep

/-- The caller of `gth_cond_wait` has queued up at `c` and `m` is released. -/
def condReleased (s : Core) (i : Slot) (c m : Addr) : Kernel :=
  (s.kernel.setMutex m { s.kernel.mutex m with locked := 0, owner := 0 }).wait i (.cond c)
    (.condWait c m)

theorem queue_condReleased (s : Core) (i : Slot) (c m : Addr) :
    (s.condReleased i c m).queue (.mutex m) = (s.mutexes m).wq.toList :=
  Kernel.queue_wait_of_ne _ i _ (by simp)

theorem kernel_condPark (hq : s.QueuesWf) (hk : s.schedulerCtx = some k) {c : Addr}
    (hfull : (s.conds c).wq.wqIsFull = false) (m : Addr) (wq : WaitQueue) (es : List Event) :
    (s.condPark i c m { s.mutexes m with locked := 0, owner := 0, wq := wq } es).kernel
      = (((s.condReleased i c m).setQueue (.mutex m) wq.toList).log
          (.condRelease (s.threads i).tid c m)).leave i k := by
  unfold condPark
  rw [kernel_parkBlocked (by exact hk)]
  have hmutex := kernel_setMutex
    (s.setCond c { s.conds c with wq := (s.conds c).wq.wqEnqueue i }) m
    { s.mutexes m with locked := 0, owner := 0, wq := wq }
  rw [kernel_pushCond (hq.cond c) hfull] at hmutex
  exact congrArg (fun K : Kernel => ((K.suspend i .blocked _).log _).leave i k) hmutex

/-- The rest of a `gth_cond_wait` that succeeds: the first waiter for the mutex is woken. -/
theorem kernel_condWait (hq : s.QueuesWf) (hk : s.schedulerCtx = some k) {c m : Addr}
    (hfull : (s.conds c).wq.wqIsFull = false) {t : Core}
    (hw : ((s.mutexes m).wq.wqIsEmpty = true ∧ ∃ es, t =
            s.condPark i c m { s.mutexes m with locked := 0, owner := 0 } es) ∨
          ((s.mutexes m).wq.wqIsEmpty = false ∧ ∃ es P, P = s.condPark i c m
              { s.mutexes m with locked := 0, owner := 0, wq := (s.mutexes m).wq.wqDequeue.2 } es ∧
            (((∀ j : Slot, (j : Nat) = (s.mutexes m).wq.wqDequeue.1 →
                (P.threads j).state ≠ .blocked) ∧ t = P) ∨
             (∃ j : Slot, (j : Nat) = (s.mutexes m).wq.wqDequeue.1 ∧
                (P.threads j).state = .blocked ∧
                ∃ es', t = { P.wakeSlot j with events := es' })))) :
    t.kernel = (((s.condReleased i c m).wake (.mutex m)).log
      (.condRelease (s.threads i).tid c m)).leave i k ∧ t.QueuesWf := by
  have hqm := queue_condReleased s i c m
  have hqueues : ∀ (impl : MutexImpl) (es : List Event), impl.wq.Wf →
      (impl.initialized = 0 → impl.wq.capacity = 0) → (s.condPark i c m impl es).QueuesWf := by
    intro impl es himpl hclosed
    have hset := (hq.setCond c (o := { s.conds c with wq := (s.conds c).wq.wqEnqueue i })
      (WaitQueue.wf_wqEnqueue (hq.cond c) (i : Nat))).setMutex m himpl hclosed
    exact ⟨hset.mutex, hset.sem, hset.cond, hset.closed⟩
  rcases hw with ⟨hempty, es, rfl⟩ | ⟨hne, es, P, hP, hw⟩
  · refine ⟨?_, hqueues _ es (hq.mutex m) (hq.closed m)⟩
    rw [(WaitQueue.wqIsEmpty_iff _).mp hempty] at hqm
    rw [Kernel.wake_nil hqm]
    have hpark := kernel_condPark (i := i) hq hk hfull m (s.mutexes m).wq es
    rw [← queue_condReleased s i c m, Kernel.setQueue_self] at hpark
    exact hpark
  · have hkernel : P.kernel = _ := hP ▸ kernel_condPark (i := i) hq hk hfull m
      (s.mutexes m).wq.wqDequeue.2 es
    have hPq : P.QueuesWf := hP ▸ hqueues _ es (WaitQueue.wf_wqDequeue (hq.mutex m))
      (fun h0 => (WaitQueue.capacity_wqDequeue _).trans (hq.closed m h0))
    have hstate : ∀ j, (P.threads j).state = (((s.condReleased i c m).setQueue (.mutex m)
        (s.mutexes m).wq.wqDequeue.2.toList).threads j).state :=
      fun j => congrArg (fun K : Kernel => (K.threads j).state) hkernel
    rw [WaitQueue.toList_wqDequeue (hq.mutex m) hne] at hqm
    rw [Kernel.wake_cons hqm]
    rcases hw with ⟨hnb, rfl⟩ | ⟨j, hj, hjb, es', rfl⟩
    · refine ⟨?_, hPq⟩
      rw [Kernel.unblock_other fun j hj => hstate j ▸ hnb j hj]
      exact hkernel
    · refine ⟨?_, ⟨hPq.mutex, hPq.sem, hPq.cond, hPq.closed⟩⟩
      rw [← hj, Kernel.unblock_blocked ((hstate j).symm.trans hjb)]
      exact congrArg (fun K : Kernel => K.setState j .ready) hkernel

theorem refines_condWait (h : s.Live x) (hq : s.QueuesWf) (hcpu : s.cpu = .user x) (c m : Addr) :
    s.Refines (some (x, .condWait c m)) (s.condWait x c m) := by
  rcases condWait_cases h.knows c m with ⟨st, hst, hw⟩ | ⟨i, rfl, -, hci, hfull, hw⟩
  · rw [hw]
    exact refines_fail hq hcpu hst
  rcases hw with ⟨st, es, hst, hw⟩ | ⟨hmi, hlocked, howner, hw⟩
  · -- both the entry in the queue and the mark are undone
    have hremove := WaitQueue.wqRemove_spec (WaitQueue.wf_wqEnqueue (hq.cond c) (i : Nat)) (i : Nat)
    have hset := hq.setCond c
      (o := { s.conds c with wq := (((s.conds c).wq.wqEnqueue i).wqRemove i).2 }) hremove.2.2.1
    refine ⟨?_, by rw [hw]; exact ⟨hset.mutex, hset.sem, hset.cond, hset.closed⟩⟩
    have hstep := Kernel.Step.cond (.fail (s := s.kernel) i c m st hcpu hst)
    have hcond := kernel_setCond s c
      { s.conds c with wq := (((s.conds c).wq.wqEnqueue i).wqRemove i).2 }
    rw [hremove.2.1, WaitQueue.toList_wqEnqueue (hq.cond c) hfull] at hcond
    have hself : s.kernel.setCond c (s.conds c).initialized = s.kernel :=
      Kernel.setCond_self s.kernel c
    rw [hself] at hcond
    rw [hw, kernel_ret]
    exact Eq.mp (congrArg (fun K : Kernel => Kernel.Step _ _
      ((K.setState i .running).ret _ _ _)) hcond.symm) hstep
  · obtain ⟨k, hk, hmain⟩ := h.dispatcher
    rw [h.threadSelf] at howner
    obtain ⟨hkernel, hqueues⟩ := kernel_condWait hq hk hfull hw
    refine ⟨?_, hqueues⟩
    rw [hkernel]
    exact .cond (.block i c m k hcpu hci hmi hlocked howner hmain)

theorem refines_create (hq : s.QueuesWf) (hcpu : s.cpu = .user x) (outTid : Bool)
    (attr : Option Nat) (fn arg : Nat) (env : MapEnv) :
    s.Refines (some (x, .create outTid attr fn arg env)) (s.exec x (.create outTid attr fn arg env))
    := by
  rcases threadCreate_cases (s := s) outTid attr fn arg env with
      ⟨st, hst, hc⟩ | ⟨i, hi, ⟨st, hst, hc⟩ | ⟨r, es, htid, hr, hctx, -, hc⟩⟩
  · simp only [exec, hc]
    exact refines_fail hq hcpu hst
  · simp only [exec, hc]
    refine ⟨?_, ⟨hq.mutex, hq.sem, hq.cond, hq.closed⟩⟩
    rw [kernel_ret]
    exact .thread (.createFail x _ st i hcpu rfl hst hi)
  · simp only [exec, hc, ← htid]
    refine ⟨?_, ⟨hq.mutex, hq.sem, hq.cond, hq.closed⟩⟩
    rw [kernel_ret]
    exact .thread (.create x _ i r hcpu rfl hi hr hctx)

theorem refines_yield (h : s.Live x) (hq : s.QueuesWf) (hcpu : s.cpu = .user x) :
    s.Refines (some (x, .yield)) (s.threadYield x) := by
  rcases threadYield_cases h.knows with ⟨h0, hy⟩ | ⟨-, hy⟩ | ⟨i, es, rfl, -, hy⟩
  · rw [hy]
    refine ⟨?_, ⟨hq.mutex, hq.sem, hq.cond, hq.closed⟩⟩
    cases x with
    | main => exact .thread (.schedule .yield hcpu)
    | green i => exact absurd h0 h.current.ne_zero
  · rw [hy]
    exact refines_fail hq hcpu (by decide)
  · obtain ⟨k, hk, hmain⟩ := h.dispatcher
    refine ⟨?_, by rw [hy]; exact ⟨hq.mutex, hq.sem, hq.cond, hq.closed⟩⟩
    have hkernel : (parkReady { s with events := es } i).kernel
        = (s.kernel.suspend i .ready .yield).leave i k := by
      simp only [parkReady, hk]
      rfl
    rw [hy, hkernel]
    exact .thread (.yield i k hcpu hmain)

theorem refines_join (h : s.Live .main) (hq : s.QueuesWf) (hcpu : s.cpu = .user .main) (tid : Tid)
    (out : Bool) : s.Refines (some (.main, .join tid out)) (s.threadJoin .main tid out) := by
  rcases threadJoin_cases h.knows tid out with ⟨st, hst, hj⟩ | ⟨i, -, hfind, ⟨hterm, hj⟩ | ⟨-, hj⟩⟩
  · rw [hj]
    exact refines_fail hq hcpu hst
  · rw [hj]
    refine ⟨?_, ⟨hq.mutex, hq.sem, hq.cond, hq.closed⟩⟩
    rw [kernel_ret]
    exact .thread (.release tid out i hcpu hfind hterm)
  · rw [hj]
    exact ⟨.thread (.schedule (.join tid out i) hcpu), ⟨hq.mutex, hq.sem, hq.cond, hq.closed⟩⟩

theorem refines_cancel (h : s.Live x) (hq : s.QueuesWf) (hcpu : s.cpu = .user x) (tid : Tid) :
    s.Refines (some (x, .cancel tid)) (done x (.cancel tid) (s.threadCancel tid)) := by
  rcases threadCancel_cases h.knows tid with ⟨st, hst, hc⟩ | ⟨i, es, hfind, hterm, hc⟩
  · rw [hc]
    exact refines_error hq hcpu _ st hst
  · refine ⟨?_, by rw [hc]; exact ⟨hq.mutex, hq.sem, hq.cond, hq.closed⟩⟩
    rw [kernel_done, hc]
    exact .thread (.cancel x tid i hcpu hfind hterm)

theorem refines_exit (h : s.Live (.green i)) (hq : s.QueuesWf) (hcpu : s.cpu = .user (.green i))
    (v : Nat) : s.Refines (some (.green i, .exit v)) (s.threadExit i v) := by
  obtain ⟨r, es, htid, -, hctx, hterm, hx⟩ := threadExit_eq (s := s) i v
  obtain ⟨k, hk, hmain⟩ := h.dispatcher
  refine ⟨?_, by rw [hx]; exact ⟨hq.mutex, hq.sem, hq.cond, hq.closed⟩⟩
  have hkernel : (s.threadExit i v).kernel = (s.kernel.setThread i r).leave i k := by
    rw [hx, hk]
    rfl
  rw [hkernel]
  exact .thread (.exit i v r k hcpu htid hctx hterm hmain)

/-- **Every API call is a transition of the kernel.** -/
theorem exec_refines (h : s.WF) (hq : s.QueuesWf) (hcpu : s.cpu = .user x) {c : Call}
    (hcall : State.callable x c = true) (hjoin : c.isGreenJoin x = false) :
    s.Refines (some (x, c)) (s.exec x c) := by
  have hl := h.live hcpu
  cases c with
  | create outTid attr fn arg env => exact refines_create hq hcpu outTid attr fn arg env
  | yield => exact refines_yield hl hq hcpu
  | join tid out =>
    cases x with
    | main => exact refines_join hl hq hcpu tid out
    | green i => nomatch hjoin
  | cancel tid => exact refines_cancel hl hq hcpu tid
  | exit v =>
    cases x with
    | main => nomatch hcall
    | green i => exact refines_exit hl hq hcpu v
  | self =>
    refine ⟨?_, hq.ret x _ _⟩
    show Kernel.Step _ _ (s.ret x _ _).kernel
    rw [kernel_ret]
    exact .thread (.query x _ _ hcpu rfl)
  | getStats out =>
    refine ⟨?_, hq.ret x _ _⟩
    show Kernel.Step _ _ (s.ret x _ _).kernel
    rw [kernel_ret]
    exact .thread (.query x _ _ hcpu rfl)
  | mutexInit m => exact refines_mutexInit hq hcpu m
  | mutexLock m =>
    exact refines_mutexLock hl hq (fun hi => .call hcpu hi)
      (fun st hst => .thread (.fail x _ st hcpu hst))
  | mutexTrylock m => exact refines_mutexTrylock hl hq hcpu m
  | mutexUnlock m => exact refines_mutexUnlock hl hq hcpu m
  | mutexDestroy m => exact refines_mutexDestroy hq hcpu m
  | semInit a n => exact refines_semInit hq hcpu a n
  | semWait a => exact refines_semWait hl hq hcpu a
  | semPost a => exact refines_semPost hl hq hcpu a
  | semDestroy a => exact refines_semDestroy hq hcpu a
  | condInit c => exact refines_condInit hq hcpu c
  | condWait c m => exact refines_condWait hl hq hcpu c m
  | condSignal c => exact refines_condSignal hl hq hcpu c
  | condBroadcast c => exact refines_condBroadcast hl hq hcpu c
  | condDestroy c => exact refines_condDestroy hq hcpu c

/-- **A dispatch is a transition of the kernel.** -/
theorem runNext_refines (h : s.WF) (hq : s.QueuesWf) {caller : Caller} {pick : Option Slot}
    (hcpu : s.cpu = .sched .main caller)
    (hpick : ∀ i, pick = some i → (s.threads i).state = .ready) :
    s.Refines none (s.runNext .main caller pick) := by
  cases pick with
  | none =>
    cases caller with
    | yield =>
      refine ⟨?_, hq.ret .main _ _⟩
      show Kernel.Step _ _ (s.ret .main _ _).kernel
      rw [kernel_ret]
      exact .sched (.idle .yield .enotfound hcpu (by decide))
    | join tid out target =>
      refine ⟨?_, hq.ret .main _ _⟩
      show Kernel.Step _ _ (s.ret .main _ _).kernel
      rw [kernel_ret]
      exact .sched (.idle (.join tid out target) .ebusy hcpu (by decide))
  | some i =>
    have hready := hpick i rfl
    obtain ⟨f, hctx, hf, -⟩ := h.body.parked i (Or.inl hready)
    refine ⟨?_, by rw [runNext_some]; exact ⟨hq.mutex, hq.sem, hq.cond, hq.closed⟩⟩
    have hkernel : (s.dispatch .main caller i).kernel
        = ((s.kernel.setState i .running).log (.dispatch s.acts .main i (s.threads i).tid)).setCpu
            (.swap (some ⟨.green i, f⟩)) := by
      rw [← hctx]
      rfl
    rw [runNext_some, hkernel]
    exact .sched (.dispatch caller s.acts i f hcpu hready hctx hf)

/-- **A resumption is a transition of the kernel.** -/
theorem resume_refines (h : s.WF) (hq : s.QueuesWf) {k : Kont} (hcpu : s.cpu = .swap (some k)) :
    s.Refines none (s.resume k) := by
  rcases h.swap hcpu with ⟨act, caller, rfl, hlive, hcaller⟩ | ⟨i, f, rfl, hf, -, hlive⟩
  · cases caller with
    | yield =>
      refine ⟨?_, ⟨hq.mutex, hq.sem, hq.cond, hq.closed⟩⟩
      exact .sched (.backYield act hcpu)
    | join tid out target =>
      have hloop := joinLoop_cases (s := { s with
        currentTid := 0, hist := .resume act .main :: s.hist }) (x := .main)
        ⟨hlive.body.init, hlive.body.tids, rfl⟩ hcaller
      have hfind : findThread s.threads tid = some target :=
        hcaller.2 ▸ hlive.body.tids.find hcaller.1
      rcases hloop with ⟨hterm, heq⟩ | heq
      · refine ⟨?_, ?_⟩
        · show Kernel.Step _ _ (joinLoop _ _ _ _ _).kernel
          rw [heq, kernel_ret]
          exact .sched (.backRelease act tid out target hcpu hfind hterm)
        · show (joinLoop _ _ _ _ _).QueuesWf
          rw [heq]
          exact ⟨hq.mutex, hq.sem, hq.cond, hq.closed⟩
      · refine ⟨?_, ?_⟩
        · show Kernel.Step _ _ (joinLoop _ _ _ _ _).kernel
          rw [heq]
          exact .sched (.backLoop act (.join tid out target) hcpu)
        · show (joinLoop _ _ _ _ _).QueuesWf
          rw [heq]
          exact ⟨hq.mutex, hq.sem, hq.cond, hq.closed⟩
  · cases f with
    | entry => exact ⟨.sched (.start i hcpu), ⟨hq.mutex, hq.sem, hq.cond, hq.closed⟩⟩
    | yield => exact ⟨.sched (.yielded i hcpu), ⟨hq.mutex, hq.sem, hq.cond, hq.closed⟩⟩
    | lock m mySlot via =>
      obtain rfl : mySlot = i := hf
      exact refines_lockLoop hlive hq hcpu wqFixedSlots
    | semWait a => exact ⟨.sem (.waited i a hcpu), ⟨hq.mutex, hq.sem, hq.cond, hq.closed⟩⟩
    | condWait c m =>
      exact refines_mutexLock hlive hq (fun hi => .relock i c rfl hcpu hi)
        (fun st hst => .mutex (.relockFail i c m st hcpu hst))
    | runNext act prev caller => exact absurd hf id

/-- Well-formedness, seen by the kernel. -/
theorem WF.kernel_ok (h : s.WF) : s.kernel.Ok where
  tid_pos := fun i hi => Nat.one_le_iff_ne_zero.mp (h.body.tids.range i hi).1
  tid_inj := h.body.tids.inj
  parked := h.body.parked
  user := fun _ hcpu => (h.live hcpu).ctx.state
  enter := by
    intro i f hcpu
    rcases h.swap hcpu with ⟨act, caller, hk, -⟩ | ⟨j, f', hk, hf, hst, -⟩
    · nomatch hk
    · cases hk
      exact ⟨hst, hf⟩

end Core

/-! ## Invariants of the kernel hold in every run -/

namespace Kernel
variable {J : Kernel → Prop} {G : Kernel → Ctx → Call → Prop}

/-- `J` survives every transition whose call meets `G`. -/
def Inv (J : Kernel → Prop) (G : Kernel → Ctx → Call → Prop) : Prop :=
  ∀ s l t, s.Ok → t.Ok → Step s l t → (∀ x c, l = some (x, c) → G s x c) → J s → J t

theorem Inv.keeps (h : Inv J G) :
    Keeps (fun s => s.QueuesWf ∧ J s.kernel) (fun s => G s.kernel) where
  fresh := fun _ hJ => ⟨⟨hJ.1.mutex, hJ.1.sem, hJ.1.cond, hJ.1.closed⟩, hJ.2⟩
  call := by
    intro s x c hwf hcpu hcall hjoin hwf' hG hJ
    have href := Core.exec_refines hwf hJ.1 hcpu hcall hjoin
    refine ⟨href.queues, h _ _ _ hwf.kernel_ok hwf'.kernel_ok href.step ?_ hJ.2⟩
    intro y d hyd
    cases hyd
    exact hG
  pick := by
    intro s caller pick hwf hcpu hpick hwf' hJ
    have href := Core.runNext_refines hwf hJ.1 hcpu hpick
    exact ⟨href.queues, h _ _ _ hwf.kernel_ok hwf'.kernel_ok href.step nofun hJ.2⟩
  swap := by
    intro s k hwf hcpu hwf' hJ
    have href := Core.resume_refines hwf hJ.1 hcpu
    exact ⟨href.queues, h _ _ _ hwf.kernel_ok hwf'.kernel_ok href.step nofun hJ.2⟩

/-- The rings stay well formed. -/
theorem queuesWf_step {W : World} (s : State) (l : Label) (t : State) (hq : s.core.QueuesWf)
    (htame : State.Tame W s l) (hstep : State.step W s l = some t) : t.core.QueuesWf :=
  ((Inv.keeps (J := fun _ => True) (G := fun _ _ _ => True) fun _ _ _ _ _ _ _ _ => trivial).step
    s l t ⟨hq, trivial⟩ ⟨htame, fun _ _ _ => trivial⟩ hstep).1

/-- The API call of a step. -/
def callOf : Label → Option (Ctx × Call)
  | .call x c => some (x, c)
  | .sub _ _ => none
  | .tau => none

theorem callOf_some {l : Label} {x : Ctx} {c : Call} (h : callOf l = some (x, c)) :
    l = .call x c := by
  cases l with
  | call y d =>
    cases h
    rfl
  | _ => nomatch h

/-- A step of the machine is a call of user code that leaves the core alone, or one transition of
    the kernel. -/
theorem step_user_or {W : World} {s u : State} {l : Label} (hwf : s.core.WF)
    (hq : s.core.QueuesWf) (hl : l.joinsFromMain = true) (hstep : State.step W s l = some u) :
    (u.core = s.core ∧ ∃ x, s.core.cpu = .user x) ∨
      Step s.core.kernel (callOf l) u.core.kernel := by
  have hfresh : s.fresh.WF := ⟨hwf.body, hwf.cpu⟩
  have hq' : s.fresh.QueuesWf := ⟨hq.mutex, hq.sem, hq.cond, hq.closed⟩
  rcases State.step_cases hstep with ⟨x, c, -, hcpu, rfl⟩ | ⟨x, c, rfl, hcpu, hcall, rfl⟩ |
      ⟨x, caller, pick, sub, rfl, hcpu, hp, rfl⟩ | ⟨k, rfl, hcpu, rfl⟩
  · exact Or.inl ⟨rfl, x, hcpu⟩
  · have hjoin : c.isGreenJoin x = false := by simpa [Label.joinsFromMain] using hl
    exact Or.inr (Core.exec_refines hfresh hq' hcpu hcall hjoin).step
  · obtain ⟨rfl, hlive, -⟩ := hfresh.sched hcpu
    refine Or.inr (Core.runNext_refines hfresh hq' hcpu fun i hi => ?_).step
    subst hi
    exact (pickReadyThreadMode_state hp).resolve_right (hlive.ctx.2 i)
  · exact Or.inr (Core.resume_refines hfresh hq' hcpu).step

/-- **One step of the machine** is one transition of the kernel, or none. -/
theorem step_refines {W : World} {s u : State} {l : Label} (hwf : s.core.WF)
    (hq : s.core.QueuesWf) (hl : l.joinsFromMain = true) (hstep : State.step W s l = some u) :
    u.core.kernel = s.core.kernel ∨ Step s.core.kernel (callOf l) u.core.kernel :=
  (step_user_or hwf hq hl hstep).imp_left fun h => congrArg Core.kernel h.1

/-- The kernel at the start of a run. -/
def initial : Kernel where
  threads := fun _ => {}
  mutex := fun _ => ⟨0, 0, 0⟩
  sem := fun _ => ⟨0, 0⟩
  cond := fun _ => 0
  queue := fun _ => []
  cpu := .user .main
  hist := []

theorem start_kernel (config : ValidConfig) (pageSize : BitVec 64)
    (files : Path → Option (List UInt8)) :
    (State.start config pageSize files).core.kernel = initial ∧
      (State.start config pageSize files).core.QueuesWf := by
  rw [State.start_core]
  refine ⟨?_, ⟨fun _ => WaitQueue.wf_zero, fun _ => WaitQueue.wf_zero,
    fun _ => WaitQueue.wf_zero, fun _ _ => rfl⟩⟩
  have hqueue : ∀ s : Core, s.mutexes = (fun _ => {}) → s.sems = (fun _ => {}) →
      s.conds = (fun _ => {}) → s.queue = fun _ => [] := by
    intro s hm hs hc
    funext o
    cases o <;> simp only [Core.queue, hm, hs, hc, WaitQueue.toList_zero]
  simp only [Core.kernel, initial, MutexImpl.cell, SemImpl.cell]
  rw [hqueue _ rfl rfl rfl]

/-- **Runs of the code.**  What holds at the start and survives the transitions of the kernel
    holds wherever a run leads whose calls meet `G`. -/
theorem Inv.reach (h : Inv J G) (hJ : J initial) {W : World} {config : ValidConfig}
    {pageSize : BitVec 64} {files : Path → Option (List UInt8)} {ls : List Label} {s : State}
    (hjoin : JoinsFromMain ls) (hcreates : creates ls < 2 ^ 64)
    (hG : Exec.Along (State.step W) (State.OnCalls fun s => G s.kernel)
      (State.start config pageSize files) ls)
    (hrun : Exec.exec (State.step W) (State.start config pageSize files) ls = some s) :
    s.core.WF ∧ s.core.QueuesWf ∧ J s.core.kernel := by
  obtain ⟨hkernel, hqueues⟩ := start_kernel config pageSize files
  exact h.keeps.reach ⟨hqueues, by rw [hkernel]; exact hJ⟩ hjoin hcreates hG hrun

/-- **Exact conditions on calls.**  `J` survives the calls that meet `G`, and implies `P`; a call
    that does not meet `G` leaves a state without `P`.  Then `P` holds all along a run iff all its
    calls meet `G`.  `H` is assumed of all calls. -/
theorem Inv.always_iff {H : Kernel → Ctx → Call → Prop}
    (h : Inv J (fun s x c => H s x c ∧ G s x c)) (hJ : J initial) {P : Core → Prop}
    (hgood : ∀ s : Core, s.WF → J s.kernel → P s)
    (hbad : ∀ (s : Core) x c, s.WF → J s.kernel → s.cpu = .user x → P (s.exec x c) →
      G s.kernel x c)
    {W : World} {config : ValidConfig} {pageSize : BitVec 64}
    {files : Path → Option (List UInt8)} {ls : List Label} {s : State}
    (hjoin : JoinsFromMain ls) (hcreates : creates ls < 2 ^ 64)
    (hH : Exec.Along (State.step W) (State.OnCalls fun s => H s.kernel)
      (State.start config pageSize files) ls)
    (hrun : Exec.exec (State.step W) (State.start config pageSize files) ls = some s) :
    Exec.Always (State.step W) (fun t => P t.core) (State.start config pageSize files) ls ↔
      Exec.Along (State.step W) (State.OnCalls fun s => G s.kernel)
        (State.start config pageSize files) ls := by
  obtain ⟨hkernel, hqueues⟩ := start_kernel config pageSize files
  have hwf := State.start_wf config pageSize files
  have htame := State.along_tame (W := W) ls _ hwf hjoin (by
    rw [State.start_core, Nat.zero_add]
    exact hcreates)
  refine Exec.always_iff_along
    (I := fun ls (t : State) => (t.core.WF ∧ t.core.QueuesWf ∧ J t.core.kernel) ∧
      Exec.Along (State.step W)
        (fun t l => State.Tame W t l ∧ State.OnCalls (fun s => H s.kernel) t l) t ls)
    (fun l ls t u hI hGt hu => ?_) (fun _ t hI => hgood t.core hI.1.1 hI.1.2.2)
    (fun l ls t u hI hu hP => ?_) ls _ s
    ⟨⟨hwf, hqueues, by rw [hkernel]; exact hJ⟩, Exec.along_and ls _ htame hH⟩ hrun
  · obtain ⟨hI, ⟨htamed, hHt⟩, hrest⟩ := hI
    refine ⟨⟨htamed.2.2 u hu, h.keeps.step t l u hI.2 ⟨htamed, fun x c hl => ?_⟩ hu⟩, hrest u hu⟩
    exact ⟨hHt x c hl, hGt x c hl⟩
  · rintro x c rfl
    rcases State.step_cases hu with ⟨_, _, hl, _⟩ | ⟨x', c', hl, hcpu, -, rfl⟩ |
        ⟨_, _, _, _, hl, _⟩ | ⟨_, hl, _⟩
    · nomatch hl
    · cases hl
      exact hbad t.fresh x c ⟨hI.1.1.body, hI.1.1.cpu⟩ hI.1.2.2 hcpu hP
    · nomatch hl
    · nomatch hl

end Kernel
end Gth

/-
  What each function of the core can do, said once.

  All a function needs to know about its caller is that the stack `x` it runs on is that of the
  current thread, if there is one (`Knows`).  Most branches of the code then collapse, and each
  lemma `f_cases` lists what is left of a function: an error that changes nothing, or one explicit
  update.  Two updates recur: a thread leaves the CPU `BLOCKED` (`parkBlocked`), and a blocked
  thread is made `READY` (`wakeSlot`).  Every invariant is proved from these lists.
-/
import Gthreads.Footprint
import Gthreads.Table

namespace Gth
namespace Core

/-- The thread of slot `i`, running on its own stack, leaves the CPU `BLOCKED` at `f`. -/
def parkBlocked (s : Core) (i : Slot) (f : Frame) : Core :=
  { s.setThread i { s.threads i with state := .blocked, ctx := some ⟨.green i, f⟩ } with
    blockedThreads := incr64 s.blockedThreads
    cpu := .swap s.schedulerCtx
    hist := .leave (.green i) s.schedulerCtx :: s.hist }

/-- The thread of slot `i` leaves the CPU `READY`, in `gth_thread_yield`. -/
def parkReady (s : Core) (i : Slot) : Core :=
  { s.setThread i { s.threads i with state := .ready, ctx := some ⟨.green i, .yield⟩ } with
    runnableThreads := incr64 s.runnableThreads
    cpu := .swap s.schedulerCtx
    hist := .leave (.green i) s.schedulerCtx :: s.hist }

/-- The blocked thread of slot `i` becomes `READY`. -/
def wakeSlot (s : Core) (i : Slot) : Core :=
  { s.setThread i { s.threads i with state := .ready } with
    blockedThreads := decrPos s.blockedThreads
    runnableThreads := incr64 s.runnableThreads
    events := s.events ++ [traceThreadUnblock (s.threads i).tid] }

variable {s : Core} {x : Ctx} {i : Slot}

/-! ## The running stack and the current thread -/

/-- The lookup of the current thread finds nothing but the thread whose stack `x` is; on main's
    stack there is no current thread. -/
def SelfOk (currentTid : Tid) (threads : Slot → ThreadRecord) : Ctx → Prop
  | .main => currentTid = 0
  | .green i => ∀ j, findThread threads currentTid = some j → j = i

/-- What a function may assume when it is called on stack `x`. -/
structure Knows (s : Core) (x : Ctx) : Prop where
  init : s.initialized = true
  tids : TidsOk s.nextTid s.issued s.threads
  self : SelfOk s.currentTid s.threads x

/-- The thread of slot `i` is the current one. -/
structure Current (s : Core) (i : Slot) : Prop where
  init : s.initialized = true
  ne_zero : s.currentTid ≠ 0
  find : findThread s.threads s.currentTid = some i

/-- The current thread's slot number: none, or that of the running stack. -/
theorem Knows.slotIndex_cases (hk : s.Knows x) :
    s.threadCurrentSlotIndex = 128 ∨
    ∃ i : Slot, x = .green i ∧ s.Current i ∧ s.threadCurrentSlotIndex = i := by
  unfold threadCurrentSlotIndex
  by_cases h0 : s.currentTid = 0
  · exact Or.inl (if_pos h0)
  rw [if_neg h0]
  cases hfind : findThread s.threads s.currentTid with
  | none => exact Or.inl rfl
  | some i =>
    refine Or.inr ⟨i, ?_, ⟨hk.init, h0, hfind⟩, hk.tids.index i (findThread_some hfind).1⟩
    cases x with
    | main => exact absurd hk.self h0
    | green j => rw [hk.self i hfind]

/-! ## Leaving the CPU and waking up -/

/-- `gth_thread_block` by the current thread blocks it. -/
theorem Current.threadBlock (hc : s.Current i) (f : Frame) :
    s.threadBlock (.green i) f
      = some ((s.emit (traceThreadBlock s.currentTid 0)).parkBlocked i f) := by
  unfold Core.threadBlock
  rw [if_neg (by rw [hc.init]; decide), if_neg hc.ne_zero, hc.find]
  simp only [swapOut, parkBlocked, emit, setThread, Function.update_self, Function.update_idem]

/-- `gth_thread_yield`: the scheduler is entered, an error, or the current thread leaves. -/
theorem threadYield_cases (hk : s.Knows x) :
    (s.currentTid = 0 ∧ s.threadYield x = { s with cpu := .sched x .yield }) ∨
    (s.currentTid ≠ 0 ∧ s.threadYield x = s.ret x .yield ⟨.estate, []⟩) ∨
    (∃ i es, x = .green i ∧ s.Current i ∧
      s.threadYield x = { s with events := es }.parkReady i) := by
  unfold threadYield
  rw [if_neg (by rw [hk.init]; decide)]
  by_cases h0 : s.currentTid = 0
  · exact Or.inl ⟨h0, if_pos h0⟩
  rw [if_neg h0]
  cases hfind : findThread s.threads s.currentTid with
  | none => exact Or.inr (Or.inl ⟨h0, rfl⟩)
  | some i =>
    refine Or.inr (Or.inr ⟨i, s.events ++ [traceThreadYield s.currentTid], ?_,
      ⟨hk.init, h0, hfind⟩, ?_⟩)
    · cases x with
      | main => exact absurd hk.self h0
      | green j => rw [hk.self i hfind]
    · cases x with
      | main => exact absurd hk.self h0
      | green j =>
        obtain rfl := hk.self i hfind
        simp only [swapOut, parkReady, emit, setThread, Function.update_self,
          Function.update_idem]

/-- `gth_thread_unblock_slot` wakes a blocked thread or does nothing. -/
theorem threadUnblockSlot_cases (hinit : s.initialized = true) (n : Nat) :
    ((∀ i : Slot, (i : Nat) = n → (s.threads i).state ≠ .blocked) ∧
      (s.threadUnblockSlot n).2 = s) ∨
    ∃ i : Slot, (i : Nat) = n ∧ (s.threads i).state = .blocked ∧
      (s.threadUnblockSlot n).2 = s.wakeSlot i := by
  unfold threadUnblockSlot
  rw [if_neg (by rw [hinit]; decide)]
  by_cases hn : n < 128
  · rw [dif_pos hn]
    by_cases hst : (s.threads ⟨n, hn⟩).state = .blocked
    · refine Or.inr ⟨⟨n, hn⟩, rfl, hst, ?_⟩
      simp only [ne_eq, hst, not_true_eq_false, if_false, setThread, wakeSlot, emit,
        Function.update_self]
    · rw [if_pos hst]
      refine Or.inl ⟨fun i hi => ?_, rfl⟩
      subst hi
      exact hst
  · rw [dif_neg hn]
    exact Or.inl ⟨fun i hi => absurd (hi ▸ i.isLt) hn, rfl⟩

/-- A wake-up wakes a blocked thread, or is no more than an instrumentation call. -/
theorem wakeWaiter_cases (hinit : s.initialized = true) (n : Nat) (e : Event) :
    ((∀ i : Slot, (i : Nat) = n → (s.threads i).state ≠ .blocked) ∧
      ∃ es, s.wakeWaiter n e = { s with events := es }) ∨
    ∃ i : Slot, (i : Nat) = n ∧ (s.threads i).state = .blocked ∧
      s.wakeWaiter n e = (s.emit e).wakeSlot i := by
  unfold wakeWaiter
  by_cases hn : n = 0xFF
  · rw [if_neg (not_not_intro hn)]
    refine Or.inl ⟨fun i hi => ?_, s.events, rfl⟩
    have := i.isLt
    omega
  · rw [if_pos hn]
    rcases threadUnblockSlot_cases (s := s.emit e) hinit n with ⟨hnb, h⟩ | ⟨i, hi, hst, h⟩
    · rw [h]
      exact Or.inl ⟨hnb, _, rfl⟩
    · exact Or.inr ⟨i, hi, hst, h⟩

/-! ## Mutexes -/

/-- A running thread queues up for `m` and blocks; `es` are the instrumentation calls. -/
def lockPark (s : Core) (i : Slot) (m : Addr) (via : Option Addr) (es : List Event) : Core :=
  parkBlocked { s with
    mutexes := Function.update s.mutexes m
      { s.mutexes m with wq := (s.mutexes m).wq.wqEnqueue i }
    events := es } i (.lock m i via)

theorem slot_mod_256 (i : Slot) : (i : Nat) % 256 = i :=
  Nat.mod_eq_of_lt (Nat.lt_trans i.isLt (by decide))

/-- One more round of the loop of `gth_mutex_lock` by a running thread: the queue is full, it
    blocks again, or it takes the mutex.  The loop never goes round twice. -/
theorem lockLoop_cases (hc : s.Current i) (m : Addr) (via : Option Addr) (fuel : Nat) :
    ((s.mutexes m).locked ≠ 0 ∧ (s.mutexes m).wq.wqIsFull = true ∧
      s.lockLoop (.green i) m i via (fuel + 1) = s.ret (.green i) (lockCall m via) ⟨.ebusy, []⟩) ∨
    ((s.mutexes m).locked ≠ 0 ∧ (s.mutexes m).wq.wqIsFull = false ∧
      ∃ es, s.lockLoop (.green i) m i via (fuel + 1) = s.lockPark i m via es) ∨
    ((s.mutexes m).locked = 0 ∧
      s.lockLoop (.green i) m i via (fuel + 1) = s.lockAcquire (.green i) m via) := by
  unfold lockLoop
  by_cases hl : (s.mutexes m).locked = 0
  · rw [if_neg (not_not_intro hl)]
    exact Or.inr (Or.inr ⟨hl, rfl⟩)
  · rw [if_pos hl]
    cases hfull : (s.mutexes m).wq.wqIsFull with
    | true => exact Or.inl ⟨hl, rfl, rfl⟩
    | false =>
      refine Or.inr (Or.inl ⟨hl, rfl, ?_⟩)
      rw [if_neg Bool.false_ne_true, slot_mod_256]
      dsimp only
      rw [Current.threadBlock (s := s.setMutex m _) ⟨hc.init, hc.ne_zero, hc.find⟩]
      exact ⟨_, rfl⟩

/-- The reasons for which `gth_mutex_lock(m)` is refused. -/
def LockRefused (s : Core) (m : Addr) : Prop :=
  m = 0 ∨ (s.mutexes m).initialized = 0 ∨ (s.mutexes m).locked ≠ 0 ∧
    ((s.mutexes m).owner = s.threadSelf ∨ s.threadCurrentSlotIndex = 128 ∨
      (s.mutexes m).wq.wqIsFull = true)

/-- `gth_mutex_lock`: an error, the mutex is taken, or the caller (a thread) queues up. -/
theorem mutexLock_cases (hk : s.Knows x) (m : Addr) (via : Option Addr) :
    (∃ st, st ≠ .ok ∧ s.LockRefused m ∧
      s.mutexLock x m via = s.ret x (lockCall m via) ⟨st, []⟩) ∨
    ((s.mutexes m).initialized ≠ 0 ∧ (s.mutexes m).locked = 0 ∧
      s.mutexLock x m via = s.lockAcquire x m via) ∨
    (∃ i es, x = .green i ∧ s.Current i ∧ (s.mutexes m).initialized ≠ 0 ∧
      (s.mutexes m).locked ≠ 0 ∧ (s.mutexes m).owner ≠ s.threadSelf ∧
      (s.mutexes m).wq.wqIsFull = false ∧ s.mutexLock x m via = s.lockPark i m via es) := by
  unfold mutexLock
  by_cases hm : m = 0
  · rw [if_pos hm]
    exact Or.inl ⟨.einval, by decide, Or.inl hm, rfl⟩
  rw [if_neg hm]
  by_cases hi : (s.mutexes m).initialized = 0
  · rw [if_pos hi]
    exact Or.inl ⟨.estate, by decide, Or.inr (Or.inl hi), rfl⟩
  rw [if_neg hi]
  by_cases hl : (s.mutexes m).locked = 0
  · rw [if_neg (not_not_intro hl)]
    exact Or.inr (Or.inl ⟨hi, hl, rfl⟩)
  rw [if_pos hl]
  have hrefused : (s.mutexes m).owner = s.threadSelf ∨ s.threadCurrentSlotIndex = 128 ∨
      (s.mutexes m).wq.wqIsFull = true → s.LockRefused m := fun h => Or.inr (Or.inr ⟨hl, h⟩)
  by_cases ho : (s.mutexes m).owner = s.threadSelf
  · rw [if_pos ho]
    exact Or.inl ⟨.ebusy, by decide, hrefused (Or.inl ho), rfl⟩
  rw [if_neg ho]
  rcases hk.slotIndex_cases with hidx | ⟨i, rfl, hcur, hidx⟩
  · rw [hidx]
    exact Or.inl ⟨.estate, by decide, hrefused (Or.inr (Or.inl hidx)), rfl⟩
  · rw [hidx]
    dsimp only
    rw [if_neg (Nat.not_le_of_lt i.isLt)]
    cases hfull : (s.mutexes m).wq.wqIsFull with
    | true => exact Or.inl ⟨.ebusy, by decide, hrefused (Or.inr (Or.inr hfull)), rfl⟩
    | false =>
      rw [if_neg Bool.false_ne_true, slot_mod_256,
        Current.threadBlock (s := (s.setMutex m _).emit _) ⟨hcur.init, hcur.ne_zero, hcur.find⟩]
      exact Or.inr (Or.inr ⟨i, _, rfl, hcur, hi, hl, ho, rfl, rfl⟩)

/-! ## Semaphores -/

/-- `gth_sem_wait`: an error, a permit is taken from the count, or the caller (a thread) blocks. -/
theorem semWait_cases (hk : s.Knows x) (a : Addr) :
    (∃ st, st ≠ .ok ∧ s.semWait x a = s.ret x (.semWait a) ⟨st, []⟩) ∨
    ((s.sems a).initialized ≠ 0 ∧ (s.sems a).count ≠ 0 ∧ ∃ es, s.semWait x a =
      ({ s.setSem a { s.sems a with count := (s.sems a).count - 1 } with events := es }.log
        (.semTake (s.ctxTid x) a)).ret x (.semWait a) ⟨.ok, []⟩) ∨
    (∃ i es, x = .green i ∧ s.Current i ∧ (s.sems a).initialized ≠ 0 ∧ (s.sems a).count = 0 ∧
      (s.sems a).wq.wqIsFull = false ∧ s.semWait x a =
      ({ s.setSem a { s.sems a with wq := (s.sems a).wq.wqEnqueue i } with events := es }.log
        (.semBlock (s.threads i).tid a)).parkBlocked i (.semWait a)) := by
  unfold semWait
  by_cases ha : a = 0
  · rw [if_pos ha]
    exact Or.inl ⟨.einval, by decide, rfl⟩
  rw [if_neg ha]
  by_cases hi : (s.sems a).initialized = 0
  · rw [if_pos hi]
    exact Or.inl ⟨.estate, by decide, rfl⟩
  rw [if_neg hi]
  by_cases hc : (s.sems a).count = 0
  · rw [if_pos hc]
    rcases hk.slotIndex_cases with hidx | ⟨i, rfl, hcur, hidx⟩
    · rw [hidx]
      exact Or.inl ⟨.estate, by decide, rfl⟩
    · rw [hidx]
      dsimp only
      rw [dif_pos i.isLt]
      cases hfull : (s.sems a).wq.wqIsFull with
      | true => exact Or.inl ⟨.ebusy, by decide, rfl⟩
      | false =>
        refine Or.inr (Or.inr ⟨i, s.events ++ [traceSemWait s.threadSelf a 0], rfl, hcur, hi, hc,
          rfl, ?_⟩)
        rw [if_neg Bool.false_ne_true, slot_mod_256]
        simp only [swapOut, parkBlocked, setSem, setThread, log, emit, ctxTid, threadSelf,
          Function.update_self, Function.update_idem]
  · rw [if_neg hc]
    exact Or.inr (Or.inl ⟨hi, hc, _, rfl⟩)

/-! ## Condition variables -/

/-- A thread that has released `m`, now `impl`, has queued up at `c` and leaves the CPU. -/
def condPark (s : Core) (i : Slot) (c m : Addr) (impl : MutexImpl) (es : List Event) : Core :=
  parkBlocked { s with
    conds := Function.update s.conds c { s.conds c with wq := (s.conds c).wq.wqEnqueue i }
    mutexes := Function.update s.mutexes m impl
    events := es
    hist := .condRelease (s.threads i).tid c m :: s.hist } i (.condWait c m)

/-- The failed `gth_cond_wait` of a thread: marked and queued, then both undone. -/
def condRollback (s : Core) (i : Slot) (c : Addr) (es : List Event) : Core :=
  { s.setThread i { s.threads i with state := .running } with
    blockedThreads := decrPos (incr64 s.blockedThreads)
    conds := Function.update s.conds c
      { s.conds c with wq := (((s.conds c).wq.wqEnqueue i).wqRemove i).2 }
    events := es }

/-- `gth_cond_wait`: an error that changes nothing; an error after the caller had queued up; or
    the caller has released the mutex, woken the head of its queue (if any) and left the CPU. -/
theorem condWait_cases (hk : s.Knows x) (c m : Addr) :
    (∃ st, st ≠ .ok ∧ s.condWait x c m = s.ret x (.condWait c m) ⟨st, []⟩) ∨
    (∃ i, x = .green i ∧ s.Current i ∧ (s.conds c).initialized ≠ 0 ∧
      (s.conds c).wq.wqIsFull = false ∧
      ((∃ st es, st ≠ .ok ∧
          s.condWait x c m = (s.condRollback i c es).ret x (.condWait c m) ⟨st, []⟩) ∨
       ((s.mutexes m).initialized ≠ 0 ∧ (s.mutexes m).locked ≠ 0 ∧
        ((s.mutexes m).owner = 0 ∨ (s.mutexes m).owner = s.threadSelf) ∧
        (((s.mutexes m).wq.wqIsEmpty = true ∧ ∃ es, s.condWait x c m =
            s.condPark i c m { s.mutexes m with locked := 0, owner := 0 } es) ∨
         ((s.mutexes m).wq.wqIsEmpty = false ∧ ∃ es P, P = s.condPark i c m
              { s.mutexes m with locked := 0, owner := 0, wq := (s.mutexes m).wq.wqDequeue.2 } es ∧
            (((∀ j : Slot, (j : Nat) = (s.mutexes m).wq.wqDequeue.1 →
                (P.threads j).state ≠ .blocked) ∧ s.condWait x c m = P) ∨
             (∃ j : Slot, (j : Nat) = (s.mutexes m).wq.wqDequeue.1 ∧
                (P.threads j).state = .blocked ∧
                ∃ es', s.condWait x c m = { P.wakeSlot j with events := es' })))))))  := by
  unfold condWait
  by_cases hcm : c = 0 ∨ m = 0
  · rw [if_pos hcm]
    exact Or.inl ⟨.einval, by decide, rfl⟩
  rw [if_neg hcm]
  by_cases hi : (s.conds c).initialized = 0
  · rw [if_pos hi]
    exact Or.inl ⟨.estate, by decide, rfl⟩
  rw [if_neg hi]
  rcases hk.slotIndex_cases with hidx | ⟨i, rfl, hcur, hidx⟩
  · rw [hidx]
    exact Or.inl ⟨.estate, by decide, rfl⟩
  · rw [hidx]
    dsimp only
    rw [dif_pos i.isLt]
    cases hfull : (s.conds c).wq.wqIsFull with
    | true => exact Or.inl ⟨.ebusy, by decide, rfl⟩
    | false =>
      rw [if_neg Bool.false_ne_true, slot_mod_256]
      refine Or.inr ⟨i, rfl, hcur, hi, rfl, ?_⟩
      -- the state in which `gth_mutex_unlock` is called: marked and queued
      generalize hs₁ : (Core.emit _ _ : Core) = s₁
      have hmut : s₁.mutexes = s.mutexes := by rw [← hs₁]; rfl
      have hself : s₁.threadSelf = s.threadSelf := by rw [← hs₁]; rfl
      have hinit : s₁.initialized = true := by rw [← hs₁]; exact hk.init
      rcases mutexUnlock_cases (s := s₁) m with ⟨st, hst, hu⟩ | ⟨-, hmi, hml, hmo, hu⟩
      · refine Or.inl ⟨st, s₁.events, hst, ?_⟩
        rw [hu, ← hs₁]
        cases st with
        | ok => exact absurd rfl hst
        | _ =>
          simp only [condRollback, setThread, setCond, emit, Function.update_self,
            Function.update_idem]
      · rw [hmut] at hmi hml hmo hu
        rw [hself] at hmo
        refine Or.inr ⟨hmi, hml, hmo, ?_⟩
        rcases hu with ⟨hempty, e, hu⟩ | ⟨hempty, e, e', hu⟩
        · refine Or.inl ⟨hempty, s₁.events ++ [e], ?_⟩
          rw [hu, ← hs₁]
          simp only [condPark, parkBlocked, swapOut, log, setMutex, setThread, setCond, emit, ctxTid,
            Function.update_self, Function.update_idem]
        · -- saving the context does not change which threads are blocked
          have hstate : ∀ (j : Slot) (impl : MutexImpl) (es : List Event),
              ((s.condPark i c m impl es).threads j).state = (s₁.threads j).state := by
            intro j impl es
            rw [← hs₁]
            by_cases hji : j = i
            · subst hji
              simp only [condPark, parkBlocked, setThread, setCond, emit, Function.update_self]
            · simp only [condPark, parkBlocked, setThread, setCond, emit,
                Function.update_of_ne hji]
          rcases wakeWaiter_cases (s := s₁.setMutex m _) hinit _ e with
              ⟨hnb, es, hw⟩ | ⟨j, hj, hjb, hw⟩
          · refine Or.inr ⟨hempty, es ++ [e'], _, rfl, Or.inl ⟨fun j hj => ?_, ?_⟩⟩
            · rw [hstate]
              exact hnb j hj
            · rw [hu, hw, ← hs₁]
              simp only [condPark, parkBlocked, swapOut, log, setMutex, setThread, setCond, emit,
                ctxTid, Function.update_self, Function.update_idem]
          · refine Or.inr ⟨hempty, [], _, rfl, Or.inr ⟨j, hj, ?_, ?_⟩⟩
            · rw [hstate]
              exact hjb
            · rw [hu, hw, ← hs₁]
              by_cases hji : j = i
              · subst hji
                simp only [condPark, parkBlocked, wakeSlot, swapOut, log, setMutex, setThread,
                  setCond, emit, ctxTid, Function.update_self, Function.update_idem]
                exact ⟨_, rfl⟩
              · have hij : i ≠ j := fun h => hji h.symm
                simp only [condPark, parkBlocked, wakeSlot, swapOut, log, setMutex, setThread,
                  setCond, emit, ctxTid, Function.update_self, Function.update_of_ne hji,
                  Function.update_of_ne hij]
                rw [Function.update_comm hji, Function.update_idem]
                exact ⟨_, rfl⟩

/-! ## Threads -/

/-- `gth_thread_create`: an error; an error after a tid was taken; or a new `READY` thread. -/
theorem threadCreate_cases (outTid : Bool) (attr : Option Nat) (fn arg : Nat) (env : MapEnv) :
    (∃ st, st ≠ .ok ∧ s.threadCreate outTid attr fn arg env = (⟨st, []⟩, s)) ∨
    ∃ i : Slot, (s.threads i).state = .empty ∧
      ((∃ st, st ≠ .ok ∧ s.threadCreate outTid attr fn arg env = (⟨st, []⟩,
          { s.setThread i {} with nextTid := incr64 s.nextTid, issued := s.issued + 1 })) ∨
       ∃ (r : ThreadRecord) (es : List Event), r.tid = s.nextTid ∧ r.state = .ready ∧
        r.ctx = some ⟨.green i, .entry⟩ ∧ r.slotIndex = i ∧
        s.threadCreate outTid attr fn arg env = (⟨.ok, [s.nextTid]⟩,
          { s.setThread i r with
            nextTid := incr64 s.nextTid, issued := s.issued + 1,
            runnableThreads := incr64 s.runnableThreads, events := es })) := by
  unfold threadCreate
  by_cases hinit : s.initialized = false
  · rw [if_pos hinit]
    exact Or.inl ⟨.estate, by decide, rfl⟩
  rw [if_neg hinit]
  by_cases harg : outTid = false ∨ fn = 0
  · rw [if_pos harg]
    exact Or.inl ⟨.einval, by decide, rfl⟩
  rw [if_neg harg]
  cases halloc : allocThreadSlot s.threads with
  | none => exact Or.inl ⟨.enomem, by decide, rfl⟩
  | some i =>
    refine Or.inr ⟨i, allocThreadSlot_some halloc, ?_⟩
    dsimp only
    generalize stackAllocate s.pageSize env s.config.stackSizeBytes = alloc
    obtain ⟨st, stack⟩ := alloc
    cases st with
    | ok => exact Or.inr ⟨_, _, rfl, rfl, rfl, rfl, rfl⟩
    | einval => exact Or.inl ⟨.einval, by decide, rfl⟩
    | enomem => exact Or.inl ⟨.enomem, by decide, rfl⟩
    | estate => exact Or.inl ⟨.estate, by decide, rfl⟩
    | ebusy => exact Or.inl ⟨.ebusy, by decide, rfl⟩
    | etimedout => exact Or.inl ⟨.etimedout, by decide, rfl⟩
    | enotfound => exact Or.inl ⟨.enotfound, by decide, rfl⟩
    | einternal => exact Or.inl ⟨.einternal, by decide, rfl⟩

/-- The thread of slot `i` is cancelled.  The counters follow from its state. -/
def cancelSlot (s : Core) (i : Slot) (es : List Event) : Core :=
  { s.setThread i { s.threads i with state := .canceled, retval := 0 } with
    runnableThreads :=
      if (s.threads i).state = .ready then decrPos s.runnableThreads
      else if (s.threads i).state = .blocked then decrPos (incr64 s.runnableThreads)
      else s.runnableThreads
    blockedThreads :=
      if (s.threads i).state = .blocked then decrPos s.blockedThreads else s.blockedThreads
    events := es }

/-- `gth_thread_cancel` of a thread that has not terminated marks it `CANCELED`.  A blocked thread
    is made `READY` on the way. -/
theorem threadCancel_ok (hk : s.Knows x) {tid : Tid} (htid : tid ≠ 0)
    (hfind : findThread s.threads tid = some i)
    (hterm : threadIsTerminal (s.threads i).state = false) :
    ∃ es, s.threadCancel tid = (.ok, s.cancelSlot i es) := by
  unfold threadCancel
  rw [if_neg (by rw [hk.init]; decide), if_neg htid, hfind]
  dsimp only
  rw [hterm, if_neg Bool.false_ne_true]
  by_cases hblk : (s.threads i).state = .blocked
  · have hidx : (s.threads i).slotIndex = i := by
      apply hk.tids.index i
      rw [hblk]
      decide
    rcases threadUnblockSlot_cases (s := s.emit (traceThreadCancel tid)) hk.init
        (s.threads i).slotIndex with ⟨hnb, -⟩ | ⟨j, hj, -, hw⟩
    · exact absurd hblk (hnb i hidx.symm)
    · obtain rfl : j = i := Fin.ext (hj.trans hidx)
      refine ⟨((s.emit (traceThreadCancel tid)).wakeSlot j).events, ?_⟩
      simp only [emit] at hw
      simp only [emit, hblk, if_true, hw, wakeSlot, setThreadState, accountStateChange,
        setThread, cancelSlot, Function.update_self, Function.update_idem, reduceCtorEq,
        if_false]
  · refine ⟨s.events ++ [traceThreadCancel tid], ?_⟩
    have hcan : (s.threads i).state ≠ .canceled := by
      intro h
      rw [h] at hterm
      nomatch hterm
    by_cases hrdy : (s.threads i).state = .ready
    · simp only [emit, hrdy, setThreadState, accountStateChange, setThread, cancelSlot,
        Function.update_self, Function.update_idem, reduceCtorEq, if_false, if_true]
    · simp only [emit, hrdy, hblk, hcan, setThreadState, accountStateChange, setThread,
        cancelSlot, Function.update_self, Function.update_idem, reduceCtorEq, if_false]

/-- `gth_thread_cancel`: an error, or the thread found is marked `CANCELED`. -/
theorem threadCancel_cases (hk : s.Knows x) (tid : Tid) :
    (∃ st, st ≠ .ok ∧ s.threadCancel tid = (st, s)) ∨
    ∃ i es, findThread s.threads tid = some i ∧ threadIsTerminal (s.threads i).state = false ∧
      s.threadCancel tid = (.ok, s.cancelSlot i es) := by
  by_cases htid : tid = 0
  · refine Or.inl ⟨.einval, by decide, ?_⟩
    unfold threadCancel
    rw [if_neg (by rw [hk.init]; decide), if_pos htid]
  cases hfind : findThread s.threads tid with
  | none =>
    refine Or.inl ⟨.enotfound, by decide, ?_⟩
    unfold threadCancel
    rw [if_neg (by rw [hk.init]; decide), if_neg htid, hfind]
  | some i =>
    cases hterm : threadIsTerminal (s.threads i).state with
    | true =>
      refine Or.inl ⟨.estate, by decide, ?_⟩
      unfold threadCancel
      rw [if_neg (by rw [hk.init]; decide), if_neg htid, hfind]
      dsimp only
      rw [if_pos hterm]
    | false =>
      obtain ⟨es, heq⟩ := threadCancel_ok hk htid hfind hterm
      exact Or.inr ⟨i, es, rfl, hterm, heq⟩

/-- The slot of a terminated thread is freed by a join from stack `x`. -/
theorem joinFinish_terminal (htid : threadIsTerminal (s.threads i).state = true) (tid : Tid)
    (out : Bool) : s.joinFinish x tid out i = (s.setThread i {}).ret x (.join tid out)
      ⟨.ok, if out then [(s.threads i).retval] else []⟩ := by
  unfold joinFinish threadReleaseSlot
  have hr : (s.threads i).state ≠ .ready := fun h => by rw [h] at htid; nomatch htid
  have hb : (s.threads i).state ≠ .blocked := fun h => by rw [h] at htid; nomatch htid
  rw [if_neg hr, if_neg hb]

/-- The loop of a join by main: its thread has terminated and is freed, or the scheduler runs. -/
theorem joinLoop_cases (hk : s.Knows x) {tid : Tid} {out : Bool} {target : Slot}
    (hcaller : CallerOk s.threads (.join tid out target)) :
    (threadIsTerminal (s.threads target).state = true ∧ s.joinLoop x tid out target =
      (s.setThread target {}).ret x (.join tid out)
        ⟨.ok, if out then [(s.threads target).retval] else []⟩) ∨
    s.joinLoop x tid out target = { s with cpu := .sched x (.join tid out target) } := by
  unfold joinLoop
  cases hterm : threadIsTerminal (s.threads target).state with
  | false => exact Or.inr rfl
  | true =>
    have hfind : findThread s.threads tid = some target := hcaller.2 ▸ hk.tids.find hcaller.1
    rw [if_pos rfl, hfind]
    exact Or.inl ⟨rfl, joinFinish_terminal hterm tid out⟩

/-- `gth_thread_join`: an error, the thread found has terminated and is freed, or the scheduler
    runs. -/
theorem threadJoin_cases (hk : s.Knows x) (tid : Tid) (out : Bool) :
    (∃ st, st ≠ .ok ∧ s.threadJoin x tid out = s.ret x (.join tid out) ⟨st, []⟩) ∨
    ∃ i, tid ≠ s.currentTid ∧ findThread s.threads tid = some i ∧
      ((threadIsTerminal (s.threads i).state = true ∧ s.threadJoin x tid out =
          (s.setThread i {}).ret x (.join tid out)
            ⟨.ok, if out then [(s.threads i).retval] else []⟩) ∨
       (threadIsTerminal (s.threads i).state = false ∧ s.threadJoin x tid out =
          { s with cpu := .sched x (.join tid out i) })) := by
  unfold threadJoin
  rw [if_neg (by rw [hk.init]; decide)]
  by_cases h0 : tid = 0
  · rw [if_pos h0]
    exact Or.inl ⟨.einval, by decide, rfl⟩
  rw [if_neg h0]
  by_cases hself : tid = s.currentTid
  · rw [if_pos hself]
    exact Or.inl ⟨.estate, by decide, rfl⟩
  rw [if_neg hself]
  cases hfind : findThread s.threads tid with
  | none => exact Or.inl ⟨.enotfound, by decide, rfl⟩
  | some i =>
    refine Or.inr ⟨i, hself, rfl, ?_⟩
    dsimp only
    cases hterm : threadIsTerminal (s.threads i).state with
    | true => exact Or.inl ⟨rfl, joinFinish_terminal hterm tid out⟩
    | false =>
      refine Or.inr ⟨rfl, ?_⟩
      unfold joinLoop
      rw [hterm]
      rfl

/-- The end of a thread: `DONE`, unless it was cancelled, and back to the dispatcher. -/
theorem threadExit_eq (i : Slot) (result : Nat) : ∃ r es, r.tid = (s.threads i).tid ∧
    r.slotIndex = (s.threads i).slotIndex ∧ r.ctx = (s.threads i).ctx ∧
    threadIsTerminal r.state = true ∧ s.threadExit i result = { s.setThread i r with
      currentTid := 0, events := es, cpu := .swap s.schedulerCtx,
      hist := .leave (.green i) s.schedulerCtx :: s.hist } := by
  unfold threadExit
  by_cases hc : (s.threads i).state = .canceled
  · rw [if_neg (not_not_intro hc)]
    exact ⟨{ s.threads i with retval := 0 }, _, rfl, rfl, rfl, by rw [hc]; rfl, rfl⟩
  · rw [if_pos hc]
    exact ⟨{ s.threads i with retval := result, state := .done }, _, rfl, rfl, rfl, rfl, rfl⟩

/-- The result of a thread that returns, unless it has been cancelled. -/
theorem threadExit_thread (i : Slot) (result : Nat) : (s.threadExit i result).threads i
    = if (s.threads i).state = .canceled then { s.threads i with retval := 0 }
      else { s.threads i with retval := result, state := .done } := by
  unfold threadExit
  by_cases hc : (s.threads i).state = .canceled
  · rw [if_neg (not_not_intro hc), if_pos hc]
    exact Function.update_self _ _ _
  · rw [if_pos hc, if_neg hc]
    exact Function.update_self _ _ _

/-- Activation `s.acts` of `gth_scheduler_run_next`, on stack `x`, switches to slot `i`. -/
def dispatch (s : Core) (x : Ctx) (caller : Caller) (i : Slot) : Core :=
  { s.setThread i { s.threads i with state := .running } with
    currentTid := (s.threads i).tid
    contextSwitches := incr64 s.contextSwitches
    runnableThreads := decrPos s.runnableThreads
    schedulerCtx := some ⟨x, .runNext s.acts s.currentTid caller⟩
    cpu := .swap (s.threads i).ctx
    events := s.events ++ [traceContextSwitch s.currentTid (s.threads i).tid]
    hist := .dispatch s.acts x i (s.threads i).tid :: s.hist
    acts := s.acts + 1 }

theorem runNext_some (x : Ctx) (caller : Caller) (i : Slot) :
    s.runNext x caller (some i) = s.dispatch x caller i := by
  simp only [runNext, dispatch, emit, setThread, Function.update_self]

/-! ## Wake-ups -/

/-- The records of `b` are those of `a`, except that `BLOCKED` threads may have become `READY`. -/
def Woken (a b : Slot → ThreadRecord) : Prop :=
  ∀ j, b j = a j ∨ ((a j).state = .blocked ∧ b j = { a j with state := .ready })

namespace Woken
variable {a b c : Slot → ThreadRecord}

theorem refl (a : Slot → ThreadRecord) : Woken a a := fun _ => Or.inl rfl

theorem trans (h : Woken a b) (h' : Woken b c) : Woken a c := by
  intro j
  rcases h' j with hc | ⟨hb, hc⟩
  · rw [hc]
    exact h j
  · rcases h j with ha | ⟨-, ha⟩
    · rw [ha] at hb hc
      exact Or.inr ⟨hb, hc⟩
    · -- it was woken already
      rw [ha] at hb
      cases hb

theorem set (hb : (a i).state = .blocked) :
    Woken a (Function.update a i { a i with state := .ready }) := by
  intro j
  by_cases hji : j = i
  · subst hji
    rw [Function.update_self]
    exact Or.inr ⟨hb, rfl⟩
  · rw [Function.update_of_ne hji]
    exact Or.inl rfl

end Woken

theorem woken_threadUnblockSlot (s : Core) (n : Nat) :
    Woken s.threads (s.threadUnblockSlot n).2.threads := by
  cases hinit : s.initialized with
  | false =>
    unfold threadUnblockSlot
    rw [if_pos hinit]
    exact .refl _
  | true =>
    rcases threadUnblockSlot_cases hinit n with ⟨-, hw⟩ | ⟨i, -, hst, hw⟩ <;> rw [hw]
    · exact .refl _
    · exact .set hst

theorem woken_wakeWaiter (s : Core) (n : Nat) (e : Event) :
    Woken s.threads (s.wakeWaiter n e).threads := by
  unfold wakeWaiter
  split
  · exact woken_threadUnblockSlot (s.emit e) n
  · exact .refl _

theorem woken_mutexUnlock (s : Core) (m : Addr) : Woken s.threads (s.mutexUnlock m).2.threads := by
  rcases mutexUnlock_cases (s := s) m with ⟨st, -, h⟩ | ⟨-, -, -, -, ⟨-, e, h⟩ | ⟨-, e, e', h⟩⟩ <;>
    rw [h]
  · exact .refl _
  · exact .refl _
  · exact woken_wakeWaiter (s.setMutex m _) _ _

theorem woken_semPost (s : Core) (a : Addr) : Woken s.threads (s.semPost a).2.threads := by
  rcases semPost_cases (s := s) a with ⟨st, -, h⟩ | ⟨-, -, e, e', h⟩ | ⟨-, -, -, e, h⟩ <;> rw [h]
  · exact .refl _
  · exact woken_wakeWaiter ((s.setSem a _).log _) _ _
  · exact .refl _

theorem woken_condSignal (s : Core) (c : Addr) : Woken s.threads (s.condSignal c).2.threads := by
  rcases condSignal_cases (s := s) c with ⟨st, -, h⟩ | ⟨-, h⟩ | ⟨-, -, e, h⟩ <;> rw [h]
  · exact .refl _
  · exact .refl _
  · exact woken_wakeWaiter (s.setCond c _) _ _

theorem woken_condBroadcast (s : Core) (c : Addr) :
    Woken s.threads (s.condBroadcast c).2.threads := by
  rcases condBroadcast_cases (s := s) c with ⟨st, -, h⟩ | ⟨-, e, h⟩ <;> rw [h]
  · exact .refl _
  · refine broadcastLoop_inv (I := fun t => Woken s.threads t.threads) (fun t ht _ => ?_) _ s 0
      (.refl _)
    exact ht.trans (woken_threadUnblockSlot (t.setCond c _) _)

/-! ## What calls leave alone -/

theorem threadCreate_issued_le (outTid : Bool) (attr : Option Nat) (fn arg : Nat) (env : MapEnv) :
    (s.threadCreate outTid attr fn arg env).2.issued ≤ s.issued + 1 := by
  rcases threadCreate_cases (s := s) outTid attr fn arg env with
      ⟨st, -, h⟩ | ⟨i, -, ⟨st, -, h⟩ | ⟨r, es, -, -, -, -, h⟩⟩
  · rw [h]
    exact Nat.le_succ _
  · rw [h]
  · rw [h]

/-- A call takes at most one tid, and only `create` does. -/
theorem exec_issued_le (s : Core) (x : Ctx) (c : Call) :
    (s.exec x c).issued ≤ s.issued + (if c.isCreate then 1 else 0) := by
  cases hc : c.isCreate with
  | false => exact Nat.le_of_eq (issued_of_fixed (exec_fixed s x hc))
  | true =>
    cases c with
    | create outTid attr fn arg env => exact threadCreate_issued_le outTid attr fn arg env
    | _ => nomatch hc

end Core
end Gth

/-
  What functions do in any state.

  Most functions of the runtime write only the states and contexts of threads, the counters and the
  wait queues, and record only events that say nothing of a switch, a mutex or the count of a
  semaphore.  Their `footing` is what they leave alone, whatever state they start in.  The others
  write one part of it: joins free a slot, `mutex.c` writes mutexes, `sem.c` semaphores, `cond.c`
  condition variables.  For these there is a rule for any relation that sees no more than the
  footing (`Coarse`).

  `gth_sem_wait` and `gth_cond_wait` queue their caller by hand; `semWait_inv` and `condWait_inv` say
  in which state they then switch stacks or call `gth_mutex_unlock`.
-/
import Gthreads.Core

namespace Gth

/-- The events that say who runs, who has a mutex and what the count of a semaphore is. -/
def Event.isKey (e : Event) : Bool := match e.type with
  | .contextSwitch | .mutexLock | .mutexUnlock | .semWait | .semPost => true
  | _ => false

/-- What the key events of a code segment have to agree with. -/
structure Keys where
  events : List Event
  acts : Nat
  issued : Nat
  cells : Addr → MutexCell
  counts : Addr → Nat

def Keys.record (k : Keys) (e : Event) : Keys := { k with events := k.events ++ [e] }

theorem Keys.events_record {k : Keys} (h : k.events = []) (e : Event) :
    (k.record e).events = [e] := by
  show k.events ++ [e] = [e]
  rw [h, List.nil_append]

def Keys.set (k : Keys) (m : Addr) (cell : MutexCell) : Keys :=
  { k with cells := Function.update k.cells m cell }

def Keys.count (k : Keys) (a : Addr) (n : Nat) : Keys :=
  { k with counts := Function.update k.counts a n }

/-- `gth_thread_create`. -/
def Call.isCreate : Call → Bool
  | .create _ _ _ _ _ => true
  | _ => false

namespace Core
variable {s t : Core} {x : Ctx} {i : Slot}

/-- The key events recorded in this segment, the number of switches and of tids taken so far, the
    mutexes without their queues and the counts of the semaphores. -/
def keys (s : Core) : Keys :=
  ⟨s.events.filter Event.isKey, s.acts, s.issued, fun m => (s.mutexes m).cell,
    fun a => (s.sems a).count⟩

theorem keys_events_nil {s : Core} (h : s.events = []) : s.keys.events = [] := by
  show s.events.filter Event.isKey = []
  rw [h, List.filter_nil]

theorem keys_emit (s : Core) {e : Event} (h : e.isKey = false) : (s.emit e).keys = s.keys := by
  refine congrArg (fun es => Keys.mk es s.acts s.issued _ _) ?_
  show (s.events ++ [e]).filter Event.isKey = _
  rw [List.filter_append, List.filter_cons_of_neg (by rw [h]; nofun), List.filter_nil,
    List.append_nil]

theorem keys_emit_key (s : Core) {e : Event} (h : e.isKey = true) :
    (s.emit e).keys = s.keys.record e := by
  refine congrArg (fun es => Keys.mk es s.acts s.issued _ _) ?_
  show (s.events ++ [e]).filter Event.isKey = _
  rw [List.filter_append, List.filter_cons_of_pos h, List.filter_nil]
  rfl

theorem keys_setMutex (s : Core) (m : Addr) (impl : MutexImpl) :
    (s.setMutex m impl).keys = s.keys.set m impl.cell :=
  congrArg (fun cells => Keys.mk _ _ _ cells _) (Function.comp_update MutexImpl.cell s.mutexes m impl)

/-- Only the queue of a mutex changes. -/
theorem keys_setMutex_wq (s : Core) (m : Addr) (wq : WaitQueue) :
    (s.setMutex m { s.mutexes m with wq := wq }).keys = s.keys := by
  rw [keys_setMutex]
  exact congrArg (fun cells => Keys.mk _ _ _ cells _) (Function.update_eq_self m s.keys.cells)

theorem keys_setSem (s : Core) (a : Addr) (impl : SemImpl) :
    (s.setSem a impl).keys = s.keys.count a impl.count :=
  congrArg (Keys.mk _ _ _ _) (Function.comp_update SemImpl.count s.sems a impl)

/-- Only the queue of a semaphore changes. -/
theorem keys_setSem_wq (s : Core) (a : Addr) (wq : WaitQueue) :
    (s.setSem a { s.sems a with wq := wq }).keys = s.keys := by
  rw [keys_setSem]
  exact congrArg (Keys.mk _ _ _ _) (Function.update_eq_self a s.keys.counts)

/-- The fields that only `gth_thread_create` (tids) and a dispatch (the rest) change. -/
def fixed (s : Core) : Bool × Config × BitVec 64 × Tid × Nat × Nat × Option Kont × Nat :=
  (s.initialized, s.config, s.pageSize, s.nextTid, s.issued, s.contextSwitches, s.schedulerCtx,
    s.acts)

/-- The tids and priorities in the thread table. -/
def seats (s : Core) (j : Slot) : Tid × Nat := ((s.threads j).tid, (s.threads j).priority)

/-- What most functions leave alone. -/
def footing (s : Core) :
    (Bool × Config × BitVec 64 × Tid × Nat × Nat × Option Kont × Nat) × Keys × (Addr → CondImpl) ×
      (Slot → Tid × Nat) :=
  (s.fixed, s.keys, s.conds, s.seats)

/-! ## Assignments -/

theorem footing_setThread (s : Core) {r : ThreadRecord} (htid : r.tid = (s.threads i).tid)
    (hprio : r.priority = (s.threads i).priority) : (s.setThread i r).footing = s.footing := by
  refine congrArg (fun seats => (s.fixed, s.keys, s.conds, seats)) (funext fun j => ?_)
  show ((Function.update s.threads i r j).tid, (Function.update s.threads i r j).priority) = _
  by_cases hji : j = i
  · subst hji
    rw [Function.update_self, htid, hprio]
    rfl
  · rw [Function.update_of_ne hji]
    rfl

theorem footing_setState (s : Core) (i : Slot) (st : ThreadState) :
    (s.setThread i { s.threads i with state := st }).footing = s.footing :=
  s.footing_setThread rfl rfl

theorem footing_setSem (s : Core) (a : Addr) (wq : WaitQueue) :
    (s.setSem a { s.sems a with wq := wq }).footing = s.footing :=
  congrArg (fun k => (s.fixed, k, s.conds, s.seats)) (keys_setSem_wq s a wq)

theorem footing_setQueue (s : Core) (m : Addr) (wq : WaitQueue) :
    (s.setMutex m { s.mutexes m with wq := wq }).footing = s.footing :=
  congrArg (fun k => (s.fixed, k, s.conds, s.seats)) (keys_setMutex_wq s m wq)

theorem footing_emit (s : Core) {e : Event} (h : e.isKey = false) :
    (s.emit e).footing = s.footing :=
  congrArg (fun k => (s.fixed, k, s.conds, s.seats)) (keys_emit s h)

theorem footing_log (s : Core) (o : Obs) : (s.log o).footing = s.footing := rfl

theorem footing_ret (s : Core) (x : Ctx) (c : Call) (r : Ret) :
    (s.ret x c r).footing = s.footing := rfl

theorem footing_counters (s : Core) (runnable blocked : Nat) :
    { s with runnableThreads := runnable, blockedThreads := blocked }.footing = s.footing := rfl

theorem footing_swapOut (s : Core) (i : Slot) (x : Ctx) (f : Frame) :
    (s.swapOut i x f).footing = s.footing := s.footing_setThread (i := i) rfl rfl

/-! ## Threads -/

theorem threadUnblockSlot_footing (s : Core) (n : Nat) :
    (s.threadUnblockSlot n).2.footing = s.footing := by
  unfold threadUnblockSlot
  split
  · rfl
  · split
    · dsimp only
      split
      · rfl
      · refine (footing_emit _ rfl).trans ?_
        exact (footing_counters _ _ _).trans (s.footing_setThread rfl rfl)
    · rfl

theorem setThreadState_footing (s : Core) (i : Slot) (st : ThreadState) :
    (s.setThreadState i st).footing = s.footing := by
  unfold setThreadState
  split
  · rfl
  · have hacc : ∀ old, (s.accountStateChange old st).footing = s.footing := by
      intro old
      unfold accountStateChange
      dsimp only
      split_ifs <;> rfl
    exact (footing_setState _ i st).trans (hacc _)

theorem threadBlock_footing {f : Frame} (h : s.threadBlock x f = some t) :
    t.footing = s.footing := by
  unfold threadBlock at h
  split at h
  · cases h
  · split at h
    · cases h
    · split at h
      · cases h
      · rename_i i _
        obtain rfl := Option.some.inj h
        refine (footing_swapOut _ i x f).trans ((footing_counters _ _ _).trans ?_)
        exact (footing_setState _ i _).trans (s.footing_emit rfl)

theorem threadYield_footing (s : Core) (x : Ctx) : (s.threadYield x).footing = s.footing := by
  unfold threadYield
  split
  · rfl
  · split
    · rfl
    · split
      · rfl
      · rename_i i _
        refine (footing_swapOut _ i x .yield).trans ((footing_counters _ _ _).trans ?_)
        exact (footing_setState _ i _).trans (s.footing_emit rfl)

theorem threadExit_footing (s : Core) (i : Slot) (result : Nat) :
    (s.threadExit i result).footing = s.footing := by
  unfold threadExit
  dsimp only
  split <;> exact (footing_emit (s.setThread i _) rfl).trans (s.footing_setThread rfl rfl)

theorem threadCancel_footing (s : Core) (tid : Tid) :
    (s.threadCancel tid).2.footing = s.footing := by
  unfold threadCancel
  split
  · rfl
  · split
    · rfl
    · split
      · rfl
      · rename_i i _
        split
        · rfl
        · refine (footing_setThread (i := i) _ ?_ ?_).trans ((setThreadState_footing _ i _).trans ?_)
          · rfl
          · rfl
          · split
            · exact (threadUnblockSlot_footing _ _).trans (s.footing_emit rfl)
            · exact s.footing_emit rfl

/-! ## Mutexes and semaphores -/

theorem wakeWaiter_footing (s : Core) (n : Nat) {e : Event} (he : e.isKey = false) :
    (s.wakeWaiter n e).footing = s.footing := by
  unfold wakeWaiter
  split
  · exact (threadUnblockSlot_footing _ n).trans (s.footing_emit he)
  · rfl

theorem setMutex_locked (s : Core) (m : Addr) (wq : WaitQueue) :
    ((s.setMutex m { s.mutexes m with wq := wq }).mutexes m).locked = (s.mutexes m).locked := by
  simp only [setMutex, Function.update_self]

/-- While the mutex is locked. -/
theorem lockLoop_footing (x : Ctx) (m : Addr) (mySlot : Nat) (via : Option Addr) (fuel : Nat) :
    ∀ s : Core, (s.mutexes m).locked ≠ 0 →
      (s.lockLoop x m mySlot via fuel).footing = s.footing := by
  induction fuel with
  | zero => exact fun s _ => rfl
  | succ fuel ih =>
    intro s hl
    have hqueue := s.footing_setQueue m ((s.mutexes m).wq.wqEnqueue (mySlot % 256))
    unfold lockLoop
    rw [if_pos hl]
    split
    · rfl
    · dsimp only
      split
      · rename_i t ht
        exact (threadBlock_footing ht).trans hqueue
      · refine (ih _ ?_).trans hqueue
        rw [setMutex_locked]
        exact hl

/-- `gth_mutex_lock` takes the mutex, or has no effect on the footing. -/
theorem mutexLock_footing (s : Core) (x : Ctx) (m : Addr) (via : Option Addr) :
    (s.mutexLock x m via).footing = s.footing ∨
      ((s.mutexes m).locked = 0 ∧ s.mutexLock x m via = s.lockAcquire x m via) := by
  unfold mutexLock
  split
  · exact Or.inl rfl
  · split
    · exact Or.inl rfl
    · split
      · rename_i hl
        left
        split
        · rfl
        · dsimp only
          split
          · rfl
          · split
            · rfl
            · have hqueue := s.footing_setQueue m
                ((s.mutexes m).wq.wqEnqueue (s.threadCurrentSlotIndex % 256))
              split
              · rename_i t ht
                exact (threadBlock_footing ht).trans ((footing_emit _ rfl).trans hqueue)
              · refine (lockLoop_footing x m _ via _ _ ?_).trans ((footing_emit _ rfl).trans hqueue)
                show ((s.setMutex m _).mutexes m).locked ≠ 0
                rw [setMutex_locked]
                exact hl
      · rename_i hl
        exact Or.inr ⟨not_not.mp hl, rfl⟩

/-- `gth_sem_post`: an error, the head of the queue is woken, or the count grows. -/
theorem semPost_cases (a : Addr) :
    (∃ st, st ≠ .ok ∧ s.semPost a = (st, s)) ∨
    ((s.sems a).initialized ≠ 0 ∧ (s.sems a).wq.wqIsEmpty = false ∧ ∃ e e', s.semPost a =
      (.ok, (((s.setSem a { s.sems a with wq := (s.sems a).wq.wqDequeue.2 }).log
          (.semWake (s.threadAt (s.sems a).wq.wqDequeue.1).tid a)).wakeWaiter
        (s.sems a).wq.wqDequeue.1 e).emit e')) ∨
    ((s.sems a).initialized ≠ 0 ∧ (s.sems a).wq.wqIsEmpty = true ∧
      (s.sems a).count ≠ 2 ^ 32 - 1 ∧ ∃ e, s.semPost a =
      (.ok, (s.setSem a { s.sems a with count := (s.sems a).count + 1 }).emit e)) := by
  unfold semPost
  by_cases ha : a = 0
  · rw [if_pos ha]
    exact Or.inl ⟨.einval, by decide, rfl⟩
  rw [if_neg ha]
  by_cases hi : (s.sems a).initialized = 0
  · rw [if_pos hi]
    exact Or.inl ⟨.estate, by decide, rfl⟩
  rw [if_neg hi]
  cases hempty : (s.sems a).wq.wqIsEmpty with
  | false =>
    rw [if_pos rfl]
    exact Or.inr (Or.inl ⟨hi, rfl, _, _, rfl⟩)
  | true =>
    rw [if_neg (by decide)]
    by_cases hmax : (s.sems a).count = 2 ^ 32 - 1
    · rw [if_pos hmax]
      exact Or.inl ⟨.einval, by decide, rfl⟩
    · rw [if_neg hmax]
      exact Or.inr (Or.inr ⟨hi, rfl, hmax, _, rfl⟩)

/-- `gth_mutex_unlock`: an error, or the mutex is released and, if the queue is not empty, its
    head is woken. -/
theorem mutexUnlock_cases (m : Addr) :
    (∃ st, st ≠ .ok ∧ s.mutexUnlock m = (st, s)) ∨
    (m ≠ 0 ∧ (s.mutexes m).initialized ≠ 0 ∧ (s.mutexes m).locked ≠ 0 ∧
      ((s.mutexes m).owner = 0 ∨ (s.mutexes m).owner = s.threadSelf) ∧
      (((s.mutexes m).wq.wqIsEmpty = true ∧ ∃ e, s.mutexUnlock m =
          (.ok, (s.setMutex m { s.mutexes m with locked := 0, owner := 0 }).emit e)) ∨
       ((s.mutexes m).wq.wqIsEmpty = false ∧ ∃ e e', s.mutexUnlock m =
          (.ok, ((s.setMutex m { s.mutexes m with
              locked := 0, owner := 0, wq := (s.mutexes m).wq.wqDequeue.2 }).wakeWaiter
            (s.mutexes m).wq.wqDequeue.1 e).emit e')))) := by
  unfold mutexUnlock
  by_cases hm : m = 0
  · rw [if_pos hm]
    exact Or.inl ⟨.einval, by decide, rfl⟩
  rw [if_neg hm]
  by_cases hi : (s.mutexes m).initialized = 0
  · rw [if_pos hi]
    exact Or.inl ⟨.estate, by decide, rfl⟩
  rw [if_neg hi]
  by_cases hl : (s.mutexes m).locked = 0
  · rw [if_pos hl]
    exact Or.inl ⟨.estate, by decide, rfl⟩
  rw [if_neg hl]
  by_cases ho : (s.mutexes m).owner ≠ 0 ∧ (s.mutexes m).owner ≠ s.threadSelf
  · rw [if_pos ho]
    exact Or.inl ⟨.estate, by decide, rfl⟩
  rw [if_neg ho]
  have howner : (s.mutexes m).owner = 0 ∨ (s.mutexes m).owner = s.threadSelf := by
    by_cases h0 : (s.mutexes m).owner = 0
    · exact Or.inl h0
    · exact Or.inr (not_not.mp fun hne => ho ⟨h0, hne⟩)
  refine Or.inr ⟨hm, hi, hl, howner, ?_⟩
  simp only [setMutex, Function.update_self, Function.update_idem]
  cases hempty : (s.mutexes m).wq.wqIsEmpty with
  | true => exact Or.inl ⟨rfl, _, rfl⟩
  | false => exact Or.inr ⟨rfl, _, _, rfl⟩

/-! ## Waits -/

/-- `gth_sem_wait` up to its context switch: the caller, in slot `i`, is marked, counted and
    queued. -/
def semQueued (s : Core) (x : Ctx) (a : Addr) (i : Slot) : Core :=
  let s := s.setThread i { s.threads i with state := .blocked }
  let s := { s with blockedThreads := incr64 s.blockedThreads }
  let s := s.setSem a { s.sems a with wq := (s.sems a).wq.wqEnqueue (i % 256) }
  let s := s.log (.semBlock (s.ctxTid x) a)
  s.emit (traceSemWait s.threadSelf a 0)

/-- `gth_sem_wait`: an error, a permit is taken from the count, or the caller is queued. -/
theorem semWait_inv (s : Core) (x : Ctx) (a : Addr) :
    (∃ st, st ≠ .ok ∧ s.semWait x a = s.ret x (.semWait a) ⟨st, []⟩ ∧
      (a ≠ 0 ∧ (s.sems a).initialized ≠ 0 ∧ (s.sems a).count = 0 ∧
        (s.sems a).wq.wqIsFull = false → ¬ s.threadCurrentSlotIndex < 128)) ∨
    ((s.sems a).initialized ≠ 0 ∧ (s.sems a).count ≠ 0 ∧ ∃ e,
      e = traceSemWait s.threadSelf a (s.sems a).count ∧ s.semWait x a =
      (((s.setSem a { s.sems a with count := (s.sems a).count - 1 }).log
        (.semTake (s.ctxTid x) a)).emit e).ret x (.semWait a) ⟨.ok, []⟩) ∨
    (∃ hx : s.threadCurrentSlotIndex < 128, a ≠ 0 ∧ (s.sems a).initialized ≠ 0 ∧
      (s.sems a).count = 0 ∧ (s.sems a).wq.wqIsFull = false ∧ s.semWait x a =
        (s.semQueued x a ⟨_, hx⟩).swapOut ⟨_, hx⟩ x (.semWait a)) := by
  unfold semWait
  by_cases ha : a = 0
  · rw [if_pos ha]
    exact Or.inl ⟨.einval, by decide, rfl, fun h => absurd ha h.1⟩
  rw [if_neg ha]
  by_cases hi : (s.sems a).initialized = 0
  · rw [if_pos hi]
    exact Or.inl ⟨.estate, by decide, rfl, fun h => absurd hi h.2.1⟩
  rw [if_neg hi]
  by_cases hc : (s.sems a).count = 0
  · rw [if_pos hc]
    dsimp only
    by_cases hx : s.threadCurrentSlotIndex < 128
    · rw [dif_pos hx]
      cases hfull : (s.sems a).wq.wqIsFull with
      | true => exact Or.inl ⟨.ebusy, by decide, rfl, fun h => absurd h.2.2.2.symm Bool.false_ne_true⟩
      | false => exact Or.inr (Or.inr ⟨hx, ha, hi, hc, rfl, rfl⟩)
    · rw [dif_neg hx]
      exact Or.inl ⟨.estate, by decide, rfl, fun _ => hx⟩
  · rw [if_neg hc]
    refine Or.inr (Or.inl ⟨hi, hc, _, ?_, rfl⟩)
    -- the count is read back after it has been decremented
    show traceSemWait s.threadSelf a ((Function.update s.sems a _ a).count + 1) = _
    rw [Function.update_self]
    exact congrArg (traceSemWait s.threadSelf a) (Nat.sub_add_cancel (Nat.pos_of_ne_zero hc))

/-- `gth_cond_wait` up to its `gth_mutex_unlock`: the caller, in slot `i`, is marked, counted and
    queued. -/
def condQueued (s : Core) (c : Addr) (i : Slot) : Core :=
  let s := s.setThread i { s.threads i with state := .blocked }
  let s := { s with blockedThreads := incr64 s.blockedThreads }
  let s := s.setCond c { s.conds c with wq := (s.conds c).wq.wqEnqueue (i % 256) }
  s.emit (traceCondWait s.threadSelf c)

/-- The same undone. -/
def condUnqueued (s : Core) (c : Addr) (i : Slot) : Core :=
  let s := s.setThread i { s.threads i with state := .running }
  let s := { s with blockedThreads := decrPos s.blockedThreads }
  s.setCond c { s.conds c with wq := ((s.conds c).wq.wqRemove (i % 256)).2 }

/-- `gth_cond_wait`: an error; or the caller is queued, and `gth_mutex_unlock` succeeds or fails. -/
theorem condWait_inv (s : Core) (x : Ctx) (c m : Addr) :
    (∃ st, st ≠ .ok ∧ s.condWait x c m = s.ret x (.condWait c m) ⟨st, []⟩ ∧
      (¬ (c = 0 ∨ m = 0) ∧ (s.conds c).initialized ≠ 0 ∧ (s.conds c).wq.wqIsFull = false →
        ¬ s.threadCurrentSlotIndex < 128)) ∨
    (∃ hx : s.threadCurrentSlotIndex < 128, ¬ (c = 0 ∨ m = 0) ∧ (s.conds c).initialized ≠ 0 ∧
      (s.conds c).wq.wqIsFull = false ∧
      ((∃ v, (s.condQueued c ⟨_, hx⟩).mutexUnlock m = (.ok, v) ∧ s.condWait x c m =
          (v.log (.condRelease (v.ctxTid x) c m)).swapOut ⟨_, hx⟩ x (.condWait c m)) ∨
       (∃ st v, st ≠ .ok ∧ (s.condQueued c ⟨_, hx⟩).mutexUnlock m = (st, v) ∧ s.condWait x c m =
          (v.condUnqueued c ⟨_, hx⟩).ret x (.condWait c m) ⟨st, []⟩))) := by
  unfold condWait
  by_cases hcm : c = 0 ∨ m = 0
  · rw [if_pos hcm]
    exact Or.inl ⟨.einval, by decide, rfl, fun h => absurd hcm h.1⟩
  rw [if_neg hcm]
  by_cases hi : (s.conds c).initialized = 0
  · rw [if_pos hi]
    exact Or.inl ⟨.estate, by decide, rfl, fun h => absurd hi h.2.1⟩
  rw [if_neg hi]
  dsimp only
  by_cases hx : s.threadCurrentSlotIndex < 128
  · rw [dif_pos hx]
    cases hfull : (s.conds c).wq.wqIsFull with
    | true => exact Or.inl ⟨.ebusy, by decide, rfl, fun h => absurd h.2.2.symm Bool.false_ne_true⟩
    | false =>
      refine Or.inr ⟨hx, hcm, hi, rfl, ?_⟩
      rw [if_neg Bool.false_ne_true]
      generalize hu : (Core.emit _ _ : Core) = u
      have hqueued : s.condQueued c ⟨_, hx⟩ = u := hu
      rw [hqueued]
      generalize u.mutexUnlock m = r
      obtain ⟨st, v⟩ := r
      cases st with
      | ok => exact Or.inl ⟨v, rfl, rfl⟩
      | _ => exact Or.inr ⟨_, v, by decide, rfl, rfl⟩
  · rw [dif_neg hx]
    exact Or.inl ⟨.estate, by decide, rfl, fun _ => hx⟩

/-! ## Signals -/

/-- `gth_cond_signal`: an error, nobody waits, or the head of the queue is woken. -/
theorem condSignal_cases (c : Addr) :
    (∃ st, st ≠ .ok ∧ s.condSignal c = (st, s)) ∨
    ((s.conds c).wq.wqIsEmpty = true ∧ s.condSignal c = (.ok, s)) ∨
    ((s.conds c).initialized ≠ 0 ∧ (s.conds c).wq.wqIsEmpty = false ∧ ∃ e, s.condSignal c =
      (.ok, (s.setCond c { s.conds c with wq := (s.conds c).wq.wqDequeue.2 }).wakeWaiter
        (s.conds c).wq.wqDequeue.1 e)) := by
  unfold condSignal
  by_cases hc : c = 0
  · rw [if_pos hc]
    exact Or.inl ⟨.einval, by decide, rfl⟩
  rw [if_neg hc]
  by_cases hi : (s.conds c).initialized = 0
  · rw [if_pos hi]
    exact Or.inl ⟨.estate, by decide, rfl⟩
  rw [if_neg hi]
  cases hempty : (s.conds c).wq.wqIsEmpty with
  | true => exact Or.inr (Or.inl ⟨rfl, rfl⟩)
  | false => exact Or.inr (Or.inr ⟨hi, rfl, _, rfl⟩)

/-- `gth_cond_broadcast`: an error, or the loop. -/
theorem condBroadcast_cases (c : Addr) :
    (∃ st, st ≠ .ok ∧ s.condBroadcast c = (st, s)) ∨
    ((s.conds c).initialized ≠ 0 ∧ ∃ e, s.condBroadcast c =
      (.ok, (s.broadcastLoop c 0 (s.conds c).wq.count).2.emit e)) := by
  unfold condBroadcast
  by_cases hc : c = 0
  · rw [if_pos hc]
    exact Or.inl ⟨.einval, by decide, rfl⟩
  rw [if_neg hc]
  by_cases hi : (s.conds c).initialized = 0
  · rw [if_pos hi]
    exact Or.inl ⟨.estate, by decide, rfl⟩
  rw [if_neg hi]
  exact Or.inr ⟨hi, _, rfl⟩

/-- **The rule for broadcast**: what survives taking one waiter off the queue and waking it
    survives the whole loop. -/
theorem broadcastLoop_inv {I : Core → Prop} {c : Addr}
    (hwake : ∀ t : Core, I t → (t.conds c).wq.wqIsEmpty = false →
      I ((t.setCond c { t.conds c with wq := (t.conds c).wq.wqDequeue.2 }).threadUnblockSlot
        (t.conds c).wq.wqDequeue.1).2) :
    ∀ (fuel : Nat) (s : Core) (wakeCount : Nat), I s → I (s.broadcastLoop c wakeCount fuel).2 := by
  intro fuel
  induction fuel with
  | zero => intro s wakeCount hI; exact hI
  | succ fuel ih =>
    intro s wakeCount hI
    unfold broadcastLoop
    by_cases hempty : (s.conds c).wq.wqIsEmpty = false
    · rw [if_pos hempty]
      have hI' := hwake s hI hempty
      by_cases hff : (s.conds c).wq.wqDequeue.1 = 0xFF
      · dsimp only
        rw [if_neg (not_not_intro hff)]
        apply ih
        -- slot number `0xFF` is out of range, so waking it does nothing
        rw [hff] at hI'
        unfold threadUnblockSlot at hI'
        rw [dif_neg (by decide)] at hI'
        split at hI' <;> exact hI'
      · dsimp only
        rw [if_pos hff]
        exact ih _ _ hI'
    · rw [if_neg hempty]
      exact hI

/-! ## Joins -/

/-- What `gth_thread_join` does between two calls of the scheduler: it fails; it goes on to the
    scheduler; or it frees the slot of its thread. -/
inductive JoinMove (s : Core) (x : Ctx) (tid : Tid) (out : Bool) : Core → Prop where
  | fail (st : Status) : JoinMove s x tid out (s.ret x (.join tid out) ⟨st, []⟩)
  | sched (target : Slot) : JoinMove s x tid out { s with cpu := .sched x (.join tid out target) }
  | free (i : Slot) (runnable blocked : Nat) (retval : List Nat) :
      findThread s.threads tid = some i → JoinMove s x tid out ({ s.setThread i {} with
        runnableThreads := runnable, blockedThreads := blocked }.ret x (.join tid out) ⟨.ok, retval⟩)

theorem joinFinish_move {tid : Tid} (hfind : findThread s.threads tid = some i) (out : Bool) :
    JoinMove s x tid out (s.joinFinish x tid out i) := by
  unfold joinFinish threadReleaseSlot
  by_cases hready : (s.threads i).state = .ready
  · rw [if_pos hready]
    exact .free i _ _ _ hfind
  rw [if_neg hready]
  by_cases hblocked : (s.threads i).state = .blocked
  · rw [if_pos hblocked]
    exact .free i _ _ _ hfind
  · rw [if_neg hblocked]
    exact .free i _ _ _ hfind

theorem joinLoop_move (s : Core) (x : Ctx) (tid : Tid) (out : Bool) (target : Slot) :
    JoinMove s x tid out (s.joinLoop x tid out target) := by
  unfold joinLoop
  split
  · split
    · exact .fail .enotfound
    · rename_i i hfind
      exact joinFinish_move hfind out
  · exact .sched target

theorem threadJoin_move (s : Core) (x : Ctx) (tid : Tid) (out : Bool) :
    JoinMove s x tid out (s.threadJoin x tid out) := by
  unfold threadJoin
  split
  · exact .fail .estate
  · split
    · exact .fail .einval
    · split
      · exact .fail .estate
      · split
        · exact .fail .enotfound
        · rename_i i hfind
          split
          · exact joinFinish_move hfind out
          · exact joinLoop_move s x tid out i

/-! ## Relations that see no more than the footing -/

/-- What `cond.c` makes of a condition variable. -/
inductive CondWrite (o : CondImpl) : CondImpl → Prop where
  | init : CondWrite o { initialized := 1, wq := ({} : WaitQueue).wqInit wqFixedSlots }
  | enqueue (n : Nat) : CondWrite o { o with wq := o.wq.wqEnqueue n }
  | dequeue : CondWrite o { o with wq := o.wq.wqDequeue.2 }
  | remove (n : Nat) : CondWrite o { o with wq := (o.wq.wqRemove n).2 }
  | destroy : CondWrite o {}

/-- A relation between states that holds if the footing is the same. -/
structure Coarse (R : Core → Core → Prop) : Prop where
  of_footing : ∀ {s t}, t.footing = s.footing → R s t
  trans : ∀ {s t u}, R s t → R t u → R s u

theorem coarse_fixed : Coarse fun s t => t.fixed = s.fixed where
  of_footing := fun h => congrArg Prod.fst h
  trans := fun h h' => h'.trans h

theorem coarse_keys : Coarse fun s t => t.keys = s.keys where
  of_footing := fun h => congrArg (fun p => p.2.1) h
  trans := fun h h' => h'.trans h

theorem coarse_conds : Coarse fun s t => t.conds = s.conds where
  of_footing := fun h => congrArg (fun p => p.2.2.1) h
  trans := fun h h' => h'.trans h

namespace Coarse
variable {R : Core → Core → Prop} (h : Coarse R)
  (hfree : ∀ s i, R s (s.setThread i {}))
  (hmutex : ∀ s m impl, R s (s.setMutex m impl)) (hsem : ∀ s a impl, R s (s.setSem a impl))
  (hemit : ∀ s e, R s (s.emit e))
  (hcond : ∀ s c impl, CondWrite (s.conds c) impl → R s (s.setCond c impl))
include h

theorem refl (s : Core) : R s s := h.of_footing rfl

section
include hfree

theorem join {s t : Core} {x : Ctx} {tid : Tid} {out : Bool} (hj : JoinMove s x tid out t) :
    R s t := by
  cases hj with
  | fail st => exact h.of_footing rfl
  | sched target => exact h.of_footing rfl
  | free i runnable blocked retval _ => exact h.trans (hfree s i) (h.of_footing rfl)

end

/-! `mutex.c` writes mutexes and records it. -/

section
include hmutex hemit

theorem mutexUnlock (s : Core) (m : Addr) : R s (s.mutexUnlock m).2 := by
  unfold Core.mutexUnlock
  split
  · exact h.refl s
  · split
    · exact h.refl s
    · split
      · exact h.refl s
      · split
        · exact h.refl s
        · dsimp only
          have hfreed := hmutex s m { s.mutexes m with locked := 0, owner := 0 }
          refine h.trans (h.trans hfreed ?_) (hemit _ _)
          split
          · exact h.trans (hmutex _ m _) (h.of_footing (wakeWaiter_footing _ _ rfl))
          · exact h.refl _

theorem mutexLock (s : Core) (x : Ctx) (m : Addr) (via : Option Addr) :
    R s (s.mutexLock x m via) := by
  rcases s.mutexLock_footing x m via with hf | ⟨-, hl⟩
  · exact h.of_footing hf
  · rw [hl]
    exact h.trans (hmutex s m _) (h.trans (hemit _ _) (h.of_footing rfl))

theorem lockLoop (s : Core) (x : Ctx) (m : Addr) (mySlot : Nat) (via : Option Addr) (fuel : Nat) :
    R s (s.lockLoop x m mySlot via fuel) := by
  by_cases hl : (s.mutexes m).locked = 0
  · cases fuel with
    | zero => exact h.of_footing rfl
    | succ fuel =>
      rw [Core.lockLoop, if_neg (not_not_intro hl)]
      exact h.trans (hmutex s m _) (h.trans (hemit _ _) (h.of_footing rfl))
  · exact h.of_footing (lockLoop_footing x m mySlot via fuel s hl)

end

/-! `sem.c` writes semaphores and records it. -/

section
include hsem hemit

theorem semWait (s : Core) (x : Ctx) (a : Addr) : R s (s.semWait x a) := by
  rcases semWait_inv s x a with ⟨st, -, hw, -⟩ | ⟨-, -, e, -, hw⟩ | ⟨hx, -, -, -, -, hw⟩ <;> rw [hw]
  · exact h.of_footing (s.footing_ret x _ _)
  · exact h.trans (hsem s a _) (h.trans (hemit _ _) (h.of_footing rfl))
  · -- the caller is marked and queued, and then its stack is left
    have hmarked : R s { s.setThread ⟨_, hx⟩ { s.threads ⟨_, hx⟩ with state := .blocked } with
        blockedThreads := incr64 s.blockedThreads } :=
      h.of_footing ((footing_counters _ _ _).trans (s.footing_setState _ .blocked))
    exact h.trans (h.trans hmarked (hsem _ a _))
      (h.trans (hemit _ _) (h.of_footing (footing_swapOut _ _ x _)))

theorem semPost (s : Core) (a : Addr) : R s (s.semPost a).2 := by
  unfold Core.semPost
  split
  · exact h.refl s
  · split
    · exact h.refl s
    · split
      · dsimp only
        refine h.trans (h.of_footing ?_) (hemit _ _)
        exact (wakeWaiter_footing _ _ rfl).trans ((footing_log _ _).trans (s.footing_setSem a _))
      · split
        · exact h.refl s
        · exact h.trans (hsem s a _) (hemit _ _)

end

/-! `cond.c` writes condition variables. -/

section
include hcond

theorem condSignal (s : Core) (c : Addr) : R s (s.condSignal c).2 := by
  unfold Core.condSignal
  split
  · exact h.refl s
  · split
    · exact h.refl s
    · split
      · exact h.trans (hcond s c _ .dequeue) (h.of_footing (wakeWaiter_footing _ _ rfl))
      · exact h.refl s

theorem condBroadcast (s : Core) (c : Addr) : R s (s.condBroadcast c).2 := by
  have hstep : ∀ t, R s t → (t.conds c).wq.wqIsEmpty = false → R s ((t.setCond c
      { t.conds c with wq := (t.conds c).wq.wqDequeue.2 }).threadUnblockSlot
        (t.conds c).wq.wqDequeue.1).2 := fun t ht _ =>
    h.trans ht (h.trans (hcond t c _ .dequeue) (h.of_footing (threadUnblockSlot_footing _ _)))
  have hloop := broadcastLoop_inv hstep (s.conds c).wq.count s 0 (h.refl s)
  unfold Core.condBroadcast
  split
  · exact h.refl s
  · split
    · exact h.refl s
    · exact h.trans hloop (h.of_footing (footing_emit _ rfl))

theorem condQueued (s : Core) (c : Addr) (i : Slot) : R s (s.condQueued c i) := by
  refine h.trans (h.of_footing ?_)
    (h.trans (hcond _ c _ (.enqueue _)) (h.of_footing (footing_emit _ rfl)))
  exact (footing_counters _ _ _).trans (s.footing_setState i .blocked)

theorem condUnqueued (s : Core) (c : Addr) (i : Slot) : R s (s.condUnqueued c i) := by
  refine h.trans (h.of_footing ?_) (hcond _ c _ (.remove _))
  exact (footing_counters _ _ _).trans (s.footing_setState i .running)

/-- `gth_cond_wait` does what its `gth_mutex_unlock` does. -/
theorem condWait (hunlock : ∀ s m, R s (s.mutexUnlock m).2) (s : Core) (x : Ctx) (c m : Addr) :
    R s (s.condWait x c m) := by
  rcases s.condWait_inv x c m with ⟨st, -, hw, -⟩ | ⟨hx, -, -, -, ⟨v, hu, hw⟩ | ⟨st, v, -, hu, hw⟩⟩
  · rw [hw]
    exact h.of_footing (s.footing_ret x _ _)
  · have hv := h.trans (h.condQueued hcond s c ⟨_, hx⟩) (hunlock _ m)
    rw [hu] at hv
    rw [hw]
    exact h.trans hv (h.of_footing ((footing_swapOut _ _ x _).trans (footing_log v _)))
  · have hv := h.trans (h.condQueued hcond s c ⟨_, hx⟩) (hunlock _ m)
    rw [hu] at hv
    rw [hw]
    exact h.trans hv (h.trans (h.condUnqueued hcond v c _) (h.of_footing (footing_ret _ x _ _)))

end

section
include hmutex hsem hemit hcond

/-- What a call does that neither creates nor joins a thread. -/
theorem exec (s : Core) (x : Ctx) {c : Call} (hc : c.isCreate = false)
    (hjoin : ∀ tid out, c = .join tid out → R s (s.threadJoin x tid out)) : R s (s.exec x c) := by
  have hdone : ∀ (c : Call) (r : Status × Core), R s r.2 → R s (done x c r) :=
    fun c r hr => h.trans hr (h.of_footing rfl)
  -- mutexes, semaphores and conditions are initialised and destroyed in place
  have hif : ∀ (b : Prop) [Decidable b] (st : Status) (r : Status × Core), R s r.2 →
      R s (if b then (st, s) else r).2 := by
    intro b _ st r hr
    split
    · exact h.refl s
    · exact hr
  cases c with
  | create outTid attr fn arg env => nomatch hc
  | yield => exact h.of_footing (threadYield_footing s x)
  | join tid out => exact hjoin tid out rfl
  | cancel tid => exact hdone _ _ (h.of_footing (threadCancel_footing s tid))
  | exit retval =>
    cases x with
    | main => exact h.of_footing rfl
    | green i => exact h.of_footing (threadExit_footing s i retval)
  | self => exact h.of_footing rfl
  | getStats out => exact h.of_footing rfl
  | mutexInit m => exact hdone _ _ (hif _ _ _ (hmutex s m _))
  | mutexLock m => exact h.mutexLock hmutex hemit s x m none
  | mutexTrylock m => exact hdone _ _ (hif _ _ _ (hif _ _ _ (hif _ _ _ (hmutex s m _))))
  | mutexUnlock m => exact hdone _ _ (h.mutexUnlock hmutex hemit s m)
  | mutexDestroy m =>
    exact hdone _ _ (hif _ _ _ (hif _ _ _ (hif _ _ _ (hif _ _ _ (hmutex s m _)))))
  | semInit a n => exact hdone _ _ (hif _ _ _ (hsem s a _))
  | semWait a => exact h.semWait hsem hemit s x a
  | semPost a => exact hdone _ _ (h.semPost hsem hemit s a)
  | semDestroy a => exact hdone _ _ (hif _ _ _ (hif _ _ _ (hif _ _ _ (hsem s a _))))
  | condInit c => exact hdone _ _ (hif _ _ _ (hcond s c _ .init))
  | condWait c m => exact h.condWait hcond (h.mutexUnlock hmutex hemit) s x c m
  | condSignal c => exact hdone _ _ (h.condSignal hcond s c)
  | condBroadcast c => exact hdone _ _ (h.condBroadcast hcond s c)
  | condDestroy c => exact hdone _ _ (hif _ _ _ (hif _ _ _ (hif _ _ _ (hcond s c _ .destroy))))

end

include hfree hmutex hemit

/-- What a continuation does. -/
theorem resume (s : Core) (k : Kont) : R s (s.resume k) := by
  unfold Core.resume
  split
  · exact h.of_footing rfl
  · exact h.of_footing rfl
  · exact h.lockLoop hmutex hemit s k.ctx _ _ _ _
  · exact h.of_footing rfl
  · exact h.mutexLock hmutex hemit s k.ctx _ _
  · dsimp only
    split
    · exact h.of_footing rfl
    · refine h.trans ?_ (h.join hfree (joinLoop_move _ k.ctx _ _ _))
      exact h.of_footing rfl

end Coarse

theorem issued_of_fixed {s t : Core} (h : s.fixed = t.fixed) : s.issued = t.issued :=
  congrArg (fun p => p.2.2.2.2.1) h

theorem threadUnblockSlot_fixed (s : Core) (n : Nat) :
    (s.threadUnblockSlot n).2.fixed = s.fixed :=
  coarse_fixed.of_footing (threadUnblockSlot_footing s n)

/-- **Only `create` takes tids, and no call touches the dispatcher's state.** -/
theorem exec_fixed (s : Core) (x : Ctx) {c : Call} (hc : c.isCreate = false) :
    (s.exec x c).fixed = s.fixed :=
  coarse_fixed.exec (fun _ _ _ => rfl) (fun _ _ _ => rfl) (fun _ _ => rfl) (fun _ _ _ _ => rfl) s x hc
    fun tid out _ => coarse_fixed.join (fun _ _ => rfl) (s.threadJoin_move x tid out)

theorem semWait_fixed (s : Core) (x : Ctx) (a : Addr) : (s.semWait x a).fixed = s.fixed :=
  exec_fixed s x (c := .semWait a) rfl

theorem condWait_fixed (s : Core) (x : Ctx) (c m : Addr) : (s.condWait x c m).fixed = s.fixed :=
  s.exec_fixed x (c := .condWait c m) rfl

/-- Nor does a continuation. -/
theorem resume_fixed (s : Core) (k : Kont) : (s.resume k).fixed = s.fixed :=
  coarse_fixed.resume (fun _ _ => rfl) (fun _ _ _ => rfl) (fun _ _ => rfl) s k

theorem resume_issued (s : Core) (k : Kont) : (s.resume k).issued = s.issued :=
  issued_of_fixed (resume_fixed s k)

end Core
end Gth

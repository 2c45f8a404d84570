/-
  Wake-ups of mutex waiters are not lost.

  `gth_mutex_unlock` wakes one waiter and hands nothing over: the mutex is free until somebody
  takes it, and a barging `lock` or `trylock` may be first.  What keeps the queue moving is that,
  as long as the mutex is free and somebody is queued, some thread is awake INSIDE
  `gth_mutex_lock`, past its block and before the loop test (`Awake`).  It tests `locked` before
  anything else happens to it; if it finds the mutex taken, the taker's unlock will wake the next.
-/
import Gthreads.Lifecycle

namespace Gth

/-- `gth_thread_cancel`. -/
def Call.isCancel : Call → Bool
  | .cancel _ => true
  | _ => false

theorem sparesBlocked_of_not_cancel {threads : Slot → ThreadRecord} {c : Call}
    (h : c.isCancel = false) : SparesBlocked threads c := by
  cases c with
  | cancel tid => nomatch h
  | _ => trivial

namespace Kernel

/-- Some thread was woken in `gth_mutex_lock(m)` and has not tested `locked` yet: it is `READY`, or
    it has just been given the CPU. -/
def Awake (m : Addr) (s : Kernel) : Prop :=
  ∃ (i : Slot) (via : Option Addr),
    ((s.threads i).state = .ready ∧ (s.threads i).ctx = some ⟨.green i, .lock m i via⟩) ∨
    s.Entering i (.lock m i via)

/-- While `m` is free and somebody is queued for it, somebody is awake to take it. -/
def WakePending (m : Addr) (s : Kernel) : Prop :=
  (s.mutex m).locked = 0 → s.queue (.mutex m) ≠ [] → Awake m s

section
variable {m : Addr} {s t : Kernel} {l : Option (Ctx × Call)}

/-- A thread that goes on in the loop of `gth_mutex_lock(m)` leaves the mutex locked: it takes it,
    or it found it taken. -/
theorem Step.entering_lock (hstep : Step s l t) {i : Slot} {via : Option Addr}
    (he : s.Entering i (.lock m i via)) : (t.mutex m).locked ≠ 0 := by
  obtain rfl := hstep.label_of_entering he
  replace he : s.cpu = .swap (some ⟨.green i, .lock m i via⟩) := he
  have hat : ∀ {x a via'}, s.Locking x a via' none → a = m := by
    intro x a via' h
    cases h with
    | woken j _ _ hcpu =>
      rw [he] at hcpu
      cases hcpu
      rfl
    | relock j c _ hcpu _ =>
      rw [he] at hcpu
      nomatch hcpu
  cases hstep with
  | mutex hstep =>
    cases hstep with
    | acquire x a via' _ hl _ =>
      obtain rfl := hat hl
      show (Function.update s.mutex a _ a).locked ≠ 0
      rw [Function.update_self]
      exact Nat.one_ne_zero
    | lockBlock j a via' _ k hl _ hlocked _ =>
      obtain rfl := hat hl
      exact hlocked
    | lockBusy j a via' hcpu hlocked =>
      rw [he] at hcpu
      cases hcpu
      exact hlocked
    | relockFail j c a st hcpu _ => nomatch he.symm.trans hcpu
  | sched hstep =>
    cases hstep with
    | idle caller st hcpu _ => nomatch he.symm.trans hcpu
    | dispatch caller act j f hcpu _ _ _ => nomatch he.symm.trans hcpu
    | backYield act hcpu => nomatch he.symm.trans hcpu
    | backRelease act tid out j hcpu _ _ => nomatch he.symm.trans hcpu
    | backLoop act caller hcpu => nomatch he.symm.trans hcpu
    | start j hcpu => nomatch he.symm.trans hcpu
    | yielded j hcpu => nomatch he.symm.trans hcpu
  | sem hstep => cases hstep with | waited j a hcpu => nomatch he.symm.trans hcpu
  | thread hstep => cases hstep
  | cond hstep => cases hstep

/-- The awake thread stays awake until it goes on. -/
theorem Awake.step (h : Awake m s) (hstep : Step s l t) (hok : s.Ok)
    (hcancel : ∀ x c, l = some (x, c) → c.isCancel = false)
    (hout : ∀ i via, ¬ s.Entering i (.lock m i via)) : Awake m t := by
  obtain ⟨i, via, ⟨hst, hctx⟩ | he⟩ := h
  · have hoff : ¬ s.OnCpu i := by
      intro hon
      rcases hok.onCpu hon with h | h <;> rw [hst] at h <;> nomatch h
    cases hstep.thread_cases i with
    | same ht _ => exact ⟨i, via, Or.inl (by rw [ht]; exact ⟨hst, hctx⟩)⟩
    | woken x c o _ _ _ _ hb _ _ => rw [hst] at hb; nomatch hb
    | dispatched f _ _ hf _ he =>
      rw [hctx] at hf
      cases hf
      exact ⟨i, via, Or.inr he⟩
    | yielded _ hon _ _ => exact absurd hon hoff
    | blocked o f _ _ hon _ _ _ => exact absurd hon hoff
    | passed c a _ hon _ _ _ => exact absurd hon hoff
    | restored c a _ hon _ _ => exact absurd hon hoff
    | exited v _ hon _ _ _ => exact absurd hon hoff
    | canceled x tid hl _ _ _ _ => exact absurd (hcancel x _ hl) (by rw [Call.isCancel]; decide)
    | released hterm _ _ => rw [hst] at hterm; nomatch hterm
    | created he _ _ => rw [hst] at he; nomatch he
  · exact absurd he (hout i via)

/-- A thread queued for `m` is `BLOCKED` in `gth_mutex_lock(m)`. -/
theorem Ok.waiting_lock (hok : s.Ok) {n : Nat} (h : s.waiting n = some (.mutex m)) :
    ∃ (i : Slot) (via : Option Addr), (i : Nat) = n ∧ (s.threads i).state = .blocked ∧
      (s.threads i).ctx = some ⟨.green i, .lock m i via⟩ := by
  obtain ⟨i, rfl, hst, k, hk, hw⟩ := waiting_some h
  obtain ⟨f, hctx, hf, -⟩ := hok.parked i (Or.inr hst)
  rw [hctx] at hk
  cases hk
  cases f with
  | lock a mySlot via =>
    obtain rfl : mySlot = i := hf
    obtain rfl : a = m := Obj.mutex.inj (Option.some.inj hw)
    exact ⟨i, via, rfl, hst, hctx⟩
  | _ => nomatch hw

/-- The first waiter for `m` is awake after the wake-up, in the place where it was. -/
theorem awake_wake {i : Slot} {via : Option Addr} {q : List Nat}
    (hq : s.queue (.mutex m) = (i : Nat) :: q) (hst : (s.threads i).state = .blocked)
    (hctx : (s.threads i).ctx = some ⟨.green i, .lock m i via⟩) :
    ((s.wake (.mutex m)).threads i).state = .ready ∧
      ((s.wake (.mutex m)).threads i).ctx = some ⟨.green i, .lock m i via⟩ := by
  rw [wake_cons hq, unblock_blocked (s := s.setQueue _ q) hst]
  have hself : ((s.setQueue (.mutex m) q).setState i .ready).threads i
      = { s.threads i with state := .ready } := Function.update_self _ _ _
  rw [hself]
  exact ⟨rfl, hctx⟩

/-! ## What a transition does that leaves the mutex free -/

/-- A transition after which `m` is free and has waiters leaves the mutex and its queue alone, or
    takes the first waiter off the queue and makes it `READY` in the place where it was. -/
inductive FreeMove (m : Addr) (s t : Kernel) : Prop where
  | none : t.mutex m = s.mutex m → t.queue (.mutex m) = s.queue (.mutex m) → FreeMove m s t
  | wake (n : Nat) (q : List Nat) : s.queue (.mutex m) = n :: q →
      (∀ (i : Slot) (via : Option Addr), (i : Nat) = n → (s.threads i).state = .blocked →
        (s.threads i).ctx = some ⟨.green i, .lock m i via⟩ →
        (t.threads i).state = .ready ∧ (t.threads i).ctx = some ⟨.green i, .lock m i via⟩) →
      FreeMove m s t

theorem mutex_ne_sem (m a : Addr) : Obj.mutex m ≠ .sem a := nofun

theorem mutex_ne_cond (m c : Addr) : Obj.mutex m ≠ .cond c := nofun

theorem obj_mutex_ne {a : Addr} (ha : a ≠ m) : Obj.mutex m ≠ .mutex a :=
  fun e => ha (Obj.mutex.inj e).symm

/-- A mutex that has just been locked is not free. -/
theorem not_free_of_locked {c : MutexCell} (hfree : (t.mutex m).locked = 0) (hc : c.locked = 1)
    (ht : t.mutex = Function.update s.mutex m c) : False := by
  rw [ht, Function.update_self, hc] at hfree
  nomatch hfree

/-- The wake-up of an unlock of `m` reaches the first waiter. -/
theorem FreeMove.of_wake (K : Kernel) (hq : K.queue (.mutex m) = s.queue (.mutex m))
    (hK : ∀ i, (s.threads i).state = .blocked → K.threads i = s.threads i)
    (ht : t.threads = (K.wake (.mutex m)).threads) (htq : t.queue = (K.wake (.mutex m)).queue)
    (hne : t.queue (.mutex m) ≠ []) : FreeMove m s t := by
  have hqueue := congrFun (queue_wake K (.mutex m)) (.mutex m)
  rw [Function.update_self, hq] at hqueue
  cases hs : s.queue (.mutex m) with
  | nil =>
    rw [hs] at hqueue
    exact absurd (htq ▸ hqueue) hne
  | cons n q =>
    refine .wake n q hs fun i via hi hst hctx => ?_
    subst hi
    rw [ht]
    exact awake_wake (hq.trans hs) (by rw [hK i hst]; exact hst) (by rw [hK i hst]; exact hctx)

theorem MutexStep.free_cases (hstep : MutexStep s l t) (hfree : (t.mutex m).locked = 0)
    (hne : t.queue (.mutex m) ≠ []) : FreeMove m s t := by
  cases hstep with
  | init x a _ =>
    by_cases ha : a = m
    · subst ha
      exact absurd (Function.update_self _ _ _) hne
    · exact .none (Function.update_of_ne (Ne.symm ha) _ _)
        (Function.update_of_ne (obj_mutex_ne ha) _ _)
  | acquire x a via l _ _ =>
    by_cases ha : a = m
    · subst ha
      exact (not_free_of_locked hfree rfl rfl).elim
    · exact .none (Function.update_of_ne (Ne.symm ha) _ _) rfl
  | lockBlock i a via l k _ _ hlocked _ =>
    by_cases ha : a = m
    · subst ha
      exact absurd hfree hlocked
    · exact .none rfl (Function.update_of_ne (obj_mutex_ne ha) _ _)
  | trylock x a _ _ _ =>
    by_cases ha : a = m
    · subst ha
      exact (not_free_of_locked hfree rfl rfl).elim
    · exact .none (Function.update_of_ne (Ne.symm ha) _ _) rfl
  | unlock x a _ _ _ _ =>
    by_cases ha : a = m
    · subst ha
      exact .of_wake (s.setMutex a { s.mutex a with locked := 0, owner := 0 }) rfl (fun _ _ => rfl)
        rfl rfl hne
    · have hw := woken_wake (s.setMutex a { s.mutex a with locked := 0, owner := 0 }) (.mutex a)
      have hq := queue_wake (s.setMutex a { s.mutex a with locked := 0, owner := 0 }) (.mutex a)
      exact .none ((congrFun hw.mutex m).trans (Function.update_of_ne (Ne.symm ha) _ _))
        ((congrFun hq _).trans (Function.update_of_ne (obj_mutex_ne ha) _ _))
  | destroy x a _ _ _ =>
    by_cases ha : a = m
    · subst ha
      exact absurd (Function.update_self _ _ _) hne
    · exact .none (Function.update_of_ne (Ne.symm ha) _ _)
        (Function.update_of_ne (obj_mutex_ne ha) _ _)
  | _ => exact .none rfl rfl

theorem SemStep.free_cases (hstep : SemStep s l t) (m : Addr) : FreeMove m s t := by
  cases hstep with
  | init x a n _ => exact .none rfl (Function.update_of_ne (mutex_ne_sem m a) [] _)
  | block i a k _ _ _ _ =>
    exact .none rfl (queue_wait_of_ne s i (.semWait a) (mutex_ne_sem m a))
  | wake x a n q _ _ _ =>
    refine .none (congrFun (woken_wake (s.log _) (.sem a)).mutex m) ?_
    exact (congrFun (queue_wake (s.log _) (.sem a)) _).trans
      (Function.update_of_ne (mutex_ne_sem m a) _ _)
  | destroy x a _ _ => exact .none rfl (Function.update_of_ne (mutex_ne_sem m a) [] _)
  | _ => exact .none rfl rfl

theorem CondStep.free_cases (hstep : CondStep s l t) (hok : s.Ok)
    (hne : t.queue (.mutex m) ≠ []) : FreeMove m s t := by
  cases hstep with
  | init x c _ => exact .none rfl (Function.update_of_ne (mutex_ne_cond m c) [] _)
  | block i c a k hcpu _ _ _ _ _ =>
    -- the caller has left for the queue of `c`; the head of `a`'s queue is another thread
    have hq : ((s.setMutex a { s.mutex a with locked := 0, owner := 0 }).wait i (.cond c)
        (.condWait c a)).queue (.mutex m) = s.queue (.mutex m) :=
      queue_wait_of_ne _ i _ (mutex_ne_cond m c)
    by_cases ha : a = m
    · subst ha
      refine .of_wake _ hq (fun j hj => ?_) rfl rfl hne
      have hji : j ≠ i := by
        rintro rfl
        exact hok.user_ne_blocked hcpu hj
      exact Function.update_of_ne hji _ _
    · have hw := woken_wake ((s.setMutex a { s.mutex a with locked := 0, owner := 0 }).wait i
        (.cond c) (.condWait c a)) (.mutex a)
      have hqueue := queue_wake ((s.setMutex a { s.mutex a with locked := 0, owner := 0 }).wait i
        (.cond c) (.condWait c a)) (.mutex a)
      exact .none ((congrFun hw.mutex m).trans (Function.update_of_ne (Ne.symm ha) _ _))
        ((congrFun hqueue _).trans ((Function.update_of_ne (obj_mutex_ne ha) _ _).trans hq))
  | fail i c a st _ _ =>
    exact .none rfl (Function.update_of_ne (mutex_ne_cond m c)
      ((s.queue (.cond c) ++ [(i : Nat)]).erase (i : Nat)) _)
  | signal x c _ =>
    refine .none (congrFun (woken_wake s (.cond c)).mutex m) ?_
    exact (congrFun (queue_wake s (.cond c)) _).trans
      (Function.update_of_ne (mutex_ne_cond m c) _ _)
  | broadcast x c _ =>
    refine .none (congrFun (woken_wakes (.cond c) (s.queue (.cond c)).length s).mutex m) ?_
    exact (congrFun (queue_wakes (.cond c) (s.queue (.cond c)).length s) _).trans
      (Function.update_of_ne (mutex_ne_cond m c) _ _)
  | destroy x c _ _ => exact .none rfl (Function.update_of_ne (mutex_ne_cond m c) [] _)

theorem Step.free_cases (hstep : Step s l t) (hok : s.Ok) (hfree : (t.mutex m).locked = 0)
    (hne : t.queue (.mutex m) ≠ []) : FreeMove m s t := by
  cases hstep with
  | thread hstep => cases hstep <;> exact .none rfl rfl
  | sched hstep => cases hstep <;> exact .none rfl rfl
  | mutex hstep => exact hstep.free_cases hfree hne
  | sem hstep => exact hstep.free_cases m
  | cond hstep => exact hstep.free_cases hok hne

end

/-- **One step**: the witness changes, but there always is one. -/
theorem wakePending_inv (m : Addr) :
    Inv (fun s => WaitMap.Sound s.waiting s.queue ∧ WakePending m s)
      (fun _ _ c => c.isCancel = false) := by
  intro s l t hok hok' hstep hG ⟨hsound, hpend⟩
  have hspare : ∀ x c, l = some (x, c) → SparesBlocked s.threads c :=
    fun x c hl => sparesBlocked_of_not_cancel (hG x c hl)
  refine ⟨sound_inv s l t hok hok' hstep hspare hsound, fun hfree hne => ?_⟩
  have hout : ∀ i via, ¬ s.Entering i (.lock m i via) :=
    fun i via he => hstep.entering_lock he hfree
  cases hstep.free_cases hok hfree hne with
  | none hm hq =>
    have hawake : Awake m s := hpend (hm ▸ hfree) (hq ▸ hne)
    exact hawake.step hstep hok hG hout
  | wake n q hq hwake =>
    -- the first waiter is blocked in the lock, and it is woken
    obtain ⟨i, via, hi, hst, hctx⟩ := hok.waiting_lock (hsound.waits _ n (hq ▸ List.mem_cons_self))
    exact ⟨i, via, Or.inl (hwake i via hi hst hctx)⟩

theorem wakePending_initial (m : Addr) :
    WaitMap.Sound initial.waiting initial.queue ∧ WakePending m initial :=
  ⟨agree_initial.toSound, fun _ h => absurd rfl h⟩

end Kernel

/-! ## Runs of the code -/

namespace Core

/-- The thread of slot `i` was taken off the queue of `m` and is awake inside `gth_mutex_lock(m)`,
    past its block and before it tests `locked` again: `READY`, or `RUNNING` and about to go on. -/
def AwakeIn (s : Core) (m : Addr) (i : Slot) : Prop :=
  (i : Nat) ∉ s.queue (.mutex m) ∧ ∃ via : Option Addr,
    ((s.threads i).state = .ready ∧ (s.threads i).ctx = some ⟨.green i, .lock m i via⟩) ∨
    ((s.threads i).state = .running ∧ s.cpu = .swap (some ⟨.green i, .lock m i via⟩))

theorem WF.awakeIn {s : Core} (h : s.WF) {m : Addr}
    (hsound : WaitMap.Sound s.kernel.waiting s.kernel.queue) (ha : s.kernel.Awake m) :
    ∃ i, s.AwakeIn m i := by
  obtain ⟨i, via, hi⟩ := ha
  have hstate : (s.threads i).state = .ready ∨ (s.threads i).state = .running := by
    rcases hi with ⟨hready, -⟩ | he
    · exact Or.inl hready
    · exact Or.inr (h.kernel_ok.enter i _ he).1
  refine ⟨i, fun hmem => ?_, via, ?_⟩
  · -- an entry of the queue is the slot of a `BLOCKED` thread
    obtain ⟨j, hj, hst, -⟩ := Kernel.waiting_some (hsound.waits (.mutex m) i hmem)
    obtain rfl : j = i := Fin.ext hj
    have hst : (s.threads j).state = .blocked := hst
    rcases hstate with h | h <;> rw [h] at hst <;> nomatch hst
  · rcases hi with hi | he
    · exact Or.inl hi
    · exact Or.inr ⟨(h.kernel_ok.enter i _ he).1, he⟩

end Core

/-- **Mutex wake-ups are not lost.**  In a run without `gth_thread_cancel`, while `m` is free and
    its queue is not empty, somebody taken off that queue is awake to take it.  So if objects are
    initialised only once, no thread is `BLOCKED` on a free mutex with nobody awake.
    Creations are bounded because tids are: once `next_tid` has wrapped, a thread may have main's tid
    or that of another thread, and `gth_runtime_find_thread` finds the wrong slot to park. -/
theorem mutex_wakeups_not_lost (W : World) (config : ValidConfig) (pageSize : BitVec 64)
    (files : Path → Option (List UInt8)) (m : Addr) (ls : List Label) (s : State)
    (hjoin : JoinsFromMain ls) (hcreates : creates ls < 2 ^ 64)
    (hcancel : Exec.Along (State.step W) (State.OnCalls fun _ _ c => c.isCancel = false)
      (State.start config pageSize files) ls)
    (hrun : Exec.exec (State.step W) (State.start config pageSize files) ls = some s) :
    ((s.core.mutexes m).locked = 0 → s.core.queue (.mutex m) ≠ [] → ∃ i, s.core.AwakeIn m i) ∧
    (Exec.Along (State.step W) (State.OnCalls InitsOnce) (State.start config pageSize files) ls →
      (s.core.mutexes m).locked = 0 →
      (∃ j, (s.core.threads j).state = .blocked ∧ s.core.SuspendedOn j (.mutex m)) →
      ∃ i, s.core.AwakeIn m i) := by
  obtain ⟨hwf, -, hsound, hpend⟩ := (Kernel.wakePending_inv m).reach
    (Kernel.wakePending_initial m) hjoin hcreates hcancel hrun
  have hqueue : (s.core.mutexes m).locked = 0 → s.core.queue (.mutex m) ≠ [] →
      ∃ i, s.core.AwakeIn m i := fun hfree hne => hwf.awakeIn hsound (hpend hfree hne)
  refine ⟨hqueue, fun hinit hfree ⟨j, hblocked, f, hctx, hf⟩ => hqueue hfree ?_⟩
  have hG : Exec.Along (State.step W) (State.OnCalls fun t _ c =>
      (∀ o, c.inits = some o → t.kernel.initOf o = 0) ∧ SparesBlocked t.kernel.threads c)
      (State.start config pageSize files) ls := by
    refine Exec.along_mono (fun t l h x c hl => ?_) ls _ (Exec.along_and ls _ hinit hcancel)
    refine ⟨fun o ho => ?_, sparesBlocked_of_not_cancel (h.2 x c hl)⟩
    rw [Core.kernel_initOf]
    exact h.1 x c hl o ho
  obtain ⟨-, -, hagree, -⟩ := Kernel.agree_inv.reach ⟨Kernel.agree_initial, fun _ _ => rfl⟩
    hjoin hcreates hG hrun
  -- a `BLOCKED` thread is in the queue of what it waits for
  obtain ⟨o, ho, f', hctx', hf'⟩ := hwf.waiting_blocked hblocked
  rw [hctx] at hctx'
  cases hctx'
  obtain rfl : o = .mutex m := Option.some.inj (hf'.symm.trans hf)
  exact List.ne_nil_of_mem (hagree.queued _ _ ho)

/-- Two threads queue up for the mutex that the first one holds; the first one unlocks it. -/
def unlockRun : List Label :=
  [Sample.main (.mutexInit 1), Sample.main Sample.create, Sample.main Sample.create,
    Sample.main Sample.create, Sample.main .yield, .tau, .tau, Sample.green 0 (.mutexLock 1),
    Sample.green 0 .yield, .tau, Sample.main .yield, .tau, .tau, Sample.green 1 (.mutexLock 1),
    .tau, Sample.main .yield, .tau, .tau, Sample.green 2 (.mutexLock 1), .tau,
    Sample.main .yield, .tau, .tau, Sample.green 0 (.mutexUnlock 1)]

/-- Non-vacuous: one waiter is left in the queue of a free mutex, and somebody is awake. -/
theorem mutex_wakeups_not_lost_unlock : ∃ s,
    Exec.exec (State.step Sample.world) Sample.start unlockRun = some s ∧
      (s.core.mutexes 1).locked = 0 ∧ s.core.queue (.mutex 1) = [2] ∧
      ∃ i, s.core.AwakeIn 1 i := by
  refine ⟨_, rfl, rfl, rfl, ?_⟩
  exact (mutex_wakeups_not_lost Sample.world Sample.config 4096#64 (fun _ => none) 1 unlockRun _
    (by unfold JoinsFromMain; decide) (by decide) (by decide +kernel) rfl).1 rfl (by decide)

end Gth

/-
  Condition variables lose no signal and wake nobody else.

  The queue of a condition variable holds exactly the threads suspended in the wait on it
  (`WaitMap.AgreeAt`; the other objects may be set up anew at any time).  Its order is that of the
  releases: `gth_cond_wait` releases the mutex and queues up in one code segment, so an entry that
  is appended belongs to the newest release in the history (`Ordered.step`).  A signal takes the
  head, a broadcast all, and no other call wakes a thread that waits here.
-/
import Gthreads.MutexWake

namespace Gth

/-! ## When a thread released its mutex -/

/-- Who released a mutex in a wait on `c`. -/
def Obs.releases (c : Addr) : Obs → Option Tid
  | .condRelease tid c' _ => if c' = c then some tid else none
  | _ => none

/-- The length of the history after the newest release by thread `u` in a wait on `c`; 0 without
    one.  The history has the newest observation first. -/
def releaseTime (c : Addr) (u : Tid) : List Obs → Nat
  | [] => 0
  | o :: h => if o.releases c = some u then h.length + 1 else releaseTime c u h

theorem releaseTime_le (c : Addr) (u : Tid) : ∀ h, releaseTime c u h ≤ h.length
  | [] => Nat.le_refl 0
  | o :: h => by
    unfold releaseTime
    split
    · exact Nat.le_refl _
    · exact Nat.le_succ_of_le (releaseTime_le c u h)

theorem releaseTime_hit {c : Addr} {u : Tid} {o : Obs} (h : List Obs)
    (ho : o.releases c = some u) : releaseTime c u (o :: h) = h.length + 1 := if_pos ho

theorem releaseTime_skip {c : Addr} {u : Tid} {o : Obs} (h : List Obs)
    (ho : o.releases c ≠ some u) : releaseTime c u (o :: h) = releaseTime c u h := if_neg ho

/-- Observations that are no releases. -/
def NoRelease (c : Addr) (os : List Obs) : Bool := os.all fun o => (o.releases c).isNone

theorem releaseTime_append {c : Addr} {os : List Obs} (hos : NoRelease c os = true) (u : Tid)
    (h : List Obs) : releaseTime c u (os ++ h) = releaseTime c u h := by
  induction os with
  | nil => rfl
  | cons o os ih =>
    obtain ⟨ho, hos⟩ := Bool.and_eq_true_iff.mp hos
    have hnone : o.releases c = none := Option.isNone_iff_eq_none.mp ho
    rw [List.cons_append, releaseTime_skip _ (by rw [hnone]; nofun), ih hos]

namespace Kernel

/-! ## What a transition does to a condition variable -/

/-- What a transition can do to the queue of `c`. -/
inductive CondMove (c : Addr) (s t : Kernel) : Prop where
  | none : t.queue (.cond c) = s.queue (.cond c) →
      (∀ u, releaseTime c u t.hist = releaseTime c u s.hist) → CondMove c s t
  | pop : t.queue (.cond c) = (s.queue (.cond c)).tail →
      (∀ u, releaseTime c u t.hist = releaseTime c u s.hist) → CondMove c s t
  | empty : t.queue (.cond c) = [] → CondMove c s t
  | wait (i : Slot) (m : Addr) (k : Option Kont) : s.cpu = .user (.green i) →
      t.queue (.cond c) = s.queue (.cond c) ++ [(i : Nat)] →
      (t.threads i).tid = (s.threads i).tid →
      t.hist = .leave (.green i) k :: .condRelease (s.threads i).tid c m :: s.hist →
      CondMove c s t

section
variable {c : Addr} {s t : Kernel} {l : Option (Ctx × Call)}

/-- Nothing happens to `c`, and nobody releases a mutex to wait for it. -/
theorem CondMove.keep (os : List Obs) (hq : t.queue (.cond c) = s.queue (.cond c))
    (hh : t.hist = os ++ s.hist) (hos : NoRelease c os = true) : CondMove c s t := by
  refine .none hq fun u => ?_
  rw [hh, releaseTime_append hos]

/-- A wake-up at another object. -/
theorem queue_wake_cond {o : Obj} {q : List Nat} (ho : o ≠ .cond c) (hq : s.queue (.cond c) = q) :
    (s.wake o).queue (.cond c) = q := by
  rw [queue_wake, Function.update_of_ne ho.symm, hq]

theorem obj_cond_ne {c' : Addr} (hc : ¬ c = c') : Obj.cond c ≠ .cond c' :=
  fun e => hc (Obj.cond.inj e)

theorem MutexStep.cond_cases (hstep : MutexStep s l t) (c : Addr) : CondMove c s t := by
  cases hstep with
  | unlock x m _ _ _ _ =>
    exact .keep [_] (queue_wake_cond (by nofun) rfl)
      (congrArg (List.cons _) (woken_wake (s.setMutex m _) (.mutex m)).hist) rfl
  | _ => exact .keep [_] rfl rfl rfl

theorem SemStep.cond_cases (hstep : SemStep s l t) (c : Addr) : CondMove c s t := by
  cases hstep with
  | take x a _ _ _ => exact .keep [_, _] rfl rfl rfl
  | block i a k _ _ _ _ => exact .keep [_, _] rfl rfl rfl
  | wake x a n q _ _ _ =>
    exact .keep [_, .semWake (s.tidAt n) a] (queue_wake_cond (by nofun) rfl)
      (congrArg (List.cons _) (woken_wake (s.log _) (.sem a)).hist) rfl
  | _ => exact .keep [_] rfl rfl rfl

theorem CondStep.cond_cases (hstep : CondStep s l t) (hok : s.Ok)
    (hsound : WaitMap.Sound s.waiting s.queue) (c : Addr) : CondMove c s t := by
  cases hstep with
  | init x c' _ =>
    by_cases hc : c = c'
    · subst hc
      exact .empty (Function.update_self _ _ _)
    · exact .keep [_] (Function.update_of_ne (obj_cond_ne hc) _ _) rfl rfl
  | block i c' m k hcpu _ _ _ _ _ =>
    have hwoken := woken_wake ((s.setMutex m { s.mutex m with locked := 0, owner := 0 }).wait i
      (.cond c') (.condWait c' m)) (.mutex m)
    have hhist := congrArg (fun h => Obs.leave (.green i) (some k) ::
      .condRelease (s.threads i).tid c' m :: h) hwoken.hist
    by_cases hc : c = c'
    · subst hc
      refine .wait i m (some k) hcpu (queue_wake_cond (by nofun) (Function.update_self _ _ _)) ?_ hhist
      refine (hwoken.tid i).trans ?_
      show (Function.update s.threads i { s.threads i with
        state := .blocked, ctx := some ⟨.green i, .condWait c m⟩ } i).tid = (s.threads i).tid
      rw [Function.update_self]
    · refine .keep [.leave (.green i) (some k), .condRelease (s.threads i).tid c' m]
        (queue_wake_cond (by nofun) (Function.update_of_ne (obj_cond_ne hc) _ _)) hhist ?_
      show ((if c' = c then some (s.threads i).tid else none).isNone && true) = true
      rw [if_neg (Ne.symm hc)]
      rfl
  | fail i c' m st hcpu _ =>
    refine .keep [_] ?_ rfl rfl
    show Function.update s.queue (.cond c') _ (.cond c) = _
    by_cases hc : c = c'
    · subst hc
      have hnone : s.waiting i = none := by
        rw [waiting_slot, waitsFor_none (hok.user_ne_blocked hcpu)]
      rw [Function.update_self, List.erase_append_right _ (hsound.notMem hnone (.cond c)),
        List.erase_cons_head, List.append_nil]
    · exact Function.update_of_ne (obj_cond_ne hc) _ _
  | signal x c' _ =>
    have hhist : ∀ u, releaseTime c u ((s.wake (.cond c')).ret x (.condSignal c') ⟨.ok, []⟩).hist
        = releaseTime c u s.hist := by
      intro u
      refine (releaseTime_skip _ (by nofun)).trans ?_
      rw [(woken_wake s (.cond c')).hist]
    have hqueue := congrFun (queue_wake s (.cond c')) (.cond c)
    by_cases hc : c = c'
    · subst hc
      exact .pop (hqueue.trans (Function.update_self _ _ _)) hhist
    · exact .none (hqueue.trans (Function.update_of_ne (obj_cond_ne hc) _ _)) hhist
  | broadcast x c' _ =>
    have hqueue := congrFun (queue_wakes (.cond c') (s.queue (.cond c')).length s) (.cond c)
    by_cases hc : c = c'
    · subst hc
      rw [Function.update_self, List.drop_length] at hqueue
      exact .empty hqueue
    · rw [Function.update_of_ne (obj_cond_ne hc)] at hqueue
      refine .none hqueue fun u => (releaseTime_skip _ (by nofun)).trans ?_
      rw [(woken_wakes (.cond c') _ s).hist]
  | destroy x c' _ _ =>
    by_cases hc : c = c'
    · subst hc
      exact .empty (Function.update_self _ _ _)
    · exact .keep [_] (Function.update_of_ne (obj_cond_ne hc) _ _) rfl rfl

/-- **Inversion for one condition variable.** -/
theorem Step.cond_cases (hstep : Step s l t) (hok : s.Ok)
    (hsound : WaitMap.Sound s.waiting s.queue) (c : Addr) : CondMove c s t := by
  cases hstep with
  | thread hstep =>
    cases hstep with
    | schedule caller _ => exact .keep [] rfl rfl rfl
    | _ => exact .keep [_] rfl rfl rfl
  | sched hstep =>
    cases hstep with
    | backYield act _ => exact .keep [_, _] rfl rfl rfl
    | backRelease act tid out i _ _ _ => exact .keep [_, _] rfl rfl rfl
    | start i _ => exact .keep [] rfl rfl rfl
    | _ => exact .keep [_] rfl rfl rfl
  | mutex hstep => exact hstep.cond_cases c
  | sem hstep => exact hstep.cond_cases c
  | cond hstep => exact hstep.cond_cases hok hsound c

/-! ## The queue is ordered by the releases -/

/-- When the waiters for `c`, in the order of the queue, released their mutexes. -/
def releaseTimes (c : Addr) (s : Kernel) : List Nat :=
  (s.queue (.cond c)).map fun n => releaseTime c (s.tidAt n) s.hist

/-- Every waiter has released its mutex, the first in the queue first. -/
def Ordered (c : Addr) (s : Kernel) : Prop := (0 :: s.releaseTimes c).Pairwise (· < ·)

/-- Tids of queued threads do not change. -/
theorem releaseTimes_eq (hsound : WaitMap.Sound s.waiting s.queue)
    (hmove : ∀ j, ThreadMove s l t j)
    (hh : ∀ u, releaseTime c u t.hist = releaseTime c u s.hist) {q : List Nat}
    (hq : ∀ n ∈ q, n ∈ s.queue (.cond c)) :
    (q.map fun n => releaseTime c (t.tidAt n) t.hist)
      = q.map fun n => releaseTime c (s.tidAt n) s.hist := by
  refine List.map_congr_left fun n hn => ?_
  rw [hh, tidAt_queue hsound hmove (hq n hn)]

/-- The caller joins with the newest release. -/
theorem releaseTimes_wait (hok : s.Ok) (hsound : WaitMap.Sound s.waiting s.queue)
    (hmove : ∀ j, ThreadMove s l t j) {i : Slot} {m : Addr} {k : Option Kont}
    (hcpu : s.cpu = .user (.green i))
    (hq : t.queue (.cond c) = s.queue (.cond c) ++ [(i : Nat)])
    (htid : (t.threads i).tid = (s.threads i).tid)
    (hh : t.hist = .leave (.green i) k :: .condRelease (s.threads i).tid c m :: s.hist) :
    t.releaseTimes c = s.releaseTimes c ++ [s.hist.length + 1] := by
  have hobs : (Obs.condRelease (s.threads i).tid c m).releases c = some (s.threads i).tid :=
    if_pos rfl
  unfold releaseTimes
  rw [hq, List.map_append, List.map_singleton]
  congr 1
  · refine List.map_congr_left fun n hn => ?_
    rw [tidAt_queue hsound hmove hn, hh, releaseTime_skip _ (by nofun), releaseTime_skip]
    rw [hobs]
    intro e
    obtain ⟨j, rfl, hst, -⟩ := waiting_some (hsound.waits _ n hn)
    have hne : (s.threads i).state ≠ .empty := by
      rcases hok.user i hcpu with h | h <;> rw [h] <;> nofun
    have hij : i = j := hok.tid_inj i j hne (by rw [hst]; nofun)
      ((Option.some.inj e).trans (tidAt_slot s j))
    subst hij
    exact hok.user_ne_blocked hcpu hst
  · rw [tidAt_slot, htid, hh, releaseTime_skip _ (by nofun), releaseTime_hit _ hobs]

/-- **One step** keeps the order. -/
theorem Ordered.step (h : Ordered c s) (hok : s.Ok) (hsound : WaitMap.Sound s.waiting s.queue)
    (hstep : Step s l t) : Ordered c t := by
  have hmove := hstep.thread_cases
  unfold Ordered
  cases hstep.cond_cases hok hsound c with
  | none hq hh =>
    have ht : t.releaseTimes c = s.releaseTimes c := by
      unfold releaseTimes
      rw [hq, releaseTimes_eq hsound hmove hh fun _ => id]
    rw [ht]
    exact h
  | pop hq hh =>
    have ht : t.releaseTimes c = (s.releaseTimes c).tail := by
      unfold releaseTimes
      rw [hq, releaseTimes_eq hsound hmove hh fun _ => List.mem_of_mem_tail, List.map_tail]
    rw [ht]
    exact h.sublist ((List.tail_sublist _).cons_cons 0)
  | empty hq =>
    unfold releaseTimes
    rw [hq]
    exact List.pairwise_singleton _ 0
  | wait i m k hcpu hq htid hh =>
    rw [releaseTimes_wait hok hsound hmove hcpu hq htid hh, ← List.cons_append,
      List.pairwise_append]
    refine ⟨h, List.pairwise_singleton _ _, fun a ha b hb => ?_⟩
    rw [List.mem_singleton.mp hb]
    rcases List.mem_cons.mp ha with rfl | ha
    · exact Nat.succ_pos _
    · obtain ⟨n, -, rfl⟩ := List.mem_map.mp ha
      exact Nat.lt_succ_of_le (releaseTime_le _ _ _)

/-! ## The invariant -/

/-- What a run may do with the condition variable `c`: initialise it once, never destroy it; and
    it cancels no thread. -/
def OnceCond (c : Addr) (initialized : Nat) (call : Call) : Prop :=
  call.isCancel = false ∧ (call.inits = some (.cond c) → initialized = 0) ∧ call ≠ .condDestroy c

instance (c : Addr) (initialized : Nat) (call : Call) :
    Decidable (OnceCond c initialized call) := inferInstanceAs (Decidable (_ ∧ _ ∧ _))

/-- The queue of `c` is that of the threads that wait for `c`, in the order of their releases. -/
structure CondOk (c : Addr) (s : Kernel) : Prop where
  agree : WaitMap.AgreeAt (.cond c) s.waiting s.queue
  closed : s.Closed
  ordered : Ordered c s

theorem condOk_inv (c : Addr) : Inv (CondOk c) (fun s _ call => OnceCond c (s.cond c) call) := by
  intro s l t hok hok' hstep hG h
  refine ⟨hstep.stable (WaitMap.stable_agreeAt (Obj.cond c)) hok (fun x tid i hl hfind => ?_)
      (fun x call o hl ho => ?_) h.agree,
    closed_inv s l t hok hok' hstep (fun _ _ _ => trivial) h.closed,
    h.ordered.step hok h.agree.toSound hstep⟩
  · rw [waiting_spared (fun x call hl => sparesBlocked_of_not_cancel (hG x call hl).1) hl hfind]
    exact h.agree
  · by_cases hoc : o = .cond c
    · -- it is initialised once, so its queue is empty
      subst hoc
      rw [← h.closed (.cond c) ((hG x call hl).2.1 ho), Function.update_eq_self]
      exact h.agree
    · exact h.agree.clear (Ne.symm hoc)

theorem condOk_initial (c : Addr) : CondOk c initial where
  agree := ⟨agree_initial.toSound, agree_initial.queued (.cond c)⟩
  closed := fun _ _ => rfl
  ordered := List.pairwise_singleton _ 0

/-! ## Waking everybody -/

/-- `wakes` as often as there are waiters wakes all of them, and nobody else. -/
theorem wakes_all (o : Obj) : ∀ (q : List Nat) (s : Kernel), WaitMap.Sound s.waiting s.queue →
    s.queue o = q → ∀ j : Slot, (s.wakes o q.length).threads j
      = if (j : Nat) ∈ q then { s.threads j with state := .ready } else s.threads j
  | [], _, _, _, _ => rfl
  | n :: q, s, hsound, hq, j => by
    obtain ⟨i, rfl, hst, -⟩ := waiting_some (hsound.waits o n (hq ▸ List.mem_cons_self))
    have htail : (s.wake o).queue o = q := by
      rw [queue_wake, Function.update_self, hq, List.tail_cons]
    have hwake : (s.wake o).threads
        = Function.update s.threads i { s.threads i with state := .ready } := by
      rw [wake_cons hq, unblock_blocked (s := s.setQueue o q) hst]
      rfl
    have ih := wakes_all o q (s.wake o) (stable_wake WaitMap.stable_sound hsound o) htail j
    rw [List.length_cons, wakes, ih, hwake]
    by_cases hj : j = i
    · subst hj
      rw [Function.update_self, if_pos List.mem_cons_self, ite_self]
    · have hmem : (j : Nat) ∈ (i : Nat) :: q ↔ (j : Nat) ∈ q := by
        rw [List.mem_cons, or_iff_right fun e => hj (Fin.ext e)]
      rw [Function.update_of_ne hj]
      simp only [hmem]

end
end Kernel
namespace Core
variable {s t : Core} {x : Ctx} {c : Addr}

/-! ## The calls -/

/-- `gth_cond_signal` wakes the first waiter. -/
theorem condSignal_eq (hinit : s.initialized = true) (hq : s.QueuesWf) (hc : c ≠ 0)
    (hi : (s.conds c).initialized ≠ 0) :
    (s.condSignal c).1 = .ok ∧ (s.condSignal c).2.kernel = s.kernel.wake (.cond c) := by
  unfold condSignal
  rw [if_neg hc, if_neg hi]
  cases hempty : (s.conds c).wq.wqIsEmpty with
  | true => exact ⟨rfl, (Kernel.wake_nil ((WaitQueue.wqIsEmpty_iff _).mp hempty)).symm⟩
  | false =>
    refine ⟨rfl, ?_⟩
    rw [if_pos rfl, ← kernel_popCond (hq.cond c) hempty]
    exact kernel_wakeWaiter (s := s.setCond c _) hinit _ _

/-- The loop of `gth_cond_broadcast` counts the waiters. -/
theorem broadcastLoop_count : ∀ (q : List Nat) (s : Core) (wakeCount : Nat),
    s.initialized = true → s.QueuesWf → s.queue (.cond c) = q → (∀ n ∈ q, n < 128) →
    (s.broadcastLoop c wakeCount q.length).1 = wakeCount + q.length
  | [], _, _, _, _, _, _ => rfl
  | n :: q, s, wakeCount, hinit, hwf, hqueue, hlt => by
    have hempty : (s.conds c).wq.wqIsEmpty = false := by
      rw [← Bool.not_eq_true, WaitQueue.wqIsEmpty_iff]
      intro hnil
      rw [show s.queue (.cond c) = [] from hnil] at hqueue
      nomatch hqueue
    have hpop : (s.conds c).wq.wqDequeue.1 = n ∧ (s.conds c).wq.wqDequeue.2.toList = q :=
      List.cons.inj ((WaitQueue.toList_wqDequeue (hwf.cond c) hempty).symm.trans hqueue)
    have hslot : (s.conds c).wq.wqDequeue.1 ≠ 0xFF := by
      have := hlt n List.mem_cons_self
      rw [hpop.1]
      omega
    have hwf' := hwf.setCond c (o := { s.conds c with wq := (s.conds c).wq.wqDequeue.2 })
      (WaitQueue.wf_wqDequeue (hwf.cond c))
    have hinit' := congrArg Prod.fst
      ((s.setCond c { s.conds c with
        wq := (s.conds c).wq.wqDequeue.2 }).threadUnblockSlot_fixed (s.conds c).wq.wqDequeue.1)
    have hqueue' : ((s.setCond c { s.conds c with
        wq := (s.conds c).wq.wqDequeue.2 }).threadUnblockSlot
          (s.conds c).wq.wqDequeue.1).2.queue (.cond c) = q := by
      have hk := congrArg (fun K : Kernel => K.queue (.cond c))
        (kernel_threadUnblockSlot (s := s.setCond c { s.conds c with
          wq := (s.conds c).wq.wqDequeue.2 }) hinit (s.conds c).wq.wqDequeue.1)
      refine hk.trans ?_
      rw [kernel_popCond (hwf.cond c) hempty, Kernel.queue_wake, Function.update_self]
      exact congrArg List.tail hqueue
    rw [List.length_cons, broadcastLoop, if_pos hempty]
    dsimp only
    rw [if_pos hslot, broadcastLoop_count q _ _ (hinit'.trans hinit)
      (hwf'.threadUnblockSlot hinit _) hqueue' fun k hk => hlt k (List.mem_cons_of_mem _ hk)]
    omega

/-- Nor does it touch the current thread. -/
theorem broadcastLoop_threadSelf (hinit : s.initialized = true) (wakeCount fuel : Nat) :
    (s.broadcastLoop c wakeCount fuel).2.threadSelf = s.threadSelf := by
  have h := broadcastLoop_inv (c := c)
    (I := fun t => t.initialized = true ∧ t.currentTid = s.currentTid) ?_ fuel s wakeCount
    ⟨hinit, rfl⟩
  · unfold threadSelf
    rw [h.1, h.2, hinit]
  · intro t ht _
    rcases threadUnblockSlot_cases (s := t.setCond c { t.conds c with
      wq := (t.conds c).wq.wqDequeue.2 }) ht.1 (t.conds c).wq.wqDequeue.1 with
      ⟨-, hw⟩ | ⟨i, -, -, hw⟩
    · rw [hw]
      exact ht
    · rw [hw]
      exact ht

/-- `gth_cond_broadcast` wakes all waiters and reports their number. -/
theorem condBroadcast_eq (hinit : s.initialized = true) (hq : s.QueuesWf) (hc : c ≠ 0)
    (hi : (s.conds c).initialized ≠ 0) (hlt : ∀ n ∈ s.queue (.cond c), n < 128) :
    (s.condBroadcast c).1 = .ok ∧
    (s.condBroadcast c).2.kernel = s.kernel.wakes (.cond c) (s.queue (.cond c)).length ∧
    (s.condBroadcast c).2.events.getLast?
      = some (traceCondBroadcast s.threadSelf c (s.queue (.cond c)).length) := by
  have hlen : (s.conds c).wq.count = (s.queue (.cond c)).length :=
    (WaitQueue.length_toList _).symm
  have hcount := broadcastLoop_count (c := c) _ s 0 hinit hq rfl hlt
  unfold condBroadcast
  rw [if_neg hc, if_neg hi, hlen]
  refine ⟨rfl, (kernel_broadcastLoop _ s 0 hinit hq).1, ?_⟩
  dsimp only [emit]
  rw [List.getLast?_concat, broadcastLoop_threadSelf hinit, hcount, Nat.zero_add]

/-- A signal or broadcast without waiters changes nothing. -/
theorem exec_nobody (hcpu : s.cpu = .user x) (hnil : s.queue (.cond c) = []) {call : Call}
    (hcall : call = .condSignal c ∨ call = .condBroadcast c) :
    s.exec x call
      = { s with events := (s.exec x call).events, hist := (s.exec x call).hist } := by
  have hret : ∀ (st : Status) (es : List Event), done x call (st, { s with events := es })
      = { s with events := (done x call (st, { s with events := es })).events
                 hist := (done x call (st, { s with events := es })).hist } := by
    intro st es
    cases x <;> simp only [done, ret, hcpu]
  rcases hcall with rfl | rfl
  · show done x (.condSignal c) (s.condSignal c) = _
    rcases condSignal_cases (s := s) c with ⟨st, -, hs⟩ | ⟨-, hs⟩ | ⟨-, hne, -, -⟩
    · rw [exec, hs]
      exact hret st s.events
    · rw [exec, hs]
      exact hret .ok s.events
    · rw [(WaitQueue.wqIsEmpty_iff _).mpr hnil] at hne
      cases hne
  · show done x (.condBroadcast c) (s.condBroadcast c) = _
    rcases condBroadcast_cases (s := s) c with ⟨st, -, hs⟩ | ⟨-, e, hs⟩
    · rw [exec, hs]
      exact hret st s.events
    · have hcount : (s.conds c).wq.count = 0 := by
        rw [← WaitQueue.length_toList, show (s.conds c).wq.toList = [] from hnil, List.length_nil]
      rw [hcount] at hs
      rw [exec, hs]
      exact hret .ok (s.events ++ [e])

/-! ## The queue and the waits -/

/-- The thread of slot `i` is suspended in the wait on `c`. -/
def WaitsOn (s : Core) (c : Addr) (i : Slot) : Prop :=
  (s.threads i).state = .blocked ∧ ∃ m, (s.threads i).ctx = some ⟨.green i, .condWait c m⟩

/-- **The threads suspended in the wait on `c` are a queue**, first come first served. -/
structure CondQueue (c : Addr) (s : Core) : Prop where
  waits : ∀ n ∈ s.queue (.cond c), ∃ i : Slot, (i : Nat) = n ∧ s.WaitsOn c i
  queued : ∀ i, s.WaitsOn c i → (i : Nat) ∈ s.queue (.cond c)
  once : (s.queue (.cond c)).Nodup
  /-- The times at which the waiters released their mutexes increase along the queue. -/
  fifo : (s.kernel.releaseTimes c).Pairwise (· < ·)

theorem waitsOn_of_waiting (h : s.WF) {i : Slot} (hi : s.kernel.waiting i = some (.cond c)) :
    s.WaitsOn c i := by
  obtain ⟨j, hj, hst, k, hctx, hk⟩ := Kernel.waiting_some hi
  obtain rfl : j = i := Fin.ext hj
  refine ⟨hst, ?_⟩
  obtain ⟨f, hf, -, -⟩ := h.body.parked j (Or.inr hst)
  obtain rfl : k = ⟨.green j, f⟩ := Option.some.inj (hctx.symm.trans hf)
  cases f with
  | condWait c' m =>
    obtain rfl : c' = c := Obj.cond.inj (Option.some.inj hk)
    exact ⟨m, hf⟩
  | _ => nomatch hk

theorem WaitsOn.waiting {i : Slot} (h : s.WaitsOn c i) : s.kernel.waiting i = some (.cond c) := by
  obtain ⟨hst, m, hctx⟩ := h
  rw [Kernel.waiting_slot]
  show (s.threads i).waitsFor = some (.cond c)
  unfold ThreadRecord.waitsFor
  rw [if_pos hst, hctx]
  rfl

theorem WF.condQueue (h : s.WF) (hok : Kernel.CondOk c s.kernel) : CondQueue c s where
  waits := fun n hn => by
    have hw := hok.agree.waits (.cond c) n hn
    obtain ⟨i, rfl, -, -⟩ := Kernel.waiting_some hw
    exact ⟨i, rfl, waitsOn_of_waiting h hw⟩
  queued := fun i hi => hok.agree.queued i hi.waiting
  once := hok.agree.nodup (.cond c)
  fifo := (List.pairwise_cons.mp hok.ordered).2

/-- What a step may do to the threads suspended in the wait on `c`. -/
structure CondStep (c : Addr) (s : Core) (l : Label) (t : Core) : Prop where
  /-- A signal makes the first thread in the queue `READY`, and changes no other record. -/
  signal : ∀ x (i : Slot) q, l = .call x (.condSignal c) → s.queue (.cond c) = (i : Nat) :: q →
    t.queue (.cond c) = q ∧
    t.threads = Function.update s.threads i { s.threads i with state := .ready }
  /-- A broadcast makes all of them `READY`, changes no other record, and reports their number. -/
  broadcast : ∀ x, l = .call x (.condBroadcast c) → (s.conds c).initialized ≠ 0 →
    t.queue (.cond c) = [] ∧
    (∀ j, s.WaitsOn c j → t.threads j = { s.threads j with state := .ready }) ∧
    (∀ j, ¬ s.WaitsOn c j → t.threads j = s.threads j) ∧
    t.events.getLast? = some (traceCondBroadcast s.threadSelf c (s.queue (.cond c)).length)
  /-- Without waiters nothing changes but the history and the instrumentation. -/
  nobody : ∀ x call, l = .call x call → call = .condSignal c ∨ call = .condBroadcast c →
    s.queue (.cond c) = [] → t = { s with events := t.events, hist := t.hist }
  /-- Nothing else ends a wait. -/
  only : ∀ i, s.WaitsOn c i → t.WaitsOn c i ∨
    (t.threads i).state = .ready ∧ ∃ x, l = .call x (.condBroadcast c) ∨
      l = .call x (.condSignal c) ∧ (s.queue (.cond c)).head? = some (i : Nat)

/-- A signal, one step. -/
theorem WF.signal_step (h : s.WF) (hq : s.QueuesWf) (hok : Kernel.CondOk c s.kernel) (hc : c ≠ 0)
    {i : Slot} {q : List Nat} (hqueue : s.queue (.cond c) = (i : Nat) :: q) :
    (s.exec x (.condSignal c)).queue (.cond c) = q ∧
    (s.exec x (.condSignal c)).threads
      = Function.update s.threads i { s.threads i with state := .ready } := by
  have hi : (s.conds c).initialized ≠ 0 := by
    intro h0
    have hnil : s.queue (.cond c) = [] := hok.closed (.cond c) h0
    rw [hnil] at hqueue
    nomatch hqueue
  have hmem : (i : Nat) ∈ s.queue (.cond c) := hqueue ▸ List.mem_cons_self
  have hblocked := (waitsOn_of_waiting h (hok.agree.waits (.cond c) i hmem)).1
  have hwake := (condSignal_eq h.body.init hq hc hi).2
  have hkernel : s.kernel.wake (.cond c) = (s.kernel.setQueue (.cond c) q).setState i .ready := by
    rw [Kernel.wake_cons (s := s.kernel) (o := .cond c) hqueue,
      Kernel.unblock_blocked (s := s.kernel.setQueue (.cond c) q) hblocked]
  rw [hkernel] at hwake
  refine ⟨(congrArg (fun K : Kernel => K.queue (.cond c)) hwake).trans ?_,
    congrArg Kernel.threads hwake⟩
  exact Function.update_self (Obj.cond c) q s.queue

/-- A broadcast, one step. -/
theorem WF.broadcast_step (h : s.WF) (hq : s.QueuesWf) (hok : Kernel.CondOk c s.kernel)
    (hc : c ≠ 0) (hi : (s.conds c).initialized ≠ 0) :
    (s.exec x (.condBroadcast c)).queue (.cond c) = [] ∧
    (∀ j, s.WaitsOn c j →
      (s.exec x (.condBroadcast c)).threads j = { s.threads j with state := .ready }) ∧
    (∀ j, ¬ s.WaitsOn c j → (s.exec x (.condBroadcast c)).threads j = s.threads j) ∧
    (s.exec x (.condBroadcast c)).events.getLast?
      = some (traceCondBroadcast s.threadSelf c (s.queue (.cond c)).length) := by
  have hqueue := h.condQueue hok
  have hlt : ∀ n ∈ s.queue (.cond c), n < 128 := by
    intro n hn
    obtain ⟨i, rfl, -⟩ := hqueue.waits n hn
    exact i.isLt
  obtain ⟨-, hkernel, hevents⟩ := condBroadcast_eq h.body.init hq hc hi hlt
  have hthreads : ∀ j : Slot, (s.exec x (.condBroadcast c)).threads j
      = if (j : Nat) ∈ s.queue (.cond c) then { s.threads j with state := .ready }
        else s.threads j := fun j =>
    (congrArg (fun K : Kernel => K.threads j) hkernel).trans
      (Kernel.wakes_all (.cond c) _ s.kernel hok.agree.toSound rfl j)
  refine ⟨(congrArg (fun K : Kernel => K.queue (.cond c)) hkernel).trans ?_, fun j hj => ?_,
    fun j hj => ?_, hevents⟩
  · rw [Kernel.queue_wakes, Function.update_self]
    exact List.drop_length
  · rw [hthreads j, if_pos (hqueue.queued j hj)]
  · rw [hthreads j, if_neg fun hmem => hj ?_]
    obtain ⟨i, hij, hw⟩ := hqueue.waits j hmem
    obtain rfl : i = j := Fin.ext hij
    exact hw

/-- A transition ends a wait on `c` by a wake-up, if it cancels nobody. -/
theorem WF.wait_step {t : Core} {l : Option (Ctx × Call)} (h : s.WF)
    (hok : Kernel.CondOk c s.kernel) (hstep : Kernel.Step s.kernel l t.kernel)
    (hcancel : ∀ x call, l = some (x, call) → call.isCancel = false) {i : Slot}
    (hi : s.WaitsOn c i) : t.WaitsOn c i ∨
    (t.threads i).state = .ready ∧ ∃ x, l = some (x, .condBroadcast c) ∨
      l = some (x, .condSignal c) ∧ (s.queue (.cond c)).head? = some (i : Nat) := by
  have hoff : ¬ s.kernel.OnCpu i := by
    intro hon
    rcases h.kernel_ok.onCpu hon with hs | hs <;> nomatch hi.1.symm.trans hs
  have hmem : (i : Nat) ∈ s.kernel.queue (.cond c) := hok.agree.queued i hi.waiting
  cases hstep.thread_cases i with
  | same ht _ =>
    have ht : t.threads i = s.threads i := ht
    unfold WaitsOn
    rw [ht]
    exact Or.inl hi
  | woken x call o hl hwakes hmem' hhead _ ht _ =>
    obtain rfl : o = .cond c := hok.agree.unique hmem' hmem
    have ht : t.threads i = { s.threads i with state := .ready } := ht
    refine Or.inr ⟨by rw [ht], x, ?_⟩
    cases call with
    | condSignal c' =>
      obtain rfl : c' = c := Obj.cond.inj (Option.some.inj hwakes)
      exact Or.inr ⟨hl, hhead fun _ => by nofun⟩
    | condBroadcast c' =>
      obtain rfl : c' = c := Obj.cond.inj (Option.some.inj hwakes)
      exact Or.inl hl
    | _ => nomatch hwakes
  | dispatched _ _ hs _ _ _ => nomatch hi.1.symm.trans hs
  | yielded _ hon _ _ => exact absurd hon hoff
  | blocked _ _ _ _ hon _ _ _ => exact absurd hon hoff
  | passed _ _ _ hon _ _ _ => exact absurd hon hoff
  | restored _ _ _ hon _ _ => exact absurd hon hoff
  | exited _ _ hon _ _ _ => exact absurd hon hoff
  | canceled x tid hl _ _ _ _ => nomatch hcancel x _ hl
  | released hterm _ _ =>
    have hst : (s.kernel.threads i).state = .blocked := hi.1
    rw [hst] at hterm
    nomatch hterm
  | created hs _ _ => nomatch hi.1.symm.trans hs

end Core

/-! ## Runs of the code -/

/-- **Condition variables lose no signal and wake nobody else**, in every run without
    `gth_thread_cancel` that initialises `c` once and does not destroy it: wherever it leads, the
    threads suspended in the wait on `c` are a queue in the order of their releases, and every
    step from there treats them as signals and broadcasts should.  As for the other objects,
    creations are bounded so that a tid leads to one slot. -/
theorem cond_fifo (W : World) (config : ValidConfig) (pageSize : BitVec 64)
    (files : Path → Option (List UInt8)) (c : Addr) (hc : c ≠ 0) (ls : List Label) (s : State)
    (hjoin : JoinsFromMain ls) (hcreates : creates ls < 2 ^ 64)
    (honce : Exec.Along (State.step W)
      (State.OnCalls fun t _ call => Kernel.OnceCond c (t.conds c).initialized call)
      (State.start config pageSize files) ls)
    (hrun : Exec.exec (State.step W) (State.start config pageSize files) ls = some s) :
    Core.CondQueue c s.core ∧
    ∀ l u, l.joinsFromMain = true →
      State.OnCalls (fun t _ call => Kernel.OnceCond c (t.conds c).initialized call) s l →
      State.step W s l = some u → Core.CondStep c s.core l u.core := by
  obtain ⟨hwf, hqueues, hok⟩ := (Kernel.condOk_inv c).reach (Kernel.condOk_initial c) hjoin
    hcreates honce hrun
  refine ⟨hwf.condQueue hok, fun l u hl hG hstep => ?_⟩
  -- the calls start from the same state without the events of the last step
  have hfresh : s.fresh.WF := ⟨hwf.body, hwf.cpu⟩
  have hqueues' : s.fresh.QueuesWf := ⟨hqueues.mutex, hqueues.sem, hqueues.cond, hqueues.closed⟩
  have hok' : Kernel.CondOk c s.fresh.kernel := hok
  have hexec : ∀ x call, l = .call x call → s.core.cpu = .user x ∧
      u.core = s.fresh.exec x call := by
    rintro x call rfl
    exact State.step_call_inv hstep
  constructor
  · intro x i q hcall hqueue
    rw [(hexec x _ hcall).2]
    exact hfresh.signal_step hqueues' hok' hc hqueue
  · intro x hcall hi
    rw [(hexec x _ hcall).2]
    exact hfresh.broadcast_step hqueues' hok' hc hi
  · intro x call hcall hd hnil
    obtain ⟨hcpu, hu⟩ := hexec x call hcall
    rw [hu]
    exact Core.exec_nobody (s := s.fresh) hcpu hnil hd
  · intro i hi
    have hcancel : ∀ x call, Kernel.callOf l = some (x, call) → call.isCancel = false :=
      fun x call hcall => (hG x call (Kernel.callOf_some hcall)).1
    rcases Kernel.step_refines hwf hqueues hl hstep with hsame | hkernel
    · refine Or.inl ?_
      unfold Core.WaitsOn
      rw [show u.core.threads = s.core.threads from congrArg Kernel.threads hsame]
      exact hi
    · rcases hwf.wait_step hok hkernel hcancel hi with hw | ⟨hready, x, hb | ⟨hs, hhead⟩⟩
      · exact Or.inl hw
      · exact Or.inr ⟨hready, x, Or.inl (Kernel.callOf_some hb)⟩
      · exact Or.inr ⟨hready, x, Or.inr ⟨Kernel.callOf_some hs, hhead⟩⟩

/-- Two threads wait on condition variable 1, each with a mutex of its own. -/
def condRun : List Label :=
  [Sample.main (.condInit 1), Sample.main (.mutexInit 1), Sample.main (.mutexInit 2),
    Sample.main Sample.create, Sample.main Sample.create, Sample.main .yield, .tau, .tau,
    Sample.green 0 (.mutexLock 1), Sample.green 0 (.condWait 1 1), .tau, Sample.main .yield, .tau,
    .tau, Sample.green 1 (.mutexLock 2), Sample.green 1 (.condWait 1 2), .tau]

/-- Non-vacuous: both threads are in the queue, and a signal wakes the first. -/
theorem cond_fifo_signal : ∃ s u,
    Exec.exec (State.step Sample.world) Sample.start condRun = some s ∧
      s.core.queue (.cond 1) = [0, 1] ∧ Core.CondQueue 1 s.core ∧
      State.step Sample.world s (Sample.main (.condSignal 1)) = some u ∧
      Core.CondStep 1 s.core (Sample.main (.condSignal 1)) u.core ∧
      (u.core.threads 0).state = .ready ∧ u.core.queue (.cond 1) = [1] := by
  have h := cond_fifo Sample.world Sample.config 4096#64 (fun _ => none) 1 (by decide) condRun _
    (by unfold JoinsFromMain; decide) (by decide) (by decide +kernel) rfl
  refine ⟨_, _, rfl, rfl, h.1, rfl, h.2 _ _ rfl (fun x call he => ?_) rfl, rfl, rfl⟩
  cases he
  decide

end Gth

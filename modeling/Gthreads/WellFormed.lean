/-
  The thread table is well formed in every reachable state.

  `WF` is kept by every code segment as long as only main joins and fewer than 2^64 tids were
  taken.  The argument is per UPDATE, not per function: overwriting one record keeps the table
  (`BodyOk.set`) and the CPU's place (`CpuOk.set`, `OnCpu.leave`), and each function is one of the
  updates listed in `Gthreads.Outcomes`.
-/
import Gthreads.Outcomes

namespace Gth

theorem decrPos_eq (x : Nat) : decrPos x = x - 1 := by
  unfold decrPos
  split <;> omega

theorem incr64_of_le {x : Nat} (h : x ≤ 128) : incr64 x = x + 1 :=
  Nat.mod_eq_of_lt (by omega)

/-! ## Overwriting one record -/

namespace BodyOk
variable {ini : Bool} {next iss run blk run' blk' : Nat} {threads : Slot → ThreadRecord} {i : Slot}
  {r : ThreadRecord}

theorem run_le (h : BodyOk ini next iss run blk threads) : run ≤ 128 :=
  h.runnable ▸ countState_le _ _

theorem blk_le (h : BodyOk ini next iss run blk threads) : blk ≤ 128 :=
  h.blocked ▸ countState_le _ _

/-- **One record is overwritten**, in state `st` before and `st'` after: its identity is kept (or
    the slot emptied), it has a saved context if it needs one, and the counters move with it. -/
theorem set {st st' : ThreadState} (h : BodyOk ini next iss run blk threads)
    (hold : (threads i).state = st) (hnew : r.state = st')
    (hid : st' ≠ .empty → st ≠ .empty ∧ r.tid = (threads i).tid ∧
      r.slotIndex = (threads i).slotIndex)
    (hpark : st' = .ready ∨ st' = .blocked → ∃ f : Frame, r.ctx = some ⟨.green i, f⟩ ∧
      f.Parked i ∧ (st' = .blocked → f.waits ≠ none))
    (hrun : run' + (if st = .ready then 1 else 0) = run + (if st' = .ready then 1 else 0))
    (hblk : blk' + (if st = .blocked then 1 else 0) = blk + (if st' = .blocked then 1 else 0)) :
    BodyOk ini next iss run' blk' (Function.update threads i r) := by
  subst hold hnew
  refine ⟨h.init, h.tids.set hid, fun j hj => ?_, ?_, ?_⟩
  · by_cases hji : j = i
    · subst hji
      rw [Function.update_self] at hj ⊢
      exact hpark hj
    · rw [Function.update_of_ne hji] at hj ⊢
      exact h.parked j hj
  · have hu := countState_update .ready threads i r
    rw [← h.runnable] at hu
    omega
  · have hu := countState_update .blocked threads i r
    rw [← h.blocked] at hu
    omega

end BodyOk

theorem CallerOk.set {threads : Slot → ThreadRecord} {caller : Caller} {i : Slot}
    {r : ThreadRecord} (h : CallerOk threads caller)
    (hid : (threads i).state ≠ .empty → r.state ≠ .empty ∧ r.tid = (threads i).tid) :
    CallerOk (Function.update threads i r) caller := by
  cases caller with
  | yield => trivial
  | join tid out target =>
    by_cases ht : target = i
    · subst ht
      obtain ⟨hne, htid⟩ := hid h.1
      simp only [CallerOk, Function.update_self]
      exact ⟨hne, htid.trans h.2⟩
    · simp only [CallerOk, Function.update_of_ne ht]
      exact h

theorem Idle.set {threads : Slot → ThreadRecord} {i : Slot} {r : ThreadRecord}
    (h : ∀ j, j ≠ i → (threads j).state ≠ .running) (hr : r.state ≠ .running) :
    Idle (Function.update threads i r) := by
  intro j
  by_cases hji : j = i
  · subst hji
    rw [Function.update_self]
    exact hr
  · rw [Function.update_of_ne hji]
    exact h j hji

section
variable {cur cur' : Tid} {sched : Option Kont} {threads : Slot → ThreadRecord} {x : Ctx}
  {cpu : Cpu} {i j : Slot} {r : ThreadRecord}

/-- The running thread's own record changes; it stays on the CPU. -/
theorem OnCpu.setSelf (h : OnCpu cur sched threads i)
    (hst : r.state = .running ∨ r.state = .canceled) (htid : r.tid = (threads i).tid) :
    OnCpu cur sched (Function.update threads i r) i := by
  have hne : r.state ≠ .empty := by
    rcases hst with hst | hst <;> rw [hst] <;> decide
  obtain ⟨act, caller, hsched, hcaller⟩ := h.sched
  refine ⟨?_, ?_, fun k hk => ?_, act, caller, hsched, hcaller.set fun _ => ⟨hne, htid⟩⟩
  · rw [Function.update_self, htid]
    exact h.current
  · rw [Function.update_self]
    exact hst
  · rw [Function.update_of_ne hk]
    exact h.alone k hk

/-- The record of a thread that is not on the CPU changes. -/
theorem OnCpu.set (h : OnCpu cur sched threads j) (hoff : ¬ OnCpu cur sched threads i)
    (hr : r.state ≠ .running)
    (hid : (threads i).state ≠ .empty → r.state ≠ .empty ∧ r.tid = (threads i).tid) :
    OnCpu cur sched (Function.update threads i r) j := by
  have hji : j ≠ i := fun e => hoff (e ▸ h)
  obtain ⟨act, caller, hsched, hcaller⟩ := h.sched
  refine ⟨?_, ?_, fun k hk => ?_, act, caller, hsched, hcaller.set hid⟩
  · rw [Function.update_of_ne hji]
    exact h.current
  · rw [Function.update_of_ne hji]
    exact h.state
  · by_cases hki : k = i
    · subst hki
      rw [Function.update_self]
      exact hr
    · rw [Function.update_of_ne hki]
      exact h.alone k hk

theorem CtxOk.set (h : CtxOk cur sched threads x) (hoff : ¬ OnCpu cur sched threads i)
    (hr : r.state ≠ .running)
    (hid : (threads i).state ≠ .empty → r.state ≠ .empty ∧ r.tid = (threads i).tid) :
    CtxOk cur sched (Function.update threads i r) x := by
  cases x with
  | main => exact ⟨h.1, Idle.set (fun j _ => h.2 j) hr⟩
  | green j => exact OnCpu.set h hoff hr hid

theorem CpuOk.set (h : CpuOk cur sched threads cpu) (hoff : ¬ OnCpu cur sched threads i)
    (hr : r.state ≠ .running)
    (hid : (threads i).state ≠ .empty → r.state ≠ .empty ∧ r.tid = (threads i).tid) :
    CpuOk cur sched (Function.update threads i r) cpu := by
  cases h with
  | user x hx => exact .user x (hx.set hoff hr hid)
  | sched caller hx hcaller => exact .sched caller (hx.set hoff hr hid) (hcaller.set hid)
  | back act caller hidle hcaller =>
    exact .back act caller (Idle.set (fun j _ => hidle j) hr) (hcaller.set hid)
  | enter j f hf hst hj =>
    have hji : j ≠ i := fun e => hoff (e ▸ hj)
    refine .enter j f hf ?_ (hj.set hoff hr hid)
    rw [Function.update_of_ne hji]
    exact hst

/-- **The running thread leaves the CPU**: control goes back to main's `gth_scheduler_run_next`. -/
theorem OnCpu.leave (h : OnCpu cur sched threads i) (hr : r.state ≠ .running)
    (hne : r.state ≠ .empty) (htid : r.tid = (threads i).tid) :
    CpuOk cur' sched (Function.update threads i r) (.swap sched) := by
  obtain ⟨act, caller, hsched, hcaller⟩ := h.sched
  rw [hsched]
  exact .back act caller (Idle.set h.alone hr) (hcaller.set fun _ => ⟨hne, htid⟩)

theorem not_onCpu_of_state (hr : (threads i).state ≠ .running) (hc : (threads i).state ≠ .canceled) :
    ¬ OnCpu cur sched threads i :=
  fun h => h.state.elim hr hc

end

/-! ## The updates of the code -/

namespace Core
variable {s : Core} {x : Ctx} {i : Slot}

/-- The stack `x` runs in a well-formed state. -/
structure Live (s : Core) (x : Ctx) : Prop where
  body : s.Body
  ctx : s.At x

theorem Live.ne_empty (h : s.Live (.green i)) : (s.threads i).state ≠ .empty := by
  intro he
  rcases h.ctx.state with hs | hs <;> rw [he] at hs <;> nomatch hs

/-- The running thread is the current one. -/
theorem Live.current (h : s.Live (.green i)) : s.Current i := by
  have hne := h.ne_empty
  refine ⟨h.body.init, ?_, ?_⟩
  · rw [h.ctx.current]
    exact Nat.one_le_iff_ne_zero.mp (h.body.tids.range i hne).1
  · rw [h.ctx.current]
    exact h.body.tids.find hne

theorem Live.knows (h : s.Live x) : s.Knows x := by
  refine ⟨h.body.init, h.body.tids, ?_⟩
  cases x with
  | main => exact h.ctx.1
  | green i =>
    intro j hj
    rw [h.current.find] at hj
    exact (Option.some.inj hj).symm

/-- `gth_thread_self()` is the tid of the running stack's thread. -/
theorem Live.threadSelf (h : s.Live x) : s.threadSelf = s.ctxTid x := by
  unfold Core.threadSelf
  rw [if_pos h.body.init]
  cases x with
  | main => exact h.ctx.1
  | green i => exact h.ctx.current

/-- The thread on the CPU leaves it in state `st`, with a context saved if it needs one. -/
theorem body_leave {run blk : Nat} {st : ThreadState} {r : ThreadRecord} (h : s.Live (.green i))
    (hnew : r.state = st) (htid : r.tid = (s.threads i).tid)
    (hidx : r.slotIndex = (s.threads i).slotIndex)
    (hpark : st = .ready ∨ st = .blocked → ∃ f : Frame, r.ctx = some ⟨.green i, f⟩ ∧
      f.Parked i ∧ (st = .blocked → f.waits ≠ none))
    (hrun : run = s.runnableThreads + (if st = .ready then 1 else 0))
    (hblk : blk = s.blockedThreads + (if st = .blocked then 1 else 0)) :
    BodyOk s.initialized s.nextTid s.issued run blk (Function.update s.threads i r) := by
  rcases h.ctx.state with hst | hst
  · exact h.body.set hst hnew (fun _ => ⟨by decide, htid, hidx⟩) hpark hrun hblk
  · exact h.body.set hst hnew (fun _ => ⟨by decide, htid, hidx⟩) hpark hrun hblk

theorem wf_parkBlocked (h : s.Live (.green i)) (f : Frame) (hf : f.Parked i)
    (hw : f.waits ≠ none) : (s.parkBlocked i f).WF := by
  refine ⟨body_leave h rfl rfl rfl (fun _ => ⟨f, rfl, hf, fun _ => hw⟩) rfl ?_,
    h.ctx.leave nofun nofun rfl⟩
  exact incr64_of_le h.body.blk_le

theorem wf_parkReady (h : s.Live (.green i)) : (s.parkReady i).WF := by
  refine ⟨body_leave h rfl rfl rfl (fun _ => ⟨.yield, rfl, trivial, nofun⟩) ?_ rfl,
    h.ctx.leave nofun nofun rfl⟩
  exact incr64_of_le h.body.run_le

theorem body_wakeSlot (hb : s.Body) (hst : (s.threads i).state = .blocked) :
    (s.wakeSlot i).Body := by
  have hpos : 0 < s.blockedThreads := by
    rw [hb.blocked]
    exact countState_pos hst
  obtain ⟨f, hctx, hf, -⟩ := hb.parked i (Or.inr hst)
  refine hb.set hst rfl (fun _ => ⟨by decide, rfl, rfl⟩) (fun _ => ⟨f, hctx, hf, nofun⟩)
    (incr64_of_le hb.run_le) ?_
  show decrPos s.blockedThreads + 1 = s.blockedThreads
  rw [decrPos_eq]
  omega

theorem wf_wakeSlot (h : s.WF) (hst : (s.threads i).state = .blocked) : (s.wakeSlot i).WF := by
  refine ⟨body_wakeSlot h.body hst, h.cpu.set (i := i) ?_ nofun fun _ => ⟨nofun, rfl⟩⟩
  exact not_onCpu_of_state (by rw [hst]; decide) (by rw [hst]; decide)

/-! ## Functions that return to their caller -/

theorem Live.ret (h : s.Live x) (c : Call) (r : Ret) : (s.ret x c r).WF := ⟨h.body, .user x h.ctx⟩

theorem Live.emit (h : s.Live x) (e : Event) : (s.emit e).Live x := ⟨h.body, h.ctx⟩

theorem Live.wakeSlot (h : s.Live x) (hst : (s.threads i).state = .blocked) :
    (s.wakeSlot i).Live x := by
  refine ⟨body_wakeSlot h.body hst, h.ctx.set (i := i) ?_ nofun fun _ => ⟨nofun, rfl⟩⟩
  exact not_onCpu_of_state (by rw [hst]; decide) (by rw [hst]; decide)

/-- A wake-up of whatever slot number keeps the table and the running stack. -/
theorem Live.wakeWaiter (h : s.Live x) (n : Nat) (e : Event) : (s.wakeWaiter n e).Live x := by
  rcases wakeWaiter_cases h.body.init n e with ⟨-, es, hw⟩ | ⟨i, -, hst, hw⟩
  · rw [hw]
    exact ⟨h.body, h.ctx⟩
  · rw [hw]
    exact Live.wakeSlot ⟨h.body, h.ctx⟩ hst

theorem Live.threadUnblockSlot (h : s.Live x) (n : Nat) : (s.threadUnblockSlot n).2.Live x := by
  rcases threadUnblockSlot_cases h.body.init n with ⟨-, hw⟩ | ⟨i, -, hst, hw⟩
  · rw [hw]
    exact h
  · rw [hw]
    exact h.wakeSlot hst

theorem Live.mutexUnlock (h : s.Live x) (m : Addr) : (s.mutexUnlock m).2.Live x := by
  rcases mutexUnlock_cases (s := s) m with ⟨st, -, hu⟩ | ⟨-, -, -, -, ⟨-, e, hu⟩ | ⟨-, e, e', hu⟩⟩
  · rw [hu]
    exact h
  · rw [hu]
    exact ⟨h.body, h.ctx⟩
  · rw [hu]
    exact Live.emit (Live.wakeWaiter (s := s.setMutex m _) ⟨h.body, h.ctx⟩ _ e) e'

theorem Live.semPost (h : s.Live x) (a : Addr) : (s.semPost a).2.Live x := by
  rcases semPost_cases (s := s) a with ⟨st, -, hp⟩ | ⟨-, -, e, e', hp⟩ | ⟨-, -, -, e, hp⟩
  · rw [hp]
    exact h
  · rw [hp]
    exact Live.emit (Live.wakeWaiter (s := (s.setSem a _).log _) ⟨h.body, h.ctx⟩ _ e) e'
  · rw [hp]
    exact ⟨h.body, h.ctx⟩

theorem Live.condSignal (h : s.Live x) (c : Addr) : (s.condSignal c).2.Live x := by
  rcases condSignal_cases (s := s) c with ⟨st, -, hs⟩ | ⟨-, hs⟩ | ⟨-, -, e, hs⟩
  · rw [hs]
    exact h
  · rw [hs]
    exact h
  · rw [hs]
    exact Live.wakeWaiter (s := s.setCond c _) ⟨h.body, h.ctx⟩ _ e

theorem Live.condBroadcast (h : s.Live x) (c : Addr) : (s.condBroadcast c).2.Live x := by
  rcases condBroadcast_cases (s := s) c with ⟨st, -, hb⟩ | ⟨-, e, hb⟩
  · rw [hb]
    exact h
  · rw [hb]
    have hloop := broadcastLoop_inv (I := fun t => t.Live x) (c := c)
      (fun t ht _ => Live.threadUnblockSlot (s := t.setCond c _) ⟨ht.body, ht.ctx⟩ _)
      (s.conds c).wq.count s 0 h
    exact ⟨hloop.body, hloop.ctx⟩

theorem Live.threadCancel (h : s.Live x) (tid : Tid) : (s.threadCancel tid).2.Live x := by
  rcases threadCancel_cases h.knows tid with ⟨st, -, hc⟩ | ⟨i, es, hfind, hterm, hc⟩
  · rw [hc]
    exact h
  rw [hc]
  obtain ⟨hne, -⟩ := findThread_some hfind
  constructor
  · -- the three states a thread can be cancelled in
    have hset : ∀ {st : ThreadState}, (s.threads i).state = st →
        (s.cancelSlot i es).runnableThreads + (if st = .ready then 1 else 0) = s.runnableThreads →
        (s.cancelSlot i es).blockedThreads + (if st = .blocked then 1 else 0) = s.blockedThreads →
        (s.cancelSlot i es).Body := by
      intro st hst hrun hblk
      exact h.body.set hst rfl (fun _ => ⟨hst ▸ hne, rfl, rfl⟩) (by rintro (h | h) <;> nomatch h)
        hrun hblk
    cases hst : (s.threads i).state with
    | empty => exact absurd hst hne
    | done => rw [hst] at hterm; nomatch hterm
    | canceled => rw [hst] at hterm; nomatch hterm
    | ready =>
      have hpos : 0 < s.runnableThreads := by
        rw [h.body.runnable]
        exact countState_pos hst
      apply hset hst
      · simp only [cancelSlot, hst, if_true, decrPos_eq]
        omega
      · simp only [cancelSlot, hst, reduceCtorEq, if_false, Nat.add_zero]
    | running =>
      apply hset hst <;> simp only [cancelSlot, hst, reduceCtorEq, if_false, Nat.add_zero]
    | blocked =>
      have hpos : 0 < s.blockedThreads := by
        rw [h.body.blocked]
        exact countState_pos hst
      apply hset hst
      · simp only [cancelSlot, hst, reduceCtorEq, if_false, if_true, decrPos_eq,
          incr64_of_le h.body.run_le, Nat.add_sub_cancel, Nat.add_zero]
      · simp only [cancelSlot, hst, if_true, decrPos_eq]
        omega
  · have hrunning : ThreadState.canceled ≠ .running := by decide
    have hempty : ThreadState.canceled ≠ .empty := by decide
    by_cases hx : x = .green i
    · subst hx
      exact OnCpu.setSelf h.ctx (Or.inr rfl) rfl
    · cases x with
      | main => exact ⟨h.ctx.1, Idle.set (fun j _ => h.ctx.2 j) hrunning⟩
      | green j =>
        have hij : i ≠ j := fun e => hx (e ▸ rfl)
        refine OnCpu.set h.ctx (fun hoff => ?_) hrunning fun _ => ⟨hempty, rfl⟩
        -- only one thread has the CPU
        exact hij (h.body.tids.inj i j hne h.ne_empty
          (hoff.current.symm.trans h.ctx.current))

/-! ## Functions that can leave the CPU -/

theorem Live.mutexLock (h : s.Live x) (m : Addr) (via : Option Addr) :
    (s.mutexLock x m via).WF := by
  rcases mutexLock_cases h.knows m via with
      ⟨st, -, -, hl⟩ | ⟨-, -, hl⟩ | ⟨i, es, rfl, -, -, -, -, -, hl⟩
  · rw [hl]
    exact h.ret _ _
  · rw [hl]
    exact ⟨h.body, .user x h.ctx⟩
  · rw [hl]
    refine wf_parkBlocked ?_ (.lock m i via) rfl nofun
    exact ⟨h.body, h.ctx⟩

theorem Live.lockLoop (h : s.Live (.green i)) (m : Addr) (via : Option Addr) (fuel : Nat) :
    (s.lockLoop (.green i) m i via (fuel + 1)).WF := by
  rcases lockLoop_cases h.current m via fuel with ⟨-, -, hl⟩ | ⟨-, -, es, hl⟩ | ⟨-, hl⟩
  · rw [hl]
    exact h.ret _ _
  · rw [hl]
    refine wf_parkBlocked ?_ (.lock m i via) rfl nofun
    exact ⟨h.body, h.ctx⟩
  · rw [hl]
    exact ⟨h.body, .user _ h.ctx⟩

theorem Live.semWait (h : s.Live x) (a : Addr) : (s.semWait x a).WF := by
  rcases semWait_cases h.knows a with
      ⟨st, -, hw⟩ | ⟨-, -, es, hw⟩ | ⟨i, es, rfl, -, -, -, -, hw⟩
  · rw [hw]
    exact h.ret _ _
  · rw [hw]
    exact ⟨h.body, .user x h.ctx⟩
  · rw [hw]
    refine wf_parkBlocked ?_ (.semWait a) trivial nofun
    exact ⟨h.body, h.ctx⟩

theorem Live.condPark (h : s.Live (.green i)) (c m : Addr) (impl : MutexImpl) (es : List Event) :
    (s.condPark i c m impl es).WF := by
  refine wf_parkBlocked ?_ (.condWait c m) trivial nofun
  exact ⟨h.body, h.ctx⟩

theorem Live.condRollback (h : s.Live (.green i)) (c : Addr) (es : List Event) :
    (s.condRollback i c es).Live (.green i) := by
  refine ⟨body_leave h rfl rfl rfl (by rintro (h | h) <;> nomatch h) rfl ?_,
    h.ctx.setSelf (Or.inl rfl) rfl⟩
  show decrPos (incr64 s.blockedThreads) = s.blockedThreads
  rw [incr64_of_le h.body.blk_le, decrPos_eq, Nat.add_sub_cancel]

theorem Live.condWait (h : s.Live x) (c m : Addr) : (s.condWait x c m).WF := by
  rcases condWait_cases h.knows c m with ⟨st, -, hw⟩ | ⟨i, rfl, -, -, -, hcases⟩
  · rw [hw]
    exact h.ret _ _
  rcases hcases with ⟨st, es, -, hw⟩ | ⟨-, -, -, ⟨-, es, hw⟩ | ⟨-, es, P, hP, hwake⟩⟩
  · rw [hw]
    exact (h.condRollback c es).ret _ _
  · rw [hw]
    exact h.condPark c m _ es
  · have hwf : P.WF := hP ▸ h.condPark c m _ es
    rcases hwake with ⟨-, hw⟩ | ⟨j, -, hst, es', hw⟩
    · rw [hw]
      exact hwf
    · rw [hw]
      have hj := wf_wakeSlot hwf hst
      exact ⟨hj.body, hj.cpu⟩

theorem Live.threadYield (h : s.Live x) : (s.threadYield x).WF := by
  rcases threadYield_cases h.knows with ⟨h0, hy⟩ | ⟨-, hy⟩ | ⟨i, es, rfl, -, hy⟩
  · rw [hy]
    cases x with
    | main => exact ⟨h.body, .sched .yield h.ctx trivial⟩
    | green i => exact absurd h0 h.current.ne_zero
  · rw [hy]
    exact h.ret _ _
  · rw [hy]
    exact wf_parkReady ⟨h.body, h.ctx⟩

theorem Live.threadExit (h : s.Live (.green i)) (result : Nat) : (s.threadExit i result).WF := by
  obtain ⟨r, es, htid, hidx, -, hterm, he⟩ := threadExit_eq (s := s) i result
  have hnot : r.state ≠ .ready ∧ r.state ≠ .blocked ∧ r.state ≠ .running ∧ r.state ≠ .empty := by
    refine ⟨?_, ?_, ?_, ?_⟩ <;> intro hst <;> rw [hst] at hterm <;> nomatch hterm
  rw [he]
  refine ⟨body_leave h rfl htid hidx (fun hp => ?_) ?_ ?_,
    h.ctx.leave hnot.2.2.1 hnot.2.2.2 htid⟩
  · exact hp.elim (fun e => absurd e hnot.1) (fun e => absurd e hnot.2.1)
  · rw [if_neg hnot.1]
    rfl
  · rw [if_neg hnot.2.1]
    rfl

/-- A terminated thread's slot is freed while main runs. -/
theorem Live.release (h : s.Live .main) (hterm : threadIsTerminal (s.threads i).state = true) :
    (s.setThread i {}).Live .main := by
  have hnot : (s.threads i).state ≠ .ready ∧ (s.threads i).state ≠ .blocked := by
    refine ⟨?_, ?_⟩ <;> intro hst <;> rw [hst] at hterm <;> nomatch hterm
  refine ⟨h.body.set rfl rfl nofun (by rintro (h | h) <;> nomatch h) ?_ ?_,
    h.ctx.1, Idle.set (fun j _ => h.ctx.2 j) nofun⟩
  · rw [if_neg hnot.1]
    rfl
  · rw [if_neg hnot.2]
    rfl

theorem Live.threadJoin (h : s.Live .main) (tid : Tid) (out : Bool) :
    (s.threadJoin .main tid out).WF := by
  rcases threadJoin_cases h.knows tid out with
      ⟨st, -, hj⟩ | ⟨i, -, hfind, ⟨hterm, hj⟩ | ⟨-, hj⟩⟩
  · rw [hj]
    exact h.ret _ _
  · rw [hj]
    exact (h.release hterm).ret _ _
  · rw [hj]
    exact ⟨h.body, .sched _ h.ctx (findThread_some hfind)⟩

theorem Live.joinLoop (h : s.Live .main) {tid : Tid} {out : Bool} {target : Slot}
    (hcaller : CallerOk s.threads (.join tid out target)) :
    (s.joinLoop .main tid out target).WF := by
  rcases joinLoop_cases h.knows hcaller with ⟨hterm, hj⟩ | hj
  · rw [hj]
    exact (h.release hterm).ret _ _
  · rw [hj]
    exact ⟨h.body, .sched _ h.ctx hcaller⟩

/-- A new thread, or a failed attempt that took a tid. -/
theorem Live.threadCreate (h : s.Live x) (outTid : Bool) (attr : Option Nat) (fn arg : Nat)
    (env : MapEnv) (hlt : (s.threadCreate outTid attr fn arg env).2.issued < 2 ^ 64) :
    (s.threadCreate outTid attr fn arg env).2.Live x := by
  rcases threadCreate_cases (s := s) outTid attr fn arg env with
      ⟨st, -, hc⟩ | ⟨i, hempty, ⟨st, -, hc⟩ | ⟨r, es, htid, hst, hctx, hidx, hc⟩⟩
  · rw [hc]
    exact h
  · rw [hc]
    have hoff : ¬ OnCpu s.currentTid s.schedulerCtx s.threads i :=
      not_onCpu_of_state (by rw [hempty]; decide) (by rw [hempty]; decide)
    have hset := h.body.set (r := {}) (i := i) hempty rfl nofun (by rintro (h | h) <;> nomatch h)
      rfl rfl
    exact ⟨⟨hset.init, hset.tids.bump, hset.parked, hset.runnable, hset.blocked⟩,
      h.ctx.set hoff nofun fun hne => absurd hempty hne⟩
  · rw [hc] at hlt ⊢
    have hoff : ¬ OnCpu s.currentTid s.schedulerCtx s.threads i :=
      not_onCpu_of_state (by rw [hempty]; decide) (by rw [hempty]; decide)
    refine ⟨⟨h.body.init, h.body.tids.enter hlt htid hidx, fun j hj => ?_, ?_, ?_⟩,
      h.ctx.set hoff (by rw [hst]; decide) fun hne => absurd hempty hne⟩
    · by_cases hji : j = i
      · subst hji
        refine ⟨.entry, ?_, trivial, fun hblk => ?_⟩
        · exact (congrArg ThreadRecord.ctx (Function.update_self j r s.threads)).trans hctx
        · have hself := congrArg ThreadRecord.state (Function.update_self j r s.threads)
          rw [hst] at hself
          exact absurd (hself.symm.trans hblk) (by decide)
      · simp only [setThread, Function.update_of_ne hji] at hj ⊢
        exact h.body.parked j hj
    · have hu := countState_update .ready s.threads i r
      rw [if_neg (by rw [hempty]; decide), if_pos hst, ← h.body.runnable] at hu
      exact (incr64_of_le h.body.run_le).trans hu.symm
    · have hu := countState_update .blocked s.threads i r
      rw [if_neg (by rw [hempty]; decide), if_neg (by rw [hst]; decide), ← h.body.blocked] at hu
      exact hu.symm

/-! ## The three kinds of code segment -/

end Core

/-- A join by a green thread. -/
def Call.isGreenJoin : Ctx → Call → Bool
  | .green _, .join _ _ => true
  | _, _ => false

namespace Core
variable {s : Core} {x : Ctx}

/-- **Every API call keeps the state well formed**, if only main joins. -/
theorem Live.exec (h : s.Live x) {c : Call} (hcall : State.callable x c = true)
    (hjoin : c.isGreenJoin x = false) (hlt : (s.exec x c).issued < 2 ^ 64) : (s.exec x c).WF := by
  have hobj : ∀ (b : Prop) [Decidable b] (r r' : Status × Core), r.2.Live x → r'.2.Live x →
      (if b then r else r').2.Live x := by
    intro b _ r r' hr hr'
    split
    · exact hr
    · exact hr'
  have hself : ∀ t : Core, t.Body → t.At x → t.Live x := fun _ hb hx => ⟨hb, hx⟩
  cases c with
  | create outTid attr fn arg env => exact (h.threadCreate outTid attr fn arg env hlt).ret _ _
  | yield => exact h.threadYield
  | join tid out =>
    cases x with
    | main => exact h.threadJoin tid out
    | green i => nomatch hjoin
  | cancel tid => exact (h.threadCancel tid).ret _ _
  | exit retval =>
    cases x with
    | main => nomatch hcall
    | green i => exact h.threadExit retval
  | self => exact h.ret _ _
  | getStats out => exact h.ret _ _
  | mutexInit m => exact (hobj _ _ _ h (hself _ h.body h.ctx)).ret _ _
  | mutexLock m => exact h.mutexLock m none
  | mutexTrylock m =>
    exact (hobj _ _ _ h (hobj _ _ _ h (hobj _ _ _ h (hself _ h.body h.ctx)))).ret _ _
  | mutexUnlock m => exact (h.mutexUnlock m).ret _ _
  | mutexDestroy m =>
    exact (hobj _ _ _ h (hobj _ _ _ h (hobj _ _ _ h (hobj _ _ _ h (hself _ h.body h.ctx))))).ret _ _
  | semInit a n => exact (hobj _ _ _ h (hself _ h.body h.ctx)).ret _ _
  | semWait a => exact h.semWait a
  | semPost a => exact (h.semPost a).ret _ _
  | semDestroy a =>
    exact (hobj _ _ _ h (hobj _ _ _ h (hobj _ _ _ h (hself _ h.body h.ctx)))).ret _ _
  | condInit c => exact (hobj _ _ _ h (hself _ h.body h.ctx)).ret _ _
  | condWait c m => exact h.condWait c m
  | condSignal c => exact (h.condSignal c).ret _ _
  | condBroadcast c => exact (h.condBroadcast c).ret _ _
  | condDestroy c =>
    exact (hobj _ _ _ h (hobj _ _ _ h (hobj _ _ _ h (hself _ h.body h.ctx)))).ret _ _

theorem WF.live (h : s.WF) (hcpu : s.cpu = .user x) : s.Live x := by
  have hc := h.cpu
  rw [hcpu] at hc
  cases hc with
  | user _ hx => exact ⟨h.body, hx⟩

/-- The scheduler runs on main's stack only. -/
theorem WF.sched (h : s.WF) {caller : Caller} (hcpu : s.cpu = .sched x caller) :
    x = .main ∧ s.Live .main ∧ CallerOk s.threads caller := by
  have hc := h.cpu
  rw [hcpu] at hc
  cases hc with
  | sched _ hx hcaller => exact ⟨rfl, ⟨h.body, hx⟩, hcaller⟩

/-- What a stack switch can lead to: back to main's dispatcher, or into a thread that was just
    dispatched. -/
theorem WF.swap (h : s.WF) {k : Kont} (hcpu : s.cpu = .swap (some k)) :
    (∃ act caller, k = ⟨.main, .runNext act 0 caller⟩ ∧
      Live { s with currentTid := 0 } .main ∧ CallerOk s.threads caller) ∨
    (∃ i f, k = ⟨.green i, f⟩ ∧ f.Parked i ∧ (s.threads i).state = .running ∧
      s.Live (.green i)) := by
  have hc := h.cpu
  rw [hcpu] at hc
  cases hc with
  | back act caller hidle hcaller =>
    exact Or.inl ⟨act, caller, rfl, ⟨h.body, rfl, hidle⟩, hcaller⟩
  | enter i f hf hst hon => exact Or.inr ⟨i, f, rfl, hf, hst, h.body, hon⟩

/-- **A dispatch keeps the state well formed.** -/
theorem Live.runNext (h : s.Live .main) {caller : Caller} (hcaller : CallerOk s.threads caller)
    {pick : Option Slot} (hpick : ∀ i, pick = some i → (s.threads i).state = .ready) :
    (s.runNext .main caller pick).WF := by
  cases pick with
  | none =>
    cases caller with
    | yield => exact h.ret _ _
    | join tid out target => exact h.ret _ _
  | some i =>
    have hst := hpick i rfl
    obtain ⟨f, hctx, hf, -⟩ := h.body.parked i (Or.inl hst)
    have hpos : 0 < s.runnableThreads := by
      rw [h.body.runnable]
      exact countState_pos hst
    have hrun : decrPos s.runnableThreads + 1 = s.runnableThreads := by
      rw [decrPos_eq]
      omega
    rw [runNext_some]
    refine ⟨h.body.set hst rfl (fun _ => ⟨by decide, rfl, rfl⟩) (by rintro (h | h) <;> nomatch h)
      hrun rfl, ?_⟩
    simp only [dispatch, setThread, hctx, h.ctx.1]
    have hempty : ThreadState.running ≠ .empty := by decide
    refine .enter i f hf ?_ ⟨?_, Or.inl ?_, fun j hj => ?_, s.acts, caller, rfl,
      hcaller.set fun _ => ⟨hempty, rfl⟩⟩
    · rw [Function.update_self]
    · rw [Function.update_self]
    · rw [Function.update_self]
    · rw [Function.update_of_ne hj]
      exact h.ctx.2 j

theorem WF.runNext (h : s.WF) {caller : Caller} {pick : Option Slot}
    (hcpu : s.cpu = .sched x caller)
    (hpick : ∀ i, pick = some i → (s.threads i).state = .ready ∨ (s.threads i).state = .running) :
    (s.runNext x caller pick).WF := by
  obtain ⟨rfl, hlive, hcaller⟩ := h.sched hcpu
  refine hlive.runNext hcaller fun i hi => ?_
  exact (hpick i hi).resolve_right (hlive.ctx.2 i)

/-- **A resumption keeps the state well formed.** -/
theorem WF.resume (h : s.WF) {k : Kont} (hcpu : s.cpu = .swap (some k)) : (s.resume k).WF := by
  rcases h.swap hcpu with ⟨act, caller, rfl, hlive, hcaller⟩ | ⟨i, f, rfl, hf, -, hlive⟩
  · cases caller with
    | yield => exact ⟨hlive.body, .user .main hlive.ctx⟩
    | join tid out target =>
      refine Live.joinLoop (s := { s with currentTid := 0, hist := _ }) ?_ hcaller
      exact ⟨hlive.body, hlive.ctx⟩
  · cases f with
    | entry => exact ⟨hlive.body, .user _ hlive.ctx⟩
    | yield => exact hlive.ret _ _
    | lock m mySlot via =>
      obtain rfl : mySlot = i := hf
      exact hlive.lockLoop m via wqFixedSlots
    | semWait a => exact hlive.ret _ _
    | condWait c m => exact hlive.mutexLock m (some c)
    | runNext act prev caller => exact absurd hf id

/-- Neither a dispatch nor a resumption takes a tid. -/
theorem WF.runNext_issued (caller : Caller) (pick : Option Slot) :
    (s.runNext x caller pick).issued = s.issued := by
  cases pick with
  | none => cases caller <;> rfl
  | some i => rfl

end Core

/-! ## Whole runs -/

def Label.isCreate : Label → Bool
  | .call _ c => c.isCreate
  | _ => false

/-- The number of `gth_thread_create` calls of a run, failed ones included. -/
def creates (ls : List Label) : Nat := ls.countP Label.isCreate

theorem creates_cons (l : Label) (ls : List Label) :
    creates (l :: ls) = creates ls + (if l.isCreate then 1 else 0) := List.countP_cons

theorem creates_snoc (ls : List Label) (l : Label) :
    creates (ls ++ [l]) = creates ls + (if l.isCreate then 1 else 0) := by
  rw [creates, List.countP_append, List.countP_singleton]
  rfl

/-- Not a join by a green thread. -/
def Label.joinsFromMain : Label → Bool
  | .call x c => !c.isGreenJoin x
  | _ => true

/-- Only main joins. -/
def JoinsFromMain (ls : List Label) : Prop := ∀ l ∈ ls, l.joinsFromMain = true

namespace State
variable {W : World}

/-- **One step keeps the state well formed** and takes at most one tid. -/
theorem step_wf {s t : State} {l : Label} (h : s.core.WF) (hj : l.joinsFromMain = true)
    (hlt : s.core.issued + (if l.isCreate then 1 else 0) < 2 ^ 64) (hstep : step W s l = some t) :
    t.core.WF ∧ t.core.issued ≤ s.core.issued + (if l.isCreate then 1 else 0) := by
  have hfresh : s.fresh.WF := ⟨h.body, h.cpu⟩
  rcases step_cases hstep with ⟨x, c, -, -, rfl⟩ | ⟨x, c, rfl, hcpu, hcall, rfl⟩ |
      ⟨x, caller, pick, sub, rfl, hcpu, hp, rfl⟩ | ⟨k, rfl, hcpu, rfl⟩
  · exact ⟨h, Nat.le_add_right _ _⟩
  · have hlive : s.fresh.Live x := hfresh.live hcpu
    have hissued := Core.exec_issued_le s.fresh x c
    have hgj : c.isGreenJoin x = false := by simpa [Label.joinsFromMain] using hj
    exact ⟨hlive.exec hcall hgj (Nat.lt_of_le_of_lt hissued hlt), hissued⟩
  · refine ⟨hfresh.runNext hcpu fun i hi => ?_,
      Nat.le_of_eq (Core.WF.runNext_issued (s := s.fresh) caller pick)⟩
    subst hi
    exact pickReadyThreadMode_state hp
  · exact ⟨hfresh.resume hcpu, Nat.le_of_eq (Core.resume_issued s.fresh k)⟩

/-- **Every state of a run is well formed**, and the tids taken are at most the creations. -/
theorem exec_wf : ∀ (ls : List Label) (s t : State), s.core.WF → JoinsFromMain ls →
    s.core.issued + creates ls < 2 ^ 64 → Exec.exec (step W) s ls = some t →
    t.core.WF ∧ t.core.issued ≤ s.core.issued + creates ls := by
  intro ls
  induction ls with
  | nil =>
    intro s t h _ _ ht
    obtain rfl : s = t := Option.some.inj ht
    exact ⟨h, Nat.le_add_right _ _⟩
  | cons l ls ih =>
    intro s u h hj hlt hu
    obtain ⟨t, ht, htu⟩ := Option.bind_eq_some_iff.mp hu
    rw [creates_cons] at hlt ⊢
    obtain ⟨hwf, hle⟩ := step_wf h (hj l List.mem_cons_self) (by omega) ht
    obtain ⟨hwf', hle'⟩ := ih t u hwf (fun m hm => hj m (List.mem_cons_of_mem l hm)) (by omega) htu
    exact ⟨hwf', by omega⟩

theorem start_core (config : ValidConfig) (pageSize : BitVec 64)
    (files : Path → Option (List UInt8)) : (State.start config pageSize files).core
      = { config := config.1, pageSize := pageSize, initialized := true, nextTid := 1 } := by
  simp only [State.start, runtimeInit, config.2, State.loaded, Bool.true_eq_false, if_false,
    Bool.false_eq_true]

theorem start_wf (config : ValidConfig) (pageSize : BitVec 64)
    (files : Path → Option (List UInt8)) : (State.start config pageSize files).core.WF := by
  rw [start_core]
  have hzero : ∀ st : ThreadState, st ≠ .empty → countState st (fun _ => {}) = 0 := by
    intro st hst
    refine List.countP_eq_zero.mpr fun i _ => ?_
    rw [decide_eq_true_eq]
    exact fun h => hst h.symm
  refine ⟨⟨rfl, ⟨rfl, ?_, ?_, ?_⟩, ?_, ?_, ?_⟩, .user .main ⟨rfl, nofun⟩⟩
  · exact fun i hi => absurd rfl hi
  · exact fun i hi => absurd rfl hi
  · exact fun i j hi => absurd rfl hi
  · rintro i (h | h) <;> nomatch h
  · exact (hzero .ready (by decide)).symm
  · exact (hzero .blocked (by decide)).symm

/-- **Every reachable state is well formed.** -/
theorem reach_wf {config : ValidConfig} {pageSize : BitVec 64}
    {files : Path → Option (List UInt8)} {ls : List Label} {s : State}
    (hrun : Exec.exec (step W) (State.start config pageSize files) ls = some s)
    (hjoin : JoinsFromMain ls) (hcreates : creates ls < 2 ^ 64) :
    s.core.WF ∧ s.core.issued ≤ creates ls := by
  have hzero : (State.start config pageSize files).core.issued = 0 := by rw [start_core]
  have h := exec_wf ls _ s (start_wf config pageSize files) hjoin
    (by rw [hzero, Nat.zero_add]; exact hcreates) hrun
  rwa [hzero, Nat.zero_add] at h

end State

/-! ## Invariants on top of well-formedness -/

/-- What a property `J` of the core has to survive to hold in every run whose calls meet `G`: the
    code segments, each met in a well-formed state and leading to one.  A dispatch is by main and
    of a `READY` thread. -/
structure Keeps (J : Core → Prop) (G : Core → Ctx → Call → Prop) : Prop where
  fresh : ∀ s : Core, J s → J { s with events := [] }
  call : ∀ (s : Core) x c, s.WF → s.cpu = .user x → State.callable x c = true →
    c.isGreenJoin x = false → (s.exec x c).WF → G s x c → J s → J (s.exec x c)
  pick : ∀ (s : Core) caller pick, s.WF → s.cpu = .sched .main caller →
    (∀ i, pick = some i → (s.threads i).state = .ready) → (s.runNext .main caller pick).WF → J s →
    J (s.runNext .main caller pick)
  swap : ∀ (s : Core) k, s.WF → s.cpu = .swap (some k) → (s.resume k).WF → J s → J (s.resume k)

namespace State
variable {W : World}

/-- A step from a well-formed state to a well-formed state, and not a join by a green thread. -/
def Tame (W : World) (s : State) (l : Label) : Prop :=
  s.core.WF ∧ l.joinsFromMain = true ∧ ∀ t, step W s l = some t → t.core.WF

theorem along_tame : ∀ (ls : List Label) (s : State), s.core.WF → JoinsFromMain ls →
    s.core.issued + creates ls < 2 ^ 64 → Exec.Along (step W) (Tame W) s ls := by
  intro ls
  induction ls with
  | nil => exact fun _ _ _ _ => trivial
  | cons l ls ih =>
    intro s h hj hlt
    rw [creates_cons] at hlt
    have hstep : ∀ t, step W s l = some t → t.core.WF ∧
        t.core.issued ≤ s.core.issued + (if l.isCreate then 1 else 0) :=
      fun t ht => step_wf h (hj l List.mem_cons_self) (by omega) ht
    refine ⟨⟨h, hj l List.mem_cons_self, fun t ht => (hstep t ht).1⟩, fun t ht => ?_⟩
    obtain ⟨hwf, hle⟩ := hstep t ht
    exact ih t hwf (fun m hm => hj m (List.mem_cons_of_mem l hm)) (by omega)

end State

namespace Keeps
variable {W : World} {J : Core → Prop} {G : Core → Ctx → Call → Prop}

/-- One step. -/
theorem step (h : Keeps J G) (s : State) (l : Label) (t : State) (hJ : J s.core)
    (hG : State.Tame W s l ∧ State.OnCalls G s l) (hstep : State.step W s l = some t) :
    J t.core := by
  obtain ⟨⟨hwf, hjoin, hafter⟩, hcalls⟩ := hG
  have hwf' := hafter t hstep
  have hfresh : s.fresh.WF := ⟨hwf.body, hwf.cpu⟩
  have hJ' : J s.fresh := h.fresh s.core hJ
  rcases State.step_cases hstep with ⟨x, c, -, -, rfl⟩ | ⟨x, c, rfl, hcpu, hcall, rfl⟩ |
      ⟨x, caller, pick, sub, -, hcpu, hp, rfl⟩ | ⟨k, -, hcpu, rfl⟩
  · exact hJ
  · have hgj : c.isGreenJoin x = false := by simpa [Label.joinsFromMain] using hjoin
    exact h.call s.fresh x c hfresh hcpu hcall hgj hwf' (hcalls x c rfl) hJ'
  · obtain ⟨rfl, hlive, -⟩ := hfresh.sched hcpu
    refine h.pick s.fresh caller pick hfresh hcpu (fun i hi => ?_) hwf' hJ'
    subst hi
    exact (pickReadyThreadMode_state hp).resolve_right (hlive.ctx.2 i)
  · exact h.swap s.fresh k hfresh hcpu hwf' hJ'

/-- **Runs**: `J` holds wherever a run leads whose calls meet `G`. -/
theorem exec (h : Keeps J G) {ls : List Label} {s t : State} (hJ : J s.core) (hwf : s.core.WF)
    (hjoin : JoinsFromMain ls) (hlt : s.core.issued + creates ls < 2 ^ 64)
    (hG : Exec.Along (State.step W) (State.OnCalls G) s ls)
    (hrun : Exec.exec (State.step W) s ls = some t) : J t.core :=
  Exec.exec_inv (I := fun s : State => J s.core) h.step ls s t hJ
    (Exec.along_and ls s (State.along_tame ls s hwf hjoin hlt) hG) hrun

/-- The same from the start, with well-formedness at the end. -/
theorem reach (h : Keeps J G) {config : ValidConfig} {pageSize : BitVec 64}
    {files : Path → Option (List UInt8)} {ls : List Label} {s : State}
    (hJ : J (State.start config pageSize files).core) (hjoin : JoinsFromMain ls)
    (hcreates : creates ls < 2 ^ 64)
    (hG : Exec.Along (State.step W) (State.OnCalls G) (State.start config pageSize files) ls)
    (hrun : Exec.exec (State.step W) (State.start config pageSize files) ls = some s) :
    s.core.WF ∧ J s.core := by
  refine ⟨(State.reach_wf hrun hjoin hcreates).1,
    h.exec hJ (State.start_wf config pageSize files) hjoin ?_ hG hrun⟩
  rw [State.start_core, Nat.zero_add]
  exact hcreates

/-- **Exact conditions on calls**: `J` survives the calls that meet `P`, and under `J` a call meets
    `P` iff it meets `G`.  `H` is assumed of all calls. -/
theorem along_iff {H P : Core → Ctx → Call → Prop} (h : Keeps J fun s x c => H s x c ∧ P s x c)
    (hiff : ∀ (s : Core) x c, s.WF → s.cpu = .user x → H s x c → J s → (P s x c ↔ G s x c))
    {config : ValidConfig} {pageSize : BitVec 64} {files : Path → Option (List UInt8)}
    {ls : List Label} {s : State} (hJ : J (State.start config pageSize files).core)
    (hjoin : JoinsFromMain ls) (hcreates : creates ls < 2 ^ 64)
    (hH : Exec.Along (State.step W) (State.OnCalls H) (State.start config pageSize files) ls)
    (hrun : Exec.exec (State.step W) (State.start config pageSize files) ls = some s) :
    Exec.Along (State.step W) (State.OnCalls P) (State.start config pageSize files) ls ↔
      Exec.Along (State.step W) (State.OnCalls G) (State.start config pageSize files) ls := by
  have htame := State.along_tame (W := W) ls _ (State.start_wf config pageSize files) hjoin (by
    rw [State.start_core, Nat.zero_add]
    exact hcreates)
  refine Exec.along_iff_along
    (I := fun ls (t : State) => J t.core ∧ Exec.Along (State.step W)
      (fun t l => State.Tame W t l ∧ State.OnCalls H t l) t ls)
    (fun l ls t u hI hP hu => ?_) (fun l ls t u hI hu => ?_) ls _ s
    ⟨hJ, Exec.along_and ls _ htame hH⟩ hrun
  · obtain ⟨hJt, ⟨htamed, hHt⟩, hrest⟩ := hI
    exact ⟨h.step t l u hJt ⟨htamed, fun x c hl => ⟨hHt x c hl, hP x c hl⟩⟩ hu, hrest u hu⟩
  · obtain ⟨hJt, ⟨⟨hwf, -, -⟩, hHt⟩, -⟩ := hI
    refine forall_congr' fun x => forall_congr' fun c => forall_congr' fun hl => ?_
    subst hl
    rcases State.step_cases hu with ⟨_, _, hl, _⟩ | ⟨x', c', hl, hcpu, -, -⟩ |
        ⟨_, _, _, _, hl, _⟩ | ⟨_, hl, _⟩
    · nomatch hl
    · cases hl
      exact hiff t.fresh x c ⟨hwf.body, hwf.cpu⟩ hcpu (hHt x c rfl) (h.fresh t.core hJt)
    · nomatch hl
    · nomatch hl

/-- **Exact conditions on steps**: `J` survives all steps whose calls meet `G`, and under `J` a step
    meets `P` iff it meets `Q`. -/
theorem along_steps_iff (h : Keeps J G) {P Q : State → Label → Prop}
    (hiff : ∀ s l t, s.core.WF → J s.core → State.step W s l = some t → (P s l ↔ Q s l))
    {config : ValidConfig} {pageSize : BitVec 64} {files : Path → Option (List UInt8)}
    {ls : List Label} {s : State} (hJ : J (State.start config pageSize files).core)
    (hjoin : JoinsFromMain ls) (hcreates : creates ls < 2 ^ 64)
    (hG : Exec.Along (State.step W) (State.OnCalls G) (State.start config pageSize files) ls)
    (hrun : Exec.exec (State.step W) (State.start config pageSize files) ls = some s) :
    Exec.Along (State.step W) P (State.start config pageSize files) ls ↔
      Exec.Along (State.step W) Q (State.start config pageSize files) ls := by
  have htame := State.along_tame (W := W) ls _ (State.start_wf config pageSize files) hjoin (by
    rw [State.start_core, Nat.zero_add]
    exact hcreates)
  refine Exec.along_iff_along
    (I := fun ls (t : State) => J t.core ∧ Exec.Along (State.step W)
      (fun t l => State.Tame W t l ∧ State.OnCalls G t l) t ls)
    (fun l ls t u hI _ hu => ?_) (fun l ls t u hI hu => ?_) ls _ s
    ⟨hJ, Exec.along_and ls _ htame hG⟩ hrun
  · exact ⟨h.step t l u hI.1 hI.2.1 hu, hI.2.2 u hu⟩
  · exact hiff t l u hI.2.1.1.1 hI.1 hu

end Keeps
end Gth

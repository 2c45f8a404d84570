/-
  The events tell the story.

  A trace is read by people who were not there.  What they want to know from it is what every thread
  was doing at a given moment, and how many permits a semaphore had.  The instrumentation calls say
  it, but not one call per change: a thread that blocks on a mutex is told by `THREAD_BLOCK`, on a
  semaphore by `SEM_WAIT` with a count of 0, on a condition variable by `COND_WAIT`; a blocked thread
  that is cancelled is told by `THREAD_CANCEL` and then, like one that is woken, by
  `THREAD_UNBLOCK`.

  The module has two layers.  `Turn` is an abstract machine that knows only the thread table and the
  events told so far: each of its turns changes at most one record and tells about it.  Every code
  segment of the runtime is a sequence of such turns (`exec_turns`, `runNext_turns`,
  `resume_turns`).  The readers of a trace that ask about threads (`readLog`, `readAlive`) are then
  followed turn by turn.  The reader that asks about a semaphore (`readCount`) needs only to know
  which events a code segment can record on it (`KeyMove`), in whatever state it starts.

  One thing is not told: a `gth_cond_wait` that cannot release its mutex marks its caller `RUNNING`
  again without a word (`Turn.undo`), and from then on the log shows a thread as blocked that is
  not.
-/
import Gthreads.FailedWait
import Gthreads.Switches
import Gthreads.WellFormed
import Gthreads.Lib.Simulation

namespace Gth

/-! ## The abstract machine -/

/-- What the events tell about, and the events of the current code segment. -/
structure View where
  issued : Nat
  threads : Slot → ThreadRecord
  events : List Event

def Core.view (s : Core) : View := ⟨s.issued, s.threads, s.events⟩

namespace View

def put (v : View) (i : Slot) (r : ThreadRecord) : View :=
  { v with threads := Function.update v.threads i r }

def tell (v : View) (es : List Event) : View := { v with events := v.events ++ es }

theorem tell_nil (v : View) : v.tell [] = v := by
  unfold tell
  rw [List.append_nil]

end View

/-- The events that do not tell the state of a thread. -/
def Event.silent (e : Event) : Bool := match e.type with
  | .mutexLock | .mutexUnlock | .mutexWait | .mutexWake | .semPost | .semWake | .condSignal
  | .condBroadcast => true
  | _ => false

/-- The states in which a thread can have the CPU. -/
abbrev ThreadState.onCpu (st : ThreadState) : Prop := st = .running ∨ st = .canceled

/-- How the thread `tid` changes its state, and the events that tell it. -/
inductive Told (tid : Tid) : ThreadState → ThreadState → List Event → Prop where
  | save (st : ThreadState) : Told tid st st []
  | dispatch (fromTid : Tid) : Told tid .ready .running [traceContextSwitch fromTid tid]
  | yield {st : ThreadState} : st.onCpu → Told tid st .ready [traceThreadYield tid]
  | block {st : ThreadState} : st.onCpu → Told tid st .blocked [traceThreadBlock tid 0]
  | semWait {st : ThreadState} (a : Addr) : st.onCpu → Told tid st .blocked [traceSemWait tid a 0]
  | condWait {st : ThreadState} (c : Addr) : st.onCpu → Told tid st .blocked [traceCondWait tid c]
  | unblock : Told tid .blocked .ready [traceThreadUnblock tid]
  | cancel {st : ThreadState} : st = .ready ∨ st = .running →
      Told tid st .canceled [traceThreadCancel tid]
  | cancelBlocked : Told tid .blocked .canceled [traceThreadCancel tid, traceThreadUnblock tid]
  | exit (retval : Nat) : Told tid .running .done [traceThreadExit tid retval]
  | exitCanceled (retval : Nat) : Told tid .canceled .canceled [traceThreadExit tid retval]

/-- One turn.  `undo` says whether a `gth_cond_wait` may fail to release its mutex. -/
inductive Turn (undo : Prop) (v : View) : View → Prop where
  | silent (e : Event) : e.silent = true → Turn undo v (v.tell [e])
  | take (tid : Tid) (a : Addr) (n : Nat) : n ≠ 0 → Turn undo v (v.tell [traceSemWait tid a n])
  | change (i : Slot) (r : ThreadRecord) (es : List Event) : (v.threads i).state ≠ .empty →
      r.tid = (v.threads i).tid → Told r.tid (v.threads i).state r.state es →
      Turn undo v ((v.put i r).tell es)
  | create (i : Slot) (r : ThreadRecord) : r.tid = v.issued + 1 → r.state = .ready →
      Turn undo v (({ v with issued := v.issued + 1 }.put i r).tell [traceThreadCreate r.tid])
  | createFails (i : Slot) : Turn undo v ({ v with issued := v.issued + 1 }.put i {})
  | free (i : Slot) : Turn undo v (v.put i {})
  | undo (i : Slot) (r : ThreadRecord) : undo → (v.threads i).state ≠ .empty →
      r.tid = (v.threads i).tid → r.state = .running → Turn undo v (v.put i r)

/-- A sequence of turns. -/
abbrev Turns (undo : Prop) : View → View → Prop := Relation.ReflTransGen (Turn undo)

/-- A `gth_cond_wait` that finds out that it cannot release its mutex when its caller is already
    marked and queued. -/
def Core.failsLate (s : Core) : Call → Bool
  | .condWait c m => decide (¬ (c = 0 ∨ m = 0) ∧ (s.conds c).initialized ≠ 0 ∧
      s.threadCurrentSlotIndex < 128 ∧ (s.conds c).wq.wqIsFull = false ∧
      (s.mutexUnlock m).1 ≠ .ok)
  | _ => false

/-! ## Code segments are sequences of turns -/

namespace Core
variable {undo : Prop} {s t : Core} {x : Ctx} {i : Slot}

/-- A write to any other part of the state is no turn. -/
theorem view_turns (h : t.view = s.view) : Turns undo s.view t.view := h ▸ .refl

theorem emit_turns (s : Core) {e : Event} (he : e.silent = true) :
    Turns undo s.view (s.emit e).view := .single (.silent e he)

/-- Waking a thread: it was blocked, and that it is no longer is told. -/
theorem threadUnblockSlot_turns (s : Core) (n : Nat) :
    Turns undo s.view (s.threadUnblockSlot n).2.view := by
  unfold threadUnblockSlot
  split
  · exact .refl
  · split
    · rename_i hn
      dsimp only
      split
      · exact .refl
      · rename_i hst
        have hst : (s.threads ⟨n, hn⟩).state = .blocked := not_not.mp hst
        have hturn : Turn undo s.view ((s.view.put ⟨n, hn⟩
            { s.threads ⟨n, hn⟩ with state := .ready }).tell
              [traceThreadUnblock (s.threads ⟨n, hn⟩).tid]) := by
          refine .change ⟨n, hn⟩ _ _ ?_ rfl ?_
          · show (s.threads ⟨n, hn⟩).state ≠ .empty
            rw [hst]
            decide
          · show Told _ (s.threads ⟨n, hn⟩).state .ready _
            rw [hst]
            exact .unblock
        refine .single ?_
        simp only [emit, setThread, Function.update_self]
        exact hturn
    · exact .refl

theorem wakeWaiter_turns (s : Core) (n : Nat) {e : Event} (he : e.silent = true) :
    Turns undo s.view (s.wakeWaiter n e).view := by
  unfold wakeWaiter
  split
  · exact (s.emit_turns he).trans (threadUnblockSlot_turns _ n)
  · exact .refl

theorem mutexUnlock_turns (s : Core) (m : Addr) :
    Turns undo s.view (s.mutexUnlock m).2.view := by
  unfold mutexUnlock
  split
  · exact .refl
  · split
    · exact .refl
    · split
      · exact .refl
      · split
        · exact .refl
        · refine .trans ?_ (emit_turns _ rfl)
          dsimp only
          split
          · refine .trans (view_turns ?_) (wakeWaiter_turns _ _ rfl)
            rfl
          · exact .refl

theorem semPost_turns (s : Core) (a : Addr) : Turns undo s.view (s.semPost a).2.view := by
  unfold semPost
  split
  · exact .refl
  · split
    · exact .refl
    · split
      · dsimp only
        -- the waiter's entry leaves the queue, the waiter is woken, the post is told
        generalize hq : Core.log (Core.setSem s a _) _ = q
        have hqueue : q.view = s.view := hq ▸ rfl
        rw [← hqueue]
        exact (wakeWaiter_turns q _ rfl).trans (emit_turns _ rfl)
      · split
        · exact .refl
        · exact emit_turns (s.setSem a _) rfl

theorem condSignal_turns (s : Core) (c : Addr) :
    Turns undo s.view (s.condSignal c).2.view := by
  unfold condSignal
  split
  · exact .refl
  · split
    · exact .refl
    · split
      · refine .trans (view_turns ?_) (wakeWaiter_turns _ _ rfl)
        rfl
      · exact .refl

theorem condBroadcast_turns (s : Core) (c : Addr) :
    Turns undo s.view (s.condBroadcast c).2.view := by
  have hloop : ∀ n, Turns undo s.view (s.broadcastLoop c 0 n).2.view := by
    intro n
    refine broadcastLoop_inv (I := fun t => Turns undo s.view t.view) ?_ n s 0 .refl
    intro t ht _
    exact ht.trans (threadUnblockSlot_turns (t.setCond c _) _)
  unfold condBroadcast
  split
  · exact .refl
  · split
    · exact .refl
    · exact (hloop _).trans (emit_turns _ rfl)

/-! ### Threads that leave the CPU -/

/-- Saving a context is not told. -/
theorem swapOut_turns (s : Core) (x : Ctx) (f : Frame) (hne : (s.threads i).state ≠ .empty) :
    Turns undo s.view (s.swapOut i x f).view := by
  have hsave : Turn undo s.view ((s.view.put i
      { s.threads i with ctx := some ⟨x, f⟩ }).tell []) := .change i _ [] hne rfl (.save _)
  rw [View.tell_nil] at hsave
  exact .single hsave

/-- The running thread's record is written, and the events `es` tell it. -/
theorem Live.change (h : s.Live (.green i)) {r : ThreadRecord} (es : List Event)
    (htid : r.tid = (s.threads i).tid) (htold : Told s.currentTid (s.threads i).state r.state es)
    (ht : t.view = (s.view.put i r).tell es) : Turns undo s.view t.view := by
  rw [h.ctx.current, ← htid] at htold
  rw [ht]
  exact .single (.change i r es h.ne_empty htid htold)

theorem Live.lockLoop_turns (h : s.Live (.green i)) (m : Addr) (via : Option Addr) (fuel : Nat) :
    Turns undo s.view (s.lockLoop (.green i) m i via (fuel + 1)).view := by
  unfold Core.lockLoop
  split
  · split
    · exact .refl
    · dsimp only
      rw [slot_mod_256, Current.threadBlock (s := s.setMutex m _)
        ⟨h.current.init, h.current.ne_zero, h.current.find⟩]
      exact h.change (r := { s.threads i with state := .blocked, ctx := _ }) _ rfl
        (.block h.ctx.state) rfl
  · exact emit_turns (s.setMutex m _) rfl

theorem Live.mutexLock_turns (h : s.Live x) (m : Addr) (via : Option Addr) :
    Turns undo s.view (s.mutexLock x m via).view := by
  unfold Core.mutexLock
  split
  · exact .refl
  · split
    · exact .refl
    · split
      · split
        · exact .refl
        · dsimp only
          rcases h.knows.slotIndex_cases with hidx | ⟨i, rfl, hcur, hidx⟩
          · rw [hidx, if_pos (by decide)]
            exact .refl
          · rw [hidx, if_neg (Nat.not_le_of_lt i.isLt)]
            split
            · exact .refl
            · rw [slot_mod_256]
              generalize hu : s.setMutex m _ = u
              have hview : u.view = s.view := by rw [← hu]; rfl
              have hlive : (u.emit (traceMutexWait u.threadSelf m)).Live (.green i) := by
                rw [← hu]
                exact ⟨h.body, h.ctx⟩
              rw [hlive.current.threadBlock, ← hview]
              refine (u.emit_turns (e := traceMutexWait u.threadSelf m) rfl).trans ?_
              exact hlive.change (r := { u.threads i with state := .blocked, ctx := _ }) _ rfl
                (.block hlive.ctx.state) rfl
      · exact emit_turns (s.setMutex m _) rfl

theorem Live.semWait_turns (h : s.Live x) (a : Addr) :
    Turns undo s.view (s.semWait x a).view := by
  rcases semWait_inv s x a with ⟨st, -, hw, -⟩ | ⟨-, hc, e, rfl, hw⟩ | ⟨hlt, -, -, -, -, hw⟩ <;> rw [hw]
  · exact .refl
  · exact .single (.take s.threadSelf a (s.sems a).count hc)
  · rcases h.knows.slotIndex_cases with hidx | ⟨i, rfl, -, hidx⟩
    · omega
    obtain rfl : i = ⟨s.threadCurrentSlotIndex, hlt⟩ := Fin.ext hidx.symm
    generalize (⟨s.threadCurrentSlotIndex, hlt⟩ : Slot) = i at h
    -- the caller is marked and told, and leaves the CPU
    have hself : s.threadSelf = s.currentTid := if_pos h.body.init
    have hqueued : Turns undo s.view (s.semQueued (.green i) a i).view := by
      refine h.change (r := { s.threads i with state := .blocked })
        [traceSemWait s.currentTid a 0] rfl (.semWait a h.ctx.state) ?_
      rw [← hself]
      rfl
    refine hqueued.trans (swapOut_turns _ _ _ ?_)
    show (Function.update s.threads i _ i).state ≠ .empty
    rw [Function.update_self]
    intro hst
    cases hst

theorem Live.condWait_turns (h : s.Live x) (c m : Addr)
    (hundo : s.failsLate (.condWait c m) = true → undo) :
    Turns undo s.view (s.condWait x c m).view := by
  rcases condWait_inv s x c m with ⟨st, -, hw, -⟩ | ⟨hlt, hcm, hinit, hfull, hcases⟩
  · rw [hw]
    exact .refl
  rcases h.knows.slotIndex_cases with hidx | ⟨i, rfl, -, hidx⟩
  · omega
  obtain rfl : i = ⟨s.threadCurrentSlotIndex, hlt⟩ := Fin.ext hidx.symm
  generalize (⟨s.threadCurrentSlotIndex, hlt⟩ : Slot) = i at h hcases
  -- the caller is marked and told, then the mutex is released
  have hself : s.threadSelf = s.currentTid := if_pos h.body.init
  have hqueued : Turns undo s.view (s.condQueued c i).view := by
    refine h.change (r := { s.threads i with state := .blocked })
      [traceCondWait s.currentTid c] rfl (.condWait c h.ctx.state) ?_
    rw [← hself]
    rfl
  have hunlock : Turns undo (s.condQueued c i).view ((s.condQueued c i).mutexUnlock m).2.view :=
    mutexUnlock_turns _ m
  have hstatus : ((s.condQueued c i).mutexUnlock m).1 = (s.mutexUnlock m).1 :=
    mutexUnlock_status rfl rfl
  have hne : (((s.condQueued c i).mutexUnlock m).2.threads i).state ≠ .empty := by
    have hst : ((s.condQueued c i).threads i).state = .blocked := by
      show (Function.update s.threads i _ i).state = .blocked
      rw [Function.update_self]
    rcases woken_mutexUnlock (s.condQueued c i) m i with hsame | ⟨-, hready⟩
    · rw [hsame, hst]
      decide
    · rw [hready]
      exact nofun
  rcases hcases with ⟨v, hv, hw⟩ | ⟨st, v, hst, hv, hw⟩
  · rw [hv] at hunlock hne
    rw [hw]
    exact (hqueued.trans hunlock).trans (swapOut_turns (v.log _) _ _ hne)
  · rw [hv] at hunlock hstatus hne
    rw [hw]
    refine (hqueued.trans hunlock).tail (.undo i _ (hundo (decide_eq_true ?_)) hne rfl rfl)
    exact ⟨hcm, hinit, hlt, hfull, hstatus ▸ hst⟩

/-- A late failure of `gth_cond_wait`: the caller runs on, and all that is told is `COND_WAIT`. -/
theorem Live.condWait_failsLate (h : s.Live x) {c m : Addr}
    (hlate : s.failsLate (.condWait c m) = true) : ∃ i, x = .green i ∧
      ((s.condWait x c m).threads i).tid = (s.threads i).tid ∧
      ((s.condWait x c m).threads i).state = .running ∧
      (s.condWait x c m).events = s.events ++ [traceCondWait (s.threads i).tid c] := by
  obtain ⟨hcm, hinit, hlt, hfull, hfail⟩ := of_decide_eq_true hlate
  rcases condWait_inv s x c m with ⟨st, -, -, hnot⟩ | ⟨hlt, -, -, -, hcases⟩
  · exact absurd hlt (hnot ⟨hcm, hinit, hfull⟩)
  rcases h.knows.slotIndex_cases with hidx | ⟨i, rfl, -, hidx⟩
  · omega
  obtain rfl : i = ⟨s.threadCurrentSlotIndex, hlt⟩ := Fin.ext hidx.symm
  generalize (⟨s.threadCurrentSlotIndex, hlt⟩ : Slot) = i at h hcases
  have hstatus : ((s.condQueued c i).mutexUnlock m).1 = (s.mutexUnlock m).1 :=
    mutexUnlock_status rfl rfl
  rcases hcases with ⟨v, hv, -⟩ | ⟨st, v, hst, hv, hw⟩
  · rw [hv] at hstatus
    exact absurd hstatus.symm hfail
  · -- a failed `gth_mutex_unlock` changes nothing
    obtain rfl : v = s.condQueued c i := by
      rcases mutexUnlock_cases (s := s.condQueued c i) m with ⟨st', -, hsame⟩ | ⟨-, -, -, -, hok⟩
      · exact congrArg Prod.snd (hv.symm.trans hsame)
      · rcases hok with ⟨-, e, hok⟩ | ⟨-, e, e', hok⟩ <;>
          exact absurd (congrArg Prod.fst (hv.symm.trans hok)) hst
    have hself : s.threadSelf = (s.threads i).tid := h.threadSelf
    refine ⟨i, rfl, ?_, ?_, ?_⟩
    · rw [hw]
      show (Function.update (Function.update s.threads i _) i _ i).tid = _
      rw [Function.update_self, condQueued]
      show (Function.update s.threads i _ i).tid = _
      rw [Function.update_self]
    · rw [hw]
      show (Function.update (Function.update s.threads i _) i _ i).state = _
      rw [Function.update_self]
    · rw [hw, ← hself]
      rfl

theorem Live.threadYield_turns (h : s.Live x) :
    Turns undo s.view (s.threadYield x).view := by
  unfold Core.threadYield
  split
  · exact .refl
  · split
    · exact .refl
    · rename_i h0
      split
      · exact .refl
      · rename_i i hfind
        cases x with
        | main => exact absurd h.ctx.1 h0
        | green j =>
          obtain rfl : i = j := h.knows.self i hfind
          simp only [swapOut, setThread, Function.update_self, Function.update_idem]
          exact h.change (r := { s.threads i with state := .ready, ctx := _ }) _ rfl
            (.yield h.ctx.state) rfl

theorem Live.threadExit_turns (h : s.Live (.green i)) (result : Nat) :
    Turns undo s.view (s.threadExit i result).view := by
  unfold Core.threadExit
  rcases h.ctx.state with hst | hst
  · refine h.change (r := { s.threads i with retval := result, state := .done })
      [traceThreadExit s.currentTid result] rfl (hst ▸ .exit result) ?_
    rw [if_pos (by rw [hst]; decide), h.ctx.current]
    simp only [view, View.put, View.tell, Core.emit, setThread, Function.update_self]
  · refine h.change (r := { s.threads i with retval := 0 })
      [traceThreadExit s.currentTid 0] rfl ?_ ?_
    · show Told _ (s.threads i).state (s.threads i).state _
      rw [hst]
      exact .exitCanceled 0
    · rw [if_neg (not_not_intro hst), h.ctx.current]
      simp only [view, View.put, View.tell, Core.emit, setThread, Function.update_self]

/-! ### Threads that come and go -/

theorem setThreadState_events (s : Core) (i : Slot) (st : ThreadState) :
    (s.setThreadState i st).events = s.events := by
  unfold setThreadState
  split
  · rfl
  · show (s.accountStateChange _ st).events = s.events
    unfold accountStateChange
    dsimp only
    split_ifs <;> rfl

/-- What a cancellation tells. -/
theorem threadCancel_events (hk : s.Knows x) {tid : Tid} (htid : tid ≠ 0)
    (hfind : findThread s.threads tid = some i)
    (hterm : threadIsTerminal (s.threads i).state = false) :
    (s.threadCancel tid).2.events = s.events ++ (if (s.threads i).state = .blocked
      then [traceThreadCancel tid, traceThreadUnblock tid] else [traceThreadCancel tid]) := by
  obtain ⟨hne, rfl⟩ := findThread_some hfind
  unfold threadCancel
  rw [if_neg (by rw [hk.init]; decide), if_neg htid, hfind]
  dsimp only
  rw [hterm, if_neg Bool.false_ne_true]
  show (setThreadState (if (s.threads i).state = .blocked then
    ((s.emit _).threadUnblockSlot (s.threads i).slotIndex).2 else s.emit _) i .canceled).events = _
  rw [setThreadState_events]
  by_cases hblk : (s.threads i).state = .blocked
  · rw [if_pos hblk, if_pos hblk, hk.tids.index i hne]
    rcases threadUnblockSlot_cases (s := s.emit (traceThreadCancel (s.threads i).tid)) hk.init i with
      ⟨hnb, -⟩ | ⟨j, hj, -, hw⟩
    · exact absurd hblk (hnb i rfl)
    · obtain rfl : j = i := Fin.ext hj
      rw [hw]
      exact List.append_assoc _ _ _
  · rw [if_neg hblk, if_neg hblk]
    rfl

theorem Live.threadCancel_turns (h : s.Live x) (tid : Tid) :
    Turns undo s.view (s.threadCancel tid).2.view := by
  rcases threadCancel_cases h.knows tid with ⟨st, -, hc⟩ | ⟨i, es, hfind, hterm, hc⟩
  · exact view_turns (by rw [hc])
  have htid : tid ≠ 0 := by
    rintro rfl
    rw [h.body.tids.find_zero] at hfind
    cases hfind
  have hevents := threadCancel_events h.knows htid hfind hterm
  obtain ⟨hne, htid'⟩ := findThread_some hfind
  rw [hc] at hevents ⊢
  have hview : (s.cancelSlot i es).view = (s.view.put i
      { s.threads i with state := .canceled, retval := 0 }).tell (if (s.threads i).state = .blocked
        then [traceThreadCancel tid, traceThreadUnblock tid] else [traceThreadCancel tid]) :=
    congrArg (View.mk s.issued _) hevents
  rw [hview, ← htid']
  refine .single (.change i _ _ hne rfl ?_)
  show Told (s.threads i).tid (s.threads i).state .canceled _
  generalize (s.threads i).state = st at hne hterm
  cases st with
  | empty => exact absurd rfl hne
  | ready => exact .cancel (.inl rfl)
  | running => exact .cancel (.inr rfl)
  | blocked => exact .cancelBlocked
  | done => cases hterm
  | canceled => cases hterm

/-- What a creation tells. -/
theorem threadCreate_events (s : Core) (outTid : Bool) (attr : Option Nat) (fn arg : Nat)
    (env : MapEnv) (hok : (s.threadCreate outTid attr fn arg env).1.status = .ok) :
    (s.threadCreate outTid attr fn arg env).2.events
      = s.events ++ [traceThreadCreate s.nextTid] := by
  revert hok
  unfold threadCreate
  split
  · intro hok
    cases hok
  · split
    · intro hok
      cases hok
    · split
      · intro hok
        cases hok
      · dsimp only
        split
        · exact fun _ => rfl
        · rename_i hne _
          exact fun hok => absurd hok hne

theorem Live.threadCreate_turns (h : s.Live x) (outTid : Bool) (attr : Option Nat) (fn arg : Nat)
    (env : MapEnv) (hlt : (s.threadCreate outTid attr fn arg env).2.issued < 2 ^ 64) :
    Turns undo s.view (s.threadCreate outTid attr fn arg env).2.view := by
  have hevents := threadCreate_events s outTid attr fn arg env
  rcases threadCreate_cases (s := s) outTid attr fn arg env with
    ⟨st, -, hc⟩ | ⟨i, -, ⟨st, -, hc⟩ | ⟨r, es, htid, hst, -, -, hc⟩⟩
  · exact view_turns (by rw [hc])
  · rw [hc]
    exact .single (.createFails i)
  · rw [hc] at hevents hlt ⊢
    have htold : es = s.events ++ [traceThreadCreate s.nextTid] := hevents rfl
    have hnext : r.tid = s.issued + 1 := by
      rw [htid, h.body.tids.next]
      exact Nat.mod_eq_of_lt hlt
    rw [htold, ← htid]
    exact .single (.create i r hnext hst)

theorem join_turns {tid : Tid} {out : Bool} (hj : JoinMove s x tid out t) :
    Turns undo s.view t.view := by
  cases hj with
  | fail st => exact .refl
  | sched target => exact .refl
  | free i runnable blocked retval _ => exact .single (.free i)

/-! ### The three kinds of code segment -/

theorem Live.exec_turns (h : s.Live x) {c : Call} (hcall : State.callable x c = true)
    (hlt : (s.exec x c).issued < 2 ^ 64) (hundo : s.failsLate c = true → undo) :
    Turns undo s.view (s.exec x c).view := by
  have hobj : ∀ (b : Prop) [Decidable b] (r r' : Status × Core),
      Turns undo s.view r.2.view → Turns undo s.view r'.2.view →
      Turns undo s.view (if b then r else r').2.view := by
    intro b _ r r' hr hr'
    split
    · exact hr
    · exact hr'
  cases c with
  | create outTid attr fn arg env => exact h.threadCreate_turns outTid attr fn arg env hlt
  | yield => exact h.threadYield_turns
  | join tid out => exact join_turns (s.threadJoin_move x tid out)
  | cancel tid => exact h.threadCancel_turns tid
  | exit retval =>
    cases x with
    | main => cases hcall
    | green i => exact h.threadExit_turns retval
  | self => exact .refl
  | getStats out => exact .refl
  | mutexInit m => exact hobj _ _ _ .refl .refl
  | mutexLock m => exact h.mutexLock_turns m none
  | mutexTrylock m => exact hobj _ _ _ .refl (hobj _ _ _ .refl (hobj _ _ _ .refl .refl))
  | mutexUnlock m => exact s.mutexUnlock_turns m
  | mutexDestroy m =>
    exact hobj _ _ _ .refl (hobj _ _ _ .refl (hobj _ _ _ .refl (hobj _ _ _ .refl .refl)))
  | semInit a n => exact hobj _ _ _ .refl .refl
  | semWait a => exact h.semWait_turns a
  | semPost a => exact s.semPost_turns a
  | semDestroy a => exact hobj _ _ _ .refl (hobj _ _ _ .refl (hobj _ _ _ .refl .refl))
  | condInit c => exact hobj _ _ _ .refl .refl
  | condWait cv m => exact h.condWait_turns cv m hundo
  | condSignal c => exact s.condSignal_turns c
  | condBroadcast c => exact s.condBroadcast_turns c
  | condDestroy c => exact hobj _ _ _ .refl (hobj _ _ _ .refl (hobj _ _ _ .refl .refl))

theorem runNext_turns (x : Ctx) (caller : Caller) {pick : Option Slot}
    (hpick : ∀ i, pick = some i → (s.threads i).state = .ready) :
    Turns undo s.view (s.runNext x caller pick).view := by
  cases pick with
  | none => cases caller <;> exact .refl
  | some i =>
    have hst := hpick i rfl
    rw [runNext_some]
    refine .single (.change i { s.threads i with state := .running }
      [traceContextSwitch s.currentTid (s.threads i).tid] ?_ rfl ?_)
    · show (s.threads i).state ≠ .empty
      rw [hst]
      decide
    · show Told _ (s.threads i).state .running _
      rw [hst]
      exact .dispatch _

theorem WF.resume_turns (h : s.WF) {k : Kont} (hcpu : s.cpu = .swap (some k)) :
    Turns undo s.view (s.resume k).view := by
  rcases h.swap hcpu with ⟨act, caller, rfl, -, -⟩ | ⟨i, f, rfl, hf, -, hlive⟩
  · cases caller with
    | yield => exact .refl
    | join tid out target =>
      let u : Core := { s with currentTid := 0, hist := .resume act .main :: s.hist }
      have hturns : Turns undo u.view _ := join_turns (joinLoop_move u .main tid out target)
      exact hturns
  · cases f with
    | entry => exact .refl
    | yield => exact .refl
    | semWait a => exact .refl
    | lock m mySlot via =>
      obtain rfl : mySlot = i := hf
      exact hlive.lockLoop_turns m via wqFixedSlots
    | condWait c m => exact hlive.mutexLock_turns m (some c)
    | runNext act prev caller => exact absurd hf id

end Core

/-! ## Reading the states of threads -/

/-- What a reader of the log makes of one more event; `none` if the event cannot be there. -/
def readLog (σ : Tid → ThreadState) (e : Event) : Option (Tid → ThreadState) :=
  match e.type with
  | .threadCreate => if σ e.tid = .empty then some (Function.update σ e.tid .ready) else none
  | .contextSwitch => if σ e.data2 = .ready then some (Function.update σ e.data2 .running) else none
  | .threadYield => if (σ e.tid).onCpu then some (Function.update σ e.tid .ready) else none
  | .threadBlock | .condWait =>
    if (σ e.tid).onCpu then some (Function.update σ e.tid .blocked) else none
  | .semWait =>
    if e.data2 ≠ 0 then some σ
    else if (σ e.tid).onCpu then some (Function.update σ e.tid .blocked) else none
  | .threadUnblock =>
    if σ e.tid = .blocked then some (Function.update σ e.tid .ready)
    else if σ e.tid = .canceled then some σ else none
  | .threadCancel =>
    if σ e.tid = .ready ∨ σ e.tid = .running ∨ σ e.tid = .blocked
    then some (Function.update σ e.tid .canceled) else none
  | .threadExit =>
    if σ e.tid = .running then some (Function.update σ e.tid .done)
    else if σ e.tid = .canceled then some σ else none
  | _ => some σ

/-- What the whole log tells, before which no thread exists. -/
def readAll (log : List Event) : Option (Tid → ThreadState) :=
  log.foldlM readLog fun _ => .empty

theorem readAll_append (log es : List Event) {σ : Tid → ThreadState} (h : readAll log = some σ) :
    readAll (log ++ es) = es.foldlM readLog σ := by
  unfold readAll at h ⊢
  rw [List.foldlM_append, h]
  rfl

/-- A silent event is passed over. -/
theorem readLog_silent {e : Event} (h : e.silent = true) (σ : Tid → ThreadState) :
    readLog σ e = some σ := by
  unfold Event.silent at h
  unfold readLog
  cases htype : e.type <;> rw [htype] at h <;> first | rfl | cases h

/-- **A change is read as it was.** -/
theorem Told.read {tid : Tid} {st st' : ThreadState} {es : List Event} (h : Told tid st st' es)
    {σ : Tid → ThreadState} (hσ : σ tid = st) :
    es.foldlM readLog σ = some (Function.update σ tid st') := by
  have hself : ∀ st, σ tid = st → some σ = some (Function.update σ tid st) := by
    rintro st rfl
    rw [Function.update_eq_self]
  cases h with
  | save => exact hself st hσ
  | dispatch fromTid =>
    show (if σ tid = .ready then some _ else none) >>= _ = _
    rw [if_pos hσ]
    rfl
  | yield hst =>
    show (if (σ tid).onCpu then some _ else none) >>= _ = _
    rw [if_pos (hσ ▸ hst)]
    rfl
  | block hst =>
    show (if (σ tid).onCpu then some _ else none) >>= _ = _
    rw [if_pos (hσ ▸ hst)]
    rfl
  | semWait a hst =>
    show (if (σ tid).onCpu then some _ else none) >>= _ = _
    rw [if_pos (hσ ▸ hst)]
    rfl
  | condWait c hst =>
    show (if (σ tid).onCpu then some _ else none) >>= _ = _
    rw [if_pos (hσ ▸ hst)]
    rfl
  | unblock =>
    show (if σ tid = .blocked then some _ else _) >>= _ = _
    rw [if_pos hσ]
    rfl
  | cancel hst =>
    show (if σ tid = .ready ∨ σ tid = .running ∨ σ tid = .blocked then some _ else none) >>= _ = _
    rw [if_pos (by rw [hσ]; exact hst.imp_right .inl)]
    rfl
  | cancelBlocked =>
    show (if σ tid = .ready ∨ σ tid = .running ∨ σ tid = .blocked then some _ else none) >>= _ = _
    rw [if_pos (.inr (.inr hσ))]
    -- the wake-up of a cancelled thread is passed over
    show (if Function.update σ tid .canceled tid = .blocked then some _
      else if Function.update σ tid .canceled tid = .canceled then some _ else none) >>= _ = _
    rw [Function.update_self, if_neg (by decide), if_pos rfl]
    rfl
  | exit retval =>
    show (if σ tid = .running then some _ else _) >>= _ = _
    rw [if_pos hσ]
    rfl
  | exitCanceled retval =>
    show (if σ tid = .running then some _ else if σ tid = .canceled then some σ else none) >>= _ = _
    rw [hσ, if_neg (by decide), if_pos rfl]
    exact hself .canceled hσ

/-- Tids of occupied slots are distinct and have been taken. -/
structure Ids (issued : Nat) (threads : Slot → ThreadRecord) : Prop where
  range : ∀ i, (threads i).state ≠ .empty → (threads i).tid ≤ issued
  inj : DistinctTids threads

namespace Ids
variable {issued : Nat} {threads : Slot → ThreadRecord} {i : Slot} {r : ThreadRecord}

theorem set (h : Ids issued threads)
    (hr : r.state ≠ .empty → (threads i).state ≠ .empty ∧ r.tid = (threads i).tid) :
    Ids issued (Function.update threads i r) := by
  have hsame : ∀ j, (Function.update threads i r j).state ≠ .empty →
      (threads j).state ≠ .empty ∧ (Function.update threads i r j).tid = (threads j).tid := by
    intro j hj
    by_cases hji : j = i
    · subst hji
      rw [Function.update_self] at hj ⊢
      exact hr hj
    · rw [Function.update_of_ne hji] at hj ⊢
      exact ⟨hj, rfl⟩
  refine ⟨fun j hj => ?_, fun j k hj hk hjk => ?_⟩
  · obtain ⟨hne, htid⟩ := hsame j hj
    rw [htid]
    exact h.range j hne
  · obtain ⟨hnej, htidj⟩ := hsame j hj
    obtain ⟨hnek, htidk⟩ := hsame k hk
    exact h.inj j k hnej hnek (htidj.symm.trans (hjk.trans htidk))

theorem bump (h : Ids issued threads) : Ids (issued + 1) threads :=
  ⟨fun j hj => Nat.le_succ_of_le (h.range j hj), h.inj⟩

/-- The next tid is new. -/
theorem ne_next (h : Ids issued threads) (htid : r.tid = issued + 1) {j : Slot}
    (hj : (threads j).state ≠ .empty) : (threads j).tid ≠ r.tid := by
  intro heq
  have hle := h.range j hj
  rw [heq, htid] at hle
  exact Nat.not_succ_le_self issued hle

theorem enter (h : Ids issued threads) (htid : r.tid = issued + 1) :
    Ids (issued + 1) (Function.update threads i r) := by
  refine ⟨fun j hj => ?_, fun j k hj hk hjk => ?_⟩
  · by_cases hji : j = i
    · subst hji
      rw [Function.update_self]
      exact htid.le
    · rw [Function.update_of_ne hji] at hj ⊢
      exact h.bump.range j hj
  · by_cases hji : j = i <;> by_cases hki : k = i
    · rw [hji, hki]
    · subst hji
      rw [Function.update_self, Function.update_of_ne hki] at hjk
      rw [Function.update_of_ne hki] at hk
      exact absurd hjk.symm (h.ne_next htid hk)
    · subst hki
      rw [Function.update_self, Function.update_of_ne hji] at hjk
      rw [Function.update_of_ne hji] at hj
      exact absurd hjk (h.ne_next htid hj)
    · rw [Function.update_of_ne hji] at hj hjk
      rw [Function.update_of_ne hki] at hk hjk
      exact h.inj j k hj hk hjk

end Ids

/-- `σ` is the state of every thread, and of no tid that has not been taken yet. -/
structure Agrees (σ : Tid → ThreadState) (issued : Nat) (threads : Slot → ThreadRecord) : Prop where
  state : ∀ i, (threads i).state ≠ .empty → σ (threads i).tid = (threads i).state
  fresh : ∀ tid, issued < tid → σ tid = .empty

namespace Agrees
variable {σ : Tid → ThreadState} {issued : Nat} {threads : Slot → ThreadRecord} {i : Slot}
  {r : ThreadRecord}

/-- One thread changes its state. -/
theorem set (h : Agrees σ issued threads) (hids : Ids issued threads)
    (hne : (threads i).state ≠ .empty) (htid : r.tid = (threads i).tid) :
    Agrees (Function.update σ r.tid r.state) issued (Function.update threads i r) := by
  refine ⟨fun j hj => ?_, fun tid hlt => ?_⟩
  · by_cases hji : j = i
    · subst hji
      rw [Function.update_self, Function.update_self]
    · rw [Function.update_of_ne hji] at hj ⊢
      rw [Function.update_of_ne, h.state j hj]
      rw [htid]
      exact fun heq => hji (hids.inj j i hj hne heq)
  · rw [Function.update_of_ne, h.fresh tid hlt]
    rintro rfl
    rw [htid] at hlt
    exact absurd (hids.range i hne) (Nat.not_le_of_lt hlt)

/-- A slot is emptied. -/
theorem free (h : Agrees σ issued threads) : Agrees σ issued (Function.update threads i {}) := by
  refine ⟨fun j hj => ?_, h.fresh⟩
  by_cases hji : j = i
  · subst hji
    rw [Function.update_self] at hj
    exact absurd rfl hj
  · rw [Function.update_of_ne hji] at hj ⊢
    exact h.state j hj

theorem bump (h : Agrees σ issued threads) : Agrees σ (issued + 1) threads :=
  ⟨h.state, fun tid hlt => h.fresh tid (Nat.lt_of_succ_lt hlt)⟩

/-- A thread is entered with the tid just taken. -/
theorem enter (h : Agrees σ issued threads) (hids : Ids issued threads)
    (htid : r.tid = issued + 1) :
    Agrees (Function.update σ r.tid r.state) (issued + 1) (Function.update threads i r) := by
  refine ⟨fun j hj => ?_, fun tid hlt => ?_⟩
  · by_cases hji : j = i
    · subst hji
      rw [Function.update_self, Function.update_self]
    · rw [Function.update_of_ne hji] at hj ⊢
      rw [Function.update_of_ne (hids.ne_next htid hj), h.state j hj]
  · rw [Function.update_of_ne, h.fresh tid (Nat.lt_of_succ_lt hlt)]
    rintro rfl
    rw [htid] at hlt
    exact absurd hlt (Nat.lt_irrefl _)

end Agrees

/-- The log, with the events of the segment, can be read and tells the state of every thread. -/
structure Shows (log : List Event) (v : View) : Prop where
  told : ∃ σ, readAll (log ++ v.events) = some σ ∧ Agrees σ v.issued v.threads
  ids : Ids v.issued v.threads

namespace Shows
variable {log : List Event} {v w : View}

/-- The next events are read. -/
theorem tell (h : Shows log v) (es : List Event) (σ' : (Tid → ThreadState) → Tid → ThreadState)
    (hevents : w.events = v.events ++ es) (hids : Ids w.issued w.threads)
    (hread : ∀ σ, Agrees σ v.issued v.threads →
      es.foldlM readLog σ = some (σ' σ) ∧ Agrees (σ' σ) w.issued w.threads) : Shows log w := by
  obtain ⟨⟨σ, hσ, hagree⟩, -⟩ := h
  obtain ⟨hfold, hagree'⟩ := hread σ hagree
  refine ⟨⟨σ' σ, ?_, hagree'⟩, hids⟩
  rw [hevents, ← List.append_assoc, readAll_append _ es hσ]
  exact hfold

/-- **One turn**, with no failure left untold. -/
theorem turn (h : Shows log v) (hm : Turn False v w) : Shows log w := by
  cases hm with
  | silent e he =>
    refine h.tell _ id rfl h.ids fun σ hσ => ⟨?_, hσ⟩
    show readLog σ e >>= _ = _
    rw [readLog_silent he]
    rfl
  | take tid a n hn =>
    refine h.tell _ id rfl h.ids fun σ hσ => ⟨?_, hσ⟩
    show (if n ≠ 0 then some σ else _) >>= _ = _
    rw [if_pos hn]
    rfl
  | change i r es hne htid htold =>
    refine h.tell _ (fun σ => Function.update σ r.tid r.state) rfl
      (h.ids.set fun _ => ⟨hne, htid⟩) fun σ hσ => ⟨htold.read ?_, hσ.set h.ids hne htid⟩
    rw [htid]
    exact hσ.state i hne
  | create i r htid hr =>
    refine h.tell _ (fun σ => Function.update σ r.tid r.state) rfl (h.ids.enter htid)
      fun σ hσ => ⟨?_, hσ.enter h.ids htid⟩
    show (if σ r.tid = .empty then some _ else none) >>= _ = _
    rw [if_pos (hσ.fresh _ (by rw [htid]; exact Nat.lt_succ_self _)), hr]
    rfl
  | createFails i =>
    exact h.tell [] id (List.append_nil _).symm (h.ids.bump.set nofun)
      fun σ hσ => ⟨rfl, hσ.bump.free⟩
  | free i =>
    exact h.tell [] id (List.append_nil _).symm (h.ids.set nofun)
      fun σ hσ => ⟨rfl, hσ.free⟩
  | undo i r hundo _ _ _ => exact absurd hundo id

theorem turns (h : Shows log v) (hm : Turns False v w) : Shows log w := by
  induction hm with
  | refl => exact h
  | tail _ hm ih => exact ih.turn hm

/-- The segment is over: its events are part of the log. -/
theorem close (h : Shows log v) : Shows (log ++ v.events) { v with events := [] } := by
  refine ⟨?_, h.ids⟩
  rw [List.append_nil]
  exact h.told

end Shows

/-! ## Whole runs -/

/-- The log tells the state of every thread. -/
def State.Legible (s : State) : Prop :=
  ∃ σ, readAll s.emitted = some σ ∧
    ∀ i, (s.core.threads i).state ≠ .empty →
      σ (s.core.threads i).tid = (s.core.threads i).state

/-- A state of a run with the labels `ls` still to come. -/
structure Ahead (ls : List Label) (s : State) : Prop where
  wf : s.core.WF
  join : JoinsFromMain ls
  issued : s.core.issued + creates ls < 2 ^ 64

namespace Ahead
variable {W : World} {l : Label} {ls : List Label} {s t : State}

theorem start {config : ValidConfig} {pageSize : BitVec 64} {files : Path → Option (List UInt8)}
    (hjoin : JoinsFromMain ls) (hcreates : creates ls < 2 ^ 64) :
    Ahead ls (State.start config pageSize files) :=
  ⟨State.start_wf config pageSize files, hjoin, by
    rw [State.start_core, Nat.zero_add]
    exact hcreates⟩

theorem step (h : Ahead (l :: ls) s) (hstep : State.step W s l = some t) : Ahead ls t := by
  have hlt := h.issued
  rw [creates_cons] at hlt
  obtain ⟨hwf, hle⟩ := State.step_wf h.wf (h.join l List.mem_cons_self) (by omega) hstep
  exact ⟨hwf, fun m hm => h.join m (List.mem_cons_of_mem l hm), by omega⟩

/-- **Every step is a sequence of turns**, and what they tell is added to the log. -/
theorem turns (undo : Prop) (h : Ahead (l :: ls) s)
    (hundo : ∀ x c, l = .call x c → s.fresh.failsLate c = true → undo)
    (hstep : State.step W s l = some t) :
    ∃ w, Turns undo s.fresh.view w ∧ t.fresh.view = { w with events := [] } ∧
      t.emitted = s.emitted ++ w.events := by
  have hfresh : s.fresh.WF := ⟨h.wf.body, h.wf.cpu⟩
  rcases State.step_cases hstep with ⟨x, c, rfl, -, rfl⟩ | ⟨x, c, rfl, hcpu, hcall, rfl⟩ |
      ⟨x, caller, pick, sub, rfl, hcpu, hp, rfl⟩ | ⟨k, rfl, hcpu, rfl⟩
  · exact ⟨s.fresh.view, .refl, rfl, (List.append_nil _).symm⟩
  · refine ⟨(s.fresh.exec x c).view, ?_, rfl, rfl⟩
    have hissued := Core.exec_issued_le s.fresh x c
    have hlt := h.issued
    rw [creates_cons] at hlt
    refine (hfresh.live hcpu).exec_turns hcall (Nat.lt_of_le_of_lt hissued ?_) (hundo x c rfl)
    show s.core.issued + (if (Label.call x c).isCreate then 1 else 0) < 2 ^ 64
    omega
  · refine ⟨(s.fresh.runNext x caller pick).view, ?_, rfl, rfl⟩
    obtain ⟨rfl, hlive, -⟩ := hfresh.sched hcpu
    refine Core.runNext_turns .main caller fun i hi => ?_
    subst hi
    exact (pickReadyThreadMode_state hp).resolve_right (hlive.ctx.2 i)
  · exact ⟨(s.fresh.resume k).view, hfresh.resume_turns hcpu, rfl, rfl⟩

/-- A step that leaves nothing untold. -/
theorem shows_step (h : Ahead (l :: ls) s) (hs : Shows s.emitted s.fresh.view)
    (hcall : State.OnCalls (fun s _ c => s.failsLate c = false) s l)
    (hstep : State.step W s l = some t) : Shows t.emitted t.fresh.view := by
  obtain ⟨w, hturns, hview, hemitted⟩ := h.turns False
    (fun x c hl hlate => absurd hlate (by rw [hcall x c hl]; decide)) hstep
  rw [hview, hemitted]
  exact (hs.turns hturns).close

/-- **A failure that is not told**: the log shows the caller blocked, but it runs. -/
theorem not_failsLate (h : Ahead (l :: ls) s) (hs : Shows s.emitted s.fresh.view)
    (hstep : State.step W s l = some t) (ht : t.Legible) :
    State.OnCalls (fun s _ c => s.failsLate c = false) s l := by
  rintro x c rfl
  refine Bool.eq_false_iff.mpr fun hlate => ?_
  obtain ⟨hcpu, hcore⟩ := State.step_call_inv hstep
  have hlive : s.fresh.Live x := Core.WF.live ⟨h.wf.body, h.wf.cpu⟩ hcpu
  have hemitted : t.emitted = s.emitted ++ (s.fresh.exec x c).events := by
    rcases State.step_cases hstep with ⟨_, _, he, -⟩ | ⟨y, d, he, -, -, rfl⟩ | ⟨_, _, _, _, he, -⟩ |
      ⟨_, he, -⟩
    · cases he
    · cases he
      rfl
    · cases he
    · cases he
  cases c with
  | condWait cv m =>
    obtain ⟨i, rfl, htid, hst, hevents⟩ := hlive.condWait_failsLate hlate
    obtain ⟨⟨σ, hσ, hagree⟩, -⟩ := hs
    obtain ⟨σ', hσ', hall⟩ := ht
    have hread : readAll t.emitted = some (Function.update σ (s.fresh.threads i).tid .blocked) := by
      rw [hemitted, show (s.fresh.exec (.green i) (.condWait cv m)).events = _ from hevents,
        ← List.append_assoc]
      refine (readAll_append _ _ hσ).trans ?_
      exact (Told.condWait cv hlive.ctx.state).read (hagree.state i hlive.ne_empty)
    have hrunning : (t.core.threads i).state = .running := hcore ▸ hst
    have hshown := hall i (by rw [hrunning]; decide)
    obtain rfl := Option.some.inj (hread.symm.trans hσ')
    rw [hrunning, show (t.core.threads i).tid = (s.fresh.threads i).tid from hcore ▸ htid,
      Function.update_self] at hshown
    cases hshown
  | _ => cases hlate

end Ahead

theorem State.start_emitted (config : ValidConfig) (pageSize : BitVec 64)
    (files : Path → Option (List UInt8)) : (State.start config pageSize files).emitted = [] := by
  simp only [State.start, runtimeInit, config.2, State.loaded, Bool.true_eq_false, if_false,
    Bool.false_eq_true]

namespace Sample

/-- A thread waits for a condition variable; `locks` says whether it has its mutex. -/
def conditional (locks : Bool) : List Label :=
  [main (.condInit 3), main (.mutexInit 7), main create, main (.join 1 true), .tau, .tau] ++
    (if locks then [green 0 (.mutexLock 7)] else []) ++ [green 0 (.condWait 3 7)]

end Sample

/-- What a reader of the log makes of one more event, for the count of the semaphore `a`. -/
def readCount (a : Addr) (n : Nat) (e : Event) : Nat :=
  if e.data1 = a then match e.type with
    | .semWait => e.data2 - 1
    | .semPost => e.data2
    | _ => n
  else n

theorem readCount_semWait (a b : Addr) (n : Nat) (tid : Tid) (countBefore : Nat) :
    readCount a n (traceSemWait tid b countBefore) = if b = a then countBefore - 1 else n := rfl

theorem readCount_semPost (a b : Addr) (n : Nat) (tid : Tid) (countAfter : Nat) :
    readCount a n (traceSemPost tid b countAfter) = if b = a then countAfter else n := rfl

/-- Only key events tell a count. -/
theorem readCount_other {a : Addr} {e : Event} (h : e.isKey = false) (n : Nat) :
    readCount a n e = n := by
  unfold Event.isKey at h
  unfold readCount
  split
  · cases htype : e.type <;> rw [htype] at h <;> first | rfl | cases h
  · rfl

theorem foldl_readCount_isKey (a : Addr) (es : List Event) :
    ∀ n, (es.filter Event.isKey).foldl (readCount a) n = es.foldl (readCount a) n := by
  induction es with
  | nil => exact fun _ => rfl
  | cons e es ih =>
    intro n
    cases hkey : e.isKey with
    | true =>
      rw [List.filter_cons_of_pos hkey]
      exact ih _
    | false =>
      rw [List.filter_cons_of_neg (by rw [hkey]; nofun), List.foldl_cons, readCount_other hkey]
      exact ih n

/-- **A code segment tells the count it leaves**, unless it initialises or destroys the
    semaphore. -/
theorem Core.KeyMove.recounts {s t : Core} {c : Option Call} {a : Addr} (h : KeyMove s c t)
    (hs : s.events = []) (hspare : ∀ d, c = some d → d.resets a = false) :
    t.events.foldl (readCount a) (s.sems a).count = (t.sems a).count := by
  rw [← foldl_readCount_isKey]
  show t.keys.events.foldl (readCount a) (s.keys.counts a) = t.keys.counts a
  have hempty := keys_events_nil hs
  have hsame : t.keys.events = s.keys.events → t.keys.counts = s.keys.counts →
      t.keys.events.foldl (readCount a) (s.keys.counts a) = t.keys.counts a := by
    intro hevents hcounts
    rw [hevents, hcounts, hempty]
    rfl
  -- an event on the semaphore `b` with the new count of `b`
  have hone : ∀ (b : Addr) (n : Nat) (e : Event),
      (∀ k, readCount a k e = if b = a then n else k) → t.keys = (s.keys.count b n).record e →
      t.keys.events.foldl (readCount a) (s.keys.counts a) = t.keys.counts a := by
    intro b n e he hkeys
    rw [hkeys, Keys.events_record (k := s.keys.count b n) hempty]
    refine (he _).trans ?_
    show _ = Function.update s.keys.counts b n a
    by_cases hb : b = a
    · subst hb
      rw [if_pos rfl, Function.update_self]
    · rw [if_neg hb, Function.update_of_ne (Ne.symm hb)]
  -- an event that is not about semaphores
  have hother : ∀ (k : Keys) (e : Event), (∀ n, readCount a n e = n) → k.events = s.keys.events →
      k.counts = s.keys.counts → t.keys = k.record e →
      t.keys.events.foldl (readCount a) (s.keys.counts a) = t.keys.counts a := by
    intro k e he hevents hcounts hkeys
    rw [hkeys, Keys.events_record (hevents.trans hempty)]
    refine (he _).trans ?_
    exact (congrFun hcounts a).symm
  cases h with
  | same h => exact hsame (by rw [h]) (by rw [h])
  | create _ h => exact hsame (by rw [h]) (by rw [h])
  | init m _ h => exact hsame (by rw [h]; rfl) (by rw [h]; rfl)
  | destroy m _ h => exact hsame (by rw [h]; rfl) (by rw [h]; rfl)
  | trylock m _ _ h => exact hsame (by rw [h]; rfl) (by rw [h]; rfl)
  | lock m _ h => exact hother (s.keysTaken m) (traceMutexLock _ m) (fun n => ite_self n) rfl rfl h
  | unlock m _ _ h =>
    exact hother (s.keysFreed m) (traceMutexUnlock _ m) (fun n => ite_self n) rfl rfl h
  | semReset d b n hc hd h =>
    have hb : b ≠ a := by
      rintro rfl
      exact Bool.false_ne_true ((hspare d hc).symm.trans hd)
    rw [h]
    show s.keys.events.foldl (readCount a) (s.keys.counts a) = Function.update s.keys.counts b n a
    rw [hempty, Function.update_of_ne (Ne.symm hb)]
    rfl
  | semWait b h => exact hone b _ _ (fun k => readCount_semWait a b k _ _) h
  | semPost b n h => exact hone b n _ (fun k => readCount_semPost a b k _ _) h

/-- Neither initialises nor destroys the semaphore `a`. -/
def Label.spares (a : Addr) : Label → Bool
  | .call _ c => !c.resets a
  | _ => true

/-- **One step** tells the count it leaves. -/
theorem State.step_recounts {W : World} {s t : State} {l : Label} {a : Addr}
    (hspare : l.spares a = true) (hstep : State.step W s l = some t) :
    ∃ es, t.emitted = s.emitted ++ es ∧
      es.foldl (readCount a) (s.core.sems a).count = (t.core.sems a).count := by
  rcases State.step_cases hstep with ⟨x, c, rfl, -, rfl⟩ | ⟨x, c, rfl, -, -, rfl⟩ |
      ⟨x, caller, pick, sub, rfl, -, -, rfl⟩ | ⟨k, rfl, -, rfl⟩
  · exact ⟨[], (List.append_nil _).symm, rfl⟩
  · refine ⟨(s.fresh.exec x c).events, rfl, (Core.exec_keyMove s.fresh x c).recounts rfl ?_⟩
    intro d hd
    obtain rfl : c = d := Option.some.inj hd
    exact Bool.not_eq_true' _ ▸ hspare
  · refine ⟨(s.fresh.runNext x caller pick).events, rfl, ?_⟩
    cases pick with
    | none => cases caller <;> rfl
    | some i => exact ite_self _
  · exact ⟨(s.fresh.resume k).events, rfl, (Core.resume_keyMove s.fresh k).recounts rfl nofun⟩

/-- **The log tells the count of a semaphore.**  From any state, and as long as the semaphore is not
    initialised again or destroyed, the events that have been added to the log give its count: the
    last `SEM_WAIT` or `SEM_POST` on it does. -/
theorem log_tells_count (W : World) (ls : List Label) (s t : State) (a : Addr)
    (hrun : Exec.exec (State.step W) s ls = some t) (hspare : ∀ l ∈ ls, l.spares a = true) :
    ∃ es, t.emitted = s.emitted ++ es ∧
      es.foldl (readCount a) (s.core.sems a).count = (t.core.sems a).count := by
  refine (Exec.exec_ahead (I := fun ls u => (∀ l ∈ ls, l.spares a = true) ∧
    ∃ es, u.emitted = s.emitted ++ es ∧
      es.foldl (readCount a) (s.core.sems a).count = (u.core.sems a).count)
    (fun l ls u w hI hw => ?_) ls s t ⟨hspare, [], (List.append_nil _).symm, rfl⟩ hrun).2
  obtain ⟨hspare, es, hes, hcount⟩ := hI
  obtain ⟨hl, hls⟩ := List.forall_mem_cons.mp hspare
  obtain ⟨es', hes', hcount'⟩ := State.step_recounts hl hw
  refine ⟨hls, es ++ es', ?_, ?_⟩
  · rw [hes', hes, List.append_assoc]
  · rw [List.foldl_append, hcount]
    exact hcount'

namespace Sample

/-- A semaphore with three permits. -/
def permits : State := (Exec.exec (State.step world) start [main (.semInit 5 3)]).getD start

end Sample

/-- Non-vacuous: two waits and a post. -/
theorem log_tells_count_sample :
    Exec.exec (State.step Sample.world) Sample.start [Sample.main (.semInit 5 3)]
      = some Sample.permits ∧
    ∃ t es, Exec.exec (State.step Sample.world) Sample.permits
        [Sample.main (.semWait 5), Sample.main (.semWait 5), Sample.main (.semPost 5)] = some t ∧
      t.emitted = Sample.permits.emitted ++ es ∧ (t.core.sems 5).count = 2 ∧
      es.foldl (readCount 5) 3 = (t.core.sems 5).count := by
  obtain ⟨es, hes, hcount⟩ := log_tells_count Sample.world
    [Sample.main (.semWait 5), Sample.main (.semWait 5), Sample.main (.semPost 5)] Sample.permits _ 5
    rfl (by decide)
  exact ⟨rfl, _, es, rfl, hes, rfl, hcount⟩

/-! ## Reading who has not ended -/

/-- Type and tid of an event, as a record has them. -/
def Event.pair (e : Event) : Nat × Nat := (e.type.code, e.tid % 2 ^ 32)

/-- What a record with this type says about its thread: that it has ended, that it goes on or waits,
    or neither. -/
def typeTells (code : Nat) : Option Bool :=
  if code = EventType.threadExit.code ∨ code = EventType.threadCancel.code then some false
  else if code = EventType.threadCreate.code ∨ code = EventType.threadYield.code ∨
      code = EventType.threadBlock.code ∨ code = EventType.semWait.code ∨
      code = EventType.condWait.code then some true
  else none

/-- What a reader of types and tids makes of one more record, for the thread `tid`. -/
def readAlive (tid : Nat) (alive : Bool) (p : Nat × Nat) : Bool :=
  if p.2 = tid then (typeTells p.1).getD alive else alive

/-- The last the records say of the thread `tid` is not that it has ended. -/
def aliveAfter (ps : List (Nat × Nat)) (tid : Nat) : Bool := ps.foldl (readAlive tid) false

theorem readAlive_of_ne {n : Nat} {e : Event} (h : n ≠ e.tid % 2 ^ 32) (b : Bool) :
    readAlive n b e.pair = b := if_neg (Ne.symm h)

theorem readAlive_of_none {e : Event} (h : typeTells e.type.code = none) (n : Nat) (b : Bool) :
    readAlive n b e.pair = b := by
  unfold readAlive Event.pair
  rw [h, Option.getD_none, ite_self]

theorem readAlive_of_true {e : Event} (h : typeTells e.type.code = some true) (b : Bool) :
    readAlive (e.tid % 2 ^ 32) b e.pair = true := by
  unfold readAlive Event.pair
  rw [h, if_pos rfl, Option.getD_some]

theorem typeTells_silent {e : Event} (h : e.silent = true) : typeTells e.type.code = none := by
  unfold Event.silent at h
  cases htype : e.type <;> rw [htype] at h <;> first | rfl | cases h

/-- Who is not mentioned is not alive. -/
theorem mem_of_aliveAfter {ps : List (Nat × Nat)} {tid : Nat} (h : aliveAfter ps tid = true) :
    ∃ p ∈ ps, p.2 = tid := by
  by_contra hnone
  have hfold : ∀ qs : List (Nat × Nat), (∀ q ∈ qs, q.2 ≠ tid) →
      qs.foldl (readAlive tid) false = false := by
    intro qs
    induction qs with
    | nil => exact fun _ => rfl
    | cons q qs ih =>
      intro hqs
      obtain ⟨hq, hqs⟩ := List.forall_mem_cons.mp hqs
      rw [List.foldl_cons, readAlive, if_neg hq]
      exact ih hqs
  rw [aliveAfter, hfold ps fun p hp heq => hnone ⟨p, hp, heq⟩] at h
  cases h

section
variable {tid : Tid} {st st' : ThreadState} {es : List Event}

/-- No change empties a slot. -/
theorem Told.ne_empty (h : Told tid st st' es) (hst : st ≠ .empty) : st' ≠ .empty := by
  cases h with
  | save => exact hst
  | _ => decide

/-- What is told of one thread leaves the others alone. -/
theorem Told.others (h : Told tid st st' es) {n : Nat} (hn : n ≠ tid % 2 ^ 32) (b : Bool) :
    (es.map Event.pair).foldl (readAlive n) b = b := by
  cases h with
  | save => rfl
  | dispatch fromTid => exact readAlive_of_none rfl n b
  | cancelBlocked =>
    show readAlive n (readAlive n b _) _ = b
    rw [readAlive_of_ne (e := traceThreadCancel tid) hn,
      readAlive_of_ne (e := traceThreadUnblock tid) hn]
  | _ => exact readAlive_of_ne hn b

/-- **Who is `READY` or `BLOCKED` is alive.** -/
theorem Told.alive (h : Told tid st st' es) (hst' : st' = .ready ∨ st' = .blocked) {b : Bool}
    (hb : st = .ready ∨ st = .blocked → b = true) :
    (es.map Event.pair).foldl (readAlive (tid % 2 ^ 32)) b = true := by
  cases h with
  | save => exact hb hst'
  | yield | block | semWait | condWait => exact readAlive_of_true rfl b
  | unblock => exact (readAlive_of_none rfl _ b).trans (hb (Or.inr rfl))
  | dispatch | cancel | cancelBlocked | exit | exitCanceled => rcases hst' with h | h <;> cases h

end

/-- Among tids that fit into a record, different threads have different tids there. -/
theorem Ids.mod_ne {issued : Nat} {threads : Slot → ThreadRecord} (h : Ids issued threads)
    (hlt : issued < 2 ^ 32) {i j : Slot} (hi : (threads i).state ≠ .empty)
    (hj : (threads j).state ≠ .empty) (hji : j ≠ i) :
    (threads j).tid % 2 ^ 32 ≠ (threads i).tid % 2 ^ 32 := by
  rw [Nat.mod_eq_of_lt (Nat.lt_of_le_of_lt (h.range i hi) hlt),
    Nat.mod_eq_of_lt (Nat.lt_of_le_of_lt (h.range j hj) hlt)]
  exact fun heq => hji (h.inj j i hj hi heq)

/-- The log, with the events of the segment, shows every thread that is `READY` or `BLOCKED` as
    alive. -/
structure Heard (log : List Event) (v : View) : Prop where
  ids : Ids v.issued v.threads
  alive : ∀ i, (v.threads i).state = .ready ∨ (v.threads i).state = .blocked →
    aliveAfter ((log ++ v.events).map Event.pair) ((v.threads i).tid % 2 ^ 32) = true

namespace Heard
variable {log : List Event} {v w : View} {undo : Prop}

/-- The next events are read. -/
theorem tell (h : Heard log v) (es : List Event) (hevents : w.events = v.events ++ es)
    (hids : Ids w.issued w.threads)
    (hread : ∀ i, (w.threads i).state = .ready ∨ (w.threads i).state = .blocked → ∀ b,
      ((v.threads i).state = .ready ∨ (v.threads i).state = .blocked →
        (v.threads i).tid = (w.threads i).tid → b = true) →
      (es.map Event.pair).foldl (readAlive ((w.threads i).tid % 2 ^ 32)) b = true) :
    Heard log w := by
  refine ⟨hids, fun i hi => ?_⟩
  rw [hevents, ← List.append_assoc, List.map_append, aliveAfter, List.foldl_append]
  refine hread i hi _ fun hv htid => ?_
  rw [← htid]
  exact h.alive i hv

/-- The record of slot `i` is overwritten, and the other threads are not spoken of. -/
theorem put (h : Heard log v) (hlt : w.issued < 2 ^ 32) {i : Slot} {r : ThreadRecord}
    (es : List Event) (hthreads : w.threads = Function.update v.threads i r)
    (hevents : w.events = v.events ++ es) (hids : Ids w.issued w.threads)
    (hself : r.state = .ready ∨ r.state = .blocked → ∀ b,
      ((v.threads i).state = .ready ∨ (v.threads i).state = .blocked →
        (v.threads i).tid = r.tid → b = true) →
      (es.map Event.pair).foldl (readAlive (r.tid % 2 ^ 32)) b = true)
    (hothers : ∀ n b, (r.state ≠ .empty → n ≠ r.tid % 2 ^ 32) →
      (es.map Event.pair).foldl (readAlive n) b = b) : Heard log w := by
  refine h.tell es hevents hids fun j hj b hb => ?_
  have hi : w.threads i = r := by rw [hthreads, Function.update_self]
  by_cases hji : j = i
  · subst hji
    rw [hi] at hj hb ⊢
    exact hself hj b hb
  · have hsame : w.threads j = v.threads j := by rw [hthreads, Function.update_of_ne hji]
    have hne : (w.threads j).state ≠ .empty := by
      rcases hj with hj | hj <;> rw [hj] <;> decide
    rw [hothers _ _ fun hr => hi ▸ hids.mod_ne hlt (hi.symm ▸ hr) hne hji]
    rw [hsame] at hj hb
    exact hb hj rfl

/-- No record is overwritten. -/
theorem stay (h : Heard log v) (es : List Event) (hthreads : w.threads = v.threads)
    (hissued : w.issued = v.issued) (hevents : w.events = v.events ++ es)
    (hread : ∀ n, (es.map Event.pair).foldl (readAlive n) true = true) : Heard log w := by
  refine h.tell es hevents (by rw [hissued, hthreads]; exact h.ids) fun i hi b hb => ?_
  rw [hthreads] at hi hb
  rw [hb hi rfl]
  exact hread _

theorem turn_issued (hm : Turn undo v w) : v.issued ≤ w.issued := by
  cases hm with
  | create | createFails => exact Nat.le_succ v.issued
  | _ => exact Nat.le_refl v.issued

/-- **One turn.** -/
theorem turn (h : Heard log v) (hlt : w.issued < 2 ^ 32) (hm : Turn undo v w) :
    Heard log w := by
  cases hm with
  | silent e he =>
    exact h.stay [e] rfl rfl rfl fun n => readAlive_of_none (typeTells_silent he) n true
  | take tid a n _ =>
    refine h.stay [traceSemWait tid a n] rfl rfl rfl fun k => ?_
    by_cases hk : k = tid % 2 ^ 32
    · subst hk
      exact readAlive_of_true (e := traceSemWait tid a n) rfl true
    · exact readAlive_of_ne (e := traceSemWait tid a n) hk true
  | change i r es hne htid htold =>
    refine h.put hlt es rfl rfl (h.ids.set fun _ => ⟨hne, htid⟩)
      (fun hr b hb => htold.alive hr fun hst => hb hst htid.symm)
      fun n b hn => htold.others (hn (htold.ne_empty hne)) b
  | create i r htid hr =>
    exact h.put hlt [traceThreadCreate r.tid] rfl rfl (h.ids.enter htid)
      (fun _ b _ => readAlive_of_true rfl b)
      fun n b hn => readAlive_of_ne (hn (by rw [hr]; decide)) b
  | createFails i =>
    exact h.put hlt [] rfl (List.append_nil _).symm (h.ids.bump.set nofun)
      (fun hr => by rcases hr with hr | hr <;> cases hr) fun _ _ _ => rfl
  | free i =>
    exact h.put hlt [] rfl (List.append_nil _).symm (h.ids.set nofun)
      (fun hr => by rcases hr with hr | hr <;> cases hr) fun _ _ _ => rfl
  | undo i r _ hne htid hr =>
    refine h.put hlt [] rfl (List.append_nil _).symm (h.ids.set fun _ => ⟨hne, htid⟩)
      (fun hr' => ?_) fun _ _ _ => rfl
    rw [hr] at hr'
    rcases hr' with hr' | hr' <;> cases hr'

theorem turns (h : Heard log v) (hlt : w.issued < 2 ^ 32) (hm : Turns undo v w) :
    Heard log w := by
  induction hm with
  | refl => exact h
  | tail _ hm ih => exact (ih (Nat.lt_of_le_of_lt (turn_issued hm) hlt)).turn hlt hm

theorem close (h : Heard log v) : Heard (log ++ v.events) { v with events := [] } := by
  refine ⟨h.ids, ?_⟩
  rw [List.append_nil]
  exact h.alive

end Heard

end Gth

/-
  Control comes back to user code, and `GTH_EBUSY` means deadlock.

  Between two calls of user code the runtime takes steps of its own: it picks a thread, switches to
  it, and the thread goes on inside the function it was suspended in.  There it may find its mutex
  taken again and block at once, so one call can lead to many switches.  It cannot go on forever: a
  thread that is picked is no longer `READY`, and no internal step makes a thread `READY`.  Three
  internal steps at most lead from one pick to the next (`Core.pending`).

  The scheduler gives up when it finds nothing to pick.  A join then returns `GTH_EBUSY`, and this
  is the right diagnosis: nothing but main is left that could run, the joined thread has not ended,
  it is blocked in one of the three waits, and this stays so until main itself makes a call that can
  wake or start a thread.
-/
import Gthreads.WellFormed
import Gthreads.Lib.Simulation

namespace Gth

/-! ## The measure -/

/-- How far the CPU is from user code: after a pick it passes through a thread, the dispatcher and
    the scheduler. -/
def Cpu.stage : Cpu → Nat
  | .user _ => 0
  | .sched _ _ => 1
  | .swap (some ⟨.main, _⟩) => 2
  | .swap _ => 3

namespace Core
variable {s : Core} {x : Ctx} {i : Slot}

/-- A bound on the number of internal steps that are still to come. -/
def pending (s : Core) : Nat := 3 * countState .ready s.threads + s.cpu.stage

/-- A write that neither makes nor takes a `READY` thread. -/
theorem countState_ready_set {threads : Slot → ThreadRecord} {r : ThreadRecord}
    (h : (threads i).state ≠ .ready) (hr : r.state ≠ .ready) :
    countState .ready (Function.update threads i r) = countState .ready threads := by
  have hset := countState_update .ready threads i r
  rwa [if_neg h, if_neg hr] at hset

/-- Back in user code with the `READY` threads as they were. -/
theorem pending_user {t : Core} (hcpu : t.cpu = .user x)
    (hready : countState .ready t.threads = countState .ready s.threads) (n : Nat) :
    t.pending < 3 * countState .ready s.threads + (n + 1) := by
  unfold pending
  rw [hcpu, hready]
  show 3 * countState .ready s.threads + 0 < _
  omega

/-- A running thread that blocks again goes back to the dispatcher. -/
theorem pending_lockPark (h : s.Live (.green i)) (hst : (s.threads i).state = .running) (m : Addr)
    (via : Option Addr) (es : List Event) :
    (s.lockPark i m via es).pending < 3 * countState .ready s.threads + 3 := by
  obtain ⟨act, caller, hsched, -⟩ := h.ctx.sched
  have hready : countState .ready (s.lockPark i m via es).threads
      = countState .ready s.threads :=
    countState_ready_set (by rw [hst]; decide) nofun
  unfold pending
  rw [hready]
  show 3 * countState .ready s.threads + (Cpu.swap s.schedulerCtx).stage < _
  rw [hsched]
  show 3 * countState .ready s.threads + 2 < _
  omega

/-- **A thread that goes on** returns to user code or blocks again. -/
theorem pending_enter (h : s.Live (.green i)) (hst : (s.threads i).state = .running) {f : Frame}
    (hf : f.Parked i) :
    (s.resume ⟨.green i, f⟩).pending < 3 * countState .ready s.threads + 3 := by
  cases f with
  | entry => exact pending_user (x := .green i) rfl rfl 2
  | yield => exact pending_user (x := .green i) rfl rfl 2
  | semWait a => exact pending_user (x := .green i) rfl rfl 2
  | runNext act prev caller => exact absurd hf id
  | lock m mySlot via =>
    obtain rfl : mySlot = i := hf
    show (s.lockLoop (.green i) m i via (wqFixedSlots + 1)).pending < _
    rcases lockLoop_cases h.current m via wqFixedSlots with ⟨-, -, hl⟩ | ⟨-, -, es, hl⟩ | ⟨-, hl⟩
    · rw [hl]
      exact pending_user (x := .green i) rfl rfl 2
    · rw [hl]
      exact pending_lockPark h hst m via es
    · rw [hl]
      exact pending_user (x := .green i) rfl rfl 2
  | condWait c m =>
    show (s.mutexLock (.green i) m (some c)).pending < _
    rcases mutexLock_cases h.knows m (some c) with
        ⟨st, -, -, hl⟩ | ⟨-, -, hl⟩ | ⟨j, es, hj, -, -, -, -, -, hl⟩
    · rw [hl]
      exact pending_user (x := .green i) rfl rfl 2
    · rw [hl]
      exact pending_user (x := .green i) rfl rfl 2
    · obtain rfl : i = j := Ctx.green.inj hj
      rw [hl]
      exact pending_lockPark h hst m (some c) es

/-- **The dispatcher that goes on** returns to main or enters the scheduler again. -/
theorem pending_back {act : Nat} {caller : Caller} (h : Live { s with currentTid := 0 } .main)
    (hcaller : CallerOk s.threads caller) :
    (s.resume ⟨.main, .runNext act 0 caller⟩).pending
      < 3 * countState .ready s.threads + 2 := by
  cases caller with
  | yield => exact pending_user (x := .main) rfl rfl 1
  | join tid out target =>
    have hk : Knows { s with currentTid := 0, hist := .resume act .main :: s.hist } .main :=
      ⟨h.knows.init, h.knows.tids, h.knows.self⟩
    show (joinLoop { s with currentTid := 0, hist := .resume act .main :: s.hist } .main tid out
      target).pending < _
    rcases joinLoop_cases hk hcaller with ⟨hterm, hj⟩ | hj
    · rw [hj]
      refine pending_user (x := .main) rfl ?_ 1
      refine countState_ready_set (fun hr => ?_) (by decide)
      rw [show (s.threads target).state = .ready from hr] at hterm
      cases hterm
    · rw [hj]
      show 3 * countState .ready s.threads + 1 < _
      omega

/-- **The scheduler** returns to main, or a thread is `READY` no more. -/
theorem pending_sched (h : s.Live .main) {caller : Caller} {pick : Option Slot}
    (hpick : ∀ i, pick = some i → (s.threads i).state = .ready) :
    (s.runNext .main caller pick).pending < 3 * countState .ready s.threads + 1 := by
  cases pick with
  | none =>
    cases caller with
    | yield => exact pending_user (x := .main) rfl rfl 0
    | join tid out target => exact pending_user (x := .main) rfl rfl 0
  | some i =>
    have hst := hpick i rfl
    obtain ⟨f, hctx, -, -⟩ := h.body.parked i (Or.inl hst)
    have hcount := countState_update .ready s.threads i { s.threads i with state := .running }
    rw [if_pos hst, if_neg nofun] at hcount
    rw [runNext_some]
    show 3 * countState .ready (Function.update s.threads i _) + (Cpu.swap (s.threads i).ctx).stage
      < _
    rw [hctx]
    show 3 * countState .ready (Function.update s.threads i _) + 3 < _
    omega

end Core

/-! ## Control comes back -/

namespace State
variable {W : World}

/-- The runtime has nothing to do before user code makes its next call; or the fuzzer draws numbers
    for longer than the fuel lasts. -/
def AtRest (W : World) (s : State) : Prop :=
  (∃ x, s.core.cpu = .user x) ∨
    (s.sub.mode = .fuzz ∧
      s.sub.pickReadyThreadMode W s.core.config.policy s.core.threads = none)

/-- Only the fuzzer can fail to come to a decision. -/
theorem pick_none {u : Sub} {policy : Policy} {threads : Slot → ThreadRecord}
    (h : u.pickReadyThreadMode W policy threads = none) : u.mode = .fuzz := by
  by_contra hmode
  by_cases hreplay : u.mode = .replay → u.replay = none
  · rw [pickReadyThreadMode_policy W policy hreplay fun hm => absurd hm hmode] at h
    cases h
  · obtain ⟨hm, hr⟩ := Classical.not_imp.mp hreplay
    obtain ⟨r, hr⟩ := Option.ne_none_iff_exists'.mp hr
    rw [pickReadyThreadMode_replay W policy hm hr] at h
    cases h

/-- The scheduler's step. -/
theorem step_tau_sched {s t : State} {x : Ctx} {caller : Caller}
    (hcpu : s.core.cpu = .sched x caller) (hstep : step W s .tau = some t) :
    ∃ pick sub,
      s.sub.pickReadyThreadMode W s.core.config.policy s.core.threads = some (pick, sub) ∧
      t = { s with sub := sub }.settle W (s.fresh.runNext x caller pick) := by
  dsimp only [step] at hstep
  rw [hcpu] at hstep
  obtain ⟨⟨pick, sub⟩, hpick, ht⟩ := Option.map_eq_some_iff.mp hstep
  exact ⟨pick, sub, hpick, ht.symm⟩

/-- **One internal step**: it is possible, and brings control closer to user code. -/
theorem tau_step {s : State} (hwf : s.core.WF) (hrest : ¬ s.AtRest W) :
    ∃ t, step W s .tau = some t ∧ t.core.WF ∧ t.core.pending < s.core.pending := by
  have hfresh : s.fresh.WF := ⟨hwf.body, hwf.cpu⟩
  cases hcpu : s.core.cpu with
  | user x => exact absurd (Or.inl ⟨x, hcpu⟩) hrest
  | sched x caller =>
    cases hpick : s.sub.pickReadyThreadMode W s.core.config.policy s.core.threads with
    | none => exact absurd (Or.inr ⟨pick_none hpick, hpick⟩) hrest
    | some p =>
      obtain ⟨pick, sub⟩ := p
      obtain ⟨rfl, hlive, -⟩ := hfresh.sched hcpu
      have hready : ∀ i, pick = some i → (s.fresh.threads i).state = .ready := by
        rintro i rfl
        exact (pickReadyThreadMode_state hpick).resolve_right (hlive.ctx.2 i)
      refine ⟨_, step_sched hcpu hpick, hfresh.runNext hcpu fun i hi => Or.inl (hready i hi), ?_⟩
      have hμ : s.core.pending = 3 * countState .ready s.core.threads + 1 := by
        unfold Core.pending
        rw [hcpu]
        rfl
      rw [hμ]
      exact Core.pending_sched hlive hready
  | swap k =>
    have hc := hwf.cpu
    rw [hcpu] at hc
    obtain ⟨k, rfl⟩ : ∃ k', k = some k' := by cases hc <;> exact ⟨_, rfl⟩
    refine ⟨_, step_swap hcpu, hfresh.resume hcpu, ?_⟩
    show (s.fresh.resume k).pending < 3 * countState .ready s.core.threads + s.core.cpu.stage
    rw [hcpu]
    rcases hfresh.swap hcpu with ⟨act, caller, rfl, hlive, hcaller⟩ | ⟨i, f, rfl, hf, hst, hlive⟩
    · exact Core.pending_back hlive hcaller
    · exact Core.pending_enter hlive hst hf

end State

/-- **The runtime always gives control back to user code.**  From every state of a run in which only
    main joins, at most three internal steps for each `READY` thread, and three more, lead to user
    code, unless the fuzzer's rejection loop does not end. -/
theorem control_returns (W : World) (config : ValidConfig) (pageSize : BitVec 64)
    (files : Path → Option (List UInt8)) (ls : List Label) (s : State)
    (hrun : Exec.exec (State.step W) (State.start config pageSize files) ls = some s)
    (hjoin : JoinsFromMain ls) (hcreates : creates ls < 2 ^ 64) :
    ∃ k ≤ 3 * countState .ready s.core.threads + 3, ∃ t,
      Exec.exec (State.step W) s (List.replicate k .tau) = some t ∧ t.AtRest W := by
  obtain ⟨hwf, -⟩ := State.reach_wf hrun hjoin hcreates
  have hbound : s.core.pending ≤ 3 * countState .ready s.core.threads + 3 := by
    have hstage : s.core.cpu.stage ≤ 3 := by
      unfold Cpu.stage
      split <;> omega
    unfold Core.pending
    omega
  obtain ⟨k, hk, t, ht, -, hrest⟩ := Exec.exec_rests (l := Label.tau)
    (I := fun s => s.core.WF) (Q := State.AtRest W) (μ := fun s => s.core.pending)
    (fun s hwf hrest => State.tau_step hwf hrest) _ s hbound hwf
  exact ⟨k, hk, t, ht, hrest⟩

theorem control_returns_sample :
    ∃ s, Exec.exec (State.step Sample.world) Sample.start
        [Sample.main Sample.create, Sample.main (.join 1 true)] = some s ∧
      s.core.cpu = .sched .main (.join 1 true 0) ∧
      ∃ k ≤ 3 * countState .ready s.core.threads + 3, ∃ t,
        Exec.exec (State.step Sample.world) s (List.replicate k .tau) = some t ∧
        t.AtRest Sample.world :=
  ⟨_, rfl, rfl, control_returns Sample.world Sample.config 4096#64 (fun _ => none)
    [Sample.main Sample.create, Sample.main (.join 1 true)] _ rfl
    (by unfold JoinsFromMain; decide) (by decide)⟩

/-! ## Deadlock -/

/-- No thread can run. -/
def Deadlock (threads : Slot → ThreadRecord) : Prop :=
  ∀ i, (threads i).state ≠ .ready ∧ (threads i).state ≠ .running

/-- The thread of slot `i` is suspended in a wait for a mutex, a semaphore or a condition. -/
def Waiting (threads : Slot → ThreadRecord) (i : Slot) : Prop :=
  (threads i).state = .blocked ∧
    ∃ f obj, (threads i).ctx = some ⟨.green i, f⟩ ∧ f.waits = some obj

namespace Core
variable {s t : Core} {x : Ctx}

/-- In a deadlock every thread that has not ended is waiting. -/
theorem WF.waiting (h : s.WF) (hdead : Deadlock s.threads) {i : Slot}
    (hne : (s.threads i).state ≠ .empty) (hterm : threadIsTerminal (s.threads i).state = false) :
    Waiting s.threads i := by
  obtain ⟨hready, hrunning⟩ := hdead i
  have hst : (s.threads i).state = .blocked := by
    generalize (s.threads i).state = st at hne hterm hready hrunning
    cases st with
    | blocked => rfl
    | empty => exact absurd rfl hne
    | ready => exact absurd rfl hready
    | running => exact absurd rfl hrunning
    | done => cases hterm
    | canceled => cases hterm
  obtain ⟨f, hctx, -, hwaits⟩ := h.body.parked i (Or.inr hst)
  obtain ⟨obj, hobj⟩ := Option.ne_none_iff_exists'.mp (hwaits hst)
  exact ⟨hst, f, obj, hctx, hobj⟩

/-- A join that enters the scheduler has found its thread unfinished. -/
def JoinOpen (s : Core) : Prop :=
  ∀ x tid out target, s.cpu = .sched x (.join tid out target) →
    threadIsTerminal (s.threads target).state = false

theorem JoinOpen.of_user (h : s.cpu = .user x) : s.JoinOpen := by
  intro y tid out target hcpu
  rw [h] at hcpu
  cases hcpu

theorem JoinOpen.of_swap {k : Option Kont} (h : s.cpu = .swap k) : s.JoinOpen := by
  intro y tid out target hcpu
  rw [h] at hcpu
  cases hcpu

theorem joinOpen_joinLoop (s : Core) (x : Ctx) (tid : Tid) (out : Bool) (target : Slot) :
    (s.joinLoop x tid out target).JoinOpen := by
  unfold joinLoop
  cases hterm : threadIsTerminal (s.threads target).state with
  | false =>
    intro y tid' out' target' hcpu
    obtain ⟨-, hcaller⟩ := Cpu.sched.inj hcpu
    obtain ⟨-, -, rfl⟩ := Caller.join.inj hcaller
    exact hterm
  | true =>
    rw [if_pos rfl]
    split
    · exact .of_user rfl
    · exact .of_user rfl

theorem joinOpen_mutexLock (hk : s.Knows x) (m : Addr) (via : Option Addr) :
    (s.mutexLock x m via).JoinOpen := by
  rcases mutexLock_cases hk m via with
      ⟨st, -, -, hl⟩ | ⟨-, -, hl⟩ | ⟨i, es, rfl, -, -, -, -, -, hl⟩
  · exact hl ▸ .of_user rfl
  · exact hl ▸ .of_user rfl
  · exact hl ▸ .of_swap rfl

theorem joinOpen_exec (h : s.Live x) (c : Call) (hcall : State.callable x c = true) :
    (s.exec x c).JoinOpen := by
  cases c with
  | yield =>
    show (s.threadYield x).JoinOpen
    rcases threadYield_cases h.knows with ⟨-, hy⟩ | ⟨-, hy⟩ | ⟨i, es, rfl, -, hy⟩
    · rw [hy]
      intro y tid out target hcpu
      obtain ⟨-, hcaller⟩ := Cpu.sched.inj hcpu
      cases hcaller
    · exact hy ▸ .of_user rfl
    · exact hy ▸ .of_swap rfl
  | join tid out =>
    show (s.threadJoin x tid out).JoinOpen
    rcases threadJoin_cases h.knows tid out with ⟨st, -, hj⟩ | ⟨i, -, -, ⟨-, hj⟩ | ⟨hterm, hj⟩⟩
    · exact hj ▸ .of_user rfl
    · exact hj ▸ .of_user rfl
    · rw [hj]
      intro y tid' out' target' hcpu
      obtain ⟨-, hcaller⟩ := Cpu.sched.inj hcpu
      obtain ⟨-, -, rfl⟩ := Caller.join.inj hcaller
      exact hterm
  | exit retval =>
    cases x with
    | main => cases hcall
    | green i => exact .of_swap rfl
  | mutexLock m => exact joinOpen_mutexLock h.knows m none
  | semWait a =>
    show (s.semWait x a).JoinOpen
    rcases semWait_cases h.knows a with ⟨st, -, hw⟩ | ⟨-, -, es, hw⟩ | ⟨i, es, rfl, -, -, -, -, hw⟩
    · exact hw ▸ .of_user rfl
    · exact hw ▸ .of_user rfl
    · exact hw ▸ .of_swap rfl
  | condWait c m =>
    show (s.condWait x c m).JoinOpen
    rcases condWait_cases h.knows c m with ⟨st, -, hw⟩ | ⟨i, rfl, -, -, -, hcases⟩
    · exact hw ▸ .of_user rfl
    rcases hcases with ⟨st, es, -, hw⟩ | ⟨-, -, -, ⟨-, es, hw⟩ | ⟨-, es, P, rfl, hwake⟩⟩
    · exact hw ▸ .of_user rfl
    · exact hw ▸ .of_swap rfl
    · rcases hwake with ⟨-, hw⟩ | ⟨j, -, -, es', hw⟩
      · exact hw ▸ .of_swap rfl
      · exact hw ▸ .of_swap rfl
  | create | cancel | self | getStats | mutexInit | mutexTrylock | mutexUnlock | mutexDestroy
  | semInit | semPost | semDestroy | condInit | condSignal | condBroadcast | condDestroy =>
    exact .of_user rfl

theorem joinOpen_resume {k : Kont} (h : s.WF) (hcpu : s.cpu = .swap (some k)) :
    (s.resume k).JoinOpen := by
  rcases h.swap hcpu with ⟨act, caller, rfl, -, -⟩ | ⟨i, f, rfl, hf, -, hlive⟩
  · cases caller with
    | yield => exact .of_user rfl
    | join tid out target => exact joinOpen_joinLoop _ .main tid out target
  · cases f with
    | entry => exact .of_user rfl
    | yield => exact .of_user rfl
    | semWait a => exact .of_user rfl
    | runNext act prev caller => exact absurd hf id
    | condWait c m => exact joinOpen_mutexLock hlive.knows m (some c)
    | lock m mySlot via =>
      obtain rfl : mySlot = i := hf
      show (s.lockLoop (.green i) m i via (wqFixedSlots + 1)).JoinOpen
      rcases lockLoop_cases hlive.current m via wqFixedSlots with
        ⟨-, -, hl⟩ | ⟨-, -, es, hl⟩ | ⟨-, hl⟩
      · exact hl ▸ .of_user rfl
      · exact hl ▸ .of_swap rfl
      · exact hl ▸ .of_user rfl

end Core

theorem keeps_joinOpen : Keeps Core.JoinOpen fun _ _ _ => True where
  fresh := fun _ h => h
  call := fun _ _ c hwf hcpu hcall _ _ _ _ => Core.joinOpen_exec (hwf.live hcpu) c hcall
  pick := by
    intro s caller pick _ _ _ _ _
    cases pick with
    | none => cases caller <;> exact .of_user rfl
    | some i => exact .of_swap (k := (s.threads i).ctx) (by rw [Core.runNext_some]; rfl)
  swap := fun _ _ hwf hcpu _ _ => Core.joinOpen_resume hwf hcpu

/-- **`GTH_EBUSY` from a join means deadlock**, and deadlock means `GTH_EBUSY`.  When a join outside
    replay runs the scheduler, it is main's, and it returns `GTH_EBUSY` just if no thread can run.
    Then nothing has changed, and the joined thread is waiting for a mutex, a semaphore or a
    condition variable, like every other thread that has not ended. -/
theorem join_ebusy_iff_deadlock (W : World) (config : ValidConfig) (pageSize : BitVec 64)
    (files : Path → Option (List UInt8)) (ls : List Label) (s t : State)
    (hrun : Exec.exec (State.step W) (State.start config pageSize files) ls = some s)
    (hjoin : JoinsFromMain ls) (hcreates : creates ls < 2 ^ 64) (x : Ctx) (tid : Tid) (out : Bool)
    (target : Slot) (hcpu : s.core.cpu = .sched x (.join tid out target))
    (hmode : s.sub.mode ≠ .replay) (hstep : State.step W s .tau = some t) :
    (t.core.hist = .ret 0 (.join tid out) ⟨.ebusy, []⟩ :: s.core.hist ↔ Deadlock s.core.threads) ∧
    (Deadlock s.core.threads → t.core.cpu = .user .main ∧ t.core.threads = s.core.threads ∧
      (s.core.threads target).tid = tid ∧
      ∀ i, (s.core.threads i).state ≠ .empty → threadIsTerminal (s.core.threads i).state = false →
        Waiting s.core.threads i) ∧
    (s.core.threads target).state ≠ .empty ∧
    threadIsTerminal (s.core.threads target).state = false := by
  obtain ⟨hwf, hopen⟩ := keeps_joinOpen.reach (.of_user (by rw [State.start_core])) hjoin hcreates
    (Exec.along_of_forall ls _ fun _ _ _ _ _ _ => trivial) hrun
  obtain ⟨rfl, hlive, hcaller⟩ := hwf.sched hcpu
  -- what the scheduler found decides both sides
  have hfound : (Deadlock s.core.threads ∧
      t.core = s.fresh.ret .main (.join tid out) ⟨.ebusy, []⟩) ∨
      (¬ Deadlock s.core.threads ∧ ∃ i, t.core = s.fresh.dispatch .main (.join tid out target) i) := by
    obtain ⟨pick, sub, hpick, rfl⟩ := State.step_tau_sched hcpu hstep
    cases pick with
    | none =>
      refine Or.inl ⟨fun i => ⟨pickReadyThreadMode_none hmode hpick i, hlive.ctx.2 i⟩, rfl⟩
    | some i =>
      refine Or.inr ⟨fun hdead => ?_, i, s.fresh.runNext_some .main _ i⟩
      rcases pickReadyThreadMode_state hpick with hst | hst
      · exact (hdead i).1 hst
      · exact (hdead i).2 hst
  refine ⟨⟨fun hhist => ?_, fun hdead => ?_⟩, fun hdead => ?_, hcaller.1, hopen _ _ _ _ hcpu⟩
  · rcases hfound with ⟨hdead, -⟩ | ⟨-, i, ht⟩
    · exact hdead
    · rw [ht] at hhist
      obtain ⟨hne, -⟩ := List.cons.inj hhist
      cases hne
  · rcases hfound with ⟨-, ht⟩ | ⟨hnot, -⟩
    · rw [ht]
      rfl
    · exact absurd hdead hnot
  · rcases hfound with ⟨-, ht⟩ | ⟨hnot, -⟩
    · rw [ht]
      exact ⟨rfl, rfl, hcaller.2, fun i hne hterm => hwf.waiting hdead hne hterm⟩
    · exact absurd hdead hnot

namespace Sample

/-- Main joins a thread that waits for a semaphore nobody posts. -/
def starved : List Label :=
  [main (.semInit 5 0), main create, main (.join 1 true), .tau, .tau, green 0 (.semWait 5), .tau]

end Sample

theorem join_ebusy_iff_deadlock_starved :
    ∃ s t, Exec.exec (State.step Sample.world) Sample.start Sample.starved = some s ∧
      State.step Sample.world s .tau = some t ∧ Deadlock s.core.threads ∧
      t.core.hist = .ret 0 (.join 1 true) ⟨.ebusy, []⟩ :: s.core.hist := by
  refine ⟨_, _, rfl, rfl, ?_, ?_⟩
  · unfold Deadlock
    decide +kernel
  · refine (join_ebusy_iff_deadlock Sample.world Sample.config 4096#64 (fun _ => none)
      Sample.starved _ _ rfl (by unfold JoinsFromMain; decide) (by decide) .main 1 true 0 rfl
      (by decide) rfl).1.mpr ?_
    unfold Deadlock
    decide +kernel

/-! ## Deadlock is stable -/

/-- The calls that can make a thread `READY`. -/
def Call.canWake : Call → Bool
  | .create _ _ _ _ _ | .mutexUnlock _ | .semPost _ | .condSignal _ | .condBroadcast _ => true
  | _ => false

def Label.canWake : Label → Bool
  | .call _ c => c.canWake
  | _ => false

/-- Main is in user code or looks for a thread to run. -/
def OnMain : Cpu → Prop
  | .user x => x = .main
  | .sched x _ => x = .main
  | .swap _ => False

theorem Deadlock.set {threads : Slot → ThreadRecord} (h : Deadlock threads) {i : Slot}
    {r : ThreadRecord} (hready : r.state ≠ .ready) (hrunning : r.state ≠ .running) :
    Deadlock (Function.update threads i r) := by
  intro j
  by_cases hji : j = i
  · subst hji
    rw [Function.update_self]
    exact ⟨hready, hrunning⟩
  · rw [Function.update_of_ne hji]
    exact h j

namespace Core
variable {s : Core}

/-- A call by main that cannot wake a thread. -/
theorem exec_deadlock (h : s.Live .main) (hdead : Deadlock s.threads) {c : Call}
    (hcall : State.callable .main c = true) (hc : c.canWake = false) :
    Deadlock (s.exec .main c).threads ∧ OnMain (s.exec .main c).cpu := by
  have hobj : ∀ (b : Prop) [Decidable b] (r r' : Status × Core), Deadlock r.2.threads →
      Deadlock r'.2.threads → Deadlock (if b then r else r').2.threads := by
    intro b _ r r' hr hr'
    split
    · exact hr
    · exact hr'
  cases c with
  | create | mutexUnlock | semPost | condSignal | condBroadcast => cases hc
  | exit retval => cases hcall
  | self | getStats => exact ⟨hdead, rfl⟩
  | yield =>
    show Deadlock (s.threadYield .main).threads ∧ OnMain (s.threadYield .main).cpu
    rcases threadYield_cases h.knows with ⟨-, hy⟩ | ⟨-, hy⟩ | ⟨i, es, hx, -⟩
    · rw [hy]
      exact ⟨hdead, rfl⟩
    · rw [hy]
      exact ⟨hdead, rfl⟩
    · cases hx
  | join tid out =>
    show Deadlock (s.threadJoin .main tid out).threads ∧ OnMain (s.threadJoin .main tid out).cpu
    rcases threadJoin_cases h.knows tid out with ⟨st, -, hj⟩ | ⟨i, -, -, ⟨-, hj⟩ | ⟨-, hj⟩⟩
    · rw [hj]
      exact ⟨hdead, rfl⟩
    · rw [hj]
      exact ⟨hdead.set nofun nofun, rfl⟩
    · rw [hj]
      exact ⟨hdead, rfl⟩
  | cancel tid =>
    refine ⟨?_, rfl⟩
    show Deadlock (s.threadCancel tid).2.threads
    rcases threadCancel_cases h.knows tid with ⟨st, -, hk⟩ | ⟨i, es, -, -, hk⟩
    · rw [hk]
      exact hdead
    · rw [hk]
      exact hdead.set nofun nofun
  | mutexLock m =>
    show Deadlock (s.mutexLock .main m none).threads ∧ OnMain (s.mutexLock .main m none).cpu
    rcases mutexLock_cases h.knows m none with ⟨st, -, -, hl⟩ | ⟨-, -, hl⟩ | ⟨i, es, hx, -⟩
    · rw [hl]
      exact ⟨hdead, rfl⟩
    · rw [hl]
      exact ⟨hdead, rfl⟩
    · cases hx
  | semWait a =>
    show Deadlock (s.semWait .main a).threads ∧ OnMain (s.semWait .main a).cpu
    rcases semWait_cases h.knows a with ⟨st, -, hw⟩ | ⟨-, -, es, hw⟩ | ⟨i, es, hx, -⟩
    · rw [hw]
      exact ⟨hdead, rfl⟩
    · rw [hw]
      exact ⟨hdead, rfl⟩
    · cases hx
  | condWait c m =>
    show Deadlock (s.condWait .main c m).threads ∧ OnMain (s.condWait .main c m).cpu
    rcases condWait_cases h.knows c m with ⟨st, -, hw⟩ | ⟨i, hx, -⟩
    · rw [hw]
      exact ⟨hdead, rfl⟩
    · cases hx
  | mutexInit | semInit | condInit => exact ⟨hobj _ _ _ hdead hdead, rfl⟩
  | mutexTrylock | semDestroy | condDestroy =>
    exact ⟨hobj _ _ _ hdead (hobj _ _ _ hdead (hobj _ _ _ hdead hdead)), rfl⟩
  | mutexDestroy =>
    exact ⟨hobj _ _ _ hdead (hobj _ _ _ hdead (hobj _ _ _ hdead (hobj _ _ _ hdead hdead))), rfl⟩

end Core

/-- A well-formed state in which only main can go on. -/
structure Halted (s : State) : Prop where
  wf : s.core.WF
  dead : Deadlock s.core.threads
  main : OnMain s.core.cpu
  issued : s.core.issued < 2 ^ 64

/-- **One step of a deadlocked program.** -/
theorem Halted.step {W : World} {s t : State} (h : Halted s) {l : Label} (hl : l.canWake = false)
    (hstep : State.step W s l = some t) :
    Halted t ∧ t.core.contextSwitches = s.core.contextSwitches := by
  have hfresh : s.fresh.WF := ⟨h.wf.body, h.wf.cpu⟩
  have hmain := h.main
  rcases State.step_cases hstep with ⟨x, c, rfl, hcpu, rfl⟩ | ⟨x, c, rfl, hcpu, hcall, rfl⟩ |
      ⟨x, caller, pick, sub, rfl, hcpu, hpick, rfl⟩ | ⟨k, rfl, hcpu, rfl⟩
  · exact ⟨⟨h.wf, h.dead, h.main, h.issued⟩, rfl⟩
  · rw [hcpu] at hmain
    obtain rfl : x = .main := hmain
    have hcreate : c.isCreate = false := by
      cases c <;> first | rfl | cases hl
    have hfixed := Core.exec_fixed s.fresh .main hcreate
    have hissued : (s.fresh.exec .main c).issued = s.core.issued := Core.issued_of_fixed hfixed
    have hwf : (s.fresh.exec .main c).WF := (hfresh.live hcpu).exec hcall (by cases c <;> rfl)
      (by rw [hissued]; exact h.issued)
    obtain ⟨hdead, hon⟩ := Core.exec_deadlock (hfresh.live hcpu) h.dead hcall hl
    refine ⟨⟨hwf, hdead, hon, hissued.trans_lt h.issued⟩, ?_⟩
    exact congrArg (fun p => p.2.2.2.2.2.1) hfixed
  · obtain ⟨rfl, hlive, -⟩ := hfresh.sched hcpu
    cases pick with
    | some i =>
      rcases pickReadyThreadMode_state hpick with hst | hst
      · exact absurd hst (h.dead i).1
      · exact absurd hst (h.dead i).2
    | none =>
      have hwf : (s.fresh.runNext .main caller none).WF := hfresh.runNext hcpu nofun
      cases caller with
      | yield => exact ⟨⟨hwf, h.dead, rfl, h.issued⟩, rfl⟩
      | join tid out target => exact ⟨⟨hwf, h.dead, rfl, h.issued⟩, rfl⟩
  · rw [hcpu] at hmain
    exact absurd hmain id

/-- **Deadlock is stable.**  Once main runs and no thread can, no thread is dispatched again,
    whatever main does and in whatever mode, until main makes a call that can wake or start one. -/
theorem deadlock_is_stable (W : World) (config : ValidConfig) (pageSize : BitVec 64)
    (files : Path → Option (List UInt8)) (ls : List Label) (s : State)
    (hrun : Exec.exec (State.step W) (State.start config pageSize files) ls = some s)
    (hjoin : JoinsFromMain ls) (hcreates : creates ls < 2 ^ 64) (hcpu : s.core.cpu = .user .main)
    (hdead : Deadlock s.core.threads) (ms : List Label) (hms : ∀ l ∈ ms, l.canWake = false)
    (t : State) (hrun' : Exec.exec (State.step W) s ms = some t) :
    Deadlock t.core.threads ∧ OnMain t.core.cpu ∧
      t.core.contextSwitches = s.core.contextSwitches := by
  obtain ⟨hwf, hissued⟩ := State.reach_wf hrun hjoin hcreates
  have hhalted : Halted s := ⟨hwf, hdead, by rw [hcpu]; rfl, hissued.trans_lt hcreates⟩
  have hinv := Exec.exec_inv (G := fun _ l => l.canWake = false)
    (I := fun u : State => Halted u ∧ u.core.contextSwitches = s.core.contextSwitches)
    (fun u l v hu hl hv => ?_) ms s t ⟨hhalted, rfl⟩
    (Exec.along_of_forall ms s fun l hl _ => hms l hl) hrun'
  · exact ⟨hinv.1.dead, hinv.1.main, hinv.2⟩
  · obtain ⟨hh, hc⟩ := hu
    obtain ⟨hh', hc'⟩ := hh.step hl hv
    exact ⟨hh', hc'.trans hc⟩

theorem deadlock_is_stable_starved :
    ∃ s t, Exec.exec (State.step Sample.world) Sample.start (Sample.starved ++ [.tau]) = some s ∧
      Exec.exec (State.step Sample.world) s
        [Sample.main .yield, .tau, Sample.main (.join 1 false), .tau, Sample.main (.cancel 1)]
        = some t ∧
      Deadlock t.core.threads ∧ OnMain t.core.cpu ∧
      t.core.contextSwitches = s.core.contextSwitches := by
  refine ⟨_, _, rfl, rfl, deadlock_is_stable Sample.world Sample.config 4096#64 (fun _ => none)
    (Sample.starved ++ [.tau]) _ rfl (by unfold JoinsFromMain; decide) (by decide) rfl ?_
    [Sample.main .yield, .tau, Sample.main (.join 1 false), .tau, Sample.main (.cancel 1)]
    (by decide) _ rfl⟩
  unfold Deadlock
  decide +kernel

end Gth

/-
  Waits that were admitted.

  `gth_mutex_lock` has room for 52 waiters and refuses a caller for whom there is no place.  But a
  waiter that was woken has LEFT the queue.  When it runs it tests `locked` again, and if somebody
  was faster it has to queue up a second time: by then newcomers may have taken all places, and a
  call that has blocked its caller returns `GTH_EBUSY`.  The re-lock of `gth_cond_wait` can fail in
  the same way, after the mutex was released.

  A thread in `gth_cond_wait` past its release does not own the mutex (`Disowned`), so these are
  the only ways to fail, besides the destruction of the mutex during the wait.
-/
import Gthreads.Exclusion
import Gthreads.Lifecycle

namespace Gth

/-- The call that is suspended here on its way to `m`: blocked in `gth_mutex_lock(m)`, or in
    `gth_cond_wait` past the release of `m`. -/
def Frame.callOn (m : Addr) : Frame → Option Call
  | .lock m' _ via => if m' = m then some (Core.lockCall m' via) else none
  | .condWait c m' => if m' = m then some (.condWait c m') else none
  | _ => none

namespace Kernel

/-! ## A released mutex is not owned -/

/-- No thread that is in `gth_cond_wait` past its release of `m` is the owner of `m`. -/
def Disowned (m : Addr) (s : Kernel) : Prop := ∀ i c,
  s.OffAt i (.condWait c m) ∨ s.Entering i (.condWait c m) →
    (s.mutex m).locked ≠ 0 → (s.mutex m).owner ≠ (s.threads i).tid

section
variable {m : Addr} {s t : Kernel} {l : Option (Ctx × Call)}

/-- Who waits in `gth_cond_wait` has released the mutex. -/
theorem Step.condWait_unlocks (hok : s.Ok) {i : Slot} {c : Addr}
    (hstep : Step s (some (.green i, .condWait c m)) t)
    (hoff : t.OffAt i (.condWait c m)) : (t.mutex m).locked = 0 := by
  have hstay : t.threads i = s.threads i → False := by
    intro ht
    have hcpu := hstep.cpu_of_call
    have hs : s.OffAt i (.condWait c m) := ⟨ht ▸ hoff.1, ht ▸ hoff.2⟩
    exact hs.not_onCpu hok (Or.inl hcpu)
  cases hstep with
  | thread hstep =>
    cases hstep with
    | fail _ _ st _ _ => exact (hstay rfl).elim
    | query _ _ r _ hq => cases hq
    | createFail _ _ st j _ hc _ _ => cases hc
    | create _ _ j r _ hc _ _ _ => cases hc
  | mutex hstep =>
    cases hstep with
    | acquire x a via _ hat _ => cases hat
    | lockBlock j a via _ k hat _ _ _ => cases hat
  | cond hstep =>
    cases hstep with
    | block _ _ _ k _ _ _ _ _ _ =>
      have hw := woken_wake ((s.setMutex m { s.mutex m with locked := 0, owner := 0 }).wait i
        (.cond c) (.condWait c m)) (.mutex m)
      refine congrArg MutexCell.locked (?_ : _ = { s.mutex m with locked := 0, owner := 0 })
      exact (congrFun hw.mutex m).trans (Function.update_self _ _ _)
    | fail _ _ _ st _ _ =>
      have hi : ((s.setState i .running).threads i).state = .running := by
        simp only [setState, setThread, Function.update_self]
      rcases hoff.1 with hs | hs <;> cases hi.symm.trans hs
  | sched hstep => cases hstep
  | sem hstep => cases hstep

theorem Taking.onCpu {j : Slot} (h : s.Taking (.green j) m l) : s.OnCpu j := by
  rcases h with ⟨via, hat⟩ | ⟨-, hcpu, -⟩
  · cases hat with
    | call hcpu _ => exact Or.inl hcpu
    | woken i _ hi hcpu => cases hi; exact Or.inr ⟨_, hcpu⟩
    | relock i c hi hcpu _ => cases hi; exact Or.inr ⟨_, hcpu⟩
  · exact Or.inl hcpu

/-- A thread off the CPU has not taken anything. -/
theorem Taking.tid_ne {x : Ctx} (h : s.Taking x m l) (hok : s.Ok) {i : Slot} {f : Frame}
    (hoff : s.OffAt i f) : s.ctxTid x ≠ (s.threads i).tid := by
  have hi : (s.threads i).state ≠ .empty := by
    rcases hoff.1 with hs | hs <;> rw [hs] <;> nofun
  intro heq
  cases x with
  | main => exact hok.tid_pos i hi heq.symm
  | green j =>
    have hj : (s.threads j).state ≠ .empty := by
      rcases hok.onCpu h.onCpu with hs | hs <;> rw [hs] <;> nofun
    obtain rfl := hok.tid_inj j i hj hi heq
    exact hoff.not_onCpu hok h.onCpu

end

theorem disowned_inv (m : Addr) : Inv (Disowned m) fun _ _ _ => True := by
  intro s l t hok _ hstep _ h i c hin hlocked howner
  rcases (hstep.thread_cases i).wait_cases (by nofun) hin with ⟨hoff, htid⟩ | ⟨-, hoff, hcall, -⟩
  · rw [htid] at howner
    cases hstep.lock_cases m with
    | none hm _ =>
      rw [hm] at hlocked howner
      exact h i c (Or.inl hoff) hlocked howner
    | init _ _ hm _ => rw [hm] at hlocked; exact hlocked rfl
    | take x ht _ hm _ => rw [hm] at howner; exact ht.tid_ne hok hoff howner
    | give _ _ _ _ _ _ hm _ => rw [hm] at hlocked; exact hlocked rfl
    | destroy _ _ _ hm _ => rw [hm] at hlocked; exact hlocked rfl
  · have hl := hcall _ rfl
    subst hl
    exact hlocked (hstep.condWait_unlocks hok hoff)

theorem disowned_initial (m : Addr) : Disowned m initial := fun _ _ _ hlocked => absurd rfl hlocked

end Kernel

/-! ## How the call ends -/

namespace Core
variable {s t : Core} {x : Ctx} {m : Addr} {i : Slot}

/-- If the call `c` on stack `x` has returned, it has returned `GTH_OK` and its caller owns `m`. -/
def EndsOwning (m : Addr) (x : Ctx) (c : Call) (s t : Core) : Prop :=
  t.cpu = .user x → t.hist = .ret (s.ctxTid x) c ⟨.ok, []⟩ :: s.hist ∧
    (t.mutexes m).locked ≠ 0 ∧ (t.mutexes m).owner = s.ctxTid x

theorem endsOwning_error {c : Call} {st : Status} (hst : st ≠ .ok) :
    ¬ EndsOwning m x c s (s.ret x c ⟨st, []⟩) := by
  intro h
  have hhist : .ret (s.ctxTid x) c ⟨st, []⟩ :: s.hist = .ret (s.ctxTid x) c ⟨.ok, []⟩ :: s.hist :=
    (h rfl).1
  cases (List.cons.inj hhist).1
  exact hst rfl

theorem endsOwning_acquire (h : s.Live x) (via : Option Addr) :
    EndsOwning m x (lockCall m via) s (s.lockAcquire x m via) := by
  have hm : (s.lockAcquire x m via).mutexes m
      = { s.mutexes m with locked := 1, owner := s.threadSelf } := Function.update_self _ _ _
  refine fun _ => ⟨rfl, ?_, ?_⟩
  · rw [hm]
    exact Nat.one_ne_zero
  · rw [hm]
    exact h.threadSelf

theorem endsOwning_park (c : Call) (via : Option Addr) (es : List Event) :
    EndsOwning m (.green i) c s (s.lockPark i m via es) := nofun

/-- A woken thread goes through the loop of `gth_mutex_lock`. -/
theorem endsOwning_lockLoop (h : s.Live (.green i)) (via : Option Addr) (fuel : Nat) :
    EndsOwning m (.green i) (lockCall m via) s (s.lockLoop (.green i) m i via (fuel + 1)) ↔
      ((s.mutexes m).locked ≠ 0 → (s.mutexes m).wq.wqIsFull = false) := by
  rcases lockLoop_cases h.current m via fuel with ⟨hlocked, hfull, heq⟩ | ⟨-, hfull, es, heq⟩ |
      ⟨hfree, heq⟩
  · rw [heq, hfull]
    exact ⟨fun he => absurd he (endsOwning_error (by decide)), fun hne => nomatch hne hlocked⟩
  · rw [heq]
    exact ⟨fun _ _ => hfull, fun _ => endsOwning_park _ via es⟩
  · rw [heq]
    exact ⟨fun _ hne => absurd hfree hne, fun _ => endsOwning_acquire h via⟩

/-- A thread goes through `gth_mutex_lock` from its start. -/
theorem endsOwning_mutexLock (h : s.Live (.green i)) (hm : m ≠ 0) (via : Option Addr)
    (hnot : (s.mutexes m).locked ≠ 0 → (s.mutexes m).owner ≠ s.threadSelf) :
    EndsOwning m (.green i) (lockCall m via) s (s.mutexLock (.green i) m via) ↔
      (s.mutexes m).initialized ≠ 0 ∧
        ((s.mutexes m).locked ≠ 0 → (s.mutexes m).wq.wqIsFull = false) := by
  rcases mutexLock_cases h.knows m via with ⟨st, hst, hrefused, heq⟩ | ⟨hi, hfree, heq⟩ |
      ⟨j, es, hj, -, hi, -, -, hfull, heq⟩
  · rw [heq]
    refine ⟨fun he => absurd he (endsOwning_error hst), ?_⟩
    rintro ⟨hi, hroom⟩
    rcases hrefused with h0 | h0 | ⟨hlocked, hown | hidx | hfull⟩
    · exact absurd h0 hm
    · exact absurd h0 hi
    · exact absurd hown (hnot hlocked)
    · have hslot : s.threadCurrentSlotIndex = i := by
        unfold threadCurrentSlotIndex
        rw [if_neg h.current.ne_zero, h.current.find]
        exact h.body.tids.index i h.ne_empty
      have := i.isLt
      omega
    · rw [hroom hlocked] at hfull
      nomatch hfull
  · rw [heq]
    exact ⟨fun _ => ⟨hi, fun hne => absurd hfree hne⟩, fun _ => endsOwning_acquire h via⟩
  · cases hj
    rw [heq]
    exact ⟨fun _ => ⟨hi, fun _ => hfull⟩, fun _ => endsOwning_park _ via es⟩

/-- The mutex takes back a thread that goes on at this place: there is a place in the queue if it
    is needed, and for the re-lock of `gth_cond_wait` the mutex is still initialised. -/
def Readmits (m : Addr) (s : Core) : Frame → Prop
  | .lock m' _ _ => m' = m → (s.mutexes m).locked ≠ 0 → (s.mutexes m).wq.wqIsFull = false
  | .condWait _ m' => m' = m → (s.mutexes m).initialized ≠ 0 ∧
      ((s.mutexes m).locked ≠ 0 → (s.mutexes m).wq.wqIsFull = false)
  | _ => True

instance (m : Addr) (s : Core) : ∀ f, Decidable (Readmits m s f)
  | .lock _ _ _ => inferInstanceAs (Decidable (_ → _ → _))
  | .condWait _ _ => inferInstanceAs (Decidable (_ → _ ∧ (_ → _)))
  | .entry => isTrue trivial
  | .yield => isTrue trivial
  | .semWait _ => isTrue trivial
  | .runNext _ _ _ => isTrue trivial

/-- **One resumption.** -/
theorem WF.resume_endsOwning (h : s.WF) (hd : s.kernel.Disowned m) (hm : m ≠ 0) {k : Kont}
    (hcpu : s.cpu = .swap (some k)) :
    (∀ c, k.frame.callOn m = some c → EndsOwning m k.ctx c s (s.resume k)) ↔
      Readmits m s k.frame := by
  rcases h.swap hcpu with ⟨act, caller, rfl, -⟩ | ⟨i, f, rfl, hf, -, hlive⟩
  · exact ⟨fun _ => trivial, fun _ _ hc => nomatch hc⟩
  cases f with
  | lock m' mySlot via =>
    obtain rfl : mySlot = i := hf
    by_cases hmm : m' = m
    · subst hmm
      have hiff := endsOwning_lockLoop (m := m') hlive via wqFixedSlots
      refine ⟨fun hends _ => hiff.mp (hends _ (if_pos rfl)), fun hre c hc => ?_⟩
      obtain rfl : lockCall m' via = c := Option.some.inj ((if_pos rfl).symm.trans hc)
      exact hiff.mpr (hre rfl)
    · refine ⟨fun _ e => absurd e hmm, fun _ c hc => ?_⟩
      nomatch (if_neg hmm).symm.trans hc
  | condWait c' m' =>
    by_cases hmm : m' = m
    · subst hmm
      have hnot : (s.mutexes m').locked ≠ 0 → (s.mutexes m').owner ≠ s.threadSelf := by
        rw [hlive.threadSelf]
        exact hd i c' (Or.inr hcpu)
      have hiff := endsOwning_mutexLock hlive hm (some c') hnot
      refine ⟨fun hends _ => hiff.mp (hends _ (if_pos rfl)), fun hre c hc => ?_⟩
      obtain rfl : lockCall m' (some c') = c := Option.some.inj ((if_pos rfl).symm.trans hc)
      exact hiff.mpr (hre rfl)
    · refine ⟨fun _ e => absurd e hmm, fun _ c hc => ?_⟩
      nomatch (if_neg hmm).symm.trans hc
  | entry => exact ⟨fun _ => trivial, fun _ _ hc => nomatch hc⟩
  | yield => exact ⟨fun _ => trivial, fun _ _ hc => nomatch hc⟩
  | semWait a => exact ⟨fun _ => trivial, fun _ _ hc => nomatch hc⟩
  | runNext act prev caller => exact absurd hf id

end Core

/-! ## Runs of the code -/

/-- A call that has blocked its caller in `gth_mutex_lock(m)`, or suspended it in `gth_cond_wait`
    after the release of `m`, and that returns in this step, returns `GTH_OK` to the owner of
    `m`. -/
def WaitEndsOwning (W : World) (m : Addr) (s : State) (l : Label) : Prop :=
  ∀ t k c, State.step W s l = some t → l = .tau → s.core.cpu = .swap (some k) →
    k.frame.callOn m = some c → Core.EndsOwning m k.ctx c s.core t.core

/-- A thread that goes on in its wait for `m` is taken back by `m`. -/
def ReadmitsWaiter (m : Addr) (s : State) : Label → Prop
  | .tau => match s.core.cpu with
    | .swap (some k) => s.core.Readmits m k.frame
    | _ => True
  | _ => True

instance (m : Addr) (s : State) (l : Label) : Decidable (ReadmitsWaiter m s l) := by
  unfold ReadmitsWaiter
  split
  · split <;> infer_instance
  · infer_instance

/-- **When admitted waits end with ownership**: in a run they do iff every thread that goes on in
    its wait for `m` while `m` is locked finds a place in the queue, and every re-lock of
    `gth_cond_wait` finds `m` initialised. -/
theorem admitted_ends_owning_iff (W : World) (config : ValidConfig) (pageSize : BitVec 64)
    (files : Path → Option (List UInt8)) (m : Addr) (ls : List Label) (s : State) (hm : m ≠ 0)
    (hjoin : JoinsFromMain ls) (hcreates : creates ls < 2 ^ 64)
    (hrun : Exec.exec (State.step W) (State.start config pageSize files) ls = some s) :
    Exec.Along (State.step W) (WaitEndsOwning W m) (State.start config pageSize files) ls ↔
      Exec.Along (State.step W) (ReadmitsWaiter m) (State.start config pageSize files) ls := by
  obtain ⟨hkernel, hqueues⟩ := Kernel.start_kernel config pageSize files
  refine (Kernel.disowned_inv m).keeps.along_steps_iff (fun t l u hwf hJ hstep => ?_)
    ⟨hqueues, by rw [hkernel]; exact Kernel.disowned_initial m⟩ hjoin hcreates
    (Exec.along_of_forall ls _ fun _ _ _ _ _ _ => trivial) hrun
  rcases State.step_cases hstep with ⟨x, c, rfl, -, -⟩ | ⟨x, c, rfl, -, -, -⟩ |
      ⟨x, caller, pick, sub, rfl, hcpu, -, -⟩ | ⟨k, rfl, hcpu, rfl⟩
  · exact ⟨fun _ => trivial, fun _ _ _ _ _ hl => nomatch hl⟩
  · exact ⟨fun _ => trivial, fun _ _ _ _ _ hl => nomatch hl⟩
  · unfold ReadmitsWaiter
    rw [hcpu]
    refine ⟨fun _ => trivial, fun _ v k c _ _ hk => ?_⟩
    nomatch hcpu.symm.trans hk
  · have hiff := Core.WF.resume_endsOwning (s := t.fresh) ⟨hwf.body, hwf.cpu⟩ hJ.2 hm hcpu
    unfold ReadmitsWaiter
    rw [hcpu]
    constructor
    · exact fun hends => hiff.mp fun c hc => hends _ k c hstep rfl hcpu hc
    · intro hre v k' c hv _ hk' hc
      obtain rfl : k = k' := Option.some.inj (Cpu.swap.inj (hcpu.symm.trans hk'))
      obtain rfl := Option.some.inj (hstep.symm.trans hv)
      exact hiff.mpr hre c hc

/-- Main yields; the thread of slot `n` makes these calls, the last of which suspends it. -/
def turn (n : Nat) (calls : List Call) : List Label :=
  [Sample.main .yield, .tau, .tau] ++ calls.map (Sample.green (OfNat.ofNat n)) ++ [.tau]

/-- Non-vacuous: a thread that has blocked on mutex 1 is woken and gets it. -/
theorem admitted_ends_owning_handover :
    Exec.Along (State.step Sample.world) (WaitEndsOwning Sample.world 1) Sample.start
      (contention ++ turn 0 [.mutexUnlock 1, .yield] ++ turn 1 [.mutexUnlock 1, .yield]) := by
  obtain ⟨s, hs⟩ := Option.isSome_iff_exists.mp (show (Exec.exec (State.step Sample.world)
    Sample.start (contention ++ turn 0 [.mutexUnlock 1, .yield] ++
      turn 1 [.mutexUnlock 1, .yield])).isSome = true by decide +kernel)
  exact (admitted_ends_owning_iff Sample.world Sample.config 4096#64 (fun _ => none) 1 _ s
    (by decide) (by unfold JoinsFromMain; decide) (by decide) hs).mpr (by decide +kernel)

/-- 54 threads and mutex 1.  Thread 1 takes it; the threads 3 to 54 queue up, which fills the queue.
    Thread 1 releases the mutex, which wakes thread 3, and takes it again; thread 2 takes the free
    place in the queue; thread 3 is dispatched. -/
def crowdRun : List Label :=
  [Sample.main (.mutexInit 1)] ++ List.replicate 54 (Sample.main Sample.create) ++
    turn 0 [.mutexLock 1, .yield] ++ turn 1 [.yield] ++
    ((List.range 52).flatMap fun n => turn (n + 2) [.mutexLock 1]) ++
    turn 0 [.mutexUnlock 1, .mutexLock 1, .yield] ++ turn 1 [.mutexLock 1] ++
    [Sample.main .yield, .tau]

/-- **A waiter is turned away**: thread 3, which has blocked in `gth_mutex_lock(1)`, goes on, and
    the call returns `GTH_EBUSY`. -/
theorem crowded_lock_refused : ∃ s t,
    Exec.exec (State.step Sample.world) Sample.start crowdRun = some s ∧
    s.core.cpu = .swap (some ⟨.green 2, .lock 1 2 none⟩) ∧
    State.step Sample.world s .tau = some t ∧
    t.core.hist.head? = some (.ret 3 (.mutexLock 1) ⟨.ebusy, []⟩) := by
  have h : ((Exec.exec (State.step Sample.world) Sample.start crowdRun).bind fun s =>
      (State.step Sample.world s .tau).map fun t => (s.core.cpu, t.core.hist.head?))
      = some (.swap (some ⟨.green 2, .lock 1 2 none⟩),
        some (.ret 3 (.mutexLock 1) ⟨.ebusy, []⟩)) := by decide +kernel
  obtain ⟨s, hs, hst⟩ := Option.bind_eq_some_iff.mp h
  obtain ⟨t, ht, heq⟩ := Option.map_eq_some_iff.mp hst
  obtain ⟨hcpu, hhist⟩ := Prod.mk.inj heq
  exact ⟨s, t, hs, hcpu, ht, hhist⟩

end Gth

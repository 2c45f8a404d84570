/-
  Destroying a mutex.

  `gth_mutex_destroy` succeeds when the mutex is free and its queue is empty.  A waiter that was
  woken is no longer in the queue, but it is still inside `gth_mutex_lock`, and when it runs it
  tests `locked` and nothing else: it takes the mutex that is gone.

  That is the only way in.  A waiter that was not woken is in the queue (`Kernel.queuedAt_inv`), so
  the test of the queue finds it, and once nobody is inside, the mutex stays out of reach
  (`Gone.step`): all ways in test `initialized`, and so does the re-lock of `gth_cond_wait` by a
  thread that still waits for the condition variable.
-/
import Gthreads.Admitted

namespace Gth

/-- The mutex a call is about. -/
def Call.mutexOf : Call → Option Addr
  | .mutexInit m | .mutexLock m | .mutexTrylock m | .mutexUnlock m | .mutexDestroy m => some m
  | .condWait _ m => some m
  | _ => none

/-- A call on `m` returned `GTH_OK`. -/
def Obs.okOn (m : Addr) : Obs → Bool
  | .ret _ c r => decide (r.status = .ok) && decide (c.mutexOf = some m)
  | _ => false

theorem okOn_error (m : Addr) (tid : Tid) (c : Call) {st : Status} (h : st ≠ .ok)
    (out : List Nat) : (Obs.ret tid c ⟨st, out⟩).okOn m = false := by
  rw [Obs.okOn, decide_eq_false h, Bool.false_and]

theorem okOn_off {m : Addr} {c : Call} (h : c.mutexOf ≠ some m) (tid : Tid) (r : Ret) :
    (Obs.ret tid c r).okOn m = false := by
  rw [Obs.okOn, decide_eq_false h, Bool.and_false]

theorem mutexOf_lockCall (m : Addr) (via : Option Addr) :
    (Core.lockCall m via).mutexOf = some m := by
  cases via <;> rfl

namespace Kernel

/-- The mutex `m` is gone: it is not initialised, and no thread is inside `gth_mutex_lock(m)`. -/
structure Gone (m : Addr) (s : Kernel) : Prop where
  initialized : (s.mutex m).initialized = 0
  outside : ∀ i n via, ¬ (s.OffAt i (.lock m n via) ∨ s.Entering i (.lock m n via))

section
variable {m : Addr} {s t : Kernel} {l : Option (Ctx × Call)}

/-- Between `s` and `t` no call on `m` returns `GTH_OK`. -/
def Quiet (m : Addr) (s t : Kernel) : Prop :=
  ∃ os, t.hist = os ++ s.hist ∧ ∀ o ∈ os, o.okOn m = false

theorem Quiet.nil (h : t.hist = s.hist) : Quiet m s t := ⟨[], h, nofun⟩

theorem Quiet.one {o : Obs} (h : t.hist = o :: s.hist) (ho : o.okOn m = false) : Quiet m s t :=
  ⟨[o], h, fun _ ho' => List.mem_singleton.mp ho' ▸ ho⟩

theorem Quiet.two {o o' : Obs} (h : t.hist = o :: o' :: s.hist) (ho : o.okOn m = false)
    (ho' : o'.okOn m = false) : Quiet m s t := by
  refine ⟨[o, o'], h, fun p hp => ?_⟩
  rcases List.mem_cons.mp hp with rfl | hp
  · exact ho
  · exact List.mem_singleton.mp hp ▸ ho'

theorem ThreadStep.quiet (hstep : ThreadStep s l t) (m : Addr) : Quiet m s t := by
  cases hstep with
  | fail x c st _ hst => exact .one rfl (okOn_error m _ c hst [])
  | query x c r _ hc =>
    refine .one rfl (okOn_off ?_ _ r)
    cases c <;> first | exact absurd (show false = true from hc) (by decide) | nofun
  | createFail x c st i _ _ hst _ => exact .one rfl (okOn_error m _ c hst [])
  | create x c i r _ hc _ _ _ =>
    refine .one rfl (okOn_off ?_ _ _)
    cases c <;> first | exact absurd (show false = true from hc) (by decide) | nofun
  | schedule caller _ => exact .nil rfl
  | _ => exact .one rfl rfl

theorem SchedStep.quiet (hstep : SchedStep s l t) (m : Addr) : Quiet m s t := by
  cases hstep with
  | idle caller st _ hst => exact .one rfl (okOn_error m _ _ hst [])
  | backYield act _ => exact .two rfl (okOn_off (by nofun) _ _) rfl
  | backRelease act tid out i _ _ _ => exact .two rfl (okOn_off (by nofun) _ _) rfl
  | start i _ => exact .nil rfl
  | _ => exact .one rfl rfl

theorem SemStep.quiet (hstep : SemStep s l t) (m : Addr) : Quiet m s t := by
  cases hstep with
  | take x a _ _ _ => exact .two rfl (okOn_off (by nofun) _ _) rfl
  | block i a k _ _ _ _ => exact .two rfl rfl rfl
  | wake x a n q _ _ _ =>
    have hw := woken_wake (s.log (.semWake (s.tidAt n) a)) (.sem a)
    exact .two (congrArg (List.cons _) hw.hist) (okOn_off (by nofun) _ _) rfl
  | _ => exact .one rfl rfl

theorem CondStep.quiet (hstep : CondStep s l t) (m : Addr) : Quiet m s t := by
  cases hstep with
  | block i c a k _ _ _ _ _ _ =>
    have hw := woken_wake ((s.setMutex a { s.mutex a with locked := 0, owner := 0 }).wait i
      (.cond c) (.condWait c a)) (.mutex a)
    have hhist := congrArg (fun h => Obs.leave (.green i) (some k) ::
      .condRelease (s.threads i).tid c a :: h) hw.hist
    exact .two hhist rfl rfl
  | fail i c a st _ hst => exact .one rfl (okOn_error m _ _ hst [])
  | signal x c _ =>
    exact .one (congrArg (List.cons _) (woken_wake s (.cond c)).hist) (okOn_off (by nofun) _ _)
  | broadcast x c _ =>
    exact .one (congrArg (List.cons _) (woken_wakes (.cond c) _ s).hist)
      (okOn_off (by nofun) _ _)
  | _ => exact .one rfl rfl

/-- A call on another mutex. -/
theorem mutexOf_ne {a : Addr} {c : Call} (hc : c.mutexOf = some a) (ha : a ≠ m) :
    c.mutexOf ≠ some m :=
  fun e => ha (Option.some.inj (hc.symm.trans e))

theorem MutexStep.quiet_cases (hstep : MutexStep s l t) (m : Addr) :
    Quiet m s t ∨ (s.mutex m).initialized ≠ 0 ∨ (t.mutex m).initialized ≠ 0 ∨
      (∃ i n via, s.Entering i (.lock m n via)) ∨ ∃ x, l = some (x, .mutexDestroy m) := by
  cases hstep with
  | init x a _ =>
    by_cases ha : a = m
    · subst ha
      refine Or.inr (Or.inr (Or.inl ?_))
      show (Function.update s.mutex a _ a).initialized ≠ 0
      rw [Function.update_self]
      exact Nat.one_ne_zero
    · exact Or.inl (.one rfl (okOn_off (mutexOf_ne rfl ha) _ _))
  | acquire x a via l hat _ =>
    by_cases ha : a = m
    · subst ha
      cases hat with
      | call _ hi => exact Or.inr (Or.inl hi)
      | woken i _ _ hcpu => exact Or.inr (Or.inr (Or.inr (Or.inl ⟨i, i, via, hcpu⟩)))
      | relock i c _ _ hi => exact Or.inr (Or.inl hi)
    · exact Or.inl (.one rfl (okOn_off (mutexOf_ne (mutexOf_lockCall a via) ha) _ _))
  | lockBlock i a via l k _ _ _ _ => exact Or.inl (.one rfl rfl)
  | lockBusy i a via _ _ => exact Or.inl (.one rfl (okOn_error m _ _ (by decide) []))
  | relockFail i c a st _ hst => exact Or.inl (.one rfl (okOn_error m _ _ hst []))
  | trylock x a _ hi _ =>
    by_cases ha : a = m
    · exact Or.inr (Or.inl (ha ▸ hi))
    · exact Or.inl (.one rfl (okOn_off (mutexOf_ne rfl ha) _ _))
  | unlock x a _ hi _ _ =>
    by_cases ha : a = m
    · exact Or.inr (Or.inl (ha ▸ hi))
    · have hw := woken_wake (s.setMutex a { s.mutex a with locked := 0, owner := 0 }) (.mutex a)
      exact Or.inl (.one (congrArg (List.cons _) hw.hist) (okOn_off (mutexOf_ne rfl ha) _ _))
  | destroy x a _ _ _ =>
    by_cases ha : a = m
    · subst ha
      exact Or.inr (Or.inr (Or.inr (Or.inr ⟨x, rfl⟩)))
    · exact Or.inl (.one rfl (okOn_off (mutexOf_ne rfl ha) _ _))

/-- **When a call on `m` returns `GTH_OK`.** -/
theorem Step.okOn_cases (hstep : Step s l t) {os : List Obs} (hos : t.hist = os ++ s.hist)
    (hany : ∃ o ∈ os, o.okOn m = true) :
    (s.mutex m).initialized ≠ 0 ∨ (t.mutex m).initialized ≠ 0 ∨
      (∃ i n via, s.Entering i (.lock m n via)) ∨ ∃ x, l = some (x, .mutexDestroy m) := by
  have hloud : ¬ Quiet m s t := by
    rintro ⟨os', hos', hoff⟩
    obtain rfl : os = os' := List.append_cancel_right (hos.symm.trans hos')
    obtain ⟨o, ho, hon⟩ := hany
    rw [hoff o ho] at hon
    nomatch hon
  cases hstep with
  | thread hstep => exact absurd (hstep.quiet m) hloud
  | sched hstep => exact absurd (hstep.quiet m) hloud
  | mutex hstep => exact (hstep.quiet_cases m).resolve_left hloud
  | sem hstep => exact absurd (hstep.quiet m) hloud
  | cond hstep => exact absurd (hstep.quiet m) hloud

/-- `gth_mutex_init` is refused, or it returns `GTH_OK`. -/
theorem Step.mutexInit_cases (hstep : Step s l t) {x : Ctx} (hl : l = some (x, .mutexInit m)) :
    t.mutex = s.mutex ∨ ∃ tid, t.hist = .ret tid (.mutexInit m) ⟨.ok, []⟩ :: s.hist := by
  cases hstep with
  | thread hstep => cases hstep <;> exact Or.inl rfl
  | sched hstep => cases hstep <;> nomatch hl
  | mutex hstep =>
    cases hstep with
    | init y a _ =>
      cases hl
      exact Or.inr ⟨_, rfl⟩
    | acquire y a via _ hat _ => cases hat <;> nomatch hl
    | lockBlock i a via _ k _ _ _ _ => exact Or.inl rfl
    | _ => nomatch hl
  | sem hstep => cases hstep <;> nomatch hl
  | cond hstep => cases hstep <;> nomatch hl

/-- **One step**: the mutex stays gone until it is initialised again. -/
theorem Gone.step (h : Gone m s) (hstep : Step s l t) :
    (∃ tid, t.hist = .ret tid (.mutexInit m) ⟨.ok, []⟩ :: s.hist) ∨ Gone m t := by
  have houtside : ∀ i n via, ¬ (t.OffAt i (.lock m n via) ∨ t.Entering i (.lock m n via)) := by
    intro i n via hin
    rcases (hstep.thread_cases i).wait_cases (by nofun) hin with ⟨hoff, -⟩ | ⟨-, -, -, hi⟩
    · exact h.outside i n via (Or.inl hoff)
    · exact hi m rfl h.initialized
  cases hstep.lock_cases m with
  | none hm _ => exact Or.inr ⟨by rw [hm]; exact h.initialized, houtside⟩
  | init x hl hm _ =>
    rcases hstep.mutexInit_cases hl with hsame | hret
    · have hi := congrArg MutexCell.initialized ((congrFun hsame m).symm.trans hm)
      rw [h.initialized] at hi
      nomatch hi
    · exact Or.inl hret
  | take x ht _ _ _ =>
    rcases ht with ⟨via, hat⟩ | ⟨-, -, hi⟩
    · cases hat with
      | call _ hi => exact absurd h.initialized hi
      | woken i _ _ hcpu => exact absurd (Or.inr hcpu) (h.outside i i via)
      | relock i c _ _ hi => exact absurd h.initialized hi
    · exact absurd h.initialized hi
  | give x _ _ hi _ _ _ _ => exact absurd h.initialized hi
  | destroy x _ _ hm _ => exact Or.inr ⟨by rw [hm], houtside⟩

end
end Kernel

namespace Core
variable {s t : Core} {x : Ctx} {m : Addr}

/-- The thread of slot `i` is inside `gth_mutex_lock(m)`, called by itself or by `gth_cond_wait`:
    queued, or woken and waiting to be dispatched. -/
def InLock (m : Addr) (s : Core) (i : Slot) : Prop :=
  ((s.threads i).state = .ready ∨ (s.threads i).state = .blocked) ∧
    ((s.threads i).ctx.bind fun k => k.frame.waits) = some (.mutex m)

instance (m : Addr) (s : Core) (i : Slot) : Decidable (InLock m s i) :=
  inferInstanceAs (Decidable (_ ∧ _))

/-- The thread of slot `i` was woken inside `gth_mutex_lock(m)` and has not been dispatched since. -/
def WokenIn (m : Addr) (s : Core) (i : Slot) : Prop :=
  (s.threads i).state = .ready ∧ ((s.threads i).ctx.bind fun k => k.frame.waits) = some (.mutex m)

instance (m : Addr) (s : Core) (i : Slot) : Decidable (WokenIn m s i) :=
  inferInstanceAs (Decidable (_ ∧ _))

theorem inLock_of_offAt {i : Slot} {n : Nat} {via : Option Addr} (h : s.kernel.OffAt i (.lock m n via)) :
    InLock m s i := by
  refine ⟨h.1, ?_⟩
  rw [show (s.threads i).ctx = _ from h.2]
  rfl

/-- `gth_mutex_destroy(m)` succeeds. -/
def Destroyable (m : Addr) (s : Core) : Prop :=
  (s.mutexes m).initialized ≠ 0 ∧ (s.mutexes m).locked = 0 ∧ (s.mutexes m).wq.wqIsEmpty = true

/-- **Who has not been woken is in the queue**, and then `gth_mutex_destroy(m)` does not succeed. -/
theorem outside_of_spared (hqueued : WaitMap.QueuedAt (.mutex m) s.kernel.waiting s.kernel.queue)
    (hd : Destroyable m s) (hspared : ∀ i, ¬ WokenIn m s i) (i : Slot) : ¬ InLock m s i := by
  rintro ⟨hready | hblocked, hwaits⟩
  · exact hspared i ⟨hready, hwaits⟩
  · have hwaiting : s.kernel.waiting i = some (.mutex m) := by
      rw [Kernel.waiting_slot]
      exact (if_pos hblocked).trans hwaits
    have hnil : s.kernel.queue (.mutex m) = [] := (WaitQueue.wqIsEmpty_iff _).mp hd.2.2
    have hmem := hqueued i hwaiting
    rw [hnil] at hmem
    exact List.not_mem_nil hmem

theorem mutexDestroy_cases (hm : m ≠ 0) :
    (Destroyable m s ∧ s.mutexDestroy m = (.ok, s.setMutex m {})) ∨
    (¬ Destroyable m s ∧ ∃ st, st ≠ .ok ∧ s.mutexDestroy m = (st, s)) := by
  unfold mutexDestroy
  rw [if_neg hm]
  by_cases hi : (s.mutexes m).initialized = 0
  · rw [if_pos hi]
    exact Or.inr ⟨fun h => h.1 hi, .estate, by decide, rfl⟩
  rw [if_neg hi]
  by_cases hl : (s.mutexes m).locked = 0
  · rw [if_neg (not_not_intro hl)]
    cases hempty : (s.mutexes m).wq.wqIsEmpty with
    | true => exact Or.inl ⟨⟨hi, hl, hempty⟩, rfl⟩
    | false =>
      refine Or.inr ⟨fun h => ?_, .ebusy, by decide, rfl⟩
      nomatch hempty.symm.trans h.2.2
  · rw [if_pos hl]
    exact Or.inr ⟨fun h => hl h.2.1, .ebusy, by decide, rfl⟩

/-- No call on `m` has returned `GTH_OK` in this step. -/
def QuietOn (m : Addr) (s t : Core) : Prop :=
  ∀ os, t.hist = os ++ s.hist → ∀ o ∈ os, o.okOn m = false

/-- The destruction itself, with nobody inside. -/
theorem gone_of_destroy (hm : m ≠ 0) (hd : Destroyable m s) (hout : ∀ i, ¬ InLock m s i) :
    (s.exec x (.mutexDestroy m)).kernel.Gone m := by
  have heq := ((mutexDestroy_cases (s := s) hm).resolve_right fun h => h.1 hd).2
  have hexec : s.exec x (.mutexDestroy m)
      = (s.setMutex m {}).ret x (.mutexDestroy m) ⟨.ok, []⟩ :=
    congrArg (done x (.mutexDestroy m)) heq
  rw [hexec]
  refine ⟨?_, fun i n via hin => ?_⟩
  · show ((Function.update s.mutexes m {} m).cell).initialized = 0
    rw [Function.update_self]
    rfl
  · rcases hin with hoff | he
    · exact hout i (inLock_of_offAt (s := s) hoff)
    · nomatch he

end Core

/-! ## Runs of the code -/

/-- **Destroying `m` is safe** in a run: when `gth_mutex_destroy(m)` returns `GTH_OK`, no thread is
    inside `gth_mutex_lock(m)`, and up to a new initialisation no call on `m` returns `GTH_OK`. -/
def DestroysSafely (W : World) (m : Addr) (s : State) (ls : List Label) : Prop :=
  ∀ ls₁ x ls₂ u v, ls = ls₁ ++ .call x (.mutexDestroy m) :: ls₂ →
    Exec.exec (State.step W) s ls₁ = some u →
    State.step W u (.call x (.mutexDestroy m)) = some v →
    v.core.hist = .ret (u.core.ctxTid x) (.mutexDestroy m) ⟨.ok, []⟩ :: u.core.hist →
    (∀ i, ¬ u.core.InLock m i) ∧
    Exec.Unless (State.step W) (fun v w => v.core.QuietOn m w.core)
      (fun v w => ∃ tid, w.core.hist = .ret tid (.mutexInit m) ⟨.ok, []⟩ :: v.core.hist) v ls₂

/-- `gth_mutex_destroy(m)` is not called with success between the wake-up of a waiter of `m` and the
    next dispatch of that waiter. -/
def SparesWoken (m : Addr) (s : Core) (_ : Ctx) (c : Call) : Prop :=
  c = .mutexDestroy m → s.Destroyable m → ∀ i, ¬ s.WokenIn m i

instance (m : Addr) (s : Core) (x : Ctx) (c : Call) : Decidable (SparesWoken m s x c) :=
  inferInstanceAs (Decidable (_ → _ ∧ _ ∧ _ → ∀ _ : Slot, ¬ _))

/-- `m` is not initialised while a thread waits for it: the new queue would not know of the
    thread. -/
def InitsUnwaited (m : Addr) (s : Core) (_ : Ctx) (c : Call) : Prop :=
  c = .mutexInit m → ∀ i, (s.threads i).waitsFor ≠ some (.mutex m)

instance (m : Addr) (s : Core) (x : Ctx) (c : Call) : Decidable (InitsUnwaited m s x c) :=
  inferInstanceAs (Decidable (_ → ∀ _ : Slot, _ ≠ _))

theorem InitsUnwaited.kernel {m : Addr} {s : Core} {x : Ctx} {c : Call}
    (h : InitsUnwaited m s x c) (hc : c.inits = some (.mutex m)) (n : Nat) :
    s.kernel.waiting n ≠ some (.mutex m) := by
  intro hn
  have hinit : c = .mutexInit m := by
    cases c <;> cases hc
    rfl
  by_cases hlt : n < 128
  · exact h hinit ⟨n, hlt⟩ ((Kernel.waiting_slot s.kernel ⟨n, hlt⟩).symm.trans hn)
  · rw [Kernel.waiting, dif_neg hlt] at hn
    nomatch hn

/-- While `m` is gone, no call on it succeeds. -/
theorem gone_step {W : World} {m : Addr} (hm : m ≠ 0) {s t : State} {l : Label}
    (hI : s.core.QueuesWf ∧ s.core.kernel.Gone m) (htame : State.Tame W s l)
    (hstep : State.step W s l = some t) :
    (∃ tid, t.core.hist = .ret tid (.mutexInit m) ⟨.ok, []⟩ :: s.core.hist) ∨
    (s.core.QuietOn m t.core ∧ t.core.QueuesWf ∧ t.core.kernel.Gone m) := by
  obtain ⟨hqueues, hgone⟩ := hI
  have hqueues' : t.core.QueuesWf := Kernel.queuesWf_step s l t hqueues htame hstep
  rcases Kernel.step_refines htame.1 hqueues htame.2.1 hstep with hsame | hkernel
  · refine Or.inr ⟨fun os hos o ho => ?_, hqueues', by rw [hsame]; exact hgone⟩
    have hhist : t.core.hist = [] ++ s.core.hist := congrArg Kernel.hist hsame
    obtain rfl := List.append_cancel_right (hos.symm.trans hhist)
    exact absurd ho List.not_mem_nil
  · rcases hgone.step hkernel with hinit | hgone'
    · exact Or.inl hinit
    · refine Or.inr ⟨fun os hos o ho => ?_, hqueues', hgone'⟩
      by_contra hon
      rcases hkernel.okOn_cases hos ⟨o, ho, Bool.not_eq_false _ ▸ hon⟩ with
        hi | hi | ⟨i, n, via, he⟩ | ⟨x, hl⟩
      · exact hi hgone.initialized
      · exact hi hgone'.initialized
      · exact hgone.outside i n via (Or.inr he)
      · -- the destruction of a mutex that is gone is refused
        have hlabel := Kernel.callOf_some hl
        subst hlabel
        obtain ⟨-, st, hst, heq⟩ := (Core.mutexDestroy_cases (s := s.fresh) hm).resolve_left
          fun h => h.1.1 hgone.initialized
        have hhist : t.core.hist
            = [.ret (s.fresh.ctxTid x) (.mutexDestroy m) ⟨st, []⟩] ++ s.core.hist := by
          rw [(State.step_call_inv hstep).2]
          show (Core.done x (.mutexDestroy m) (s.fresh.mutexDestroy m)).hist = _
          rw [heq]
          rfl
        obtain rfl := List.append_cancel_right (hos.symm.trans hhist)
        obtain rfl := List.mem_singleton.mp ho
        exact hon (okOn_error m _ _ hst [])

/-- `gth_mutex_destroy(m)` has returned `GTH_OK`: it could succeed. -/
theorem destroyable_of_ok {W : World} {m : Addr} (hm : m ≠ 0) {u v : State} {x : Ctx}
    (hv : State.step W u (.call x (.mutexDestroy m)) = some v)
    (hret : v.core.hist = .ret (u.core.ctxTid x) (.mutexDestroy m) ⟨.ok, []⟩ :: u.core.hist) :
    u.core.Destroyable m := by
  by_contra hnot
  obtain ⟨-, st, hst, heq⟩ :=
    (Core.mutexDestroy_cases (s := u.fresh) hm).resolve_left fun h => hnot h.1
  have hhist : (Core.done x (.mutexDestroy m) (u.fresh.mutexDestroy m)).hist = _ :=
    (congrArg Core.hist (State.step_call_inv hv).2).symm.trans hret
  rw [heq] at hhist
  cases (List.cons.inj hhist).1
  exact hst rfl

/-- **When destroying a mutex is safe**: in a run, it is iff `gth_mutex_destroy(m)` is not called
    with success between an unlock that woke a waiter and the next dispatch of the waiter. -/
theorem destroy_safe_iff (W : World) (config : ValidConfig) (pageSize : BitVec 64)
    (files : Path → Option (List UInt8)) (m : Addr) (ls : List Label) (s : State) (hm : m ≠ 0)
    (hjoin : JoinsFromMain ls) (hcreates : creates ls < 2 ^ 64)
    (hinit : Exec.Along (State.step W) (State.OnCalls (InitsUnwaited m))
      (State.start config pageSize files) ls)
    (hrun : Exec.exec (State.step W) (State.start config pageSize files) ls = some s) :
    DestroysSafely W m (State.start config pageSize files) ls ↔
      Exec.Along (State.step W) (State.OnCalls (SparesWoken m))
        (State.start config pageSize files) ls := by
  constructor
  · intro hsafe
    refine Exec.along_of_steps hrun fun ls₁ l ls₂ u hls hu x c hl hc hd => ?_
    subst hl hc
    have hrest := hrun
    rw [hls, Exec.exec_append, hu, Option.bind_some] at hrest
    obtain ⟨v, hv, -⟩ := Option.bind_eq_some_iff.mp hrest
    refine fun i hi => (hsafe ls₁ x ls₂ u v hls hu hv ?_).1 i ⟨Or.inl hi.1, hi.2⟩
    have heq := ((Core.mutexDestroy_cases (s := u.fresh) hm).resolve_right fun h => h.1 hd).2
    rw [(State.step_call_inv hv).2]
    show (Core.done x (.mutexDestroy m) (u.fresh.mutexDestroy m)).hist = _
    rw [heq]
    rfl
  · intro hG ls₁ x ls₂ u v hls hu hv hret
    have htame := State.along_tame (W := W) ls _ (State.start_wf config pageSize files) hjoin (by
      rw [State.start_core, Nat.zero_add]
      exact hcreates)
    rw [hls, Exec.along_append ls₁ _ _ hu] at hG htame hinit
    obtain ⟨hspares, -⟩ := hG.2
    obtain ⟨htame₁, htame₂⟩ := htame.2
    -- up to the destruction, the queue of `m` knows everybody who is blocked on it
    obtain ⟨hkernel, hqueues₀⟩ := Kernel.start_kernel config pageSize files
    obtain ⟨hqueues, hqueued⟩ := Exec.exec_inv (Kernel.queuedAt_inv (.mutex m)).keeps.step ls₁ _ u
      ⟨hqueues₀, by rw [hkernel]; exact Kernel.agree_initial.queued _⟩
      (Exec.along_and ls₁ _ htame.1
        (Exec.along_mono (fun t l h x c hl => (h x c hl).kernel) ls₁ _ hinit.1)) hu
    have hd := destroyable_of_ok hm hv hret
    have hout := Core.outside_of_spared hqueued hd (hspares x _ rfl rfl hd)
    refine ⟨hout, Exec.unless_inv
      (I := fun v : State => v.core.QueuesWf ∧ v.core.kernel.Gone m)
      (fun v l w hI htame hw => gone_step hm hI htame hw) ls₂ v
      ⟨Kernel.queuesWf_step u _ v hqueues htame₁ hv, ?_⟩ (htame₂ v hv)⟩
    rw [(State.step_call_inv hv).2]
    exact Core.gone_of_destroy (s := u.fresh) hm hd hout

/-- Non-vacuous: mutex 1 is destroyed when both threads are done with it. -/
theorem destroy_safe_unused :
    DestroysSafely Sample.world 1 Sample.start
      (contention ++ turn 0 [.mutexUnlock 1, .yield] ++ turn 1 [.mutexUnlock 1, .yield] ++
        [Sample.main (.mutexDestroy 1), Sample.main (.mutexTrylock 1)]) := by
  obtain ⟨s, hs⟩ := Option.isSome_iff_exists.mp (show (Exec.exec (State.step Sample.world)
    Sample.start (contention ++ turn 0 [.mutexUnlock 1, .yield] ++
      turn 1 [.mutexUnlock 1, .yield] ++
      [Sample.main (.mutexDestroy 1), Sample.main (.mutexTrylock 1)])).isSome = true
    by decide +kernel)
  exact (destroy_safe_iff Sample.world Sample.config 4096#64 (fun _ => none) 1 _ s
    (by decide) (by unfold JoinsFromMain; decide) (by decide) (by decide +kernel) hs).mpr
    (by decide +kernel)

/-- **A destroyed mutex is taken**: thread 1 releases mutex 1, which wakes thread 2, and destroys
    it; then the lock of thread 2 returns `GTH_OK`. -/
theorem woken_waiter_takes_destroyed : ∃ s t,
    Exec.exec (State.step Sample.world) Sample.start (contention ++
      [Sample.main .yield, .tau, .tau, Sample.green 0 (.mutexUnlock 1),
        Sample.green 0 (.mutexDestroy 1)]) = some s ∧
    s.core.hist.head? = some (.ret 1 (.mutexDestroy 1) ⟨.ok, []⟩) ∧ s.core.InLock 1 1 ∧
    Exec.exec (State.step Sample.world) s
      [Sample.green 0 .yield, .tau, Sample.main .yield, .tau, .tau] = some t ∧
    t.core.hist.head? = some (.ret 2 (.mutexLock 1) ⟨.ok, []⟩) ∧
    (t.core.mutexes 1).initialized = 0 :=
  ⟨_, _, rfl, rfl, by decide, rfl, rfl, rfl⟩

end Gth

/-
  Who may release a mutex.

  `gth_mutex_unlock` compares the owner with the caller unless the owner is 0.  The value 0 is meant
  to say that there is none; but it is also the tid of main, so while main holds a mutex any thread
  can release it, by `gth_mutex_unlock` or inside `gth_cond_wait`.

  The holder is read off the history (`holder`): the context whose lock succeeded last and which
  has not released the mutex since.  As long as only the holder releases it, the mutex agrees with
  its history (`Agrees`).
-/
import Gthreads.Exclusion
import Gthreads.Terminal

namespace Gth

/-! ## The holder -/

/-- The thread that took the mutex last, unless it has released it since.  Newest entry first. -/
def lastHolder : List (Tid × Bool) → Option Tid
  | [] => none
  | (t, true) :: _ => some t
  | (t, false) :: log => if lastHolder log = some t then none else lastHolder log

/-- The holder of `m` after the history `h`: the context whose `lock`, `trylock` or `cond_wait` on
    `m` succeeded last and which has not released `m` since.  Main is 0. -/
def holder (m : Addr) (h : List Obs) : Option Tid := lastHolder (lockLog m h)

/-! ## What `gth_mutex_unlock` does -/

namespace Core

/-- `gth_mutex_unlock(m)` succeeds. -/
def Unlockable (s : Core) (m : Addr) : Prop :=
  (s.mutexes m).initialized ≠ 0 ∧ (s.mutexes m).locked ≠ 0 ∧
    ((s.mutexes m).owner = 0 ∨ (s.mutexes m).owner = s.threadSelf)

/-- The mutex that a call hands to `gth_mutex_unlock`: its argument, or that of a `gth_cond_wait`
    which has got as far as marking its caller. -/
def unlocks (s : Core) : Call → Option Addr
  | .mutexUnlock m => some m
  | .condWait c m => if (s.callMarks (.condWait c m)).isSome then some m else none
  | _ => none

section
variable {s : Core} {x : Ctx} {m : Addr}

theorem mutexUnlock_refused (hm : m ≠ 0) (h : ¬ s.Unlockable m) :
    s.mutexUnlock m = (.estate, s) := by
  unfold mutexUnlock
  rw [if_neg hm]
  by_cases hi : (s.mutexes m).initialized = 0
  · rw [if_pos hi]
  rw [if_neg hi]
  by_cases hl : (s.mutexes m).locked = 0
  · rw [if_pos hl]
  rw [if_neg hl, if_pos]
  exact ⟨fun h0 => h ⟨hi, hl, Or.inl h0⟩, fun hs => h ⟨hi, hl, Or.inr hs⟩⟩

theorem wakeWaiter_mutexes (s : Core) (n : Nat) (e : Event) :
    (s.wakeWaiter n e).mutexes = s.mutexes := by
  unfold wakeWaiter threadUnblockSlot
  dsimp only
  split_ifs <;> rfl

theorem mutexUnlock_done (hm : m ≠ 0) (h : s.Unlockable m) :
    (s.mutexUnlock m).1 = .ok ∧ ((s.mutexUnlock m).2.mutexes m).locked = 0 := by
  rcases mutexUnlock_cases (s := s) m with ⟨st, hst, heq⟩ | ⟨-, -, -, -, ⟨-, e, heq⟩ | ⟨-, e, e', heq⟩⟩
  · -- an error is impossible: all its checks are passed
    obtain ⟨hi, hl, ho⟩ := h
    unfold mutexUnlock at heq
    rw [if_neg hm, if_neg hi, if_neg hl, if_neg fun hne => ho.elim hne.1 hne.2] at heq
    exact absurd (congrArg Prod.fst heq).symm hst
  · rw [heq]
    exact ⟨rfl, by simp only [setMutex, emit, Function.update_self]⟩
  · rw [heq]
    refine ⟨rfl, ?_⟩
    show ((Core.wakeWaiter _ _ _).mutexes m).locked = 0
    rw [wakeWaiter_mutexes]
    simp only [setMutex, Function.update_self]

/-- What happens to the mutexes depends on them and on the caller only. -/
theorem mutexUnlock_mutexes_congr {u : Core} (hmut : u.mutexes = s.mutexes)
    (hself : u.threadSelf = s.threadSelf) :
    (u.mutexUnlock m).2.mutexes = (s.mutexUnlock m).2.mutexes := by
  unfold mutexUnlock
  simp only [hmut, hself, setMutex, Function.update_self]
  split_ifs <;> simp only [wakeWaiter_mutexes, emit, hmut]

theorem condWait_mutexes (s : Core) (x : Ctx) (c m : Addr) : (s.condWait x c m).mutexes =
    if (s.callMarks (.condWait c m)).isSome then (s.mutexUnlock m).2.mutexes else s.mutexes := by
  show _ = if (if ¬ (c = 0 ∨ m = 0) ∧ (s.conds c).initialized ≠ 0 ∧
    (s.conds c).wq.wqIsFull = false then s.currentSlot else none).isSome then _ else _
  unfold condWait
  by_cases hcm : c = 0 ∨ m = 0
  · rw [if_pos hcm, if_neg (c := ¬ _ ∧ _) fun h => h.1 hcm]
    rfl
  rw [if_neg hcm]
  by_cases hi : (s.conds c).initialized = 0
  · rw [if_pos hi, if_neg (c := ¬ _ ∧ _) fun h => h.2.1 hi]
    rfl
  rw [if_neg hi]
  dsimp only
  by_cases hx : s.threadCurrentSlotIndex < 128
  · rw [dif_pos hx]
    cases hfull : (s.conds c).wq.wqIsFull with
    | true =>
      rw [if_pos rfl, if_neg (c := ¬ _ ∧ _) fun h => Bool.false_ne_true h.2.2.symm]
      rfl
    | false =>
      rw [if_neg Bool.false_ne_true, if_pos (c := ¬ _ ∧ _) ⟨hcm, hi, rfl⟩, currentSlot, dif_pos hx,
        Option.isSome_some, if_pos rfl]
      generalize hu : (Core.emit _ _ : Core) = u
      have hmut : u.mutexes = s.mutexes := by rw [← hu]; rfl
      have hself : u.threadSelf = s.threadSelf := by rw [← hu]; rfl
      rw [← mutexUnlock_mutexes_congr hmut hself]
      generalize u.mutexUnlock m = res
      obtain ⟨st, v⟩ := res
      cases st <;> rfl
  · rw [dif_neg hx, currentSlot, dif_neg hx, ite_self]
    rfl

/-- A call that gets to `gth_mutex_unlock(m)` does to the mutexes what that does. -/
theorem exec_mutexes_of_unlocks {c : Call} (h : s.unlocks c = some m) :
    (s.exec x c).mutexes = (s.mutexUnlock m).2.mutexes := by
  cases c with
  | mutexUnlock a =>
    obtain rfl : a = m := Option.some.inj h
    rfl
  | condWait c a =>
    cases hs : (s.callMarks (.condWait c a)).isSome with
    | false =>
      rw [unlocks, hs] at h
      nomatch h
    | true =>
      rw [unlocks, hs] at h
      obtain rfl : a = m := Option.some.inj h
      show (s.condWait x c a).mutexes = _
      rw [condWait_mutexes, hs]
      rfl
  | _ => nomatch h

end
end Core

/-! ## The condition and the property -/

/-- `m` is initialised while it is not initialised, and not destroyed. -/
def InitOnce (m : Addr) (s : Core) (_ : Ctx) (c : Call) : Prop :=
  (c = .mutexInit m → (s.mutexes m).initialized = 0) ∧ c ≠ .mutexDestroy m

/-- **Only the holder can release**: `gth_mutex_unlock(m)`, called on stack `x`, returns `GTH_OK`
    only if `x` holds `m`; if it does not, the result is `GTH_ESTATE` and `m` is unchanged. -/
def ReleasesOwn (m : Addr) (s : Core) (x : Ctx) (c : Call) : Prop :=
  s.unlocks c = some m →
    ((s.mutexUnlock m).1 = .ok → holder m s.hist = some (s.ctxTid x)) ∧
    (holder m s.hist ≠ some (s.ctxTid x) →
      (s.mutexUnlock m).1 = .estate ∧ (s.exec x c).mutexes m = s.mutexes m)

/-- No thread gets to `gth_mutex_unlock(m)` while `m` is locked with owner 0, that is by main. -/
def SparesMain (m : Addr) (s : Core) (x : Ctx) (c : Call) : Prop :=
  s.unlocks c = some m → x ≠ .main → ¬ ((s.mutexes m).locked ≠ 0 ∧ (s.mutexes m).owner = 0)

instance (m : Addr) (s : Core) (x : Ctx) (c : Call) : Decidable (InitOnce m s x c) :=
  inferInstanceAs (Decidable (_ ∧ _))

instance (m : Addr) (s : Core) (x : Ctx) (c : Call) : Decidable (SparesMain m s x c) :=
  inferInstanceAs (Decidable (_ → _ → _))

namespace Kernel
variable {m : Addr} {s t : Kernel} {l : Option (Ctx × Call)}

/-- **The mutex agrees with its history**: it is locked iff it has a holder, and then the holder
    is its owner.  Before it is initialised nobody waits for it. -/
structure Agrees (m : Addr) (s : Kernel) : Prop where
  fresh : (s.mutex m).initialized = 0 → (s.mutex m).locked = 0 ∧ Outside m s
  holder : ∀ u, Gth.holder m s.hist = some u ↔ (s.mutex m).locked ≠ 0 ∧ (s.mutex m).owner = u

/-- It goes on agreeing as long as it is given up by its owner. -/
theorem Agrees.step (h : s.Agrees m) (hstep : Step s l t)
    (hinit : ∀ x, l = some (x, .mutexInit m) → (s.mutex m).initialized = 0)
    (hdestroy : ∀ x, l ≠ some (x, .mutexDestroy m))
    (hgive : ∀ x, Giving x m l → (s.mutex m).locked ≠ 0 → t.mutex m ≠ s.mutex m →
      (s.mutex m).owner = s.ctxTid x) : t.Agrees m := by
  cases hstep.lock_cases m with
  | none hm hlog =>
    refine ⟨fun h0 => ?_, fun u => ?_⟩
    · rw [hm] at h0 ⊢
      exact ⟨(h.fresh h0).1, (h.fresh h0).2.step hstep h0⟩
    · rw [hm, Gth.holder, hlog]
      exact h.holder u
  | init x hl hm hlog =>
    have hfree := (h.fresh (hinit x hl)).1
    refine ⟨fun h0 => ?_, fun u => ?_⟩
    · rw [hm] at h0
      nomatch h0
    · rw [hm, Gth.holder, hlog]
      exact (h.holder u).trans ⟨fun hu => absurd hfree hu.1, fun hu => absurd rfl hu.1⟩
  | take x ht _ hm hlog =>
    have hi := Outside.initialized (fun h0 => (h.fresh h0).2) ht
    refine ⟨fun h0 => ?_, fun u => ?_⟩
    · rw [hm] at h0
      exact absurd h0 hi
    · rw [hm, Gth.holder, hlog]
      exact ⟨fun hu => ⟨Nat.one_ne_zero, Option.some.inj hu⟩, fun hu => congrArg some hu.2⟩
  | give x hg _ hi hlocked _ hm hlog =>
    have hown : (s.mutex m).owner = s.ctxTid x := by
      refine hgive x hg hlocked fun heq => hlocked ?_
      rw [← heq, hm]
    have hnone : Gth.holder m t.hist = Option.none := by
      rw [Gth.holder, hlog, lastHolder]
      exact if_pos ((h.holder _).mpr ⟨hlocked, hown⟩)
    refine ⟨fun h0 => ?_, fun u => ?_⟩
    · rw [hm] at h0
      exact absurd h0 hi
    · rw [hm, hnone]
      exact ⟨nofun, fun hu => absurd rfl hu.1⟩
  | destroy x hl _ _ _ => exact absurd hl (hdestroy x)

theorem agrees_initial (m : Addr) : Agrees m initial :=
  ⟨fun _ => ⟨rfl, fun _ _ => nofun, fun _ => nofun⟩, fun _ => ⟨nofun, fun h => absurd rfl h.1⟩⟩

end Kernel

/-- The mutex agrees with its history as long as only the holder releases it. -/
theorem keeps_agrees (m : Addr) : Keeps (fun s => s.QueuesWf ∧ s.kernel.Agrees m)
    (fun s x c => InitOnce m s x c ∧ ReleasesOwn m s x c) where
  fresh := fun _ hJ => ⟨⟨hJ.1.mutex, hJ.1.sem, hJ.1.cond, hJ.1.closed⟩, hJ.2.fresh, hJ.2.holder⟩
  call := by
    rintro s x c hwf hcpu hcall hjoin - ⟨honce, hown⟩ hJ
    have href := Core.exec_refines hwf hJ.1 hcpu hcall hjoin
    refine ⟨href.queues, hJ.2.step href.step ?_ ?_ ?_⟩
    · intro y hy
      cases hy
      exact honce.1 rfl
    · intro y hy
      cases hy
      exact honce.2 rfl
    · -- the mutex has changed, so the call got to `gth_mutex_unlock`, and its caller is the holder
      intro y hg _ hne
      have hchanged : ¬ (s.exec x c).mutexes m = s.mutexes m :=
        fun heq => hne (congrArg MutexImpl.cell heq)
      obtain ⟨rfl, hun⟩ : y = x ∧ s.unlocks c = some m := by
        rcases hg with hl | ⟨c', hl⟩
        · cases hl
          exact ⟨rfl, rfl⟩
        · cases hl
          refine ⟨rfl, if_pos ?_⟩
          by_contra hno
          refine hchanged (congrFun (?_ : (s.condWait x c' m).mutexes = s.mutexes) m)
          rw [Core.condWait_mutexes, if_neg hno]
      have hholder : holder m s.hist = some (s.ctxTid y) := by
        by_contra hno
        exact hchanged ((hown hun).2 hno).2
      rw [Core.kernel_ctxTid]
      exact ((hJ.2.holder _).mp hholder).2
  pick := by
    intro s caller pick hwf hcpu hpick _ hJ
    have href := Core.runNext_refines hwf hJ.1 hcpu hpick
    refine ⟨href.queues, hJ.2.step href.step nofun nofun fun x hg => ?_⟩
    rcases hg with hl | ⟨c, hl⟩ <;> nomatch hl
  swap := by
    intro s k hwf hcpu _ hJ
    have href := Core.resume_refines hwf hJ.1 hcpu
    refine ⟨href.queues, hJ.2.step href.step nofun nofun fun x hg => ?_⟩
    rcases hg with hl | ⟨c, hl⟩ <;> nomatch hl

/-- **When only the holder can release**: in a run in which `m` is initialised once and not
    destroyed, it is so iff no thread calls `gth_mutex_unlock(m)`, itself or in `gth_cond_wait`,
    while main holds `m`. -/
theorem release_only_by_holder_iff (W : World) (config : ValidConfig) (pageSize : BitVec 64)
    (files : Path → Option (List UInt8)) (m : Addr) (ls : List Label) (s : State) (hm : m ≠ 0)
    (hjoin : JoinsFromMain ls) (hcreates : creates ls < 2 ^ 64)
    (honce : Exec.Along (State.step W) (State.OnCalls (InitOnce m))
      (State.start config pageSize files) ls)
    (hrun : Exec.exec (State.step W) (State.start config pageSize files) ls = some s) :
    Exec.Along (State.step W) (State.OnCalls (ReleasesOwn m)) (State.start config pageSize files) ls ↔
      Exec.Along (State.step W) (State.OnCalls (SparesMain m))
        (State.start config pageSize files) ls := by
  obtain ⟨hkernel, hqueues⟩ := Kernel.start_kernel config pageSize files
  refine (keeps_agrees m).along_iff (fun t x c hwf hcpu _ hJ => ?_)
    ⟨hqueues, by rw [hkernel]; exact Kernel.agrees_initial m⟩ hjoin hcreates honce hrun
  have hlive := hwf.live hcpu
  have hholder : ∀ u, holder m t.hist = some u ↔
      (t.mutexes m).locked ≠ 0 ∧ (t.mutexes m).owner = u := hJ.2.holder
  have hi : (t.mutexes m).locked ≠ 0 → (t.mutexes m).initialized ≠ 0 :=
    fun hl h0 => hl (hJ.2.fresh h0).1
  constructor
  · rintro hown hun hx ⟨hl, ho⟩
    -- main is the holder, and the thread is not main
    have hne : holder m t.hist ≠ some (t.ctxTid x) := by
      rw [(hholder 0).mpr ⟨hl, ho⟩]
      intro heq
      cases x with
      | main => exact hx rfl
      | green i =>
        exact hwf.kernel_ok.tid_pos i hlive.ne_empty (Option.some.inj heq).symm
    have hst := ((hown hun).2 hne).1
    rw [(Core.mutexUnlock_done hm ⟨hi hl, hl, Or.inl ho⟩).1] at hst
    nomatch hst
  · intro hspare hun
    by_cases hu : t.Unlockable m
    · have hself : holder m t.hist = some (t.ctxTid x) := by
        obtain ⟨-, hl, ho | ho⟩ := hu
        · cases x with
          | main => exact (hholder 0).mpr ⟨hl, ho⟩
          | green i => exact absurd ⟨hl, ho⟩ (hspare hun nofun)
        · rw [hlive.threadSelf] at ho
          exact (hholder _).mpr ⟨hl, ho⟩
      exact ⟨fun _ => hself, fun hne => absurd hself hne⟩
    · have hrefused := Core.mutexUnlock_refused hm hu
      refine ⟨fun hok => ?_, fun _ => ⟨congrArg Prod.fst hrefused, ?_⟩⟩
      · rw [hrefused] at hok
        nomatch hok
      · rw [Core.exec_mutexes_of_unlocks hun, hrefused]

/-- Main locks mutex 1 and lets thread 1 run. -/
def mainHoldsRun : List Label :=
  [Sample.main (.mutexInit 1), Sample.main Sample.create, Sample.main (.mutexLock 1),
    Sample.main .yield, .tau, .tau]

/-- Main and a thread take turns with a mutex. -/
theorem release_only_by_holder_turns :
    Exec.Along (State.step Sample.world) (State.OnCalls (ReleasesOwn 1)) Sample.start
      (mainHoldsRun ++ [Sample.green 0 (.mutexTrylock 1), Sample.green 0 .yield, .tau,
        Sample.main (.mutexUnlock 1), Sample.main .yield, .tau, .tau,
        Sample.green 0 (.mutexLock 1), Sample.green 0 (.mutexUnlock 1)]) := by
  obtain ⟨s, hs⟩ := Option.isSome_iff_exists.mp (show (Exec.exec (State.step Sample.world)
    Sample.start (mainHoldsRun ++ [Sample.green 0 (.mutexTrylock 1), Sample.green 0 .yield, .tau,
      Sample.main (.mutexUnlock 1), Sample.main .yield, .tau, .tau,
      Sample.green 0 (.mutexLock 1), Sample.green 0 (.mutexUnlock 1)])).isSome = true
    by decide +kernel)
  exact (release_only_by_holder_iff Sample.world Sample.config 4096#64 (fun _ => none) 1 _ s
    (by decide) (by unfold JoinsFromMain; decide) (by decide) (by decide +kernel) hs).mpr
    (by decide +kernel)

/-- **A thread releases the mutex that main holds.** -/
theorem thread_unlocks_for_main : ∃ s t,
    Exec.exec (State.step Sample.world) Sample.start mainHoldsRun = some s ∧
    holder 1 s.core.hist = some 0 ∧
    State.step Sample.world s (Sample.green 0 (.mutexUnlock 1)) = some t ∧
    t.core.hist.head? = some (.ret 1 (.mutexUnlock 1) ⟨.ok, []⟩) ∧
    (s.core.mutexes 1).locked = 1 ∧ (t.core.mutexes 1).locked = 0 :=
  ⟨_, _, rfl, rfl, rfl, rfl, rfl, rfl⟩

end Gth

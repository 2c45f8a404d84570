/-
  Mutual exclusion.

  Who holds a mutex is read off the HISTORY of returned calls (`holds`), not off the mutex.  The
  mutex itself has the fields `locked` and `owner`, written in four places.  `Step.lock_cases` says
  once what a transition can do to a mutex and, with it, to what the history says about it:
  nothing, (re)set it, let one thread take it while it is free, or let its owner give it up.

  `gth_mutex_lock` suspends its caller in the middle and does not test `initialized` again when
  the caller is woken.  So a mutex that was never initialised is free only because nobody got as
  far as waiting for it (`Inside`).
-/
import Gthreads.Refinement

namespace Gth

/-- The mutex a successful call leaves its caller with. -/
def Call.lockOf : Call → Option Addr
  | .mutexLock m => some m
  | .mutexTrylock m => some m
  | .condWait _ m => some m
  | _ => none

/-- What an entry of the history says about `m`: this thread has it now (`true`), or has released
    it (`false`). -/
def Obs.locks (m : Addr) : Obs → Option (Tid × Bool)
  | .ret t c r =>
    if r.status = .ok then
      if c.lockOf = some m then some (t, true)
      else if c = .mutexUnlock m then some (t, false) else none
    else none
  | .condRelease t _ a => if a = m then some (t, false) else none
  | _ => none

/-- The thread `tid` is a holder of `m`: its last successful `lock`, `trylock` or `cond_wait` is
    not followed by a release, be it an `unlock` or the one inside `cond_wait`.  A call that
    returned an error changes nothing.  The history has the newest entry first. -/
def holds (m : Addr) (tid : Tid) : List Obs → Bool
  | [] => false
  | o :: h => match o.locks m with
    | some (t, b) => if t = tid then b else holds m tid h
    | none => holds m tid h

/-- All that a history says about `m`, the newest entry first. -/
def lockLog (m : Addr) (h : List Obs) : List (Tid × Bool) := h.filterMap (Obs.locks m)

theorem lockLog_skip {m : Addr} {o : Obs} (ho : o.locks m = none) (h : List Obs) :
    lockLog m (o :: h) = lockLog m h := List.filterMap_cons_none ho

theorem lockLog_cons {m : Addr} {o : Obs} {e : Tid × Bool} (ho : o.locks m = some e)
    (h : List Obs) : lockLog m (o :: h) = e :: lockLog m h := List.filterMap_cons_some ho

/-- Holders are read off the log. -/
theorem holds_of_log {m : Addr} {tid : Tid} : ∀ {h : List Obs},
    holds m tid h = true ↔ ((lockLog m h).find? fun e => e.1 == tid) = some (tid, true)
  | [] => ⟨nofun, nofun⟩
  | o :: h => by
    rw [holds]
    cases ho : o.locks m with
    | none =>
      rw [lockLog_skip ho]
      exact holds_of_log
    | some e =>
      obtain ⟨t, b⟩ := e
      rw [lockLog_cons ho]
      dsimp only
      by_cases ht : t = tid
      · subst ht
        rw [if_pos rfl, List.find?_cons_of_pos (by exact beq_self_eq_true t)]
        exact ⟨fun hb => congrArg (fun b => some (t, b)) hb,
          fun h => (Prod.mk.inj (Option.some.inj h)).2⟩
      · rw [if_neg ht, List.find?_cons_of_neg (by exact fun h => ht (beq_iff_eq.mp h))]
        exact holds_of_log

theorem holds_take {m : Addr} {t : Tid} {h h' : List Obs} (hlog : lockLog m h' = (t, true) :: lockLog m h)
    (tid : Tid) : holds m tid h' = true ↔ tid = t ∨ holds m tid h = true := by
  rw [holds_of_log, hlog, holds_of_log]
  by_cases ht : t = tid
  · subst ht
    rw [List.find?_cons_of_pos (by exact beq_self_eq_true t)]
    exact ⟨fun _ => Or.inl rfl, fun _ => rfl⟩
  · rw [List.find?_cons_of_neg (by exact fun h => ht (beq_iff_eq.mp h))]
    exact ⟨Or.inr, fun hor => hor.resolve_left fun e => ht e.symm⟩

theorem holds_give {m : Addr} {t : Tid} {h h' : List Obs}
    (hlog : lockLog m h' = (t, false) :: lockLog m h) (tid : Tid) :
    holds m tid h' = true ↔ tid ≠ t ∧ holds m tid h = true := by
  rw [holds_of_log, hlog, holds_of_log]
  by_cases ht : t = tid
  · subst ht
    rw [List.find?_cons_of_pos (by exact beq_self_eq_true t)]
    exact ⟨nofun, fun hor => absurd rfl hor.1⟩
  · rw [List.find?_cons_of_neg (by exact fun h => ht (beq_iff_eq.mp h))]
    exact ⟨fun hh => ⟨fun e => ht e.symm, hh⟩, fun hor => hor.2⟩

theorem holds_same {m : Addr} {h h' : List Obs} (hlog : lockLog m h' = lockLog m h) (tid : Tid) :
    holds m tid h' = holds m tid h := by
  rw [Bool.eq_iff_iff, holds_of_log, holds_of_log, hlog]

/-- A call that failed says nothing. -/
theorem locks_fail (m : Addr) (t : Tid) (c : Call) {st : Status} (h : st ≠ .ok) (out : List Nat) :
    (Obs.ret t c ⟨st, out⟩).locks m = none := if_neg h

theorem locks_ret {m : Addr} {c : Call} (h₁ : c.lockOf ≠ some m) (h₂ : c ≠ .mutexUnlock m)
    (t : Tid) (r : Ret) : (Obs.ret t c r).locks m = none := by
  simp only [Obs.locks, if_neg h₁, if_neg h₂, ite_self]

/-- The calls that can take or release a mutex. -/
def Call.aboutMutex : Call → Bool
  | .mutexLock _ | .mutexTrylock _ | .mutexUnlock _ | .condWait _ _ => true
  | _ => false

theorem locks_off {c : Call} (h : c.aboutMutex = false) (m : Addr) (t : Tid) (r : Ret) :
    (Obs.ret t c r).locks m = none := by
  cases c <;> first
    | exact absurd (show true = false from h) (by decide)
    | exact locks_ret (by nofun) (by nofun) t r

theorem aboutMutex_query {c : Call} (h : Kernel.isQuery c = true) : c.aboutMutex = false := by
  cases c <;> first | rfl | exact absurd (show false = true from h) (by decide)

theorem aboutMutex_create {c : Call} (h : c.isCreate = true) : c.aboutMutex = false := by
  cases c <;> first | rfl | exact absurd (show false = true from h) (by decide)

theorem locks_took {m : Addr} {c : Call} (h : c.lockOf = some m) (t : Tid) :
    (Obs.ret t c ⟨.ok, []⟩).locks m = some (t, true) := by
  simp only [Obs.locks, if_pos h, if_true]

theorem lockOf_lockCall (m : Addr) (via : Option Addr) : (Core.lockCall m via).lockOf = some m := by
  cases via <;> rfl

theorem locks_gave (m : Addr) (t : Tid) :
    (Obs.ret t (.mutexUnlock m) ⟨.ok, []⟩).locks m = some (t, false) := by
  simp only [Obs.locks, if_true, Call.lockOf, reduceCtorEq, if_false]

/-- What the user program may do with `m`, given its field `initialized`: initialise it once, never
    destroy it, and lock or unlock it from green threads only. -/
def GreenOnly (m : Addr) (initialized : Nat) (x : Ctx) (c : Call) : Prop :=
  (c.lockOf = some m ∨ c = .mutexUnlock m → x ≠ .main) ∧
    (c = .mutexInit m → initialized = 0) ∧ c ≠ .mutexDestroy m

instance (m : Addr) (initialized : Nat) (x : Ctx) (c : Call) :
    Decidable (GreenOnly m initialized x c) :=
  inferInstanceAs (Decidable (_ ∧ _ ∧ _))

namespace Kernel

/-! ## What a transition does to one mutex -/

/-- The stack `x` takes `m` in a `lock` or a `trylock`. -/
def Taking (s : Kernel) (x : Ctx) (m : Addr) (l : Option (Ctx × Call)) : Prop :=
  (∃ via, s.Locking x m via l) ∨
    (l = some (x, .mutexTrylock m) ∧ s.cpu = .user x ∧ (s.mutex m).initialized ≠ 0)

/-- The stack `x` gives `m` up, by itself or inside `cond_wait`. -/
def Giving (x : Ctx) (m : Addr) (l : Option (Ctx × Call)) : Prop :=
  l = some (x, .mutexUnlock m) ∨ ∃ c, l = some (x, .condWait c m)

/-- The changes a mutex `m` and its holders go through. -/
inductive MutexMove (m : Addr) (s : Kernel) (l : Option (Ctx × Call)) (t : Kernel) : Prop where
  | none : t.mutex m = s.mutex m → (∀ u, holds m u t.hist = holds m u s.hist) → MutexMove m s l t
  | init (x : Ctx) : l = some (x, .mutexInit m) → t.mutex m = ⟨1, 0, 0⟩ →
      (∀ u, holds m u t.hist = holds m u s.hist) → MutexMove m s l t
  | take (x : Ctx) : s.Taking x m l → (s.mutex m).locked = 0 →
      t.mutex m = { s.mutex m with locked := 1, owner := s.ctxTid x } →
      (∀ u, holds m u t.hist = true ↔ u = s.ctxTid x ∨ holds m u s.hist = true) →
      MutexMove m s l t
  | give (x : Ctx) : Giving x m l → s.cpu = .user x → (s.mutex m).initialized ≠ 0 →
      (s.mutex m).locked ≠ 0 → ((s.mutex m).owner = 0 ∨ (s.mutex m).owner = s.ctxTid x) →
      t.mutex m = { s.mutex m with locked := 0, owner := 0 } →
      (∀ u, holds m u t.hist = true ↔ u ≠ s.ctxTid x ∧ holds m u s.hist = true) →
      MutexMove m s l t
  | destroy (x : Ctx) : l = some (x, .mutexDestroy m) → (s.mutex m).locked = 0 →
      t.mutex m = ⟨0, 0, 0⟩ → (∀ u, holds m u t.hist = holds m u s.hist) → MutexMove m s l t

/-- The changes a mutex `m` and its log go through. -/
inductive LockMove (m : Addr) (s : Kernel) (l : Option (Ctx × Call)) (t : Kernel) : Prop where
  | none : t.mutex m = s.mutex m → lockLog m t.hist = lockLog m s.hist → LockMove m s l t
  | init (x : Ctx) : l = some (x, .mutexInit m) → t.mutex m = ⟨1, 0, 0⟩ →
      lockLog m t.hist = lockLog m s.hist → LockMove m s l t
  | take (x : Ctx) : s.Taking x m l → (s.mutex m).locked = 0 →
      t.mutex m = { s.mutex m with locked := 1, owner := s.ctxTid x } →
      lockLog m t.hist = (s.ctxTid x, true) :: lockLog m s.hist → LockMove m s l t
  | give (x : Ctx) : Giving x m l → s.cpu = .user x → (s.mutex m).initialized ≠ 0 →
      (s.mutex m).locked ≠ 0 → ((s.mutex m).owner = 0 ∨ (s.mutex m).owner = s.ctxTid x) →
      t.mutex m = { s.mutex m with locked := 0, owner := 0 } →
      lockLog m t.hist = (s.ctxTid x, false) :: lockLog m s.hist → LockMove m s l t
  | destroy (x : Ctx) : l = some (x, .mutexDestroy m) → (s.mutex m).locked = 0 →
      t.mutex m = ⟨0, 0, 0⟩ → lockLog m t.hist = lockLog m s.hist → LockMove m s l t

section
variable {m : Addr} {s t : Kernel} {l : Option (Ctx × Call)}

/-- The mutex is left alone and the newest entry says nothing about it. -/
theorem LockMove.skip {o : Obs} (hm : t.mutex m = s.mutex m) (hh : t.hist = o :: s.hist)
    (ho : o.locks m = Option.none) : LockMove m s l t :=
  .none hm (by rw [hh, lockLog_skip ho])

theorem LockMove.skip₂ {o o' : Obs} (hm : t.mutex m = s.mutex m) (hh : t.hist = o :: o' :: s.hist)
    (ho : o.locks m = Option.none) (ho' : o'.locks m = Option.none) : LockMove m s l t :=
  .none hm (by rw [hh, lockLog_skip ho, lockLog_skip ho'])

/-- A call that has to do with another mutex. -/
theorem locks_other {a : Addr} {c : Call} (hc : c.lockOf = some a) (ha : a ≠ m) (u : Tid) (r : Ret) :
    (Obs.ret u c r).locks m = Option.none := by
  refine locks_ret ?_ ?_ u r
  · rw [hc]
    exact fun e => ha (Option.some.inj e)
  · intro e
    rw [e] at hc
    nomatch hc

theorem ThreadStep.lock_cases (h : ThreadStep s l t) (m : Addr) : LockMove m s l t := by
  cases h with
  | fail x c st _ hst => exact .skip rfl rfl (locks_fail m _ c hst [])
  | query x c r _ hc => exact .skip rfl rfl (locks_off (aboutMutex_query hc) m _ _)
  | createFail x c st i _ _ hst _ => exact .skip rfl rfl (locks_fail m _ c hst [])
  | create x c i r _ hc _ _ _ => exact .skip rfl rfl (locks_off (aboutMutex_create hc) m _ _)
  | schedule caller _ => exact .none rfl rfl
  | yield i k _ _ => exact .skip rfl rfl rfl
  | cancel x tid i _ _ _ => exact .skip rfl rfl (locks_off (by rfl) m _ _)
  | exit i v r k _ _ _ _ _ => exact .skip rfl rfl rfl
  | release tid out i _ _ _ => exact .skip rfl rfl (locks_off (by rfl) m _ _)

theorem SchedStep.lock_cases (h : SchedStep s l t) (m : Addr) : LockMove m s l t := by
  cases h with
  | idle caller st _ hst => exact .skip rfl rfl (locks_fail m _ _ hst [])
  | dispatch caller act i f _ _ _ _ => exact .skip rfl rfl rfl
  | backYield act _ => exact .skip₂ rfl rfl (locks_off (by rfl) m _ _) rfl
  | backRelease act tid out i _ _ _ => exact .skip₂ rfl rfl (locks_off (by rfl) m _ _) rfl
  | backLoop act caller _ => exact .skip rfl rfl rfl
  | start i _ => exact .none rfl rfl
  | yielded i _ => exact .skip rfl rfl (locks_off (by rfl) m _ _)

/-- An unlock releases its mutex and logs it, whoever it wakes. -/
theorem lockMove_unlock {x : Ctx} {a : Addr} (hcpu : s.cpu = .user x)
    (hi : (s.mutex a).initialized ≠ 0) (hl : (s.mutex a).locked ≠ 0)
    (ho : (s.mutex a).owner = 0 ∨ (s.mutex a).owner = s.ctxTid x) (m : Addr) :
    LockMove m s (some (x, .mutexUnlock a))
      (((s.setMutex a { s.mutex a with locked := 0, owner := 0 }).wake (.mutex a)).ret x
        (.mutexUnlock a) ⟨.ok, []⟩) := by
  have hw := woken_wake (s.setMutex a { s.mutex a with locked := 0, owner := 0 }) (.mutex a)
  generalize Kernel.wake _ _ = K at hw ⊢
  have hhist : (K.ret x (.mutexUnlock a) ⟨.ok, []⟩).hist
      = .ret (s.ctxTid x) (.mutexUnlock a) ⟨.ok, []⟩ :: s.hist := by
    show .ret (K.ctxTid x) _ _ :: K.hist = _
    rw [hw.ctxTid, hw.hist]
    rfl
  by_cases ha : a = m
  · subst ha
    refine .give x (Or.inl rfl) hcpu hi hl ho ?_ ?_
    · exact (congrFun hw.mutex a).trans (Function.update_self _ _ _)
    · rw [hhist]
      exact lockLog_cons (locks_gave a _) _
  · refine .none ?_ ?_
    · exact (congrFun hw.mutex m).trans (Function.update_of_ne (Ne.symm ha) _ _)
    · rw [hhist]
      exact lockLog_skip (locks_ret (by nofun) (fun e => ha (Call.mutexUnlock.inj e)) _ _) _

theorem MutexStep.lock_cases (h : MutexStep s l t) (m : Addr) : LockMove m s l t := by
  cases h with
  | init x a _ =>
    by_cases ha : a = m
    · subst ha
      exact .init x rfl (Function.update_self _ _ _) (lockLog_skip (locks_off (by rfl) a _ _) _)
    · exact .skip (Function.update_of_ne (Ne.symm ha) _ _) rfl (locks_off (by rfl) m _ _)
  | acquire x a via l hat hfree =>
    by_cases ha : a = m
    · subst ha
      exact .take x (Or.inl ⟨via, hat⟩) hfree (Function.update_self _ _ _)
        (lockLog_cons (locks_took (lockOf_lockCall a via) _) _)
    · exact .skip (Function.update_of_ne (Ne.symm ha) _ _) rfl
        (locks_other (lockOf_lockCall a via) ha _ _)
  | lockBlock i a via l k _ _ _ _ => exact .skip rfl rfl rfl
  | lockBusy i a via _ _ => exact .skip rfl rfl (locks_fail m _ _ (by decide) [])
  | relockFail i c a st _ hst => exact .skip rfl rfl (locks_fail m _ _ hst [])
  | trylock x a hcpu hi hfree =>
    by_cases ha : a = m
    · subst ha
      exact .take x (Or.inr ⟨rfl, hcpu, hi⟩) hfree (Function.update_self _ _ _)
        (lockLog_cons (locks_took rfl _) _)
    · exact .skip (Function.update_of_ne (Ne.symm ha) _ _) rfl (locks_other rfl ha _ _)
  | unlock x a hcpu hi hl ho => exact lockMove_unlock hcpu hi hl ho m
  | destroy x a _ hl _ =>
    by_cases ha : a = m
    · subst ha
      exact .destroy x rfl hl (Function.update_self _ _ _)
        (lockLog_skip (locks_off (by rfl) a _ _) _)
    · exact .skip (Function.update_of_ne (Ne.symm ha) _ _) rfl (locks_off (by rfl) m _ _)

theorem SemStep.lock_cases (h : SemStep s l t) (m : Addr) : LockMove m s l t := by
  cases h with
  | init x a n _ => exact .skip rfl rfl (locks_off (by rfl) m _ _)
  | take x a _ _ _ => exact .skip₂ rfl rfl (locks_off (by rfl) m _ _) rfl
  | block i a k _ _ _ _ => exact .skip₂ rfl rfl rfl rfl
  | waited i a _ => exact .skip rfl rfl (locks_off (by rfl) m _ _)
  | wake x a n q _ _ _ =>
    have hw := woken_wake (s.log (.semWake (s.tidAt n) a)) (.sem a)
    exact .skip₂ (congrFun hw.mutex m) (congrArg (List.cons _) hw.hist)
      (locks_off (by rfl) m _ _) rfl
  | give x a _ _ _ _ => exact .skip rfl rfl (locks_off (by rfl) m _ _)
  | destroy x a _ _ => exact .skip rfl rfl (locks_off (by rfl) m _ _)

theorem CondStep.lock_cases (h : CondStep s l t) (m : Addr) : LockMove m s l t := by
  cases h with
  | init x c _ => exact .skip rfl rfl (locks_off (by rfl) m _ _)
  | block i c a k hcpu _ hi hl ho _ =>
    have hw := woken_wake ((s.setMutex a { s.mutex a with locked := 0, owner := 0 }).wait i
      (.cond c) (.condWait c a)) (.mutex a)
    generalize Kernel.wake _ _ = K at hw ⊢
    have hhist : lockLog m (.leave (.green i) (some k)
        :: .condRelease (s.threads i).tid c a :: K.hist)
        = lockLog m (.condRelease (s.threads i).tid c a :: s.hist) := by
      rw [lockLog_skip rfl, hw.hist]
      rfl
    by_cases ha : a = m
    · subst ha
      refine .give (.green i) (Or.inr ⟨c, rfl⟩) hcpu hi hl ho ?_ ?_
      · exact (congrFun hw.mutex a).trans (Function.update_self _ _ _)
      · exact hhist.trans (lockLog_cons (by exact if_pos rfl) _)
    · refine .none ?_ ?_
      · exact (congrFun hw.mutex m).trans (Function.update_of_ne (Ne.symm ha) _ _)
      · exact hhist.trans (lockLog_skip (by exact if_neg ha) _)
  | fail i c a st _ hst => exact .skip rfl rfl (locks_fail m _ _ hst [])
  | signal x c _ =>
    have hw := woken_wake s (.cond c)
    exact .skip (congrFun hw.mutex m) (congrArg (List.cons _) hw.hist) (locks_off (by rfl) m _ _)
  | broadcast x c _ =>
    have hw := woken_wakes (.cond c) (s.queue (.cond c)).length s
    exact .skip (congrFun hw.mutex m) (congrArg (List.cons _) hw.hist) (locks_off (by rfl) m _ _)
  | destroy x c _ _ => exact .skip rfl rfl (locks_off (by rfl) m _ _)

/-- **Inversion for one mutex**: a group of transitions at a time. -/
theorem Step.lock_cases (h : Step s l t) (m : Addr) : LockMove m s l t := by
  cases h with
  | thread h => exact h.lock_cases m
  | sched h => exact h.lock_cases m
  | mutex h => exact h.lock_cases m
  | sem h => exact h.lock_cases m
  | cond h => exact h.lock_cases m

/-- The same in terms of the holders. -/
theorem Step.mutex_cases (h : Step s l t) (m : Addr) : MutexMove m s l t := by
  cases h.lock_cases m with
  | none hm hlog => exact .none hm (holds_same hlog)
  | init x hl hm hlog => exact .init x hl hm (holds_same hlog)
  | take x ht hfree hm hlog => exact .take x ht hfree hm (holds_take hlog)
  | give x hg hcpu hi hl ho hm hlog => exact .give x hg hcpu hi hl ho hm (holds_give hlog)
  | destroy x hl hfree hm hlog => exact .destroy x hl hfree hm (holds_same hlog)

end

/-! ## The invariant -/

/-- The stack of no thread is inside a wait for `m`. -/
def Outside (m : Addr) (s : Kernel) : Prop := s.Frames fun f => f.waits ≠ some (.mutex m)

/-- **The mutex agrees with its history**: it is locked iff it has a holder, and then the holder
    is its owner, a green thread.  Before it is initialised nobody waits for it. -/
structure Owned (m : Addr) (s : Kernel) : Prop where
  fresh : (s.mutex m).initialized = 0 → (s.mutex m).locked = 0 ∧ Outside m s
  holder : ∀ u, holds m u s.hist = true ↔ (s.mutex m).locked ≠ 0 ∧ (s.mutex m).owner = u
  green : (s.mutex m).locked ≠ 0 → (s.mutex m).owner ≠ 0

section
variable {m : Addr} {s t : Kernel} {l : Option (Ctx × Call)} {x : Ctx}

/-- A mutex can be taken only after its initialisation. -/
theorem Outside.initialized (h : (s.mutex m).initialized = 0 → Outside m s)
    (ht : s.Taking x m l) : (s.mutex m).initialized ≠ 0 := by
  rcases ht with ⟨via, hat⟩ | ⟨-, -, hi⟩
  · cases hat with
    | call _ hi => exact hi
    | woken i _ _ hcpu => exact fun h0 => (h h0).loaded _ hcpu rfl
    | relock i c _ _ hi => exact hi
  · exact hi

/-- The taker is a green thread. -/
theorem Taking.tid_ne_zero (hok : s.Ok)
    (hG : ∀ x c, l = some (x, c) → GreenOnly m (s.mutex m).initialized x c)
    (ht : s.Taking x m l) : s.ctxTid x ≠ 0 := by
  have huser : s.cpu = .user x → x ≠ .main → s.ctxTid x ≠ 0 := by
    intro hcpu hx
    cases x with
    | main => exact absurd rfl hx
    | green i =>
      refine hok.tid_pos i ?_
      rcases hok.user i hcpu with hs | hs <;> rw [hs] <;> decide
  have hswap : ∀ i f, x = .green i → s.cpu = .swap (some ⟨.green i, f⟩) → s.ctxTid x ≠ 0 := by
    rintro i f rfl hcpu
    refine hok.tid_pos i ?_
    rw [(hok.enter i f hcpu).1]
    decide
  rcases ht with ⟨via, hat⟩ | ⟨rfl, hcpu, -⟩
  · cases hat with
    | call hcpu _ => exact huser hcpu ((hG x _ rfl).1 (Or.inl rfl))
    | woken i _ hx hcpu => exact hswap i _ hx hcpu
    | relock i c hx hcpu _ => exact hswap i _ hx hcpu
  · exact huser hcpu ((hG x _ rfl).1 (Or.inl rfl))

/-- Nobody starts to wait for a mutex that is not initialised. -/
theorem Outside.step (hstep : Step s l t) (h0 : (s.mutex m).initialized = 0) (h : Outside m s) :
    Outside m t := by
  refine hstep.frames h (fun f hf => by rw [hf]; nofun) ?_ (fun _ _ _ _ => nofun)
    (fun _ _ _ _ => nofun)
  intro i a via _ hi e
  obtain rfl : a = m := Obj.mutex.inj (Option.some.inj e)
  exact hi h0

end

theorem owned_inv (m : Addr) :
    Inv (Owned m) (fun s => GreenOnly m (s.mutex m).initialized) := by
  intro s l t hok _ hstep hG hJ
  cases hstep.mutex_cases m with
  | none hm hh =>
    refine ⟨fun h0 => ?_, fun u => ?_, ?_⟩
    · rw [hm] at h0 ⊢
      exact ⟨(hJ.fresh h0).1, (hJ.fresh h0).2.step hstep h0⟩
    · rw [hm, hh]
      exact hJ.holder u
    · rw [hm]
      exact hJ.green
  | init x hl hm hh =>
    have hfree := (hJ.fresh ((hG x _ hl).2.1 rfl)).1
    refine ⟨fun h0 => ?_, fun u => ?_, fun hlk => ?_⟩
    · rw [hm] at h0
      nomatch h0
    · rw [hm, hh, hJ.holder]
      exact ⟨fun h => absurd hfree h.1, fun h => absurd rfl h.1⟩
    · rw [hm] at hlk
      exact absurd rfl hlk
  | take x ht hfree hm hh =>
    have hi := Outside.initialized (fun h0 => (hJ.fresh h0).2) ht
    refine ⟨fun h0 => ?_, fun u => ?_, fun _ => ?_⟩
    · rw [hm] at h0
      exact absurd h0 hi
    · rw [hm, hh, hJ.holder]
      constructor
      · rintro (rfl | h)
        · exact ⟨Nat.one_ne_zero, rfl⟩
        · exact absurd hfree h.1
      · exact fun h => Or.inl h.2.symm
    · rw [hm]
      exact ht.tid_ne_zero hok hG
  | give x _ _ hi hlocked howner hm hh =>
    have hself : (s.mutex m).owner = s.ctxTid x := howner.resolve_left (hJ.green hlocked)
    refine ⟨fun h0 => ?_, fun u => ?_, fun hlk => ?_⟩
    · rw [hm] at h0
      exact absurd h0 hi
    · rw [hm, hh, hJ.holder, hself]
      exact ⟨fun h => absurd h.2.2.symm h.1, fun h => absurd rfl h.1⟩
    · rw [hm] at hlk
      exact absurd rfl hlk
  | destroy x hl _ _ _ => exact absurd rfl ((hG x _ hl).2.2)

theorem owned_initial (m : Addr) : Owned m initial :=
  ⟨fun _ => ⟨rfl, fun _ _ => nofun, fun _ => nofun⟩,
    fun _ => ⟨nofun, fun h => absurd rfl h.1⟩, fun h => absurd rfl h⟩

end Kernel

/-- **Mutual exclusion between green threads.**  At most one thread is a holder of `m`; `locked`
    is non-zero iff there is a holder, and then `owner` is its tid. -/
theorem mutual_exclusion (W : World) (config : ValidConfig) (pageSize : BitVec 64)
    (files : Path → Option (List UInt8)) (m : Addr) (ls : List Label) (s : State)
    (hjoin : JoinsFromMain ls) (hcreates : creates ls < 2 ^ 64)
    (hcalls : Exec.Along (State.step W)
      (State.OnCalls fun s => GreenOnly m (s.mutexes m).initialized)
      (State.start config pageSize files) ls)
    (hrun : Exec.exec (State.step W) (State.start config pageSize files) ls = some s) :
    (∀ t u, holds m t s.core.hist = true → holds m u s.core.hist = true → t = u) ∧
    ((s.core.mutexes m).locked ≠ 0 ↔ ∃ t, holds m t s.core.hist = true) ∧
    ∀ t, holds m t s.core.hist = true → (s.core.mutexes m).owner = t := by
  obtain ⟨-, -, howned⟩ := (Kernel.owned_inv m).reach (Kernel.owned_initial m) hjoin hcreates
    hcalls hrun
  have hholder : ∀ u, holds m u s.core.hist = true ↔
      (s.core.mutexes m).locked ≠ 0 ∧ (s.core.mutexes m).owner = u := howned.holder
  refine ⟨fun t u ht hu => ?_, ⟨fun hl => ?_, fun ⟨t, ht⟩ => ?_⟩, fun t ht => ?_⟩
  · exact ((hholder t).mp ht).2.symm.trans ((hholder u).mp hu).2
  · exact ⟨_, (hholder _).mpr ⟨hl, rfl⟩⟩
  · exact ((hholder t).mp ht).1
  · exact ((hholder t).mp ht).2

/-- A run of two threads: the first one locks mutex 1 and yields, the second one blocks on it. -/
def contention : List Label :=
  [Sample.main (.mutexInit 1), Sample.main Sample.create, Sample.main Sample.create,
    Sample.main .yield, .tau, .tau, Sample.green 0 (.mutexLock 1), Sample.green 0 .yield, .tau,
    Sample.main .yield, .tau, .tau, Sample.green 1 (.mutexLock 1), .tau]

theorem mutual_exclusion_contention : ∃ s,
    Exec.exec (State.step Sample.world) Sample.start contention = some s ∧
      (s.core.threads 1).state = .blocked ∧ holds 1 1 s.core.hist = true ∧
      (∀ t u, holds 1 t s.core.hist = true → holds 1 u s.core.hist = true → t = u) ∧
      ((s.core.mutexes 1).locked ≠ 0 ↔ ∃ t, holds 1 t s.core.hist = true) ∧
      ∀ t, holds 1 t s.core.hist = true → (s.core.mutexes 1).owner = t :=
  ⟨_, rfl, rfl, rfl, mutual_exclusion Sample.world Sample.config 4096#64 (fun _ => none) 1
    contention _ (by unfold JoinsFromMain; decide) (by decide) (by decide +kernel) rfl⟩

end Gth

/-
  What happens at a semaphore.

  Everything that happens at a semaphore is in the history: permits taken from the count, callers
  that block, waiters taken off the queue, waits and posts that returned (`semLog`).
  `Step.sem_cases` says once what a transition can do to one semaphore, to its queue and to its
  log.

  `gth_sem_wait` trusts any wake-up: it returns `GTH_OK` after its block without a test.  A thread
  in it is blocked (`BlockedAt`) or will return with a permit (`GrantedAt`), and it gets from one
  to the other by a wake-up and nothing else (`ThreadMove.granted`).  Whether the wake-up was meant
  for it is another matter.
-/
import Gthreads.Lib.CountingSem
import Gthreads.MutexWake

namespace Gth

open CountingSem (Phase phase)

/-- The semaphore a call is about. -/
def Call.semOf : Call → Option Addr
  | .semInit a _ => some a
  | .semWait a => some a
  | .semPost a => some a
  | .semDestroy a => some a
  | _ => none

/-- What an entry of the history says about the semaphore `a`. -/
def Obs.semEvent (a : Addr) : Obs → Option (CountingSem.Event Tid)
  | .ret _ (.semInit b n) r => if b = a ∧ r.status = .ok then some (.init (n % 2 ^ 32)) else none
  | .ret t (.semWait b) r => if b = a ∧ r.status = .ok then some (.done t) else none
  | .ret t (.semPost b) r => if b = a ∧ r.status = .ok then some (.post t) else none
  | .semTake t b => if b = a then some (.take t) else none
  | .semBlock t b => if b = a then some (.block t) else none
  | .semWake t b => if b = a then some (.grant t) else none
  | _ => none

/-- The history of one semaphore, newest first. -/
def semLog (a : Addr) (h : List Obs) : List (CountingSem.Event Tid) := h.filterMap (Obs.semEvent a)

theorem semLog_skip {a : Addr} {o : Obs} (ho : o.semEvent a = none) (h : List Obs) :
    semLog a (o :: h) = semLog a h := List.filterMap_cons_none ho

theorem semLog_add {a : Addr} {o : Obs} {e : CountingSem.Event Tid} (ho : o.semEvent a = some e)
    (h : List Obs) : semLog a (o :: h) = e :: semLog a h := List.filterMap_cons_some ho

theorem semEvent_off {a : Addr} {c : Call} (hc : c.semOf ≠ some a) (t : Tid) (r : Ret) :
    (Obs.ret t c r).semEvent a = none := by
  have hne : ∀ {b}, some b ≠ some a → ¬ (b = a ∧ r.status = .ok) :=
    fun hb h => hb (congrArg some h.1)
  cases c with
  | semInit b n => exact if_neg (hne hc)
  | semWait b => exact if_neg (hne hc)
  | semPost b => exact if_neg (hne hc)
  | _ => rfl

/-- A call that failed says nothing. -/
theorem semEvent_fail (a : Addr) (t : Tid) (c : Call) {st : Status} (h : st ≠ .ok)
    (out : List Nat) : (Obs.ret t c ⟨st, out⟩).semEvent a = none := by
  cases c with
  | semInit b n => exact if_neg fun hb => h hb.2
  | semWait b => exact if_neg fun hb => h hb.2
  | semPost b => exact if_neg fun hb => h hb.2
  | _ => rfl

theorem semEvent_init (a : Addr) (t : Tid) (n : Nat) :
    (Obs.ret t (.semInit a n) ⟨.ok, []⟩).semEvent a = some (.init (n % 2 ^ 32)) :=
  if_pos ⟨rfl, rfl⟩

theorem semEvent_done (a : Addr) (t : Tid) :
    (Obs.ret t (.semWait a) ⟨.ok, []⟩).semEvent a = some (.done t) := if_pos ⟨rfl, rfl⟩

theorem semEvent_post (a : Addr) (t : Tid) :
    (Obs.ret t (.semPost a) ⟨.ok, []⟩).semEvent a = some (.post t) := if_pos ⟨rfl, rfl⟩

theorem semEvent_take (a : Addr) (t : Tid) : (Obs.semTake t a).semEvent a = some (.take t) :=
  if_pos rfl

theorem semEvent_block (a : Addr) (t : Tid) : (Obs.semBlock t a).semEvent a = some (.block t) :=
  if_pos rfl

theorem semEvent_grant (a : Addr) (t : Tid) : (Obs.semWake t a).semEvent a = some (.grant t) :=
  if_pos rfl

theorem semOf_query {c : Call} (h : Kernel.isQuery c = true) : c.semOf = none := by
  cases c <;> first | rfl | exact absurd (show false = true from h) (by decide)

theorem semOf_create {c : Call} (h : c.isCreate = true) : c.semOf = none := by
  cases c <;> first | rfl | exact absurd (show false = true from h) (by decide)

namespace Kernel

/-! ## What a transition does to one semaphore -/

/-- The changes a semaphore `a`, its queue and its log go through. -/
inductive SemMove (a : Addr) (s : Kernel) (l : Option (Ctx × Call)) (t : Kernel) : Prop where
  /-- Nothing; a call about `a` that comes to nothing leaves all threads alone. -/
  | none : t.sem a = s.sem a → t.queue (.sem a) = s.queue (.sem a) →
      semLog a t.hist = semLog a s.hist → (∀ i, ¬ s.Entering i (.semWait a)) →
      (∀ x c, l = some (x, c) → c.semOf = some a → t.threads = s.threads) → SemMove a s l t
  | init (x : Ctx) (n : Nat) : l = some (x, .semInit a n) → t.sem a = ⟨1, n % 2 ^ 32⟩ →
      t.queue (.sem a) = [] → semLog a t.hist = .init (n % 2 ^ 32) :: semLog a s.hist →
      t.threads = s.threads → SemMove a s l t
  | take (x : Ctx) : l = some (x, .semWait a) → (s.sem a).initialized ≠ 0 →
      (s.sem a).count ≠ 0 → t.sem a = { s.sem a with count := (s.sem a).count - 1 } →
      t.queue (.sem a) = s.queue (.sem a) →
      semLog a t.hist = .done (s.ctxTid x) :: .take (s.ctxTid x) :: semLog a s.hist →
      t.threads = s.threads → SemMove a s l t
  | block (i : Slot) : l = some (.green i, .semWait a) → (s.sem a).initialized ≠ 0 →
      (s.sem a).count = 0 → t.sem a = s.sem a →
      t.queue (.sem a) = s.queue (.sem a) ++ [(i : Nat)] →
      semLog a t.hist = .block (s.threads i).tid :: semLog a s.hist →
      t.threads = (s.suspend i .blocked (.semWait a)).threads → SemMove a s l t
  | finish (i : Slot) : s.Entering i (.semWait a) → t.sem a = s.sem a →
      t.queue (.sem a) = s.queue (.sem a) →
      semLog a t.hist = .done (s.threads i).tid :: semLog a s.hist → t.threads = s.threads →
      SemMove a s l t
  | grant (x : Ctx) (n : Nat) (q : List Nat) : l = some (x, .semPost a) →
      (s.sem a).initialized ≠ 0 → s.queue (.sem a) = n :: q → t.sem a = s.sem a →
      t.queue (.sem a) = q →
      semLog a t.hist = .post (s.ctxTid x) :: .grant (s.tidAt n) :: semLog a s.hist →
      t.threads = (s.wake (.sem a)).threads → SemMove a s l t
  | give (x : Ctx) : l = some (x, .semPost a) → (s.sem a).initialized ≠ 0 →
      s.queue (.sem a) = [] → t.sem a = { s.sem a with count := (s.sem a).count + 1 } →
      t.queue (.sem a) = s.queue (.sem a) →
      semLog a t.hist = .post (s.ctxTid x) :: semLog a s.hist → t.threads = s.threads →
      SemMove a s l t
  | destroy (x : Ctx) : l = some (x, .semDestroy a) → t.sem a = ⟨0, 0⟩ →
      semLog a t.hist = semLog a s.hist → t.threads = s.threads → SemMove a s l t

section
variable {a : Addr} {s t : Kernel} {l : Option (Ctx × Call)}

/-- The semaphore is left alone and the newest entry says nothing about it. -/
theorem SemMove.skip {o : Obs} (hs : t.sem a = s.sem a)
    (hq : t.queue (.sem a) = s.queue (.sem a)) (hh : t.hist = o :: s.hist)
    (ho : o.semEvent a = Option.none) (hout : ∀ i, ¬ s.Entering i (.semWait a))
    (hl : ∀ x c, l = some (x, c) → c.semOf = some a → t.threads = s.threads) : SemMove a s l t :=
  .none hs hq (by rw [hh, semLog_skip ho]) hout hl

/-- A call about something else. -/
theorem SemMove.off {x : Ctx} {c : Call} {o : Obs} (hcpu : s.cpu = .user x)
    (hc : c.semOf ≠ some a) (hs : t.sem a = s.sem a) (hq : t.queue (.sem a) = s.queue (.sem a))
    (hh : t.hist = o :: s.hist) (ho : o.semEvent a = Option.none) :
    SemMove a s (some (x, c)) t := by
  refine .skip hs hq hh ho (fun i he => ?_) fun _ _ e h => ?_
  · nomatch hcpu.symm.trans he
  · cases e
    exact absurd h hc

/-- The runtime goes on with something else. -/
theorem SemMove.tau {o : Obs} (hout : ∀ i, s.cpu ≠ .swap (some ⟨.green i, .semWait a⟩))
    (hs : t.sem a = s.sem a) (hq : t.queue (.sem a) = s.queue (.sem a))
    (hh : t.hist = o :: s.hist) (ho : o.semEvent a = Option.none) :
    SemMove a s Option.none t := .skip hs hq hh ho hout nofun

/-- In user code no stack is about to go on. -/
theorem not_entering_user {x : Ctx} (hcpu : s.cpu = .user x) {f : Frame} (i : Slot) :
    ¬ s.Entering i f :=
  fun he => nomatch hcpu.symm.trans he

theorem semOf_ne_of_none {c : Call} (hc : c.semOf = none) : c.semOf ≠ some a :=
  fun e => nomatch hc.symm.trans e

/-- A call about another semaphore. -/
theorem semOf_ne {b : Addr} (hb : b ≠ a) {c : Call} (hc : c.semOf = some b) : c.semOf ≠ some a :=
  fun e => hb (Option.some.inj (hc.symm.trans e))

theorem sem_ne_mutex (a m : Addr) : Obj.sem a ≠ .mutex m := nofun

theorem sem_ne_cond (a c : Addr) : Obj.sem a ≠ .cond c := nofun

theorem obj_sem_ne {b : Addr} (hb : b ≠ a) : Obj.sem a ≠ .sem b :=
  fun e => hb (Obj.sem.inj e).symm

theorem ThreadStep.sem_cases (h : ThreadStep s l t) (a : Addr) : SemMove a s l t := by
  cases h with
  | fail x c st hcpu hst =>
    exact .skip rfl rfl rfl (semEvent_fail a _ c hst []) (not_entering_user hcpu) fun _ _ _ _ => rfl
  | query x c r hcpu hc =>
    have hev := semOf_ne_of_none (a := a) (semOf_query hc)
    exact .off hcpu hev rfl rfl rfl (semEvent_off hev _ _)
  | createFail x c st i hcpu hc _ _ =>
    have hev := semOf_ne_of_none (a := a) (semOf_create hc)
    exact .off hcpu hev rfl rfl rfl (semEvent_off hev _ _)
  | create x c i r hcpu hc _ _ _ =>
    have hev := semOf_ne_of_none (a := a) (semOf_create hc)
    exact .off hcpu hev rfl rfl rfl (semEvent_off hev _ _)
  | schedule caller hcpu =>
    refine .none rfl rfl rfl (not_entering_user hcpu) fun _ _ _ _ => rfl
  | yield i k hcpu _ => exact .off hcpu nofun rfl rfl rfl rfl
  | cancel x tid i hcpu _ _ => exact .off hcpu nofun rfl rfl rfl rfl
  | exit i v r k hcpu _ _ _ _ => exact .off hcpu nofun rfl rfl rfl rfl
  | release tid out i hcpu _ _ => exact .off hcpu nofun rfl rfl rfl rfl

theorem SchedStep.sem_cases (h : SchedStep s l t) (a : Addr) : SemMove a s l t := by
  cases h with
  | idle caller st hcpu hst =>
    exact .tau (fun i e => nomatch hcpu.symm.trans e) rfl rfl rfl (semEvent_fail a _ _ hst [])
  | dispatch caller act i f hcpu _ _ _ =>
    exact .tau (fun i e => nomatch hcpu.symm.trans e) rfl rfl rfl rfl
  | backYield act hcpu =>
    refine .none rfl rfl ?_ (fun i e => nomatch hcpu.symm.trans e) nofun
    exact (semLog_skip rfl _).trans (semLog_skip rfl _)
  | backRelease act tid out i hcpu _ _ =>
    refine .none rfl rfl ?_ (fun i e => nomatch hcpu.symm.trans e) nofun
    exact (semLog_skip rfl _).trans (semLog_skip rfl _)
  | backLoop act caller hcpu =>
    exact .tau (fun i e => nomatch hcpu.symm.trans e) rfl rfl rfl rfl
  | start i hcpu =>
    exact .none rfl rfl rfl (fun i e => nomatch hcpu.symm.trans e) nofun
  | yielded i hcpu => exact .tau (fun i e => nomatch hcpu.symm.trans e) rfl rfl rfl rfl

theorem MutexStep.sem_cases (h : MutexStep s l t) (a : Addr) : SemMove a s l t := by
  cases h with
  | init x m hcpu =>
    exact .off hcpu nofun rfl (Function.update_of_ne (sem_ne_mutex a m) [] _) rfl rfl
  | acquire x m via l hat _ =>
    have hnone : (Core.lockCall m via).semOf = Option.none := by cases via <;> rfl
    have hev := semEvent_off (a := a) (semOf_ne_of_none hnone)
    cases hat with
    | call hcpu _ => exact .off hcpu nofun rfl rfl rfl rfl
    | woken i _ _ hcpu =>
      exact .tau (fun i e => nomatch hcpu.symm.trans e) rfl rfl rfl (hev _ _)
    | relock i c _ hcpu _ =>
      exact .tau (fun i e => nomatch hcpu.symm.trans e) rfl rfl rfl (hev _ _)
  | lockBlock i m via l k hat _ _ _ =>
    have hq := queue_wait_of_ne s i (.lock m i via) (sem_ne_mutex a m)
    cases hat with
    | call hcpu _ => exact .off hcpu nofun rfl hq rfl rfl
    | woken i _ _ hcpu => exact .tau (fun i e => nomatch hcpu.symm.trans e) rfl hq rfl rfl
    | relock i c _ hcpu _ => exact .tau (fun i e => nomatch hcpu.symm.trans e) rfl hq rfl rfl
  | lockBusy i m via hcpu _ =>
    exact .tau (fun i e => nomatch hcpu.symm.trans e) rfl rfl rfl
      (semEvent_fail a _ _ (by decide) [])
  | relockFail i c m st hcpu _ =>
    exact .tau (fun i e => nomatch hcpu.symm.trans e) rfl rfl rfl rfl
  | trylock x m hcpu _ _ => exact .off hcpu nofun rfl rfl rfl rfl
  | unlock x m hcpu _ _ _ =>
    have hw := woken_wake (s.setMutex m { s.mutex m with locked := 0, owner := 0 }) (.mutex m)
    have hq := queue_wake (s.setMutex m { s.mutex m with locked := 0, owner := 0 }) (.mutex m)
    refine .off hcpu nofun (congrFun hw.sem a) ?_ (congrArg (List.cons _) hw.hist) rfl
    exact (congrFun hq _).trans (Function.update_of_ne (sem_ne_mutex a m) _ _)
  | destroy x m hcpu _ _ =>
    exact .off hcpu nofun rfl (Function.update_of_ne (sem_ne_mutex a m) [] _) rfl rfl

/-- `gth_sem_post` with a waiter hands the permit to the first one. -/
theorem semMove_wake {x : Ctx} {b : Addr} {n : Nat} {q : List Nat} (hcpu : s.cpu = .user x)
    (hi : (s.sem b).initialized ≠ 0) (hq : s.queue (.sem b) = n :: q) (a : Addr) :
    SemMove a s (some (x, .semPost b))
      (((s.log (.semWake (s.tidAt n) b)).wake (.sem b)).ret x (.semPost b) ⟨.ok, []⟩) := by
  have hw := woken_wake (s.log (.semWake (s.tidAt n) b)) (.sem b)
  have hqueue := queue_wake (s.log (.semWake (s.tidAt n) b)) (.sem b)
  have hthreads : ((s.log (.semWake (s.tidAt n) b)).wake (.sem b)).threads
      = (s.wake (.sem b)).threads := by
    rw [wake_log]
    rfl
  have htid : ((s.log (.semWake (s.tidAt n) b)).wake (.sem b)).ctxTid x = s.ctxTid x :=
    hw.ctxTid x
  generalize Kernel.wake (s.log _) _ = K at hw hqueue hthreads htid ⊢
  have hlog : semLog a (K.ret x (.semPost b) ⟨.ok, []⟩).hist
      = semLog a (.ret (s.ctxTid x) (.semPost b) ⟨.ok, []⟩ :: .semWake (s.tidAt n) b :: s.hist) := by
    show semLog a (.ret (K.ctxTid x) _ _ :: K.hist) = _
    rw [htid, hw.hist]
    rfl
  by_cases hb : b = a
  · subst hb
    refine .grant x n q rfl hi hq (congrFun hw.sem b) ?_ ?_ hthreads
    · exact (congrFun hqueue _).trans ((Function.update_self _ _ _).trans (congrArg List.tail hq))
    · rw [hlog, semLog_add (semEvent_post b _), semLog_add (semEvent_grant b _)]
  · refine .none (congrFun hw.sem a) ?_ ?_ (not_entering_user hcpu) fun y c e h => ?_
    · exact (congrFun hqueue _).trans (Function.update_of_ne (obj_sem_ne hb) _ _)
    · rw [hlog, semLog_skip (semEvent_off (semOf_ne hb rfl) _ _), semLog_skip (by exact if_neg hb)]
    · cases e
      exact absurd h (semOf_ne hb rfl)

theorem SemStep.sem_cases (h : SemStep s l t) (a : Addr) : SemMove a s l t := by
  cases h with
  | init x b n hcpu =>
    by_cases hb : b = a
    · subst hb
      exact .init x n rfl (Function.update_self _ _ _) (Function.update_self _ _ _)
        (semLog_add (semEvent_init b _ n) _) rfl
    · exact .off hcpu (semOf_ne hb rfl) (Function.update_of_ne (Ne.symm hb) _ _)
        (queue_setQueue_of_ne s (obj_sem_ne hb) []) rfl (semEvent_off (semOf_ne hb rfl) _ _)
  | take x b hcpu hi hc =>
    by_cases hb : b = a
    · subst hb
      refine .take x rfl hi hc (Function.update_self _ _ _) rfl ?_ rfl
      exact (semLog_add (semEvent_done b _) _).trans
        (congrArg (List.cons _) (semLog_add (semEvent_take b _) _))
    · refine .none (Function.update_of_ne (Ne.symm hb) _ _) rfl ?_ (not_entering_user hcpu)
        fun _ _ _ _ => rfl
      exact (semLog_skip (semEvent_off (semOf_ne hb rfl) _ _) _).trans
        (semLog_skip (by exact if_neg hb) _)
  | block i b k hcpu hi hc _ =>
    by_cases hb : b = a
    · subst hb
      refine .block i rfl hi hc rfl (Function.update_self _ _ _) ?_ rfl
      exact (semLog_skip rfl _).trans (semLog_add (semEvent_block b _) _)
    · refine .none rfl (queue_setQueue_of_ne s (obj_sem_ne hb) _) ?_ (not_entering_user hcpu)
        fun x c e h => ?_
      · exact (semLog_skip rfl _).trans (semLog_skip (by exact if_neg hb) _)
      · cases e
        exact absurd h (semOf_ne hb rfl)
  | waited i b hcpu =>
    by_cases hb : b = a
    · subst hb
      exact .finish i hcpu rfl rfl (semLog_add (semEvent_done b _) _) rfl
    · refine .tau (fun j e => ?_) rfl rfl rfl (semEvent_off (semOf_ne hb rfl) _ _)
      cases hcpu.symm.trans e
      exact hb rfl
  | wake x b n q hcpu hi hq => exact semMove_wake hcpu hi hq a
  | give x b hcpu hi hq _ =>
    by_cases hb : b = a
    · subst hb
      exact .give x rfl hi hq (Function.update_self _ _ _) rfl (semLog_add (semEvent_post b _) _)
        rfl
    · exact .off hcpu (semOf_ne hb rfl) (Function.update_of_ne (Ne.symm hb) _ _) rfl rfl
        (semEvent_off (semOf_ne hb rfl) _ _)
  | destroy x b hcpu _ =>
    by_cases hb : b = a
    · subst hb
      exact .destroy x rfl (Function.update_self _ _ _) (semLog_skip rfl _) rfl
    · exact .off hcpu (semOf_ne hb rfl) (Function.update_of_ne (Ne.symm hb) _ _)
        (queue_setQueue_of_ne s (obj_sem_ne hb) []) rfl rfl

theorem CondStep.sem_cases (h : CondStep s l t) (a : Addr) : SemMove a s l t := by
  cases h with
  | init x c hcpu =>
    exact .off hcpu nofun rfl (Function.update_of_ne (sem_ne_cond a c) [] _) rfl rfl
  | block i c m k hcpu _ _ _ _ _ =>
    have hw := woken_wake ((s.setMutex m { s.mutex m with locked := 0, owner := 0 }).wait i
      (.cond c) (.condWait c m)) (.mutex m)
    have hq := queue_wake ((s.setMutex m { s.mutex m with locked := 0, owner := 0 }).wait i
      (.cond c) (.condWait c m)) (.mutex m)
    generalize Kernel.wake _ _ = K at hw hq ⊢
    refine .none (congrFun hw.sem a) ?_ ?_ (not_entering_user hcpu) fun x d e h => ?_
    · exact (congrFun hq _).trans ((Function.update_of_ne (sem_ne_mutex a m) _ _).trans
        (queue_wait_of_ne _ i _ (sem_ne_cond a c)))
    · exact (semLog_skip rfl _).trans ((semLog_skip rfl _).trans (congrArg (semLog a) hw.hist))
    · cases e
      nomatch h
  | fail i c m st hcpu _ =>
    exact .off hcpu nofun rfl (Function.update_of_ne (sem_ne_cond a c)
      ((s.queue (.cond c) ++ [(i : Nat)]).erase (i : Nat)) _) rfl rfl
  | signal x c hcpu =>
    have hw := woken_wake s (.cond c)
    refine .off hcpu nofun (congrFun hw.sem a) ?_ (congrArg (List.cons _) hw.hist) rfl
    exact (congrFun (queue_wake s (.cond c)) _).trans (Function.update_of_ne (sem_ne_cond a c) _ _)
  | broadcast x c hcpu =>
    have hw := woken_wakes (.cond c) (s.queue (.cond c)).length s
    have hq := queue_wakes (.cond c) (s.queue (.cond c)).length s
    refine .off hcpu nofun (congrFun hw.sem a) ?_ (congrArg (List.cons _) hw.hist) rfl
    exact (congrFun hq _).trans (Function.update_of_ne (sem_ne_cond a c) _ _)
  | destroy x c hcpu _ =>
    exact .off hcpu nofun rfl (Function.update_of_ne (sem_ne_cond a c) [] _) rfl rfl

/-- **Inversion for one semaphore.** -/
theorem Step.sem_cases (h : Step s l t) (a : Addr) : SemMove a s l t := by
  cases h with
  | thread h => exact h.sem_cases a
  | sched h => exact h.sem_cases a
  | mutex h => exact h.sem_cases a
  | sem h => exact h.sem_cases a
  | cond h => exact h.sem_cases a

end

/-! ## Where the threads are -/

/-- The thread of slot `i` is blocked in `gth_sem_wait(a)`. -/
def BlockedAt (s : Kernel) (a : Addr) (i : Slot) : Prop :=
  (s.threads i).state = .blocked ∧ (s.threads i).ctx = some ⟨.green i, .semWait a⟩

/-- The thread of slot `i` was woken in `gth_sem_wait(a)`, which will return `GTH_OK`. -/
def GrantedAt (s : Kernel) (a : Addr) (i : Slot) : Prop :=
  ((s.threads i).state = .ready ∧ (s.threads i).ctx = some ⟨.green i, .semWait a⟩) ∨
    s.Entering i (.semWait a)

instance (s : Kernel) (a : Addr) (i : Slot) : Decidable (s.BlockedAt a i) :=
  inferInstanceAs (Decidable (_ ∧ _))

instance (s : Kernel) (a : Addr) (i : Slot) : Decidable (s.GrantedAt a i) :=
  have : Decidable (s.Entering i (.semWait a)) := inferInstanceAs (Decidable (_ = _))
  inferInstanceAs (Decidable (_ ∨ _))

/-- Where the thread of slot `i` is, as far as the semaphore `a` is concerned. -/
def semPhase (s : Kernel) (a : Addr) (i : Slot) : Phase :=
  if s.BlockedAt a i then .blocked else if s.GrantedAt a i then .granted else .idle

section
variable {a : Addr} {s t : Kernel} {l : Option (Ctx × Call)} {j : Slot}

/-- A thread that is in a queue is blocked there. -/
theorem Ok.waiting_sem (hok : s.Ok) {n : Nat} (h : s.waiting n = some (.sem a)) :
    ∃ i : Slot, (i : Nat) = n ∧ s.BlockedAt a i := by
  obtain ⟨i, rfl, hst, k, hk, hw⟩ := waiting_some h
  obtain ⟨f, hctx, -, -⟩ := hok.parked i (Or.inr hst)
  rw [hctx] at hk
  cases hk
  cases f with
  | semWait b =>
    obtain rfl : b = a := Obj.sem.inj (Option.some.inj hw)
    exact ⟨i, rfl, hst, hctx⟩
  | _ => nomatch hw

theorem BlockedAt.waiting (h : s.BlockedAt a j) : s.waiting j = some (.sem a) := by
  rw [waiting_slot]
  unfold ThreadRecord.waitsFor
  rw [if_pos h.1, h.2]
  rfl

/-- A thread inside `gth_sem_wait(a)` is blocked, ready or about to go on. -/
theorem semPhase_idle (hb : (s.threads j).state ≠ .blocked) (hr : (s.threads j).state ≠ .ready)
    (he : ¬ s.Entering j (.semWait a)) : s.semPhase a j = .idle := by
  unfold semPhase
  rw [if_neg fun h => hb h.1, if_neg fun h => h.elim (fun h => hr h.1) he]

theorem GrantedAt.state (h : s.GrantedAt a j) (hok : s.Ok) :
    (s.threads j).state = .ready ∨ (s.threads j).state = .running := by
  rcases h with h | h
  · exact Or.inl h.1
  · exact Or.inr (hok.enter j _ h).1

theorem GrantedAt.not_blocked (h : s.GrantedAt a j) (hok : s.Ok) : ¬ s.BlockedAt a j := by
  intro hb
  rcases h.state hok with h | h <;> rw [hb.1] at h <;> nomatch h

theorem BlockedAt.semPhase (h : s.BlockedAt a j) : s.semPhase a j = .blocked := if_pos h

theorem GrantedAt.semPhase (h : s.GrantedAt a j) (hok : s.Ok) : s.semPhase a j = .granted := by
  unfold Kernel.semPhase
  rw [if_neg (h.not_blocked hok), if_pos h]

/-- Threads that have ended, and empty slots, are in no semaphore. -/
theorem semPhase_live (hok : s.Ok) (h : s.semPhase a j ≠ .idle) :
    (s.threads j).state ≠ .empty ∧ threadIsTerminal (s.threads j).state = false := by
  unfold semPhase at h
  by_cases hb : s.BlockedAt a j
  · rw [hb.1]
    exact ⟨nofun, rfl⟩
  · rw [if_neg hb] at h
    by_cases hg : s.GrantedAt a j
    · rcases hg.state hok with h | h <;> rw [h] <;> exact ⟨nofun, rfl⟩
    · exact absurd (if_neg hg) h

/-- **Permits come from wake-ups**: a thread is on its way out of `gth_sem_wait(a)` because it
    was so before, or because a wake-up reached it while it was blocked there. -/
theorem ThreadMove.granted (hm : ThreadMove s l t j) (h : t.GrantedAt a j) : s.GrantedAt a j ∨
    (s.BlockedAt a j ∧ (t.threads j).state = .ready ∧ ∃ x c o, l = some (x, c) ∧
      c.wakes = some o ∧ (j : Nat) ∈ s.queue o ∧
      ((∀ v, c ≠ .condBroadcast v) → (s.queue o).head? = some (j : Nat))) := by
  -- only a dispatched thread is about to go on
  have hready : (∀ f, ¬ t.Entering j f) →
      (t.threads j).state = .ready ∧ (t.threads j).ctx = some ⟨.green j, .semWait a⟩ :=
    fun he => h.resolve_right (he _)
  cases hm with
  | same ht he => exact Or.inl (Or.inl (ht ▸ hready he))
  | woken x c o hl hc hmem hhead hb ht he =>
    have hr := hready he
    rw [ht] at hr ⊢
    exact Or.inr ⟨⟨hb, hr.2⟩, rfl, x, c, o, hl, hc, hmem, hhead⟩
  | dispatched f _ hst hctx ht he =>
    rcases h with h | h
    · rw [ht] at h
      nomatch h.1
    · have hcpu : t.cpu = .swap (some ⟨.green j, f⟩) := he
      cases hcpu.symm.trans h
      exact Or.inl (Or.inl ⟨hst, hctx⟩)
  | yielded _ _ ht he =>
    have hr := (hready he).2
    rw [ht] at hr
    nomatch hr
  | blocked o f _ _ _ ht he _ =>
    have hr := (hready he).1
    rw [ht] at hr
    nomatch hr
  | passed c m _ _ _ ht he =>
    have hr := (hready he).2
    rw [ht] at hr
    nomatch hr
  | restored c m _ _ ht he =>
    have hr := (hready he).1
    rw [ht] at hr
    nomatch hr
  | exited v _ _ hterm _ he =>
    rw [(hready he).1] at hterm
    nomatch hterm
  | canceled x tid _ _ _ ht he =>
    have hr := (hready he).1
    rw [ht] at hr
    nomatch hr
  | released _ ht he =>
    have hr := (hready he).1
    rw [ht] at hr
    nomatch hr
  | created _ ht he =>
    have hr := hready he
    rcases ht with ht | ht
    · rw [ht] at hr
      nomatch hr.1
    · nomatch ht.2.symm.trans hr.2

/-- Who is on the way out stays so until it goes on, unless it is cancelled. -/
theorem ThreadMove.stays_granted (hm : ThreadMove s l t j) (hok : s.Ok)
    (hcancel : ∀ x c, l = some (x, c) → c.isCancel = false)
    (hout : ¬ s.Entering j (.semWait a)) (h : s.GrantedAt a j) : t.GrantedAt a j := by
  obtain ⟨hst, hctx⟩ := h.resolve_right hout
  have hoff : ¬ s.OnCpu j := by
    intro hon
    rcases hok.onCpu hon with h | h <;> rw [hst] at h <;> nomatch h
  cases hm with
  | same ht _ => exact Or.inl (by rw [ht]; exact ⟨hst, hctx⟩)
  | woken x c o _ _ _ _ hb _ _ => nomatch hst.symm.trans hb
  | dispatched f _ _ hf _ he =>
    cases hctx.symm.trans hf
    exact Or.inr he
  | yielded _ hon _ _ => exact absurd hon hoff
  | blocked o f _ _ hon _ _ _ => exact absurd hon hoff
  | passed c m _ hon _ _ _ => exact absurd hon hoff
  | restored c m _ hon _ _ => exact absurd hon hoff
  | exited v _ hon _ _ _ => exact absurd hon hoff
  | canceled x tid hl _ _ _ _ => nomatch hcancel x _ hl
  | released hterm _ _ => rw [hst] at hterm; nomatch hterm
  | created he _ _ => nomatch hst.symm.trans he

theorem ThreadMove.semPhase_eq (hm : ThreadMove s l t j) (hok : s.Ok) (hok' : t.Ok)
    (hcancel : ∀ x c, l = some (x, c) → c.isCancel = false)
    (hout : ¬ s.Entering j (.semWait a)) (hb : t.BlockedAt a j ↔ s.BlockedAt a j) :
    t.semPhase a j = s.semPhase a j := by
  have hg : t.GrantedAt a j ↔ s.GrantedAt a j := by
    refine ⟨fun h => (hm.granted h).resolve_right fun hw => ?_, hm.stays_granted hok hcancel hout⟩
    exact h.not_blocked hok' (hb.mpr hw.1)
  simp only [semPhase, hb, hg]

/-- Only what was `READY` gets the CPU. -/
theorem ThreadMove.not_entering (hm : ThreadMove s l t j) (hst : (s.threads j).state ≠ .ready)
    (f : Frame) : ¬ t.Entering j f := by
  cases hm with
  | dispatched _ _ hr _ _ _ => exact absurd hr hst
  | _ => solve_by_elim

/-- What is in a semaphore does not end there. -/
theorem ThreadMove.keeps_live (hm : ThreadMove s l t j) (hok : s.Ok)
    (h : s.semPhase a j ≠ .idle) :
    (t.threads j).state ≠ .empty ∧ (t.threads j).tid = (s.threads j).tid := by
  obtain ⟨hne, hlive⟩ := semPhase_live hok h
  refine (hm.keeps hne).resolve_left fun hterm => ?_
  rw [hlive] at hterm
  nomatch hterm.1

end

end Kernel
end Gth

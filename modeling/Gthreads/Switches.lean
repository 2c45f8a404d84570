/-
  Who may record what.

  `gth_trace_context_switch` is called in one place, `gth_scheduler_run_next`, once for each thread
  it switches to.  No API call and no resumed continuation records a context switch, whatever
  state it starts in; so between two picks the context switches of a trace stand still.  Likewise
  only `gth_thread_create` takes a tid.

  `gth_trace_mutex_lock` is called at the end of `gth_mutex_lock` and `gth_trace_mutex_unlock` at
  the end of `gth_mutex_unlock`; `gth_trace_sem_wait` and `gth_trace_sem_post` are called with the
  count that the semaphore had or has.  `KeyMove` says what a code segment does to these events and,
  with them, to the mutexes and the counts; `gth_mutex_trylock` takes a mutex without an event.
-/
import Gthreads.Footprint
import Gthreads.Machine

namespace Gth

/-- The events that replay takes its decisions from. -/
def Event.isSwitch (e : Event) : Bool := match e.type with
  | .contextSwitch => true
  | _ => false

/-- The semaphores a call initialises or destroys. -/
def Call.resets (a : Addr) : Call → Bool
  | .semInit b _ | .semDestroy b => decide (b = a)
  | _ => false

namespace Core
variable {s : Core}

/-- The context switches recorded in this segment, the number of switches so far, and the tids
    taken so far. -/
def marks (s : Core) : List Event × Nat × Nat := (s.events.filter Event.isSwitch, s.acts, s.issued)

theorem filter_isSwitch_isKey (es : List Event) :
    (es.filter Event.isKey).filter Event.isSwitch = es.filter Event.isSwitch := by
  rw [List.filter_filter]
  refine List.filter_congr fun e _ => ?_
  unfold Event.isSwitch Event.isKey
  cases e.type <;> rfl

/-- The marks are part of the keys. -/
theorem marks_eq_keys (s : Core) :
    s.marks = (s.keys.events.filter Event.isSwitch, s.keys.acts, s.keys.issued) :=
  Prod.ext (filter_isSwitch_isKey s.events).symm rfl

/-- A creation takes at most one tid. -/
theorem threadCreate_keys (s : Core) (outTid : Bool) (attr : Option Nat) (fn arg : Nat)
    (env : MapEnv) : (s.threadCreate outTid attr fn arg env).2.keys = s.keys ∨
      (s.threadCreate outTid attr fn arg env).2.keys
        = { s.keys with issued := s.keys.issued + 1 } := by
  unfold threadCreate
  split
  · exact Or.inl rfl
  · split
    · exact Or.inl rfl
    · split
      · exact Or.inl rfl
      · right
        dsimp only
        split
        · exact keys_emit _ rfl
        · rfl

/-! ## Mutexes -/

theorem wakeWaiter_threadSelf (s : Core) (n : Nat) (e : Event) :
    (s.wakeWaiter n e).threadSelf = s.threadSelf := by
  unfold wakeWaiter threadUnblockSlot
  dsimp only
  split_ifs <;> rfl

/-- The keys after the current thread has taken `m`. -/
def keysTaken (s : Core) (m : Addr) : Keys :=
  s.keys.set m ⟨(s.mutexes m).initialized, 1, s.threadSelf⟩

/-- The keys after `m` was released. -/
def keysFreed (s : Core) (m : Addr) : Keys := s.keys.set m ⟨(s.mutexes m).initialized, 0, 0⟩

theorem lockAcquire_keys (s : Core) (x : Ctx) (m : Addr) (via : Option Addr) :
    (s.lockAcquire x m via).keys = (s.keysTaken m).record (traceMutexLock s.threadSelf m) := by
  have hemit := keys_emit_key (s.setMutex m { s.mutexes m with locked := 1, owner := s.threadSelf })
    (e := traceMutexLock s.threadSelf m) rfl
  rw [keys_setMutex] at hemit
  exact hemit

theorem mutexLock_keys (s : Core) (x : Ctx) (m : Addr) (via : Option Addr) :
    (s.mutexLock x m via).keys = s.keys ∨ ((s.mutexes m).locked = 0 ∧
      (s.mutexLock x m via).keys = (s.keysTaken m).record (traceMutexLock s.threadSelf m)) := by
  rcases s.mutexLock_footing x m via with h | ⟨hl, h⟩
  · exact Or.inl (coarse_keys.of_footing h)
  · rw [h]
    exact Or.inr ⟨hl, lockAcquire_keys s x m via⟩

theorem mutexUnlock_keys (s : Core) (m : Addr) :
    (s.mutexUnlock m).2.keys = s.keys ∨ ((s.mutexes m).locked ≠ 0 ∧
      ((s.mutexes m).owner = 0 ∨ (s.mutexes m).owner = s.threadSelf) ∧
      (s.mutexUnlock m).2.keys = (s.keysFreed m).record (traceMutexUnlock s.threadSelf m)) := by
  unfold mutexUnlock
  split
  · exact Or.inl rfl
  · split
    · exact Or.inl rfl
    · split
      · exact Or.inl rfl
      · rename_i hl
        split
        · exact Or.inl rfl
        · rename_i ho
          refine Or.inr ⟨hl, ?_, ?_⟩
          · by_cases h0 : (s.mutexes m).owner = 0
            · exact Or.inl h0
            · exact Or.inr (not_not.mp fun hne => ho ⟨h0, hne⟩)
          have hfreed := keys_setMutex s m { s.mutexes m with locked := 0, owner := 0 }
          dsimp only
          split
          · rw [keys_emit_key _ rfl, coarse_keys.of_footing (wakeWaiter_footing _ _ rfl),
              wakeWaiter_threadSelf, keys_setMutex_wq, hfreed]
            rfl
          · rw [keys_emit_key _ rfl, hfreed]
            rfl

/-- A `gth_cond_wait` records what the `gth_mutex_unlock` in it records. -/
theorem condWait_keys (s : Core) (x : Ctx) (c m : Addr) :
    (s.condWait x c m).keys = s.keys ∨ ((s.mutexes m).locked ≠ 0 ∧
      ((s.mutexes m).owner = 0 ∨ (s.mutexes m).owner = s.threadSelf) ∧
      (s.condWait x c m).keys = (s.keysFreed m).record (traceMutexUnlock s.threadSelf m)) := by
  rcases s.condWait_inv x c m with ⟨st, -, hw, -⟩ | ⟨hx, -, -, -, hq⟩
  · rw [hw]
    exact Or.inl rfl
  · -- the state in which `gth_mutex_unlock` is called
    have hqueued : (s.condQueued c ⟨_, hx⟩).keys = s.keys := keys_emit _ rfl
    have hunlock := mutexUnlock_keys (s.condQueued c ⟨_, hx⟩) m
    rw [keysFreed, hqueued] at hunlock
    have hkeys : (s.condWait x c m).keys = ((s.condQueued c ⟨_, hx⟩).mutexUnlock m).2.keys := by
      rcases hq with ⟨v, hu, hw⟩ | ⟨st, v, -, hu, hw⟩
      · rw [hu, hw]
        rfl
      · rw [hu, hw]
        rfl
    rw [hkeys]
    exact hunlock

/-! ## Semaphores -/

theorem keys_count_self (s : Core) (a : Addr) : s.keys.count a (s.sems a).count = s.keys :=
  congrArg (Keys.mk _ _ _ _) (Function.update_eq_self a s.keys.counts)

/-- `gth_sem_wait` takes a permit and records the count it has found; or it finds none, and records
    that. -/
theorem semWait_keys (s : Core) (x : Ctx) (a : Addr) :
    (s.semWait x a).keys = s.keys ∨
      (s.semWait x a).keys = (s.keys.count a ((s.sems a).count - 1)).record
        (traceSemWait s.threadSelf a (s.sems a).count) := by
  rcases semWait_inv s x a with ⟨st, -, hw, -⟩ | ⟨-, -, e, rfl, hw⟩ | ⟨hx, -, -, hc, -, hw⟩ <;> rw [hw]
  · exact Or.inl rfl
  · right
    refine (keys_emit_key (Core.log (s.setSem a _) _) rfl).trans (congrArg (Keys.record · _) ?_)
    exact keys_setSem s a _
  · right
    have hsame := keys_count_self s a
    rw [hc] at hsame
    rw [hc, hsame]
    refine (keys_emit_key _ rfl).trans (congrArg (Keys.record · _) (coarse_keys.of_footing ?_))
    exact (footing_log _ _).trans ((footing_setSem _ a _).trans
      ((footing_counters _ _ _).trans (s.footing_setState _ .blocked)))

theorem semPost_keys (s : Core) (a : Addr) :
    (s.semPost a).2.keys = s.keys ∨ ∃ n, (s.semPost a).2.keys
      = (s.keys.count a n).record (traceSemPost s.threadSelf a n) := by
  unfold semPost
  split
  · exact Or.inl rfl
  · split
    · exact Or.inl rfl
    · split
      · dsimp only
        generalize hu : Core.wakeWaiter _ _ _ = u
        have hkeys : u.keys = s.keys := by
          rw [← hu]
          exact coarse_keys.of_footing ((wakeWaiter_footing _ _ rfl).trans
            ((footing_log _ _).trans (s.footing_setSem a _)))
        have hself : u.threadSelf = s.threadSelf := by
          rw [← hu, wakeWaiter_threadSelf]
          rfl
        refine Or.inr ⟨(u.sems a).count, ?_⟩
        rw [keys_emit_key _ rfl, ← hkeys, keys_count_self, hself]
      · split
        · exact Or.inl rfl
        · refine Or.inr ⟨(s.sems a).count + 1, ?_⟩
          rw [keys_emit_key _ rfl, keys_setSem]
          show Keys.record _ (traceSemPost s.threadSelf a (Function.update s.sems a _ a).count) = _
          rw [Function.update_self]

/-! ## Code segments -/

/-- What a code segment between two picks does to the keys; `c` is the call it starts with, `none`
    if it is a continuation. -/
inductive KeyMove (s : Core) (c : Option Call) (t : Core) : Prop where
  | same : t.keys = s.keys → KeyMove s c t
  | create : c ≠ none → t.keys = { s.keys with issued := s.keys.issued + 1 } → KeyMove s c t
  | init (m : Addr) : c = some (.mutexInit m) → t.keys = s.keys.set m ⟨1, 0, 0⟩ → KeyMove s c t
  | destroy (m : Addr) : c = some (.mutexDestroy m) → t.keys = s.keys.set m ⟨0, 0, 0⟩ →
      KeyMove s c t
  | trylock (m : Addr) : c = some (.mutexTrylock m) → (s.mutexTrylock m).1 = .ok →
      t.keys = s.keysTaken m → KeyMove s c t
  | lock (m : Addr) : (s.mutexes m).locked = 0 →
      t.keys = (s.keysTaken m).record (traceMutexLock s.threadSelf m) → KeyMove s c t
  | unlock (m : Addr) : (s.mutexes m).locked ≠ 0 →
      ((s.mutexes m).owner = 0 ∨ (s.mutexes m).owner = s.threadSelf) →
      t.keys = (s.keysFreed m).record (traceMutexUnlock s.threadSelf m) → KeyMove s c t
  | semReset (d : Call) (a : Addr) (n : Nat) : c = some d → d.resets a = true →
      t.keys = s.keys.count a n → KeyMove s c t
  | semWait (a : Addr) : t.keys = (s.keys.count a ((s.sems a).count - 1)).record
      (traceSemWait s.threadSelf a (s.sems a).count) → KeyMove s c t
  | semPost (a : Addr) (n : Nat) :
      t.keys = (s.keys.count a n).record (traceSemPost s.threadSelf a n) → KeyMove s c t

theorem KeyMove.of_lock {c : Option Call} {t : Core} {m : Addr}
    (h : t.keys = s.keys ∨ ((s.mutexes m).locked = 0 ∧
      t.keys = (s.keysTaken m).record (traceMutexLock s.threadSelf m))) : KeyMove s c t :=
  h.elim .same fun h => .lock m h.1 h.2

theorem KeyMove.of_unlock {c : Option Call} {t : Core} {m : Addr}
    (h : t.keys = s.keys ∨ ((s.mutexes m).locked ≠ 0 ∧
      ((s.mutexes m).owner = 0 ∨ (s.mutexes m).owner = s.threadSelf) ∧
      t.keys = (s.keysFreed m).record (traceMutexUnlock s.threadSelf m))) : KeyMove s c t :=
  h.elim .same fun h => .unlock m h.1 h.2.1 h.2.2

/-- A `gth_mutex_trylock` that succeeds takes the mutex and records nothing. -/
theorem mutexTrylock_ok {m : Addr} (h : (s.mutexTrylock m).1 = .ok) :
    (s.mutexes m).locked = 0 ∧
      s.mutexTrylock m = (.ok, s.setMutex m { s.mutexes m with locked := 1, owner := s.threadSelf }) := by
  unfold mutexTrylock at h ⊢
  split at h
  · nomatch h
  · split at h
    · nomatch h
    · split at h
      · nomatch h
      · rename_i hm hi hl
        rw [if_neg hm, if_neg hi, if_neg hl]
        exact ⟨not_not.mp hl, rfl⟩

theorem exec_keyMove (s : Core) (x : Ctx) (c : Call) : KeyMove s (some c) (s.exec x c) := by
  -- other objects are initialised and destroyed in place
  have hobj : ∀ (b : Prop) [Decidable b] (r r' : Status × Core), r.2.keys = s.keys →
      r'.2.keys = s.keys → (if b then r else r').2.keys = s.keys := by
    intro b _ r r' hr hr'
    split
    · exact hr
    · exact hr'
  cases c with
  | create outTid attr fn arg env =>
    rcases threadCreate_keys s outTid attr fn arg env with h | h
    · exact .same h
    · exact .create nofun h
  | yield => exact .same (coarse_keys.of_footing (threadYield_footing s x))
  | join tid out => exact .same (coarse_keys.join (fun _ _ => rfl) (s.threadJoin_move x tid out))
  | cancel tid => exact .same (coarse_keys.of_footing (threadCancel_footing s tid))
  | exit retval => cases x with
    | main => exact .same rfl
    | green i => exact .same (coarse_keys.of_footing (threadExit_footing s i retval))
  | self => exact .same rfl
  | getStats out => exact .same rfl
  | mutexInit m =>
    show KeyMove s _ (done x _ (s.mutexInit m))
    unfold mutexInit
    split
    · exact .same rfl
    · exact .init m rfl (keys_setMutex s m _)
  | mutexLock m => exact .of_lock (mutexLock_keys s x m none)
  | mutexTrylock m =>
    by_cases h : (s.mutexTrylock m).1 = .ok
    · refine .trylock m rfl h ?_
      show (s.mutexTrylock m).2.keys = _
      rw [(mutexTrylock_ok h).2]
      exact keys_setMutex s m _
    · refine .same (?_ : (s.mutexTrylock m).2.keys = _)
      unfold mutexTrylock at h ⊢
      split_ifs at h ⊢
      · rfl
      · rfl
      · rfl
      · exact absurd rfl h
  | mutexUnlock m => exact .of_unlock (mutexUnlock_keys s m)
  | mutexDestroy m =>
    show KeyMove s _ (done x _ (s.mutexDestroy m))
    unfold mutexDestroy
    split
    · exact .same rfl
    · split
      · exact .same rfl
      · split
        · exact .same rfl
        · split
          · exact .same rfl
          · exact .destroy m rfl (keys_setMutex s m _)
  | semInit a n =>
    show KeyMove s _ (done x _ (s.semInit a n))
    unfold semInit
    split
    · exact .same rfl
    · exact .semReset _ a _ rfl (decide_eq_true rfl) (keys_setSem s a _)
  | semWait a =>
    rcases semWait_keys s x a with h | h
    · exact .same h
    · exact .semWait a h
  | semPost a =>
    rcases semPost_keys s a with h | ⟨n, h⟩
    · exact .same h
    · exact .semPost a n h
  | semDestroy a =>
    show KeyMove s _ (done x _ (s.semDestroy a))
    unfold semDestroy
    split
    · exact .same rfl
    · split
      · exact .same rfl
      · split
        · exact .same rfl
        · exact .semReset _ a _ rfl (decide_eq_true rfl) (keys_setSem s a _)
  | condInit c => exact .same (hobj _ _ _ rfl rfl)
  | condWait c m => exact .of_unlock (condWait_keys s x c m)
  | condSignal c => exact .same (coarse_keys.condSignal (fun _ _ _ _ => rfl) s c)
  | condBroadcast c => exact .same (coarse_keys.condBroadcast (fun _ _ _ _ => rfl) s c)
  | condDestroy c => exact .same (hobj _ _ _ rfl (hobj _ _ _ rfl (hobj _ _ _ rfl rfl)))

theorem resume_keyMove (s : Core) (k : Kont) : KeyMove s none (s.resume k) := by
  unfold resume
  split
  · exact .same rfl
  · exact .same rfl
  · rename_i m mySlot via _
    by_cases hl : (s.mutexes m).locked = 0
    · rw [lockLoop, if_neg (not_not_intro hl)]
      exact .lock m hl (lockAcquire_keys s k.ctx m via)
    · exact .same (coarse_keys.of_footing (lockLoop_footing k.ctx m mySlot via _ s hl))
  · exact .same rfl
  · exact .of_lock (mutexLock_keys s k.ctx _ _)
  · dsimp only
    split
    · exact .same rfl
    · rename_i act prev _ tid out target _
      have hkeys := coarse_keys.join (fun _ _ => rfl) (joinLoop_move
        { s with currentTid := prev, hist := .resume act k.ctx :: s.hist } k.ctx tid out target)
      exact .same hkeys

/-- Between two picks nothing is marked, except that a creation takes a tid. -/
theorem KeyMove.marks {c : Option Call} {t : Core} (h : KeyMove s c t) : t.marks = s.marks ∨
    (c ≠ none ∧ t.marks = (s.events.filter Event.isSwitch, s.acts, s.issued + 1)) := by
  have hrecord : ∀ (k : Keys) (e : Event), e.isSwitch = false →
      (k.record e).events.filter Event.isSwitch = k.events.filter Event.isSwitch := by
    intro k e he
    show (k.events ++ [e]).filter Event.isSwitch = _
    rw [List.filter_append, List.filter_cons_of_neg (by rw [he]; nofun), List.filter_nil,
      List.append_nil]
  rw [marks_eq_keys, marks_eq_keys, ← filter_isSwitch_isKey s.events]
  cases h with
  | same h => exact Or.inl (by rw [h])
  | create hc h => exact Or.inr ⟨hc, by rw [h]; rfl⟩
  | init m _ h => exact Or.inl (by rw [h]; rfl)
  | destroy m _ h => exact Or.inl (by rw [h]; rfl)
  | trylock m _ _ h => exact Or.inl (by rw [h]; rfl)
  | lock m _ h => exact Or.inl (by rw [h, hrecord _ _ rfl]; rfl)
  | unlock m _ _ h => exact Or.inl (by rw [h, hrecord _ _ rfl]; rfl)
  | semReset d a n _ _ h => exact Or.inl (by rw [h]; rfl)
  | semWait a h => exact Or.inl (by rw [h, hrecord _ _ rfl]; rfl)
  | semPost a n h => exact Or.inl (by rw [h, hrecord _ _ rfl]; rfl)

theorem exec_marks (s : Core) (x : Ctx) (c : Call) : (s.exec x c).marks = s.marks ∨
    (s.exec x c).marks = (s.events.filter Event.isSwitch, s.acts, s.issued + 1) :=
  (exec_keyMove s x c).marks.imp_right And.right

theorem resume_marks (s : Core) (k : Kont) : (s.resume k).marks = s.marks :=
  (resume_keyMove s k).marks.resolve_right fun h => h.1 rfl

/-- **The dispatcher alone switches**: a pick of the thread in slot `i` is one context switch to
    its tid; no pick is none. -/
theorem runNext_marks (s : Core) (x : Ctx) (caller : Caller) (pick : Option Slot) :
    (s.runNext x caller pick).marks = match pick with
      | none => s.marks
      | some i =>
        (s.events.filter Event.isSwitch ++ [traceContextSwitch s.currentTid (s.threads i).tid],
          s.acts + 1, s.issued) := by
  cases pick with
  | none => cases caller <;> rfl
  | some i => exact Prod.ext (List.filter_append _ _) rfl

end Core
end Gth

/-
  Condition waits that fail.

  `gth_cond_wait` marks the caller `BLOCKED`, counts it and queues it before it knows whether the
  mutex can be released, and undoes the three by hand: it writes `RUNNING`, whatever the caller was;
  counts down; and removes the first entry with the caller's slot number, not the last.  So the
  failed wait leaves no trace exactly if the caller was `RUNNING`, the counter did not wrap, and no
  entry of another thread stands behind an older entry with the caller's slot number.

  The ring of a condition variable is well formed in every reachable state, whoever joins: only the
  functions of `cond.c` write it (`CondsWf`).
-/
import Gthreads.Outcomes

namespace Gth

/-! ## Only `cond.c` writes condition variables -/

namespace Core
variable {s t : Core}

/-- The rings of all condition variables are well formed. -/
def CondsWf (s : Core) : Prop := ∀ c, (s.conds c).wq.Wf

theorem CondsWf.congr (h : s.CondsWf) (ht : t.conds = s.conds) : t.CondsWf := by
  intro c
  rw [ht]
  exact h c

theorem CondsWf.setCond (h : s.CondsWf) (c : Addr) (impl : CondImpl) (hwq : impl.wq.Wf) :
    (s.setCond c impl).CondsWf := by
  intro c'
  by_cases hc : c' = c
  · subst hc
    show (Function.update s.conds c' impl c').wq.Wf
    rw [Function.update_self]
    exact hwq
  · show (Function.update s.conds c impl c').wq.Wf
    rw [Function.update_of_ne hc]
    exact h c'

theorem CondsWf.write (h : s.CondsWf) {c : Addr} {impl : CondImpl}
    (hw : CondWrite (s.conds c) impl) : (s.setCond c impl).CondsWf := by
  refine h.setCond c impl ?_
  cases hw with
  | init => exact WaitQueue.wf_wqInit {} (Nat.le_refl _)
  | enqueue n => exact WaitQueue.wf_wqEnqueue (h c) n
  | dequeue => exact WaitQueue.wf_wqDequeue (h c)
  | remove n => exact (WaitQueue.wqRemove_spec (h c) n).2.2.1
  | destroy => exact WaitQueue.wf_zero

theorem coarse_condsWf : Coarse fun s t => s.CondsWf → t.CondsWf where
  of_footing := fun hf h => h.congr (coarse_conds.of_footing hf)
  trans := fun h h' hs => h' (h hs)

theorem threadCreate_conds (s : Core) (outTid : Bool) (attr : Option Nat) (fn arg : Nat)
    (env : MapEnv) : (s.threadCreate outTid attr fn arg env).2.conds = s.conds := by
  unfold threadCreate
  split_ifs
  · rfl
  · rfl
  · split
    · rfl
    · dsimp only
      split <;> rfl

/-- **Every call keeps the rings well formed.** -/
theorem CondsWf.exec (h : s.CondsWf) (x : Ctx) (c : Call) : (s.exec x c).CondsWf := by
  cases c with
  | create outTid attr fn arg env => exact h.congr (threadCreate_conds s outTid attr fn arg env)
  | _ =>
    exact coarse_condsWf.exec (fun _ _ _ => id) (fun _ _ _ => id) (fun _ _ => id)
      (fun _ _ _ hw h => h.write hw) s x rfl
      (fun tid out _ => coarse_condsWf.join (fun _ _ => id) (s.threadJoin_move x tid out)) h

theorem CondsWf.resume (h : s.CondsWf) (k : Kont) : (s.resume k).CondsWf :=
  coarse_condsWf.resume (fun _ _ => id) (fun _ _ _ => id) (fun _ _ => id) s k h

theorem CondsWf.runNext (h : s.CondsWf) (x : Ctx) (caller : Caller) (pick : Option Slot) :
    (s.runNext x caller pick).CondsWf := by
  cases pick with
  | none => cases caller <;> exact h
  | some i => exact h

end Core

namespace State
variable {W : World} {s t : State}

theorem step_condsWf {l : Label} (hs : s.core.CondsWf) (h : step W s l = some t) :
    t.core.CondsWf := by
  rcases step_cases h with ⟨x, c, -, -, rfl⟩ | ⟨x, c, -, -, -, rfl⟩ |
      ⟨x, caller, pick, sub, -, -, -, rfl⟩ | ⟨k, -, -, rfl⟩
  · exact hs
  · exact Core.CondsWf.exec (s := s.fresh) hs x c
  · exact Core.CondsWf.runNext (s := s.fresh) hs x caller pick
  · exact Core.CondsWf.resume (s := s.fresh) hs k

/-- **In every run the rings of condition variables are well formed.** -/
theorem exec_condsWf {config : ValidConfig} {pageSize : BitVec 64}
    {files : Path → Option (List UInt8)} {ls : List Label}
    (hrun : Exec.exec (step W) (State.start config pageSize files) ls = some s) :
    s.core.CondsWf := by
  refine Exec.exec_induct (P := fun _ t => t.core.CondsWf) (fun c => ?_)
    (fun _ _ _ _ _ ih hstep => step_condsWf ih hstep) ls s hrun
  show ((runtimeInit (State.loaded config.1 pageSize files) (some config.1)).2.core.conds c).wq.Wf
  unfold runtimeInit
  dsimp only
  rw [if_neg (by rw [config.2]; decide)]
  exact WaitQueue.wf_zero

end State

/-! ## What is undone -/

theorem append_eq_cons_iff {v : Nat} {l : List Nat} : l ++ [v] = v :: l ↔ ∀ n ∈ l, n = v := by
  induction l with
  | nil => exact iff_of_true rfl nofun
  | cons a l ih =>
    rw [List.cons_append, List.cons.injEq, List.forall_mem_cons]
    refine and_congr_right fun ha => ?_
    rw [ha]
    exact ih

/-- An entry is appended and the first with the same value removed: that is the appended one, or
    one for which the appended one may stand in. -/
theorem erase_append_iff (v : Nat) (l : List Nat) :
    (l ++ [v]).erase v = l ↔ ∀ n ∈ l.dropWhile fun n => decide (n ≠ v), n = v := by
  induction l with
  | nil => exact iff_of_true (List.erase_cons_head v []) nofun
  | cons a l ih =>
    by_cases ha : a = v
    · subst ha
      have hdrop : (a :: l).dropWhile (fun n => decide (n ≠ a)) = a :: l :=
        List.dropWhile_cons_of_neg fun h => of_decide_eq_true h rfl
      rw [List.cons_append, List.erase_cons_head, hdrop, append_eq_cons_iff, List.forall_mem_cons,
        and_iff_right rfl]
    · have hdrop : (a :: l).dropWhile (fun n => decide (n ≠ v)) = l.dropWhile fun n => decide (n ≠ v) :=
        List.dropWhile_cons_of_pos (decide_eq_true ha)
      rw [List.cons_append, List.erase_cons_tail (by simpa using ha), List.cons.injEq,
        and_iff_right rfl, hdrop]
      exact ih

/-- What a wait that fails should leave as it was. -/
structure Undisturbed (c m : Addr) (s t : Core) : Prop where
  states : ∀ j, (t.threads j).state = (s.threads j).state
  blocked : t.blockedThreads = s.blockedThreads
  runnable : t.runnableThreads = s.runnableThreads
  mutex : t.mutexes m = s.mutexes m
  queue : (t.conds c).wq.toList = (s.conds c).wq.toList

namespace Core
variable {s : Core} {x : Ctx} {i : Slot} {c m : Addr}

theorem mutexUnlock_status {t : Core} (hmutex : t.mutexes = s.mutexes)
    (hself : t.threadSelf = s.threadSelf) : (t.mutexUnlock m).1 = (s.mutexUnlock m).1 := by
  unfold mutexUnlock
  rw [hmutex, hself]
  split_ifs <;> rfl

/-- The wait finds no room. -/
theorem condWait_full (hcm : ¬(c = 0 ∨ m = 0)) (hinit : (s.conds c).initialized ≠ 0)
    (hcur : s.threadCurrentSlotIndex = i) (hfull : (s.conds c).wq.wqIsFull = true) :
    s.condWait x c m = s.ret x (.condWait c m) ⟨.ebusy, []⟩ := by
  unfold condWait
  rw [if_neg hcm, if_neg hinit, hcur]
  dsimp only
  rw [dif_pos i.isLt, if_pos hfull]

/-- The wait cannot release the mutex. -/
theorem condWait_refused (hcm : ¬(c = 0 ∨ m = 0)) (hinit : (s.conds c).initialized ≠ 0)
    (hcur : s.threadCurrentSlotIndex = i) (hroom : (s.conds c).wq.wqIsFull = false)
    (hfail : (s.mutexUnlock m).1 ≠ .ok) :
    ∃ st es, s.condWait x c m = (s.condRollback i c es).ret x (.condWait c m) ⟨st, []⟩ := by
  unfold condWait
  rw [if_neg hcm, if_neg hinit, hcur]
  dsimp only
  rw [dif_pos i.isLt, hroom, if_neg Bool.false_ne_true, slot_mod_256]
  generalize hs₁ : (Core.emit _ _ : Core) = s₁
  have hstatus : (s₁.mutexUnlock m).1 = (s.mutexUnlock m).1 := by
    rw [← hs₁]
    exact mutexUnlock_status rfl rfl
  rcases mutexUnlock_cases (s := s₁) m with ⟨st, hst, hu⟩ | ⟨-, -, -, -, hu⟩
  · refine ⟨st, s₁.events, ?_⟩
    rw [hu, ← hs₁]
    cases st with
    | ok => exact absurd rfl hst
    | _ => simp only [condRollback, setThread, setCond, emit, Function.update_self,
        Function.update_idem]
  · have hok : (s₁.mutexUnlock m).1 = .ok := by
      rcases hu with ⟨-, e, hu⟩ | ⟨-, e, e', hu⟩ <;> rw [hu]
    exact absurd (hstatus.symm.trans hok) hfail

theorem decrPos_incr64_iff (n : Nat) : decrPos (incr64 n) = n ↔ n + 1 < 2 ^ 64 := by
  unfold decrPos incr64
  split <;> omega

/-- **The rollback restores everything iff** the caller was `RUNNING`, the counter did not wrap, and
    the entry it removed is as good as the one it added. -/
theorem condRollback_iff (hwf : (s.conds c).wq.Wf) (hroom : (s.conds c).wq.wqIsFull = false)
    (es : List Event) (call : Call) (r : Ret) :
    Undisturbed c m s ((s.condRollback i c es).ret x call r) ↔
      (s.threads i).state = .running ∧ s.blockedThreads + 1 < 2 ^ 64 ∧
      ∀ n ∈ (s.conds c).wq.toList.dropWhile fun n : Nat => decide (n ≠ i), n = i := by
  have hstate : ∀ j, (((s.condRollback i c es).ret x call r).threads j).state
      = if j = i then .running else (s.threads j).state := by
    intro j
    show (Function.update s.threads i { s.threads i with state := .running } j).state = _
    by_cases hj : j = i
    · subst hj
      rw [Function.update_self, if_pos rfl]
    · rw [Function.update_of_ne hj, if_neg hj]
  have hqueue : ((((s.condRollback i c es).ret x call r).conds c).wq).toList
      = ((s.conds c).wq.toList ++ [(i : Nat)]).erase i := by
    show (Function.update s.conds c { s.conds c with
      wq := (((s.conds c).wq.wqEnqueue i).wqRemove i).2 } c).wq.toList = _
    rw [Function.update_self, ← WaitQueue.toList_wqEnqueue hwf hroom]
    exact (WaitQueue.wqRemove_spec (WaitQueue.wf_wqEnqueue hwf _) _).2.1
  constructor
  · intro h
    refine ⟨?_, (decrPos_incr64_iff _).mp h.blocked, (erase_append_iff _ _).mp ?_⟩
    · rw [← h.states i, hstate, if_pos rfl]
    · rw [← hqueue]
      exact h.queue
  · rintro ⟨hrun, hcount, hentries⟩
    refine ⟨fun j => ?_, (decrPos_incr64_iff _).mpr hcount, rfl, rfl, ?_⟩
    · rw [hstate]
      by_cases hj : j = i
      · rw [if_pos hj, hj, hrun]
      · rw [if_neg hj]
    · rw [hqueue]
      exact (erase_append_iff _ _).mpr hentries

end Core

/-- **When a failing `gth_cond_wait` changes nothing**: always if the queue was full; if the mutex
    could not be released, exactly if the caller was `RUNNING`, `blocked_threads` did not wrap, and
    no other thread's entry stands behind an older entry with the caller's slot number. -/
theorem failing_wait_undisturbed_iff (W : World) (config : ValidConfig) (pageSize : BitVec 64)
    (files : Path → Option (List UInt8)) (ls : List Label) (s t : State)
    (hrun : Exec.exec (State.step W) (State.start config pageSize files) ls = some s)
    (x : Ctx) (i : Slot) (hcur : s.core.threadCurrentSlotIndex = i) (c m : Addr) (hc : c ≠ 0)
    (hm : m ≠ 0) (hinit : (s.core.conds c).initialized ≠ 0)
    (hfail : (s.core.conds c).wq.wqIsFull = true ∨ (s.core.mutexUnlock m).1 ≠ .ok)
    (hstep : State.step W s (.call x (.condWait c m)) = some t) :
    Undisturbed c m s.core t.core ↔ (s.core.conds c).wq.wqIsFull = true ∨
      (s.core.threads i).state = .running ∧ s.core.blockedThreads + 1 < 2 ^ 64 ∧
      ∀ n ∈ (s.core.conds c).wq.toList.dropWhile fun n : Nat => decide (n ≠ i), n = i := by
  have hcm : ¬(c = 0 ∨ m = 0) := fun h => h.elim hc hm
  have hcore : t.core = s.fresh.condWait x c m := by
    rcases State.step_cases hstep with ⟨_, _, hl, _⟩ | ⟨y, d, hl, -, -, rfl⟩ |
        ⟨_, _, _, _, hl, _⟩ | ⟨_, hl, _⟩
    · cases hl
    · cases hl
      rfl
    · cases hl
    · cases hl
  rw [hcore]
  cases hfull : (s.core.conds c).wq.wqIsFull with
  | true =>
    rw [Core.condWait_full (s := s.fresh) hcm hinit hcur hfull]
    exact iff_of_true ⟨fun _ => rfl, rfl, rfl, rfl, rfl⟩ (Or.inl rfl)
  | false =>
    have hstatus : (s.fresh.mutexUnlock m).1 = (s.core.mutexUnlock m).1 :=
      Core.mutexUnlock_status rfl rfl
    have hunlock : (s.fresh.mutexUnlock m).1 ≠ .ok := by
      rw [hstatus]
      exact hfail.resolve_left (by rw [hfull]; exact Bool.false_ne_true)
    obtain ⟨st, es, hroll⟩ :=
      Core.condWait_refused (s := s.fresh) (x := x) hcm hinit hcur hfull hunlock
    rw [hroll, or_iff_right Bool.false_ne_true]
    have hiff := Core.condRollback_iff (s := s.fresh) (x := x) (i := i) (m := m)
      (State.exec_condsWf hrun c) hfull es (.condWait c m) ⟨st, []⟩
    exact ⟨fun h => hiff.mp ⟨h.states, h.blocked, h.runnable, h.mutex, h.queue⟩,
      fun h => let h := hiff.mpr h; ⟨h.states, h.blocked, h.runnable, h.mutex, h.queue⟩⟩

namespace Sample

/-- A thread has started; there is a mutex, which nobody holds, and a condition variable. -/
def waiting : List Label :=
  [main create, main (.mutexInit 8), main (.condInit 16), main .yield, .tau, .tau]

end Sample

theorem failing_wait_undisturbed_running : ∃ s t,
    Exec.exec (State.step Sample.world) Sample.start Sample.waiting = some s ∧
    State.step Sample.world s (Sample.green 0 (.condWait 16 8)) = some t ∧
    Undisturbed 16 8 s.core t.core := by
  have hall : (Exec.exec (State.step Sample.world) Sample.start Sample.waiting).any (fun s =>
      decide (s.core.threadCurrentSlotIndex = 0 ∧ (s.core.conds 16).initialized ≠ 0 ∧
        (s.core.mutexUnlock 8).1 ≠ .ok ∧ (s.core.threads 0).state = .running ∧
        s.core.blockedThreads = 0 ∧ (s.core.conds 16).wq.toList = [] ∧
        (State.step Sample.world s (Sample.green 0 (.condWait 16 8))).isSome)) = true := by
    decide +kernel
  obtain ⟨s, hs, h⟩ := (Option.any_eq_true _ _).mp hall
  obtain ⟨hcur, hinit, hfail, hrunning, hcount, hqueue, hsome⟩ := of_decide_eq_true h
  obtain ⟨t, ht⟩ := Option.isSome_iff_exists.mp hsome
  refine ⟨s, t, hs, ht, ?_⟩
  refine (failing_wait_undisturbed_iff Sample.world Sample.config 4096#64 (fun _ => none)
    Sample.waiting s t hs (.green 0) 0 hcur 16 8 (by decide) (by decide) hinit (Or.inr hfail)
    ht).mpr (Or.inr ⟨hrunning, ?_, ?_⟩)
  · rw [hcount]
    decide
  · rw [hqueue]
    exact nofun

/-- **A cancelled thread runs again**: it cancels itself, its wait fails because nobody holds the
    mutex, and it is `RUNNING`. -/
theorem failing_wait_revives_canceled : ∃ s t,
    Exec.exec (State.step Sample.world) Sample.start
      (Sample.waiting ++ [Sample.green 0 (.cancel 1)]) = some s ∧
    (s.core.threads 0).state = .canceled ∧ (s.core.mutexUnlock 8).1 = .estate ∧
    State.step Sample.world s (Sample.green 0 (.condWait 16 8)) = some t ∧
    (t.core.threads 0).state = .running ∧ ¬ Undisturbed 16 8 s.core t.core := by
  have hall : (Exec.exec (State.step Sample.world) Sample.start
      (Sample.waiting ++ [Sample.green 0 (.cancel 1)])).any (fun s =>
        decide ((s.core.threads 0).state = .canceled) && decide ((s.core.mutexUnlock 8).1 = .estate) &&
        (State.step Sample.world s (Sample.green 0 (.condWait 16 8))).any fun t =>
          decide ((t.core.threads 0).state = .running)) = true := by decide +kernel
  obtain ⟨s, hs, h⟩ := (Option.any_eq_true _ _).mp hall
  obtain ⟨h, hstep⟩ := Bool.and_eq_true_iff.mp h
  obtain ⟨hcanceled, hstatus⟩ := Bool.and_eq_true_iff.mp h
  obtain ⟨t, ht, hrunning⟩ := (Option.any_eq_true _ _).mp hstep
  have hcanceled : (s.core.threads 0).state = .canceled := of_decide_eq_true hcanceled
  have hrunning : (t.core.threads 0).state = .running := of_decide_eq_true hrunning
  refine ⟨s, t, hs, hcanceled, of_decide_eq_true hstatus, ht, hrunning, fun hsame => ?_⟩
  have hstates := hsame.states 0
  rw [hcanceled, hrunning] at hstates
  cases hstates

end Gth

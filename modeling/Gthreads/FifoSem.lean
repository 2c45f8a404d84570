/-
  The semaphore is a counting semaphore with first-in-first-out waiters.

  The abstract semaphore is `Lib.CountingSem`; its clients are the threads, by tid, and its log is
  the log of the code's semaphore.  In runs without cancellation every transition of the kernel
  that concerns the semaphore is one of the abstract transitions (`Fifo.view_step`).  That needs
  the log and the thread table to agree on where every thread is (`Linked`): a thread that goes on
  in `gth_sem_wait` was granted a permit, a caller is outside, the head of the queue is blocked.
-/
import Gthreads.Semaphore

namespace Gth

open CountingSem (Phase phase)

namespace Kernel

/-! ## Threads and log agree -/

/-- The log says of every thread where it is, and speaks of nobody else. -/
structure Linked (a : Addr) (s : Kernel) : Prop where
  here : ∀ i, (s.threads i).state ≠ .empty →
    phase (s.threads i).tid (semLog a s.hist) = s.semPhase a i
  gone : ∀ u, phase u (semLog a s.hist) ≠ .idle →
    ∃ i, (s.threads i).state ≠ .empty ∧ (s.threads i).tid = u

section
variable {a : Addr} {s t : Kernel} {l : Option (Ctx × Call)}

/-- The log puts a thread somewhere: the thread is in its slot, and there. -/
theorem Linked.slot (h : Linked a s) {u : Tid} (hu : phase u (semLog a s.hist) ≠ .idle) :
    ∃ i, (s.threads i).state ≠ .empty ∧ (s.threads i).tid = u ∧ s.semPhase a i ≠ .idle := by
  obtain ⟨i, hne, rfl⟩ := h.gone u hu
  exact ⟨i, hne, rfl, h.here i hne ▸ hu⟩

/-- Whoever runs user code is outside. -/
theorem Linked.caller_idle (h : Linked a s) (hok : s.Ok) {x : Ctx} (hcpu : s.cpu = .user x) :
    phase (s.ctxTid x) (semLog a s.hist) = .idle := by
  by_contra hu
  obtain ⟨i, hne, htid, hi⟩ := h.slot hu
  cases x with
  | main => exact hok.tid_pos i hne htid
  | green j =>
    have hst := hok.user j hcpu
    have hne' : (s.threads j).state ≠ .empty := by
      rcases hst with h | h <;> rw [h] <;> nofun
    obtain rfl : i = j := hok.tid_inj i j hne hne' htid
    refine hi (semPhase_idle ?_ ?_ fun he => nomatch hcpu.symm.trans he) <;>
      rcases hst with h | h <;> rw [h] <;> nofun

/-- **One step of the link**: the threads of the slots in `D` move, in the log and in the table;
    all others stay where they are in both. -/
theorem Linked.step (h : Linked a s) (hok : s.Ok) (hok' : t.Ok)
    (hmove : ∀ j, ThreadMove s l t j) (D : Slot → Prop)
    (hD : ∀ j, D j → (t.threads j).state ≠ .empty ∧ (t.threads j).tid = (s.threads j).tid ∧
      (s.threads j).state ≠ .empty)
    (hin : ∀ j, D j → phase (s.threads j).tid (semLog a t.hist) = t.semPhase a j)
    (hout : ∀ u, (∀ j, D j → (s.threads j).tid ≠ u) →
      phase u (semLog a t.hist) = phase u (semLog a s.hist))
    (hsem : ∀ j, ¬ D j → t.semPhase a j = s.semPhase a j) : Linked a t := by
  refine ⟨fun i hne => ?_, fun u hu => ?_⟩
  · by_cases hDi : D i
    · rw [(hD i hDi).2.1]
      exact hin i hDi
    · -- no thread that moves has the tid of slot `i`
      have hother : ∀ j, D j → (s.threads j).tid ≠ (t.threads i).tid := by
        intro j hj htid
        obtain ⟨hne', htid', -⟩ := hD j hj
        obtain rfl : j = i := hok'.tid_inj j i hne' hne (htid'.trans htid)
        exact hDi hj
      rw [hout _ hother, hsem i hDi]
      by_cases hempty : (s.threads i).state = .empty
      · -- a new thread
        have hidle : s.semPhase a i = .idle := by
          by_contra hi
          exact (semPhase_live hok hi).1 hempty
        rw [hidle]
        by_contra hu
        obtain ⟨k, hk, htid, hlive⟩ := h.slot hu
        obtain ⟨hne', htid'⟩ := (hmove k).keeps_live hok hlive
        obtain rfl : k = i := hok'.tid_inj k i hne' hne (htid'.trans htid)
        exact hk hempty
      · obtain ⟨-, htid⟩ := ((hmove i).keeps hempty).resolve_left fun h => hne h.2
        rw [htid]
        exact h.here i hempty
  · by_cases hex : ∃ j, D j ∧ (s.threads j).tid = u
    · obtain ⟨j, hj, rfl⟩ := hex
      exact ⟨j, (hD j hj).1, (hD j hj).2.1⟩
    · rw [hout u fun j hj htid => hex ⟨j, hj, htid⟩] at hu
      obtain ⟨k, -, htid, hlive⟩ := h.slot hu
      obtain ⟨hne', htid'⟩ := (hmove k).keeps_live hok hlive
      exact ⟨k, hne', htid'.trans htid⟩

/-- Nobody moves. -/
theorem Linked.stay (h : Linked a s) (hok : s.Ok) (hok' : t.Ok)
    (hmove : ∀ j, ThreadMove s l t j)
    (hlog : ∀ u, phase u (semLog a t.hist) = phase u (semLog a s.hist))
    (hsem : ∀ j, t.semPhase a j = s.semPhase a j) : Linked a t :=
  h.step hok hok' hmove (fun _ => False) (fun _ => False.elim) (fun _ => False.elim)
    (fun u _ => hlog u) fun j _ => hsem j

/-- The thread of slot `i` moves, alone. -/
theorem Linked.move (h : Linked a s) (hok : s.Ok) (hok' : t.Ok)
    (hmove : ∀ j, ThreadMove s l t j) (i : Slot) (hne : (s.threads i).state ≠ .empty)
    (hne' : (t.threads i).state ≠ .empty)
    (hin : phase (s.threads i).tid (semLog a t.hist) = t.semPhase a i)
    (hout : ∀ u, (s.threads i).tid ≠ u →
      phase u (semLog a t.hist) = phase u (semLog a s.hist))
    (hsem : ∀ j, j ≠ i → t.semPhase a j = s.semPhase a j) : Linked a t := by
  obtain ⟨-, htid⟩ := ((hmove i).keeps hne).resolve_left fun h => hne' h.2
  refine h.step hok hok' hmove (· = i) ?_ ?_ (fun u hu => hout u (hu i rfl)) hsem
  · rintro j rfl
    exact ⟨hne', htid, hne⟩
  · rintro j rfl
    exact hin

/-! A call about the semaphore that returns an error has changed nothing: the newest entry is no
return, the return of a success, or that of another call. -/

theorem ThreadStep.error_unchanged {c : Call} {u : Tid} {r : Ret} (hstep : ThreadStep s l t)
    (hc : c.semOf = some a) (hh : t.hist = .ret u c r :: s.hist) (hr : r.status ≠ .ok) :
    t.sem a = s.sem a ∧ t.queue (.sem a) = s.queue (.sem a) ∧ t.threads = s.threads := by
  cases hstep with
  | fail x d st _ _ => exact ⟨rfl, rfl, rfl⟩
  | query x d r' _ hd =>
    cases hh
    rw [semOf_query hd] at hc
    nomatch hc
  | createFail x d st i _ hd _ _ =>
    cases hh
    rw [semOf_create hd] at hc
    nomatch hc
  | schedule caller _ => exact absurd hh.symm (List.cons_ne_self _ _)
  | yield i k _ _ => nomatch (List.cons.inj hh).1
  | exit i v r' k _ _ _ _ _ => nomatch (List.cons.inj hh).1
  | _ =>
    cases (List.cons.inj hh).1
    exact absurd rfl hr

theorem SchedStep.no_error {c : Call} {u : Tid} {r : Ret} (hstep : SchedStep s l t)
    (hc : c.semOf = some a) (hh : t.hist = .ret u c r :: s.hist) (hr : r.status ≠ .ok) : False := by
  cases hstep with
  | idle caller st _ _ =>
    cases (List.cons.inj hh).1
    cases caller <;> nomatch hc
  | start i _ => exact absurd hh.symm (List.cons_ne_self _ _)
  | dispatch caller act i f _ _ _ _ => nomatch (List.cons.inj hh).1
  | backLoop act caller _ => nomatch (List.cons.inj hh).1
  | _ =>
    cases (List.cons.inj hh).1
    exact absurd rfl hr

theorem MutexStep.no_error {c : Call} {u : Tid} {r : Ret} (hstep : MutexStep s l t)
    (hc : c.semOf = some a) (hh : t.hist = .ret u c r :: s.hist) (hr : r.status ≠ .ok) : False := by
  cases hstep with
  | lockBlock i m via l k _ _ _ _ => nomatch (List.cons.inj hh).1
  | lockBusy i m via _ _ =>
    cases (List.cons.inj hh).1
    cases via <;> nomatch hc
  | relockFail i c' m st _ _ =>
    cases (List.cons.inj hh).1
    nomatch hc
  | _ =>
    cases (List.cons.inj hh).1
    exact absurd rfl hr

theorem SemStep.no_error {c : Call} {u : Tid} {r : Ret} (hstep : SemStep s l t)
    (hh : t.hist = .ret u c r :: s.hist) (hr : r.status ≠ .ok) : False := by
  cases hstep with
  | block i b k _ _ _ _ => nomatch (List.cons.inj hh).1
  | _ =>
    cases (List.cons.inj hh).1
    exact absurd rfl hr

theorem CondStep.no_error {c : Call} {u : Tid} {r : Ret} (hstep : CondStep s l t)
    (hc : c.semOf = some a) (hh : t.hist = .ret u c r :: s.hist) (hr : r.status ≠ .ok) : False := by
  cases hstep with
  | block i c' m k _ _ _ _ _ _ => nomatch (List.cons.inj hh).1
  | fail i c' m st _ _ =>
    cases (List.cons.inj hh).1
    nomatch hc
  | _ =>
    cases (List.cons.inj hh).1
    exact absurd rfl hr

/-- A call about the semaphore that returns an error has changed nothing. -/
theorem Step.error_unchanged {c : Call} {u : Tid} {r : Ret} (hstep : Step s l t)
    (hc : c.semOf = some a) (hh : t.hist = .ret u c r :: s.hist) (hr : r.status ≠ .ok) :
    t.sem a = s.sem a ∧ t.queue (.sem a) = s.queue (.sem a) ∧ t.threads = s.threads := by
  cases hstep with
  | thread hstep => exact hstep.error_unchanged hc hh hr
  | sched hstep => exact (hstep.no_error hc hh hr).elim
  | mutex hstep => exact (hstep.no_error hc hh hr).elim
  | sem hstep => exact (hstep.no_error hh hr).elim
  | cond hstep => exact (hstep.no_error hc hh hr).elim

/-- The semaphore `a` as an abstract one: its clients are threads, named by tid. -/
def semView (s : Kernel) (a : Addr) : CountingSem.Sem Tid :=
  ⟨(s.sem a).count, (s.queue (.sem a)).map s.tidAt, semLog a s.hist⟩

theorem blockedAt_congr {j : Slot} (h : t.threads j = s.threads j) :
    t.BlockedAt a j ↔ s.BlockedAt a j := by
  unfold BlockedAt
  rw [h]

/-- Who is blocked at `a` stays so, and nobody else gets there, unless the transition is about
    `a`. -/
theorem blockedAt_iff (hok : s.Ok) (hsound : WaitMap.Sound s.waiting s.queue)
    (hcancel : ∀ x c, l = some (x, c) → c.isCancel = false)
    (hl : ∀ x c, l = some (x, c) → c.semOf = some a → t.threads = s.threads) {j : Slot}
    (hm : ThreadMove s l t j) : t.BlockedAt a j ↔ s.BlockedAt a j := by
  constructor
  · intro hb
    have hst := hb.1
    have hctx := hb.2
    cases hm with
    | same ht _ => exact (blockedAt_congr ht).mp hb
    | woken _ _ _ _ _ _ _ _ ht _ => rw [ht] at hst; nomatch hst
    | dispatched _ _ _ _ ht _ => rw [ht] at hst; nomatch hst
    | yielded _ _ ht _ => rw [ht] at hst; nomatch hst
    | blocked o f _ _ _ ht _ hsem =>
      have hf : f = .semWait a := by
        rw [ht] at hctx
        cases hctx
        rfl
      exact (blockedAt_congr (congrFun (hl _ _ (hsem (.semWait a) (by rw [hf]; rfl)) rfl) j)).mp hb
    | passed _ _ _ _ _ ht _ => rw [ht] at hst; nomatch hst
    | restored _ _ _ _ ht _ => rw [ht] at hst; nomatch hst
    | exited _ _ _ hterm _ _ => rw [hst] at hterm; nomatch hterm
    | canceled _ _ _ _ _ ht _ => rw [ht] at hst; nomatch hst
    | released _ ht _ => rw [ht] at hst; nomatch hst
    | created _ ht _ =>
      rcases ht with ht | ht
      · rw [ht] at hst; nomatch hst
      · nomatch ht.1.symm.trans hst
  · intro hb
    have hoff : ¬ s.OnCpu j := by
      intro hon
      rcases hok.onCpu hon with h | h <;> nomatch hb.1.symm.trans h
    cases hm with
    | same ht _ => exact (blockedAt_congr ht).mpr hb
    | woken x c o hlab hc hmem _ _ ht _ =>
      -- the thread is in the queue of `a` and in no other
      obtain rfl : o = .sem a :=
        Option.some.inj ((hsound.waits o j hmem).symm.trans hb.waiting)
      have hsem : c.semOf = some a := by
        cases c with
        | semPost b => exact congrArg some (Obj.sem.inj (Option.some.inj hc))
        | _ => nomatch hc
      exact (blockedAt_congr (congrFun (hl x c hlab hsem) j)).mpr hb
    | dispatched _ _ hst _ _ _ => nomatch hb.1.symm.trans hst
    | yielded _ hon _ _ => exact absurd hon hoff
    | blocked _ _ _ _ hon _ _ _ => exact absurd hon hoff
    | passed _ _ _ hon _ _ _ => exact absurd hon hoff
    | restored _ _ _ hon _ _ => exact absurd hon hoff
    | exited _ _ hon _ _ _ => exact absurd hon hoff
    | canceled x tid hlab _ _ _ _ => nomatch hcancel x _ hlab
    | released hterm _ _ => rw [hb.1] at hterm; nomatch hterm
    | created he _ _ => nomatch hb.1.symm.trans he

end

/-- What a run may do with the semaphore `a`: initialise it once, never destroy it; and it cancels
    no thread. -/
def OnceSem (a : Addr) (initialized : Nat) (c : Call) : Prop :=
  c.isCancel = false ∧ (c.inits = some (.sem a) → initialized = 0) ∧ c ≠ .semDestroy a

instance (a : Addr) (initialized : Nat) (c : Call) : Decidable (OnceSem a initialized c) :=
  inferInstanceAs (Decidable (_ ∧ _ ∧ _))

/-- What ties the semaphore `a` of the code to the abstract one. -/
structure Fifo (a : Addr) (s : Kernel) : Prop where
  sound : WaitMap.Sound s.waiting s.queue
  linked : Linked a s
  reach : CountingSem.Reach (s.semView a)
  closed : (s.sem a).initialized = 0 → semLog a s.hist = []

section
variable {a : Addr} {s t : Kernel} {l : Option (Ctx × Call)}

/-- The thread in the slot at the head of the queue. -/
theorem Fifo.head (h : Fifo a s) (hok : s.Ok) {n : Nat} {q : List Nat}
    (hq : s.queue (.sem a) = n :: q) : ∃ i : Slot, (i : Nat) = n ∧ s.BlockedAt a i :=
  hok.waiting_sem (h.sound.waits (.sem a) n (hq ▸ List.mem_cons_self))

/-- The log has a thread that goes on in `gth_sem_wait(a)` down for a permit. -/
theorem Fifo.granted (h : Fifo a s) (hok : s.Ok) {i : Slot} (he : s.Entering i (.semWait a)) :
    phase (s.threads i).tid (semLog a s.hist) = .granted := by
  rw [h.linked.here i, GrantedAt.semPhase (Or.inr he) hok]
  rw [(hok.enter i _ he).1]
  nofun

/-- **Threads and log move together.** -/
theorem Fifo.linked_step (h : Fifo a s) (hok : s.Ok) (hok' : t.Ok) (hstep : Step s l t)
    (hG : ∀ x c, l = some (x, c) → OnceSem a (s.sem a).initialized c) : Linked a t := by
  have hcancel : ∀ x c, l = some (x, c) → c.isCancel = false := fun x c hl => (hG x c hl).1
  have hmove := hstep.thread_cases
  -- in a call, threads whose records are left alone stay where they are
  have hcall : ∀ {x c}, l = some (x, c) → ∀ {j}, t.threads j = s.threads j →
      t.semPhase a j = s.semPhase a j := by
    intro x c hl j ht
    refine (hmove j).semPhase_eq hok hok' hcancel (fun he => ?_) (blockedAt_congr ht)
    nomatch hl.symm.trans (hstep.label_of_entering he)
  cases hstep.sem_cases a with
  | none hsem hq hlog hout hl =>
    refine h.linked.stay hok hok' hmove (fun u => by rw [hlog]) fun j => ?_
    exact (hmove j).semPhase_eq hok hok' hcancel (hout j)
      (blockedAt_iff hok h.sound hcancel hl (hmove j))
  | init x n hl hsem hq hlog ht =>
    refine h.linked.stay hok hok' hmove (fun u => ?_) fun j => hcall hl (congrFun ht j)
    rw [hlog, CountingSem.phase_skip rfl]
  | take x hl hi hc hsem hq hlog ht =>
    refine h.linked.stay hok hok' hmove (fun u => ?_) fun j => hcall hl (congrFun ht j)
    subst hl
    rw [hlog]
    by_cases hu : s.ctxTid x = u
    · subst hu
      rw [CountingSem.phase_move_self rfl, h.linked.caller_idle hok hstep.cpu_of_call]
    · rw [CountingSem.phase_move_of_ne rfl hu, CountingSem.phase_move_of_ne rfl hu]
  | block i hl hi hc hsem hq hlog ht =>
    have hti : t.threads i = { s.threads i with
        state := .blocked, ctx := some ⟨.green i, .semWait a⟩ } := by
      rw [ht]
      exact Function.update_self _ _ _
    refine h.linked.move hok hok' hmove i ?_ ?_ ?_ (fun u hu => ?_) fun j hj => hcall hl ?_
    · subst hl
      rcases hok.user i hstep.cpu_of_call with h | h <;> rw [h] <;> nofun
    · rw [hti]
      nofun
    · rw [hlog, CountingSem.phase_move_self rfl, BlockedAt.semPhase]
      exact ⟨by rw [hti], by rw [hti]⟩
    · rw [hlog, CountingSem.phase_move_of_ne rfl hu]
    · rw [ht]
      exact Function.update_of_ne hj _ _
  | finish i he hsem hq hlog ht =>
    have hrun := (hok.enter i _ he).1
    refine h.linked.move hok hok' hmove i ?_ ?_ ?_ (fun u hu => ?_) (fun j hj => ?_)
    · rw [hrun]
      nofun
    · rw [ht, hrun]
      nofun
    · rw [hlog, CountingSem.phase_move_self rfl]
      refine (semPhase_idle ?_ ?_ ((hmove i).not_entering ?_ _)).symm <;>
        simp only [ht, hrun] <;> nofun
    · rw [hlog, CountingSem.phase_move_of_ne rfl hu]
    · refine (hmove j).semPhase_eq hok hok' hcancel (fun he' => ?_)
        (blockedAt_congr (congrFun ht j))
      cases he.symm.trans he'
      exact hj rfl
  | grant x n q hl hi hqs hsem hq hlog ht =>
    obtain ⟨i, rfl, hb⟩ := h.head hok hqs
    have hthreads : t.threads = Function.update s.threads i
        { s.threads i with state := .ready } := by
      rw [ht, wake_cons hqs, unblock_blocked (s := s.setQueue _ q) hb.1]
      rfl
    have hti : t.threads i = { s.threads i with state := .ready } := by
      rw [hthreads, Function.update_self]
    rw [tidAt_slot] at hlog
    refine h.linked.move hok hok' hmove i ?_ ?_ ?_ (fun u hu => ?_) fun j hj => hcall hl ?_
    · rw [hb.1]
      nofun
    · rw [hti]
      nofun
    · have hg : t.GrantedAt a i := Or.inl (by rw [hti]; exact ⟨rfl, hb.2⟩)
      rw [hlog, CountingSem.phase_skip rfl, CountingSem.phase_move_self rfl, hg.semPhase hok']
    · rw [hlog, CountingSem.phase_skip rfl, CountingSem.phase_move_of_ne rfl hu]
    · rw [hthreads, Function.update_of_ne hj]
  | give x hl hi hqs hsem hq hlog ht =>
    refine h.linked.stay hok hok' hmove (fun u => ?_) fun j => hcall hl (congrFun ht j)
    rw [hlog, CountingSem.phase_skip rfl]
  | destroy x hl _ _ _ => exact absurd rfl (hG x _ hl).2.2

/-- **Simulation**: a transition leaves the abstract semaphore alone, or is one of its own. -/
theorem Fifo.view_step (h : Fifo a s) (hok : s.Ok) (hstep : Step s l t)
    (hG : ∀ x c, l = some (x, c) → OnceSem a (s.sem a).initialized c) :
    t.semView a = s.semView a ∨ CountingSem.Step (s.semView a) (t.semView a) := by
  have hqueue : ∀ {q : List Nat}, (∀ n ∈ q, n ∈ s.queue (.sem a)) → q.map t.tidAt = q.map s.tidAt :=
    fun hq => List.map_congr_left fun n hn =>
      tidAt_queue h.sound hstep.thread_cases (hq n hn)
  cases hstep.sem_cases a with
  | none hsem hq hlog _ _ =>
    refine Or.inl ?_
    unfold semView
    rw [hsem, hq, hlog, hqueue fun _ => id]
  | init x n hl hsem hq hlog ht =>
    have hview : t.semView a = ⟨n % 2 ^ 32, [], .init (n % 2 ^ 32) :: (s.semView a).log⟩ := by
      unfold semView
      rw [hsem, hq, hlog]
      rfl
    rw [hview]
    exact Or.inr (.init _ (h.closed ((hG x _ hl).2.1 rfl)))
  | take x hl hi hc hsem hq hlog ht =>
    have hview : t.semView a = ⟨(s.semView a).count - 1, (s.semView a).waiting,
        .done (s.ctxTid x) :: .take (s.ctxTid x) :: (s.semView a).log⟩ := by
      unfold semView
      rw [hsem, hq, hlog, hqueue fun _ => id]
    have hwaiting : (s.semView a).waiting = [] := by
      by_contra hne
      exact hc (h.reach.count_eq_zero hne)
    subst hl
    rw [hview]
    exact Or.inr (.take _ hc hwaiting (h.linked.caller_idle hok hstep.cpu_of_call))
  | block i hl hi hc hsem hq hlog ht =>
    have htid : (t.threads i).tid = (s.threads i).tid := by
      rw [ht]
      show (Function.update s.threads i _ i).tid = _
      rw [Function.update_self]
    have hview : t.semView a = ⟨(s.semView a).count,
        (s.semView a).waiting ++ [(s.threads i).tid],
        .block (s.threads i).tid :: (s.semView a).log⟩ := by
      unfold semView
      rw [hsem, hq, hlog, List.map_append, hqueue fun _ => id, List.map_singleton, tidAt_slot, htid]
    subst hl
    rw [hview]
    exact Or.inr (.block _ hc (h.linked.caller_idle hok hstep.cpu_of_call))
  | finish i he hsem hq hlog ht =>
    have hview : t.semView a = ⟨(s.semView a).count, (s.semView a).waiting,
        .done (s.threads i).tid :: (s.semView a).log⟩ := by
      unfold semView
      rw [hsem, hq, hlog, hqueue fun _ => id]
    rw [hview]
    exact Or.inr (.finish _ (h.granted hok he))
  | grant x n q hl hi hqs hsem hq hlog ht =>
    obtain ⟨i, rfl, hb⟩ := h.head hok hqs
    rw [tidAt_slot] at hlog
    have hview : t.semView a = ⟨(s.semView a).count, q.map s.tidAt,
        .post (s.ctxTid x) :: .grant (s.threads i).tid :: (s.semView a).log⟩ := by
      unfold semView
      rw [hsem, hq, hlog, hqueue fun n hn => hqs ▸ List.mem_cons_of_mem _ hn]
    have hw : (s.semView a).waiting = (s.threads i).tid :: q.map s.tidAt := by
      show (s.queue (.sem a)).map s.tidAt = _
      rw [hqs, List.map_cons, tidAt_slot]
    have hblocked : phase (s.threads i).tid (semLog a s.hist) = .blocked := by
      rw [h.linked.here i (by rw [hb.1]; nofun), hb.semPhase]
    rw [hview]
    exact Or.inr (.grant _ _ _ hw hblocked)
  | give x hl hi hqs hsem hq hlog ht =>
    have hview : t.semView a = ⟨(s.semView a).count + 1, (s.semView a).waiting,
        .post (s.ctxTid x) :: (s.semView a).log⟩ := by
      unfold semView
      rw [hsem, hq, hlog, hqueue fun _ => id]
    have hw : (s.semView a).waiting = [] := by
      show (s.queue (.sem a)).map s.tidAt = _
      rw [hqs, List.map_nil]
    rw [hview]
    exact Or.inr (.give _ hw)
  | destroy x hl _ _ _ => exact absurd rfl (hG x _ hl).2.2

/-- A semaphore that is not initialised has no history. -/
theorem Fifo.closed_step (h : Fifo a s) (hok : s.Ok) (hstep : Step s l t)
    (hG : ∀ x c, l = some (x, c) → OnceSem a (s.sem a).initialized c)
    (h0 : (t.sem a).initialized = 0) : semLog a t.hist = [] := by
  cases hstep.sem_cases a with
  | none hsem hq hlog _ _ => rw [hlog]; exact h.closed (hsem ▸ h0)
  | init x n _ hsem _ _ _ => rw [hsem] at h0; nomatch h0
  | take x _ hi _ hsem _ _ _ => rw [hsem] at h0; exact absurd h0 hi
  | block i _ hi _ hsem _ _ _ => rw [hsem] at h0; exact absurd h0 hi
  | finish i he hsem _ _ _ =>
    have hgranted := h.granted hok he
    rw [h.closed (hsem ▸ h0)] at hgranted
    nomatch hgranted
  | grant x n q _ hi _ hsem _ _ _ => rw [hsem] at h0; exact absurd h0 hi
  | give x _ hi _ hsem _ _ _ => rw [hsem] at h0; exact absurd h0 hi
  | destroy x hl _ _ _ => exact absurd rfl (hG x _ hl).2.2

end

theorem fifo_inv (a : Addr) : Inv (Fifo a) (fun s _ c => OnceSem a (s.sem a).initialized c) := by
  intro s l t hok hok' hstep hG h
  have hspare : ∀ x c, l = some (x, c) → SparesBlocked s.threads c :=
    fun x c hl => sparesBlocked_of_not_cancel (hG x c hl).1
  refine ⟨sound_inv s l t hok hok' hstep hspare h.sound, h.linked_step hok hok' hstep hG, ?_,
    h.closed_step hok hstep hG⟩
  rcases h.view_step hok hstep hG with hview | hview
  · rw [hview]
    exact h.reach
  · exact h.reach.tail hview

theorem fifo_initial (a : Addr) : Fifo a initial where
  sound := agree_initial.toSound
  linked := ⟨fun _ hne => absurd rfl hne, fun _ hu => absurd rfl hu⟩
  reach := .refl
  closed := fun _ => rfl

end Kernel

/-! ## Runs of the code -/

/-- **The semaphore `a` is a counting semaphore with first-in-first-out waiters.**  Its log has
    the newest event first: the return of `gth_sem_init`, of posts and waits that returned
    `GTH_OK`, the waits that decremented the count, the callers that blocked and the waiters that
    posts took off the queue. -/
structure SemFifo (a : Addr) (s : Core) : Prop where
  /-- It is in a state that the abstract semaphore can reach, with the same log. -/
  refines : CountingSem.Reach (s.kernel.semView a)
  /-- The initial count and the posts are the count and the waits granted, those that decremented
      the count and those that a post took off the queue. -/
  conserved : CountingSem.initial (semLog a s.hist) + CountingSem.posts (semLog a s.hist)
    = (s.sems a).count + CountingSem.takes (semLog a s.hist)
      + (CountingSem.granted (semLog a s.hist)).length
  /-- Nobody is queued while the count is positive. -/
  exhausted : s.queue (.sem a) ≠ [] → (s.sems a).count = 0
  /-- Those who blocked are those who were granted, and then those in the queue, in this order. -/
  fifo : CountingSem.blocked (semLog a s.hist)
    = CountingSem.granted (semLog a s.hist) ++ (s.queue (.sem a)).map s.kernel.tidAt
  /-- A thread is granted a permit only while it is blocked, returns only with a permit, and does
      not block again before it has returned. -/
  legal : CountingSem.Legal (semLog a s.hist)
  /-- Every grant is the work of one post. -/
  paired : CountingSem.Paired (semLog a s.hist)

theorem Kernel.Fifo.semFifo {a : Addr} {s : Core} (h : Kernel.Fifo a s.kernel) : SemFifo a s where
  refines := h.reach
  conserved := h.reach.conserved
  exhausted := fun hne => h.reach.count_eq_zero fun hmap => hne (List.map_eq_nil_iff.mp hmap)
  fifo := h.reach.fifo
  legal := h.reach.legal
  paired := h.reach.paired

/-- **The semaphore refines a FIFO counting semaphore**, in every run without `gth_thread_cancel`
    that initialises it once and does not destroy it; and a wait or post that returns an error
    has changed neither count nor queue nor thread states.  The bound on creations keeps tids
    distinct: `gth_sem_wait` queues the slot that the current tid leads to. -/
theorem sem_refines_fifo (W : World) (config : ValidConfig) (pageSize : BitVec 64)
    (files : Path → Option (List UInt8)) (a : Addr) (ls : List Label) (s : State)
    (hjoin : JoinsFromMain ls) (hcreates : creates ls < 2 ^ 64)
    (honce : Exec.Along (State.step W)
      (State.OnCalls fun t _ c => Kernel.OnceSem a (t.sems a).initialized c)
      (State.start config pageSize files) ls)
    (hrun : Exec.exec (State.step W) (State.start config pageSize files) ls = some s) :
    SemFifo a s.core ∧
    ∀ l u, l.joinsFromMain = true → State.step W s l = some u →
      ∀ tid c r, c = .semWait a ∨ c = .semPost a → u.core.hist = .ret tid c r :: s.core.hist →
        r.status ≠ .ok →
        (u.core.sems a).count = (s.core.sems a).count ∧
        u.core.queue (.sem a) = s.core.queue (.sem a) ∧
        ∀ i, (u.core.threads i).state = (s.core.threads i).state := by
  obtain ⟨hwf, hqueues, hfifo⟩ := (Kernel.fifo_inv a).reach (Kernel.fifo_initial a) hjoin hcreates
    honce hrun
  refine ⟨hfifo.semFifo, fun l u hl hstep tid c r hc hh hr => ?_⟩
  have hsem : c.semOf = some a := by rcases hc with rfl | rfl <;> rfl
  rcases Kernel.step_refines hwf hqueues hl hstep with hsame | hkernel
  · have hhist : u.core.hist = s.core.hist := congrArg Kernel.hist hsame
    exact absurd (hh.symm.trans hhist) (List.cons_ne_self _ _)
  · obtain ⟨hcell, hqueue, hthreads⟩ := hkernel.error_unchanged hsem hh hr
    exact ⟨congrArg SemCell.count hcell, hqueue,
      fun i => congrArg ThreadRecord.state (congrFun hthreads i)⟩

/-- Two threads wait for a semaphore with one permit; a third one posts. -/
def postRun : List Label :=
  [Sample.main (.semInit 1 1), Sample.main (.semWait 1), Sample.main Sample.create,
    Sample.main Sample.create, Sample.main .yield, .tau, .tau, Sample.green 0 (.semWait 1), .tau,
    Sample.main .yield, .tau, .tau, Sample.green 1 (.semWait 1), .tau, Sample.main (.semPost 1),
    Sample.main .yield, .tau, .tau]

/-- Non-vacuous: one permit was taken from the count, one was handed over by the post, and the
    second thread is still queued. -/
theorem sem_refines_fifo_post : ∃ s,
    Exec.exec (State.step Sample.world) Sample.start postRun = some s ∧
      semLog 1 s.core.hist = [.done 1, .post 0, .grant 1, .block 2, .block 1, .done 0, .take 0,
        .init 1] ∧
      s.core.queue (.sem 1) = [1] ∧ SemFifo 1 s.core :=
  ⟨_, rfl, by decide +kernel, rfl, (sem_refines_fifo Sample.world Sample.config 4096#64
    (fun _ => none) 1 postRun _ (by unfold JoinsFromMain; decide) (by decide) (by decide +kernel)
    rfl).1⟩

end Gth

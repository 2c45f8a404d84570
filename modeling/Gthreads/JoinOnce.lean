/-
  Join delivers each thread's result once.

  A join looks its thread up by tid, runs the scheduler until that thread has ended, and releases
  its slot; the slot is used again by later threads, the tid is not.  So the argument is about
  histories.  `Step.result_cases` reads the transitions of the kernel for what they do to the
  returns of creations and joins, and to the slots: a thread has a slot from its creation to the
  join that returns `GTH_OK` (`Ledger`).  What that join delivers was put into the record when the
  thread ended (`Results`).
-/
import Gthreads.CalleeSaved
import Gthreads.Script

namespace Gth

/-! ## Joins and creations in the history -/

/-- A join that returned, or a creation that succeeded. -/
def Obs.isResult : Obs → Bool
  | .ret _ (.join _ _) _ => true
  | .ret _ (.create _ _ _ _ _) r => r.status == .ok
  | _ => false

/-- A join of `tid` that returned `GTH_OK`. -/
def Obs.joinsOk (tid : Tid) : Obs → Bool
  | .ret _ (.join tid' _) r => tid' == tid && r.status == .ok
  | _ => false

def results (h : List Obs) : List Obs := h.filter Obs.isResult

/-- `gth_thread_create` has returned `tid`. -/
def Created (tid : Tid) (h : List Obs) : Prop :=
  ∃ p outTid attr fn arg env, Obs.ret p (.create outTid attr fn arg env) ⟨.ok, [tid]⟩ ∈ h

/-- `gth_thread_join(tid)` has returned `GTH_OK`. -/
def Joined (tid : Tid) (h : List Obs) : Prop :=
  ∃ p out r, Obs.ret p (.join tid out) ⟨.ok, r⟩ ∈ h

/-- **A join that returns after a successful join of the same tid** returns `GTH_ENOTFOUND`. -/
def Once : List Obs → Prop
  | [] => True
  | o :: h => (∀ p tid out r, o = .ret p (.join tid out) r → Joined tid h → r = ⟨.enotfound, []⟩) ∧
      Once h

section
variable {h h' : List Obs} {tid : Tid}

theorem mem_results {o : Obs} (ho : o.isResult = true) : o ∈ results h ↔ o ∈ h :=
  List.mem_filter.trans (and_iff_left ho)

theorem created_congr (hr : results h = results h') : Created tid h ↔ Created tid h' := by
  have hmem : ∀ p outTid attr fn arg env,
      Obs.ret p (.create outTid attr fn arg env) ⟨.ok, [tid]⟩ ∈ h ↔
        Obs.ret p (.create outTid attr fn arg env) ⟨.ok, [tid]⟩ ∈ h' := by
    intro p outTid attr fn arg env
    rw [← mem_results (h := h) rfl, hr, mem_results rfl]
  simp only [Created, hmem]

theorem joined_congr (hr : results h = results h') : Joined tid h ↔ Joined tid h' := by
  have hmem : ∀ p out r, Obs.ret p (.join tid out) ⟨.ok, r⟩ ∈ h ↔
      Obs.ret p (.join tid out) ⟨.ok, r⟩ ∈ h' := by
    intro p out r
    rw [← mem_results (h := h) rfl, hr, mem_results rfl]
  simp only [Joined, hmem]

theorem results_results (h : List Obs) : results (results h) = results h :=
  List.filter_filter.trans (by simp only [Bool.and_self]; rfl)

/-- Other observations do not matter. -/
theorem once_results : ∀ {h : List Obs}, Once (results h) ↔ Once h
  | [] => Iff.rfl
  | o :: h => by
    cases ho : o.isResult with
    | true =>
      rw [results, List.filter_cons_of_pos ho]
      refine and_congr ⟨fun hall p tid out r hr hj => ?_, fun hall p tid out r hr hj => ?_⟩
        once_results
      · exact hall p tid out r hr ((joined_congr (results_results h)).mpr hj)
      · exact hall p tid out r hr ((joined_congr (results_results h)).mp hj)
    | false =>
      rw [results, List.filter_cons_of_neg (by rw [ho]; exact Bool.false_ne_true)]
      refine ⟨fun hh => ⟨?_, once_results.mp hh⟩, fun hh => once_results.mpr hh.2⟩
      rintro p tid out r rfl
      nomatch ho

theorem once_congr (hr : results h = results h') : Once h ↔ Once h' := by
  rw [← once_results, hr, once_results]

/-- At any point of the history. -/
theorem Once.later : ∀ {h₁ h₂ : List Obs} {p : Tid} {out : Bool} {r : Ret},
    Once (h₁ ++ .ret p (.join tid out) r :: h₂) → Joined tid h₂ → r = ⟨.enotfound, []⟩
  | [], _, p, out, r, hh, hj => hh.1 p tid out r rfl hj
  | _ :: _, _, _, _, _, hh, hj => hh.2.later hj

theorem joined_of_joinsOk {o : Obs} (ho : o.joinsOk tid = true) :
    ∃ p out r, o = .ret p (.join tid out) ⟨.ok, r⟩ := by
  cases o with
  | ret p c r =>
    cases c with
    | join tid' out =>
      obtain ⟨htid, hst⟩ := Bool.and_eq_true_iff.mp ho
      obtain ⟨st, vs⟩ := r
      obtain rfl := eq_of_beq htid
      obtain rfl : st = .ok := eq_of_beq hst
      exact ⟨p, out, vs, rfl⟩
    | _ => nomatch ho
  | _ => nomatch ho

/-- In particular at most one join of a tid is successful. -/
theorem Once.countP_le : ∀ {h : List Obs}, Once h → h.countP (Obs.joinsOk tid) ≤ 1
  | [], _ => Nat.zero_le 1
  | o :: h, hh => by
    cases ho : o.joinsOk tid with
    | false =>
      rw [List.countP_cons_of_neg (by rw [ho]; exact Bool.false_ne_true)]
      exact hh.2.countP_le
    | true =>
      obtain ⟨p, out, r, rfl⟩ := joined_of_joinsOk ho
      have hzero : h.countP (Obs.joinsOk tid) = 0 := by
        refine List.countP_eq_zero.mpr fun o' hmem ho' => ?_
        obtain ⟨p', out', r', rfl⟩ := joined_of_joinsOk ho'
        nomatch hh.1 p tid out _ rfl ⟨p', out', r', hmem⟩
      rw [List.countP_cons_of_pos ho, hzero]

/-- Errors of other calls are not recorded. -/
theorem results_fail {p : Tid} {c : Call} {st : Status} (hst : st ≠ .ok)
    (hc : ∀ tid out, c ≠ .join tid out) : results (.ret p c ⟨st, []⟩ :: h) = results h := by
  refine List.filter_cons_of_neg fun hr => ?_
  cases c with
  | join tid out => exact hc tid out rfl
  | create outTid attr fn arg env => exact hst (eq_of_beq hr)
  | _ => nomatch hr

theorem joined_cons {o : Obs} : Joined tid (o :: h) ↔
    (∃ p out r, o = .ret p (.join tid out) ⟨.ok, r⟩) ∨ Joined tid h := by
  simp only [Joined, List.mem_cons, exists_or, eq_comm]

theorem created_cons {o : Obs} : Created tid (o :: h) ↔
    (∃ p outTid attr fn arg env, o = .ret p (.create outTid attr fn arg env) ⟨.ok, [tid]⟩) ∨
      Created tid h := by
  simp only [Created, List.mem_cons, exists_or, eq_comm]

end

/-! ## What a transition does to them -/

namespace Kernel

/-- What a transition does to the returns of creations and joins, and to the slots. -/
inductive ResultMove (s : Kernel) (l : Option (Ctx × Call)) (t : Kernel) : Prop where
  | same : results t.hist = results s.hist →
      (∀ j, (t.threads j).state = .empty ↔ (s.threads j).state = .empty) → ResultMove s l t
  | created (x : Ctx) (c : Call) (p : Tid) (i : Slot) (r : ThreadRecord) : l = some (x, c) →
      c.isCreate = true → (s.threads i).state = .empty → r.state = .ready →
      t.threads = Function.update s.threads i r →
      t.hist = .ret p c ⟨.ok, [r.tid]⟩ :: s.hist → ResultMove s l t
  /-- A join fails at once, or because the scheduler has found nothing to run. -/
  | refused (x : Ctx) (p tid : Tid) (out : Bool) (st : Status) : st ≠ .ok →
      (l = some (x, .join tid out) ∨ ∃ i, s.cpu = .sched .main (.join tid out i)) →
      t.threads = s.threads → t.hist = .ret p (.join tid out) ⟨st, []⟩ :: s.hist →
      ResultMove s l t
  | joined (p tid : Tid) (out : Bool) (i : Slot) : findThread s.threads tid = some i →
      threadIsTerminal (s.threads i).state = true → t.threads = Function.update s.threads i {} →
      results t.hist = .ret p (.join tid out)
        ⟨.ok, if out then [(s.threads i).retval] else []⟩ :: results s.hist → ResultMove s l t

section
variable {s t : Kernel} {l : Option (Ctx × Call)}

/-- A slot that is in use stays so. -/
theorem empty_iff_of_set {i : Slot} {r : ThreadRecord}
    (ht : t.threads = Function.update s.threads i r) (hi : (s.threads i).state ≠ .empty)
    (hr : r.state ≠ .empty) (j : Slot) :
    (t.threads j).state = .empty ↔ (s.threads j).state = .empty := by
  by_cases hj : j = i
  · rw [ht, hj, Function.update_self]
    exact ⟨fun h => absurd h hr, fun h => absurd h hi⟩
  · rw [ht, Function.update_of_ne hj]

/-- A slot that comes into use is filled by `gth_thread_create`. -/
theorem ResultMove.filled (h : ResultMove s l t) {j : Slot} (hs : (s.threads j).state = .empty)
    (ht : (t.threads j).state ≠ .empty) : ∃ x c p r, l = some (x, c) ∧ c.isCreate = true ∧
      t.threads = Function.update s.threads j r ∧
      t.hist = .ret p c ⟨.ok, [r.tid]⟩ :: s.hist := by
  cases h with
  | same _ hempty => exact absurd ((hempty j).mpr hs) ht
  | created x c p i r hl hc _ _ hthreads hhist =>
    obtain rfl : j = i := by
      by_contra hne
      rw [hthreads, Function.update_of_ne hne] at ht
      exact ht hs
    exact ⟨x, c, p, r, hl, hc, hthreads, hhist⟩
  | refused _ _ _ _ _ _ _ hthreads _ =>
    rw [hthreads] at ht
    exact absurd hs ht
  | joined _ _ _ i _ _ hthreads _ =>
    rw [hthreads] at ht
    by_cases hi : j = i
    · rw [hi, Function.update_self] at ht
      exact absurd rfl ht
    · rw [Function.update_of_ne hi] at ht
      exact absurd hs ht

theorem results_lockCall (m : Addr) (via : Option Addr) (p : Tid) (r : Ret) (h : List Obs) :
    results (.ret p (Core.lockCall m via) r :: h) = results h := by
  cases via <;> rfl

/-- Wake-ups have no results. -/
theorem ResultMove.of_woken {K T : Kernel} (hw : Woken K T) (hK : K.threads = s.threads)
    (ht : t.threads = T.threads) (hKr : results K.hist = results s.hist)
    (htr : results t.hist = results T.hist) : ResultMove s l t := by
  refine .same (htr.trans ((congrArg results hw.hist).trans hKr)) fun j => ?_
  rw [ht, (Kept.of_woken hw).empty j, hK]

theorem ThreadStep.result_cases (hok : s.Ok) (hstep : ThreadStep s l t) : ResultMove s l t := by
  cases hstep with
  | fail x c st _ hst =>
    by_cases hc : ∃ tid out, c = .join tid out
    · obtain ⟨tid, out, rfl⟩ := hc
      exact .refused x _ tid out st hst (Or.inl rfl) rfl rfl
    · exact .same (results_fail hst fun tid out h => hc ⟨tid, out, h⟩) (fun _ => Iff.rfl)
  | query x c r _ hc =>
    refine .same (List.filter_cons_of_neg fun hr => ?_) (fun _ => Iff.rfl)
    cases c with
    | join tid out => nomatch hc
    | create outTid attr fn arg env => nomatch hc
    | _ => nomatch hr
  | createFail x c st i _ hc hst hi =>
    refine .same (results_fail hst fun tid out h => ?_) fun j => ?_
    · rw [h] at hc
      nomatch hc
    · show ((Function.update s.threads i {}) j).state = .empty ↔ _
      by_cases hj : j = i
      · rw [hj, Function.update_self, hi]
      · rw [Function.update_of_ne hj]
  | create x c i r _ hc hi hst _ => exact .created x c _ i r rfl hc hi hst rfl rfl
  | schedule caller _ => exact .same rfl (fun _ => Iff.rfl)
  | yield i k hcpu _ =>
    exact .same rfl (empty_iff_of_set rfl (hok.onCpu_ne_empty (Or.inl hcpu)) nofun)
  | cancel x tid i _ hfind _ =>
    exact .same rfl (empty_iff_of_set rfl (findThread_some hfind).1 nofun)
  | exit i v r k hcpu _ _ hterm _ =>
    refine .same rfl (empty_iff_of_set rfl (hok.onCpu_ne_empty (Or.inl hcpu)) fun h => ?_)
    rw [h] at hterm
    nomatch hterm
  | release tid out i _ hfind hterm => exact .joined _ tid out i hfind hterm rfl rfl

theorem SchedStep.result_cases (hstep : SchedStep s l t) : ResultMove s l t := by
  cases hstep with
  | idle caller st hcpu hst =>
    cases caller with
    | yield => exact .same rfl (fun _ => Iff.rfl)
    | join tid out i => exact .refused .main _ tid out st hst (Or.inr ⟨i, hcpu⟩) rfl rfl
  | dispatch caller act i f _ hst _ _ =>
    refine .same rfl (empty_iff_of_set rfl ?_ nofun)
    rw [hst]
    decide
  | backYield act _ => exact .same rfl (fun _ => Iff.rfl)
  | backRelease act tid out i _ hfind hterm => exact .joined _ tid out i hfind hterm rfl rfl
  | backLoop act caller _ => exact .same rfl (fun _ => Iff.rfl)
  | start i _ => exact .same rfl (fun _ => Iff.rfl)
  | yielded i _ => exact .same rfl (fun _ => Iff.rfl)

theorem MutexStep.result_cases (hok : s.Ok) (hstep : MutexStep s l t) : ResultMove s l t := by
  cases hstep with
  | init x m _ => exact .same rfl (fun _ => Iff.rfl)
  | acquire x m via l _ _ => exact .same (results_lockCall m via _ _ _) (fun _ => Iff.rfl)
  | lockBlock i m via l k hat _ _ _ =>
    exact .same rfl (empty_iff_of_set rfl (hok.onCpu_ne_empty hat.runs) nofun)
  | lockBusy i m via _ _ => exact .same (results_lockCall m via _ _ _) (fun _ => Iff.rfl)
  | relockFail i c m st _ _ => exact .same rfl (fun _ => Iff.rfl)
  | trylock x m _ _ _ => exact .same rfl (fun _ => Iff.rfl)
  | unlock x m _ _ _ _ => exact .of_woken (woken_wake (s.setMutex m _) (.mutex m)) rfl rfl rfl rfl
  | destroy x m _ _ _ => exact .same rfl (fun _ => Iff.rfl)

theorem SemStep.result_cases (hok : s.Ok) (hstep : SemStep s l t) : ResultMove s l t := by
  cases hstep with
  | init x a n _ => exact .same rfl (fun _ => Iff.rfl)
  | take x a _ _ _ => exact .same rfl (fun _ => Iff.rfl)
  | block i a k hcpu _ _ _ =>
    exact .same rfl (empty_iff_of_set rfl (hok.onCpu_ne_empty (Or.inl hcpu)) nofun)
  | waited i a _ => exact .same rfl (fun _ => Iff.rfl)
  | wake x a n q _ _ _ => exact .of_woken (woken_wake (s.log _) (.sem a)) rfl rfl rfl rfl
  | give x a _ _ _ _ => exact .same rfl (fun _ => Iff.rfl)
  | destroy x a _ _ => exact .same rfl (fun _ => Iff.rfl)

theorem CondStep.result_cases (hok : s.Ok) (hstep : CondStep s l t) : ResultMove s l t := by
  cases hstep with
  | init x c _ => exact .same rfl (fun _ => Iff.rfl)
  | block i c m k hcpu _ _ _ _ _ =>
    -- the caller is suspended, and then the first waiter for the mutex is woken
    have hw := woken_wake ((s.setMutex m { s.mutex m with locked := 0, owner := 0 }).wait i
      (.cond c) (.condWait c m)) (.mutex m)
    have hres : results _ = results _ := congrArg results hw.hist
    refine .same hres fun j => ((Kept.of_woken hw).empty j).trans ?_
    refine empty_iff_of_set (i := i) rfl (hok.onCpu_ne_empty (Or.inl hcpu)) ?_ j
    exact (nofun : ThreadState.blocked ≠ .empty)
  | fail i c m st hcpu _ =>
    exact .same rfl (empty_iff_of_set rfl (hok.onCpu_ne_empty (Or.inl hcpu)) nofun)
  | signal x c _ => exact .of_woken (woken_wake s (.cond c)) rfl rfl rfl rfl
  | broadcast x c _ =>
    exact .of_woken (woken_wakes (.cond c) (s.queue (.cond c)).length s) rfl rfl rfl rfl
  | destroy x c _ _ => exact .same rfl (fun _ => Iff.rfl)

/-- **Inversion for results.** -/
theorem Step.result_cases (hok : s.Ok) (hstep : Step s l t) : ResultMove s l t := by
  cases hstep with
  | thread hstep => exact hstep.result_cases hok
  | sched hstep => exact hstep.result_cases
  | mutex hstep => exact hstep.result_cases hok
  | sem hstep => exact hstep.result_cases hok
  | cond hstep => exact hstep.result_cases hok

end
end Kernel

/-! ## One step of the machine -/

/-- A slot holds the thread `tid`. -/
def Core.HasThread (s : Core) (tid : Tid) : Prop :=
  ∃ i, (s.threads i).state ≠ .empty ∧ (s.threads i).tid = tid

namespace Core
variable {s : Core} {tid : Tid}

/-- Main joins a thread that there is not. -/
theorem threadJoin_unknown (hk : s.Knows .main) (h0 : tid ≠ 0) (hno : ¬ s.HasThread tid)
    (out : Bool) :
    s.threadJoin .main tid out = s.ret .main (.join tid out) ⟨.enotfound, []⟩ := by
  have hself : tid ≠ s.currentTid := by
    rw [show s.currentTid = 0 from hk.self]
    exact h0
  have hfind : findThread s.threads tid = none := by
    cases hf : findThread s.threads tid with
    | none => rfl
    | some i => exact absurd ⟨i, findThread_some hf⟩ hno
  unfold threadJoin
  rw [if_neg (by rw [hk.init]; decide), if_neg h0, if_neg hself, hfind]

/-- Main joins a thread that has ended. -/
theorem threadJoin_ended (hk : s.Knows .main) {i : Slot}
    (hterm : threadIsTerminal (s.threads i).state = true) (out : Bool) :
    s.threadJoin .main (s.threads i).tid out = (s.setThread i {}).ret .main
      (.join (s.threads i).tid out) ⟨.ok, if out then [(s.threads i).retval] else []⟩ := by
  have hne : (s.threads i).state ≠ .empty := by
    intro he
    rw [he] at hterm
    nomatch hterm
  have h0 : (s.threads i).tid ≠ 0 := Nat.one_le_iff_ne_zero.mp (hk.tids.range i hne).1
  have hself : (s.threads i).tid ≠ s.currentTid := by
    rw [show s.currentTid = 0 from hk.self]
    exact h0
  unfold threadJoin
  rw [if_neg (by rw [hk.init]; decide), if_neg h0, if_neg hself, hk.tids.find hne]
  dsimp only
  rw [if_pos hterm, joinFinish_terminal hterm]

/-- A creation that succeeds has taken the next tid. -/
theorem exec_create {x : Ctx} {c : Call} {p : Tid} (hc : c.isCreate = true)
    (hh : (s.exec x c).hist = .ret p c ⟨.ok, [tid]⟩ :: s.hist) :
    tid = s.nextTid ∧ (s.exec x c).issued = s.issued + 1 := by
  cases c with
  | create outTid attr fn arg env =>
    have hexec : s.exec x (.create outTid attr fn arg env)
        = (s.threadCreate outTid attr fn arg env).2.ret x (.create outTid attr fn arg env)
          (s.threadCreate outTid attr fn arg env).1 := rfl
    rw [hexec] at hh ⊢
    rcases threadCreate_cases outTid attr fn arg env with ⟨st, hst, heq⟩ |
        ⟨i, -, ⟨st, hst, heq⟩ | ⟨r, es, -, -, -, -, heq⟩⟩ <;> rw [heq] at hh ⊢ <;>
      injection (List.cons.inj hh).1 with _ _ hr <;> injection hr with hst' hvs
    -- an error is not the return that the history has
    · exact absurd hst' hst
    · exact absurd hst' hst
    · exact ⟨(List.cons.inj hvs).1.symm, rfl⟩
  | _ => nomatch hc

end Core

/-- What a step does, as seen by the threads, by their joins and by the CPU. -/
structure State.Moves (s : State) (l : Label) (t : State) : Prop where
  thread : ∀ j, Kernel.ThreadMove s.core.kernel (Kernel.callOf l) t.core.kernel j
  result : Kernel.ResultMove s.core.kernel (Kernel.callOf l) t.core.kernel
  onCpu : ∀ j, t.core.kernel.OnCpu j →
    s.core.kernel.OnCpu j ∨ ∃ f, t.core.kernel.Entering j f
  tids : TidsOk s.core.nextTid s.core.issued s.core.threads
  issued : s.core.issued ≤ t.core.issued
  create : ∀ x c p tid, Kernel.callOf l = some (x, c) → c.isCreate = true →
    t.core.hist = .ret p c ⟨.ok, [tid]⟩ :: s.core.hist →
    tid = s.core.issued + 1 ∧ t.core.issued = s.core.issued + 1

namespace State
variable {W : World} {s t : State} {l : Label}

theorem step_moves (hwf : s.core.WF) (hq : s.core.QueuesWf) (hl : l.joinsFromMain = true)
    (hlt : s.core.issued + (if l.isCreate then 1 else 0) < 2 ^ 64)
    (hstep : State.step W s l = some t) : s.Moves l t := by
  have hok := hwf.kernel_ok
  have hcreate : ∀ x c p tid, Kernel.callOf l = some (x, c) → c.isCreate = true →
      t.core.hist = .ret p c ⟨.ok, [tid]⟩ :: s.core.hist →
      tid = s.core.issued + 1 ∧ t.core.issued = s.core.issued + 1 := by
    intro x c p tid hcall hc hh
    obtain rfl := Kernel.callOf_some hcall
    have heq := (step_call_inv hstep).2
    rw [heq] at hh ⊢
    obtain ⟨htid, hissued⟩ := Core.exec_create hc hh
    refine ⟨htid.trans (hwf.body.tids.next.trans (Nat.mod_eq_of_lt ?_)), hissued⟩
    have hone : (if (Label.call x c).isCreate then 1 else 0) = 1 := if_pos hc
    rwa [hone] at hlt
  rcases Kernel.step_user_or hwf hq hl hstep with ⟨heq, x, hcpu⟩ | hK
  · have hkernel : t.core.kernel = s.core.kernel := congrArg Core.kernel heq
    refine ⟨fun j => .same (by rw [hkernel]) fun f he => ?_, .same (by rw [hkernel]) fun j => ?_,
      fun j hj => Or.inl (by rwa [hkernel] at hj), hwf.body.tids, step_issued hstep, hcreate⟩
    · rw [hkernel] at he
      cases he.symm.trans hcpu
    · rw [hkernel]
  · refine ⟨hK.thread_cases, hK.result_cases hok, fun j hj => ?_, hwf.body.tids, step_issued hstep,
      hcreate⟩
    rcases hj with hj | he
    · -- whoever is in user code after a step was on the CPU before it
      cases hK.switch_cases hok with
      | stay _ hon _ => exact Or.inl (hon j (Or.inl hj))
      | create _ _ hon _ _ _ _ => exact Or.inl (hon j (Or.inl hj))
      | free _ _ hon _ _ => exact Or.inl (hon j (Or.inl hj))
      | dispatch _ _ _ _ hcpu _ _ _ => nomatch hcpu.symm.trans hj
      | leave _ _ _ _ _ _ hcpu _ _ _ => nomatch hcpu.symm.trans hj
      | exit _ _ _ _ _ _ _ hcpu _ _ => nomatch hcpu.symm.trans hj
    · exact Or.inr he

/-- A thread that was not there has a new tid. -/
theorem Moves.fresh (h : s.Moves l t) {j : Slot} (hs : (s.core.threads j).state = .empty)
    (ht : (t.core.threads j).state ≠ .empty) : (t.core.threads j).tid = s.core.issued + 1 := by
  obtain ⟨x, c, p, r, hl, hc, hthreads, hh⟩ := h.result.filled hs ht
  have hj : t.core.threads j = r := (congrFun hthreads j).trans (Function.update_self _ _ _)
  rw [hj]
  exact (h.create x c p r.tid hl hc hh).1

/-- A thread with a tid that had been taken was there before. -/
theorem Moves.origin (h : s.Moves l t) {j : Slot} (ht : (t.core.threads j).state ≠ .empty)
    (hle : (t.core.threads j).tid ≤ s.core.issued) :
    (s.core.threads j).state ≠ .empty ∧ (t.core.threads j).tid = (s.core.threads j).tid := by
  by_cases hs : (s.core.threads j).state = .empty
  · rw [h.fresh hs ht] at hle
    exact absurd hle (Nat.not_succ_le_self _)
  · rcases (h.thread j).keeps hs with ⟨-, he⟩ | ⟨-, htid⟩
    · exact absurd he ht
    · exact ⟨hs, htid⟩

end State

/-! ## A slot from the creation to the join -/

/-- **Threads and their slots**: a thread that was created and not joined has a slot; one that was
    joined has none, and never will.  No tid is joined twice. -/
structure Ledger (s : Core) : Prop where
  kept : ∀ tid, Created tid s.hist → ¬ Joined tid s.hist → s.HasThread tid
  gone : ∀ tid, Joined tid s.hist → tid ≠ 0 ∧ tid ≤ s.issued ∧ ¬ s.HasThread tid
  once : Once s.hist

namespace Ledger
variable {W : World} {s t : State} {l : Label}

/-- No thread gets the tid of a joined one. -/
theorem still_gone (h : Ledger s.core) (hm : s.Moves l t) {tid : Tid}
    (hj : Joined tid s.core.hist) : tid ≠ 0 ∧ tid ≤ t.core.issued ∧ ¬ t.core.HasThread tid := by
  obtain ⟨h0, hle, hno⟩ := h.gone tid hj
  refine ⟨h0, hle.trans hm.issued, ?_⟩
  rintro ⟨j, hne, htid⟩
  obtain ⟨hs, hsame⟩ := hm.origin hne (htid ▸ hle)
  exact hno ⟨j, hs, hsame.symm.trans htid⟩

/-- A join that fails after a successful one does not find the thread. -/
theorem refused (h : Ledger s.core) (hwf : s.core.WF) (hl : l.joinsFromMain = true)
    (hstep : State.step W s l = some t) {x : Ctx} {p tid : Tid} {out : Bool} {st : Status}
    (hjoin : Kernel.callOf l = some (x, .join tid out) ∨
      ∃ i, s.core.cpu = .sched .main (.join tid out i))
    (hh : t.core.hist = .ret p (.join tid out) ⟨st, []⟩ :: s.core.hist)
    (hj : Joined tid s.core.hist) : st = .enotfound := by
  obtain ⟨h0, -, hno⟩ := h.gone tid hj
  rcases hjoin with hcall | ⟨i, hcpu⟩
  · obtain rfl := Kernel.callOf_some hcall
    obtain ⟨hcpu, heq⟩ := State.step_call_inv hstep
    cases x with
    | green i => nomatch hl
    | main =>
      have hfresh : s.fresh.WF := ⟨hwf.body, hwf.cpu⟩
      have hunknown : t.core = s.fresh.ret .main (.join tid out) ⟨.enotfound, []⟩ :=
        heq.trans (Core.threadJoin_unknown (hfresh.live hcpu).knows h0 hno out)
      rw [hunknown] at hh
      have hret := (List.cons.inj hh).1
      injection hret with _ _ hr
      injection hr with hr _
      exact hr.symm
  · obtain ⟨-, -, hcaller⟩ := hwf.sched hcpu
    exact absurd ⟨i, hcaller⟩ hno

/-- **One step.** -/
theorem step (h : Ledger s.core) (hwf : s.core.WF) (hm : s.Moves l t)
    (hl : l.joinsFromMain = true) (hstep : State.step W s l = some t) : Ledger t.core := by
  cases hm.result with
  | same hres hempty =>
    refine ⟨fun tid hc hj => ?_, fun tid hj => ?_, (once_congr hres).mpr h.once⟩
    · obtain ⟨j, hne, htid⟩ := h.kept tid ((created_congr hres).mp hc)
        fun hj' => hj ((joined_congr hres).mpr hj')
      have hne' : (t.core.threads j).state ≠ .empty := fun he => hne ((hempty j).mp he)
      rcases (hm.thread j).keeps hne with ⟨-, he⟩ | ⟨-, hsame⟩
      · exact absurd he hne'
      · exact ⟨j, hne', hsame.trans htid⟩
    · exact h.still_gone hm ((joined_congr hres).mp hj)
  | created x c p i r hcall hc hi hready hthreads hh =>
    have hnot : ∀ tid, Joined tid t.core.hist ↔ Joined tid s.core.hist := by
      intro tid
      rw [show t.core.hist = _ from hh, joined_cons]
      refine or_iff_right ?_
      rintro ⟨p', out, vs, he⟩
      cases he
      nomatch hc
    have hslot : ∀ j, t.core.threads j = Function.update s.core.threads i r j := congrFun hthreads
    refine ⟨fun tid hcr hj => ?_, fun tid hj => h.still_gone hm ((hnot tid).mp hj), ?_⟩
    · rw [show t.core.hist = _ from hh, created_cons] at hcr
      rcases hcr with ⟨p', outTid, attr, fn, arg, env, he⟩ | hcr
      · cases he
        refine ⟨i, ?_, ?_⟩ <;> rw [hslot, Function.update_self]
        rw [hready]
        decide
      · obtain ⟨j, hne, htid⟩ := h.kept tid hcr fun hj' => hj ((hnot tid).mpr hj')
        have hji : j ≠ i := fun he => hne (he ▸ hi)
        refine ⟨j, ?_, ?_⟩ <;> rw [hslot, Function.update_of_ne hji]
        · exact hne
        · exact htid
    · rw [show t.core.hist = _ from hh]
      refine ⟨?_, h.once⟩
      rintro p' tid out vs he -
      cases he
      nomatch hc
  | refused x p tid out st hst hjoin hthreads hh =>
    have hnot : ∀ tid', Joined tid' t.core.hist ↔ Joined tid' s.core.hist := by
      intro tid'
      rw [show t.core.hist = _ from hh, joined_cons]
      refine or_iff_right ?_
      rintro ⟨p', out', vs, he⟩
      cases he
      exact hst rfl
    refine ⟨fun tid' hc hj => ?_, fun tid' hj => h.still_gone hm ((hnot tid').mp hj), ?_⟩
    · rw [show t.core.hist = _ from hh, created_cons] at hc
      rcases hc with ⟨_, _, _, _, _, _, he⟩ | hc
      · nomatch he
      · obtain ⟨j, hne, htid⟩ := h.kept tid' hc fun hj' => hj ((hnot tid').mpr hj')
        have hslot : t.core.threads j = s.core.threads j := congrFun hthreads j
        exact ⟨j, by rwa [hslot], by rwa [hslot]⟩
    · rw [show t.core.hist = _ from hh]
      refine ⟨?_, h.once⟩
      rintro p' tid' out' vs he hj
      cases he
      rw [h.refused hwf hl hstep hjoin hh hj]
  | joined p tid out i hfind hterm hthreads hres =>
    obtain ⟨hne, htid⟩ := findThread_some hfind
    have hslot : ∀ j, t.core.threads j = Function.update s.core.threads i {} j := congrFun hthreads
    have hres' : results t.core.hist = .ret p (.join tid out)
        ⟨.ok, if out then [(s.core.threads i).retval] else []⟩ :: results s.core.hist := hres
    have hjoined : ∀ tid', Joined tid' t.core.hist ↔ tid' = tid ∨ Joined tid' s.core.hist := by
      intro tid'
      rw [← joined_congr (results_results t.core.hist), hres', joined_cons,
        joined_congr (results_results s.core.hist)]
      refine or_congr_left ⟨?_, ?_⟩
      · rintro ⟨p', out', vs, he⟩
        cases he
        rfl
      · rintro rfl
        exact ⟨p, out, _, rfl⟩
    refine ⟨fun tid' hc hj => ?_, fun tid' hj => ?_, ?_⟩
    · rw [← created_congr (results_results t.core.hist), hres', created_cons,
        created_congr (results_results s.core.hist)] at hc
      rcases hc with ⟨_, _, _, _, _, _, he⟩ | hc
      · nomatch he
      · obtain ⟨j, hne', htid'⟩ := h.kept tid' hc fun hj' => hj ((hjoined tid').mpr (Or.inr hj'))
        have hji : j ≠ i := by
          rintro rfl
          exact hj ((hjoined tid').mpr (Or.inl (htid'.symm.trans htid)))
        refine ⟨j, ?_, ?_⟩ <;> rw [hslot, Function.update_of_ne hji]
        · exact hne'
        · exact htid'
    · rcases (hjoined tid').mp hj with rfl | hj'
      · obtain ⟨hlo, hhi⟩ := hm.tids.range i hne
        rw [show (s.core.threads i).tid = tid' from htid] at hlo hhi
        refine ⟨Nat.one_le_iff_ne_zero.mp hlo, hhi.trans hm.issued, ?_⟩
        rintro ⟨j, hne', htid'⟩
        rw [hslot] at hne' htid'
        by_cases hji : j = i
        · rw [hji, Function.update_self] at hne'
          exact hne' rfl
        · rw [Function.update_of_ne hji] at hne' htid'
          exact hji (hm.tids.inj j i hne' hne (htid'.trans htid.symm))
      · exact h.still_gone hm hj'
    · refine once_results.mp ?_
      rw [hres']
      refine ⟨?_, once_results.mpr h.once⟩
      rintro p' tid' out' vs he hj
      cases he
      exact absurd ⟨i, hne, htid⟩ (h.gone tid ((joined_congr (results_results _)).mp hj)).2.2

end Ledger

/-! ## How threads end -/

/-- The entry function of the thread `tid` has returned `v` in the run `ls`. -/
def Returned (W : World) (start : State) (ls : List Label) (tid : Tid) (v : Nat) : Prop :=
  ∃ ls₁ ls₂ u i, ls = ls₁ ++ .call (.green i) (.exit v) :: ls₂ ∧
    Exec.exec (State.step W) start ls₁ = some u ∧ (u.core.threads i).tid = tid

/-- The slot of the thread `tid` has been released in the run `ls`; its state was `st` and its
    result `v`. -/
def Collected (W : World) (start : State) (ls : List Label) (tid : Tid) (st : ThreadState)
    (v : Nat) : Prop :=
  ∃ ls₁ l ls₂ u w i, ls = ls₁ ++ l :: ls₂ ∧ Exec.exec (State.step W) start ls₁ = some u ∧
    State.step W u l = some w ∧ (u.core.threads i).tid = tid ∧ (u.core.threads i).state = st ∧
    (u.core.threads i).retval = v ∧ (w.core.threads i).state = .empty

section
variable {W : World} {start s t : State} {ls : List Label} {l : Label} {tid : Tid} {v : Nat}

theorem Returned.snoc (h : Returned W start ls tid v) (l : Label) :
    Returned W start (ls ++ [l]) tid v := by
  obtain ⟨ls₁, ls₂, u, i, rfl, hu, htid⟩ := h
  exact ⟨ls₁, ls₂ ++ [l], u, i, List.append_assoc _ _ _, hu, htid⟩

theorem Collected.snoc {st : ThreadState} (h : Collected W start ls tid st v) (l : Label) :
    Collected W start (ls ++ [l]) tid st v := by
  obtain ⟨ls₁, l', ls₂, u, w, i, rfl, hu⟩ := h
  exact ⟨ls₁, l', ls₂ ++ [l], u, w, i, List.append_assoc _ _ _, hu⟩

/-- The return was made before the last step, or is the last step. -/
theorem returned_snoc (hrun : Exec.exec (State.step W) start ls = some s) :
    Returned W start (ls ++ [l]) tid v ↔ Returned W start ls tid v ∨
      ∃ i, l = .call (.green i) (.exit v) ∧ (s.core.threads i).tid = tid := by
  constructor
  · rintro ⟨ls₁, ls₂, u, i, hls, hu, htid⟩
    rcases List.eq_nil_or_concat ls₂ with rfl | ⟨ls₂, l', rfl⟩
    · obtain ⟨rfl, hl⟩ := List.append_inj' hls rfl
      obtain rfl : s = u := Option.some.inj (hrun.symm.trans hu)
      exact Or.inr ⟨i, (List.cons.inj hl).1, htid⟩
    · rw [List.concat_eq_append, ← List.cons_append, ← List.append_assoc] at hls
      obtain ⟨rfl, -⟩ := List.append_inj' hls rfl
      exact Or.inl ⟨ls₁, ls₂, u, i, rfl, hu, htid⟩
  · rintro (h | ⟨i, rfl, htid⟩)
    · exact h.snoc l
    · exact ⟨ls, [], s, i, rfl, hrun, htid⟩

end

theorem terminal_cases {st : ThreadState} (h : threadIsTerminal st = true) :
    st = .done ∨ st = .canceled := by
  cases st with
  | done => exact Or.inl rfl
  | canceled => exact Or.inr rfl
  | _ => nomatch h

/-- The record of a thread that has ended holds its result. -/
def Accounted (W : World) (start : State) (ls : List Label) (r : ThreadRecord) : Prop :=
  (r.state = .done → Returned W start ls r.tid r.retval) ∧ (r.state = .canceled → r.retval = 0)

theorem accounted_of_live {W : World} {start : State} {ls : List Label} {r : ThreadRecord}
    (hr : threadIsTerminal r.state = false) : Accounted W start ls r := by
  constructor <;> intro h <;> rw [h] at hr <;> nomatch hr

/-- The thread of slot `i` has ended for good; if it is `DONE`, with the result `v`. -/
def Core.Ended (s : Core) (i : Slot) (v : Nat) : Prop :=
  threadIsTerminal (s.threads i).state = true ∧ ((s.threads i).state = .done →
    (s.threads i).retval = v) ∧ ¬ s.kernel.OnCpu i

/-- A join of `tid` has delivered how its thread ended. -/
def Delivered (W : World) (start : State) (ls : List Label) (tid : Tid) (out : Bool)
    (r : List Nat) : Prop :=
  ∃ st v, Collected W start ls tid st v ∧ r = (if out then [v] else []) ∧
    (st = .done ∧ Returned W start ls tid v ∨ st = .canceled ∧ v = 0)

theorem Delivered.snoc {W : World} {start : State} {ls : List Label} {tid : Tid} {out : Bool}
    {r : List Nat} (h : Delivered W start ls tid out r) (l : Label) :
    Delivered W start (ls ++ [l]) tid out r := by
  obtain ⟨st, v, hcol, hr, hend⟩ := h
  exact ⟨st, v, hcol.snoc l, hr, hend.imp_left fun hd => ⟨hd.1, hd.2.snoc l⟩⟩

/-- **The results of a run**: where they are, and what has been delivered. -/
structure Results (W : World) (start : State) (ls : List Label) (s : State) : Prop where
  accounted : ∀ i, Accounted W start ls (s.core.threads i)
  ended : ∀ tid v, Returned W start ls tid v → tid ≤ s.core.issued ∧
    ∀ i, (s.core.threads i).state ≠ .empty → (s.core.threads i).tid = tid → s.core.Ended i v
  unique : ∀ tid v v', Returned W start ls tid v → Returned W start ls tid v' → v = v'
  delivered : ∀ p tid out r, Obs.ret p (.join tid out) ⟨.ok, r⟩ ∈ s.core.hist →
    Delivered W start ls tid out r

namespace Results
variable {W : World} {start s t : State} {ls : List Label} {l : Label}

/-- The record of a thread whose entry function returns. -/
theorem exited {j : Slot} {v : Nat} (hl : Kernel.callOf l = some (.green j, .exit v))
    (hstep : State.step W s l = some t) :
    ((t.core.threads j).state = .canceled ∧ (t.core.threads j).retval = 0 ∨
      (t.core.threads j).state = .done ∧ (t.core.threads j).retval = v) ∧
    ∀ x, t.core.cpu ≠ .user x := by
  obtain rfl := Kernel.callOf_some hl
  have heq : t.core = s.fresh.threadExit j v := (State.step_call_inv hstep).2
  rw [heq, Core.threadExit_thread]
  refine ⟨?_, nofun⟩
  by_cases hc : (s.fresh.threads j).state = .canceled
  · rw [if_pos hc]
    exact Or.inl ⟨hc, rfl⟩
  · rw [if_neg hc]
    exact Or.inr ⟨rfl, rfl⟩

theorem accounted_step (h : Results W start ls s)
    (hrun : Exec.exec (State.step W) start ls = some s) (hm : s.Moves l t)
    (hstep : State.step W s l = some t) (j : Slot) :
    Accounted W start (ls ++ [l]) (t.core.threads j) := by
  -- most moves leave a thread that has not ended
  have hlive : ∀ {r : ThreadRecord}, t.core.threads j = r → threadIsTerminal r.state = false →
      Accounted W start (ls ++ [l]) (t.core.threads j) :=
    fun ht hr => accounted_of_live (ht ▸ hr)
  cases hm.thread j with
  | same ht _ =>
    obtain ⟨hd, hc⟩ := h.accounted j
    rw [show t.core.threads j = s.core.threads j from ht]
    exact ⟨fun hst => (hd hst).snoc l, hc⟩
  | woken _ _ _ _ _ _ _ _ ht _ => exact hlive ht rfl
  | dispatched _ _ _ _ ht _ => exact hlive ht rfl
  | yielded _ _ ht _ => exact hlive ht rfl
  | blocked _ _ _ _ _ ht _ _ => exact hlive ht rfl
  | passed _ _ _ _ _ ht _ => exact hlive ht rfl
  | restored _ _ _ _ ht _ => exact hlive ht rfl
  | exited v hl _ _ htid _ =>
    rcases (exited hl hstep).1 with ⟨hst, hv⟩ | ⟨hst, hv⟩
    · exact ⟨fun hd => (nomatch hst.symm.trans hd), fun _ => hv⟩
    · refine ⟨fun _ => ?_, fun hc => (nomatch hst.symm.trans hc)⟩
      rw [hv]
      exact (returned_snoc hrun).mpr (Or.inr ⟨j, Kernel.callOf_some hl, htid.symm⟩)
  | canceled _ _ _ _ _ ht _ =>
    have ht' : t.core.threads j = { s.core.threads j with state := .canceled, retval := 0 } := ht
    rw [ht']
    exact ⟨nofun, fun _ => rfl⟩
  | released _ ht _ => exact hlive ht rfl
  | created _ ht _ =>
    rcases ht with ht | ⟨hst, -⟩
    · exact hlive ht rfl
    · exact hlive rfl (by rw [show (t.core.threads j).state = .ready from hst]; rfl)

/-- A thread that has ended for good stays as it is until its slot is released. -/
theorem ended_step {j : Slot} {v : Nat} (he : s.core.Ended j v) (hm : s.Moves l t)
    (hne : (t.core.threads j).state ≠ .empty) : t.core.Ended j v := by
  obtain ⟨hterm, hval, hoff⟩ := he
  -- the other moves are of a thread that has not ended, or has the CPU
  have hsame : t.core.threads j = s.core.threads j ∧ ∀ f, ¬ t.core.kernel.Entering j f := by
    cases hm.thread j with
    | same ht hn => exact ⟨ht, hn⟩
    | woken _ _ _ _ _ _ _ hst _ _ =>
      rw [show (s.core.threads j).state = .blocked from hst] at hterm
      nomatch hterm
    | dispatched _ _ hst _ _ _ =>
      rw [show (s.core.threads j).state = .ready from hst] at hterm
      nomatch hterm
    | yielded _ hon _ _ => exact absurd hon hoff
    | blocked _ _ _ _ hon _ _ _ => exact absurd hon hoff
    | passed _ _ _ hon _ _ _ => exact absurd hon hoff
    | restored _ _ _ hon _ _ => exact absurd hon hoff
    | exited _ _ hon _ _ _ => exact absurd hon hoff
    | canceled _ _ _ _ hst _ _ => nomatch hterm.symm.trans hst
    | released _ ht _ => exact absurd (congrArg ThreadRecord.state ht) hne
    | created hst _ _ =>
      rw [show (s.core.threads j).state = .empty from hst] at hterm
      nomatch hterm
  rw [Core.Ended, hsame.1]
  refine ⟨hterm, hval, fun hon => ?_⟩
  rcases hm.onCpu j hon with hs | ⟨f, hf⟩
  · exact hoff hs
  · exact hsame.2 f hf

/-- Who returns has the CPU, and leaves it for good. -/
theorem ended_exit (hwf : s.core.WF) (hm : s.Moves l t) (hstep : State.step W s l = some t)
    {j : Slot} {v : Nat} (hl : l = .call (.green j) (.exit v)) :
    s.core.kernel.OnCpu j ∧ (s.core.threads j).state ≠ .empty ∧ t.core.Ended j v := by
  subst hl
  have hcpu := (State.step_call_inv hstep).1
  have hon : s.core.kernel.OnCpu j := Or.inl hcpu
  obtain ⟨hst, huser⟩ := exited (j := j) (v := v) rfl hstep
  refine ⟨hon, hwf.kernel_ok.onCpu_ne_empty hon, ?_, fun hd => ?_, ?_⟩
  · rcases hst with ⟨hst, -⟩ | ⟨hst, -⟩ <;> rw [hst] <;> rfl
  · rcases hst with ⟨hst, -⟩ | ⟨-, hv⟩
    · nomatch hst.symm.trans hd
    · exact hv
  · rintro (hu | ⟨f, hf⟩)
    · exact huser _ hu
    · -- the stack that has left is not loaded
      cases hm.thread j with
      | dispatched _ hnone _ _ _ _ => nomatch hnone
      | same _ hn => exact hn f hf
      | woken _ _ _ _ _ _ _ _ _ hn => exact hn f hf
      | yielded _ _ _ hn => exact hn f hf
      | blocked _ _ _ _ _ _ hn _ => exact hn f hf
      | passed _ _ _ _ _ _ hn => exact hn f hf
      | restored _ _ _ _ _ hn => exact hn f hf
      | exited _ _ _ _ _ hn => exact hn f hf
      | canceled _ _ _ _ _ _ hn => exact hn f hf
      | released _ _ hn => exact hn f hf
      | created _ _ hn => exact hn f hf

/-- Nobody returns twice. -/
theorem not_returned (h : Results W start ls s) (hwf : s.core.WF) (hm : s.Moves l t)
    (hstep : State.step W s l = some t) {j : Slot} {v v' : Nat}
    (hl : l = .call (.green j) (.exit v)) : ¬ Returned W start ls (s.core.threads j).tid v' := by
  intro hold
  obtain ⟨hon, hne, -⟩ := ended_exit hwf hm hstep hl
  exact ((h.ended _ v' hold).2 j hne rfl).2.2 hon

theorem ended_snoc (h : Results W start ls s) (hrun : Exec.exec (State.step W) start ls = some s)
    (hwf : s.core.WF) (hm : s.Moves l t) (hstep : State.step W s l = some t) {tid : Tid} {v : Nat}
    (hr : Returned W start (ls ++ [l]) tid v) : tid ≤ t.core.issued ∧
      ∀ i, (t.core.threads i).state ≠ .empty → (t.core.threads i).tid = tid →
        t.core.Ended i v := by
  rcases (returned_snoc hrun).mp hr with hold | ⟨j, hl, rfl⟩
  · obtain ⟨hle, hall⟩ := h.ended tid v hold
    refine ⟨hle.trans hm.issued, fun i hne hi => ?_⟩
    obtain ⟨hs, hsame⟩ := hm.origin hne (hi ▸ hle)
    exact ended_step (hall i hs (hsame.symm.trans hi)) hm hne
  · obtain ⟨-, hne, hended⟩ := ended_exit hwf hm hstep hl
    have hle := (hm.tids.range j hne).2
    refine ⟨hle.trans hm.issued, fun i hne' hi => ?_⟩
    obtain ⟨hs, hsame⟩ := hm.origin hne' (hi ▸ hle)
    obtain rfl := hm.tids.inj i j hs hne (hsame.symm.trans hi)
    exact hended

/-- A successful join has been made before, or is made by this step. -/
theorem delivered_snoc (h : Results W start ls s)
    (hrun : Exec.exec (State.step W) start ls = some s) (hm : s.Moves l t)
    (hstep : State.step W s l = some t) {p tid : Tid} {out : Bool} {r : List Nat}
    (hmem : Obs.ret p (.join tid out) ⟨.ok, r⟩ ∈ t.core.hist) :
    Delivered W start (ls ++ [l]) tid out r := by
  have hold : Obs.ret p (.join tid out) ⟨.ok, r⟩ ∈ s.core.hist →
      Delivered W start (ls ++ [l]) tid out r := fun hmem' =>
    (h.delivered p tid out r hmem').snoc l
  cases hm.result with
  | same hres _ =>
    refine hold ?_
    rwa [← mem_results (h := t.core.hist) rfl, show results t.core.hist = _ from hres,
      mem_results rfl] at hmem
  | created _ c _ _ _ _ hc _ _ _ hh =>
    rw [show t.core.hist = _ from hh] at hmem
    rcases List.mem_cons.mp hmem with he | hmem
    · cases he
      nomatch hc
    · exact hold hmem
  | refused _ _ _ _ st hst _ _ hh =>
    rw [show t.core.hist = _ from hh] at hmem
    rcases List.mem_cons.mp hmem with he | hmem
    · cases he
      exact absurd rfl hst
    · exact hold hmem
  | joined _ tid' out' i hfind hterm hthreads hres =>
    rw [← mem_results (h := t.core.hist) rfl, show results t.core.hist = _ from hres] at hmem
    rcases List.mem_cons.mp hmem with he | hmem
    · cases he
      obtain ⟨-, htid⟩ := findThread_some hfind
      have hfree : (t.core.threads i).state = .empty := by
        rw [show t.core.threads = _ from hthreads, Function.update_self]
      have hcol : Collected W start (ls ++ [l]) tid (s.core.threads i).state
          (s.core.threads i).retval :=
        ⟨ls, l, [], s, t, i, rfl, hrun, hstep, htid, rfl, rfl, hfree⟩
      obtain ⟨hd, hc⟩ := h.accounted i
      refine ⟨_, _, hcol, rfl, ?_⟩
      rcases terminal_cases hterm with hst | hst
      · exact Or.inl ⟨hst, htid ▸ (hd hst).snoc l⟩
      · exact Or.inr ⟨hst, hc hst⟩
    · exact hold ((mem_results rfl).mp hmem)

/-- **One step.** -/
theorem step (h : Results W start ls s) (hrun : Exec.exec (State.step W) start ls = some s)
    (hwf : s.core.WF) (hm : s.Moves l t) (hstep : State.step W s l = some t) :
    Results W start (ls ++ [l]) t := by
  refine ⟨h.accounted_step hrun hm hstep, fun tid v hr => h.ended_snoc hrun hwf hm hstep hr,
    fun tid v v' hr hr' => ?_, fun p tid out r hmem => h.delivered_snoc hrun hm hstep hmem⟩
  rcases (returned_snoc hrun).mp hr with hold | ⟨j, hl, rfl⟩ <;>
    rcases (returned_snoc hrun).mp hr' with hold' | ⟨j', hl', htid⟩
  · exact h.unique tid v v' hold hold'
  · exact absurd (htid ▸ hold) (h.not_returned hwf hm hstep hl')
  · exact absurd hold' (h.not_returned hwf hm hstep hl)
  · cases hl.symm.trans hl'
    rfl

end Results

/-! ## Whole runs -/

section
variable {W : World} {config : ValidConfig} {pageSize : BitVec 64}
  {files : Path → Option (List UInt8)}

theorem start_results :
    Ledger (State.start config pageSize files).core ∧
      Results W (State.start config pageSize files) [] (State.start config pageSize files) := by
  have hcore := State.start_core config pageSize files
  have hnone : ∀ tid v, ¬ Returned W (State.start config pageSize files) [] tid v := by
    rintro tid v ⟨ls₁, ls₂, u, i, hls, -⟩
    exact List.append_ne_nil_of_right_ne_nil ls₁ (List.cons_ne_nil _ _) hls.symm
  have hhist : (State.start config pageSize files).core.hist = [] := by rw [hcore]
  have hthreads : (State.start config pageSize files).core.threads = fun _ => {} := by rw [hcore]
  refine ⟨⟨?_, ?_, by rw [hhist]; trivial⟩, ⟨fun i => ?_, fun tid v hr => absurd hr (hnone tid v),
    fun tid v _ hr => absurd hr (hnone tid v), ?_⟩⟩
  · rw [hhist]
    rintro tid ⟨_, _, _, _, _, _, hmem⟩
    exact absurd hmem List.not_mem_nil
  · rw [hhist]
    rintro tid ⟨_, _, _, hmem⟩
    exact absurd hmem List.not_mem_nil
  · rw [hthreads]
    exact accounted_of_live rfl
  · rw [hhist]
    exact fun _ _ _ _ hmem => absurd hmem List.not_mem_nil

theorem results_run : ∀ ls s,
    Exec.exec (State.step W) (State.start config pageSize files) ls = some s →
    JoinsFromMain ls → creates ls < 2 ^ 64 →
    s.core.QueuesWf ∧ Ledger s.core ∧ Results W (State.start config pageSize files) ls s := by
  refine Exec.exec_induct (fun _ _ => ?_) fun ls l t u hrun ih hstep hjoin hcreates => ?_
  · exact ⟨(Kernel.start_kernel config pageSize files).2, start_results⟩
  · have hjoin' : JoinsFromMain ls := fun m hm => hjoin m (List.mem_append_left _ hm)
    have hl : l.joinsFromMain = true := hjoin l (List.mem_append_right _ List.mem_cons_self)
    rw [creates_snoc] at hcreates
    have hcreates' : creates ls < 2 ^ 64 := by omega
    obtain ⟨hwf, hissued⟩ := State.reach_wf hrun hjoin' hcreates'
    have hlt : t.core.issued + (if l.isCreate then 1 else 0) < 2 ^ 64 := by omega
    obtain ⟨hq, hledger, hresults⟩ := ih hjoin' hcreates'
    have hm := State.step_moves hwf hq hl hlt hstep
    have htame : State.Tame W t l := ⟨hwf, hl, fun v hv => (State.step_wf hwf hl hlt hv).1⟩
    exact ⟨Kernel.queuesWf_step t l u hq htame hstep, hledger.step hwf hm hl hstep,
      hresults.step hrun hwf hm hstep⟩

end

/-- Main collects the result of a thread that has ended. -/
theorem State.join_collects {W : World} {s : State} (hwf : s.core.WF) {i : Slot}
    (hterm : threadIsTerminal (s.core.threads i).state = true) (hcpu : s.core.cpu = .user .main)
    (out : Bool) : ∃ t, State.step W s (.call .main (.join (s.core.threads i).tid out)) = some t ∧
      t.core.hist = .ret 0 (.join (s.core.threads i).tid out)
        ⟨.ok, if out then [(s.core.threads i).retval] else []⟩ :: s.core.hist := by
  have hfresh : s.fresh.WF := ⟨hwf.body, hwf.cpu⟩
  have hknows := (hfresh.live (x := .main) hcpu).knows
  refine ⟨_, State.step_call hcpu rfl, ?_⟩
  exact congrArg Core.hist (Core.threadJoin_ended hknows (i := i) hterm out)

theorem State.join_finds_nothing {W : World} {s : State} (hwf : s.core.WF) {tid : Tid}
    (h0 : tid ≠ 0) (hno : ¬ s.core.HasThread tid) (hcpu : s.core.cpu = .user .main) (out : Bool) :
    ∃ t, State.step W s (.call .main (.join tid out)) = some t ∧
      t.core.hist = .ret 0 (.join tid out) ⟨.enotfound, []⟩ :: s.core.hist := by
  have hfresh : s.fresh.WF := ⟨hwf.body, hwf.cpu⟩
  have hknows := (hfresh.live (x := .main) hcpu).knows
  refine ⟨_, State.step_call hcpu rfl, ?_⟩
  exact congrArg Core.hist (Core.threadJoin_unknown hknows h0 hno out)

/-- **Join delivers each thread's result once**, in every run with joins from main, whatever slots
    are used again.  For every tid that `gth_thread_create` has returned: at most one join of it has
    returned `GTH_OK`; that join has released the thread's slot, and delivered the one value that
    the thread's entry function has returned if the thread was `DONE`, and `NULL` if it was
    `CANCELED`; every join of it that returned later returned `GTH_ENOTFOUND`, and so does the next
    one; and as long as no join has returned `GTH_OK` the thread has a slot, so that once it has
    ended a join by main collects its result. -/
theorem join_delivers_once (W : World) (config : ValidConfig) (pageSize : BitVec 64)
    (files : Path → Option (List UInt8)) (ls : List Label) (s : State)
    (hrun : Exec.exec (State.step W) (State.start config pageSize files) ls = some s)
    (hjoin : JoinsFromMain ls) (hcreates : creates ls < 2 ^ 64) (tid : Tid)
    (hcreated : Created tid s.core.hist) :
    s.core.hist.countP (Obs.joinsOk tid) ≤ 1 ∧
    (∀ p out r, Obs.ret p (.join tid out) ⟨.ok, r⟩ ∈ s.core.hist → ∃ st v,
      Collected W (State.start config pageSize files) ls tid st v ∧
      r = (if out then [v] else []) ∧
      (st = .done ∧ (∀ v', Returned W (State.start config pageSize files) ls tid v' ↔ v' = v) ∨
        st = .canceled ∧ v = 0)) ∧
    (∀ h₁ h₂ p out r, s.core.hist = h₁ ++ .ret p (.join tid out) r :: h₂ → Joined tid h₂ →
      r = ⟨.enotfound, []⟩) ∧
    (Joined tid s.core.hist → s.core.cpu = .user .main → ∀ out, ∃ t,
      State.step W s (.call .main (.join tid out)) = some t ∧
        t.core.hist = .ret 0 (.join tid out) ⟨.enotfound, []⟩ :: s.core.hist) ∧
    (¬ Joined tid s.core.hist → ∃ i, (s.core.threads i).state ≠ .empty ∧
      (s.core.threads i).tid = tid ∧
      (threadIsTerminal (s.core.threads i).state = true → s.core.cpu = .user .main →
        ∀ out, ∃ t, State.step W s (.call .main (.join tid out)) = some t ∧
          t.core.hist = .ret 0 (.join tid out)
            ⟨.ok, if out then [(s.core.threads i).retval] else []⟩ :: s.core.hist)) := by
  obtain ⟨-, hledger, hresults⟩ := results_run ls s hrun hjoin hcreates
  have hwf := (State.reach_wf hrun hjoin hcreates).1
  refine ⟨hledger.once.countP_le, fun p out r hmem => ?_, fun h₁ h₂ p out r hh hj => ?_,
    fun hj hcpu out => ?_, fun hj => ?_⟩
  · obtain ⟨st, v, hcol, hr, hend⟩ := hresults.delivered p tid out r hmem
    refine ⟨st, v, hcol, hr, hend.imp_left fun ⟨hst, hret⟩ => ⟨hst, fun v' => ⟨fun hret' => ?_, ?_⟩⟩⟩
    · exact hresults.unique tid v' v hret' hret
    · rintro rfl
      exact hret
  · have honce := hledger.once
    rw [hh] at honce
    exact honce.later hj
  · obtain ⟨h0, -, hno⟩ := hledger.gone tid hj
    exact State.join_finds_nothing hwf h0 hno hcpu out
  · obtain ⟨i, hne, rfl⟩ := hledger.kept tid hcreated hj
    exact ⟨i, hne, rfl, fun hterm hcpu out => State.join_collects hwf hterm hcpu out⟩

/-- Main creates two threads and joins the first; it joins it again, cancels the second, joins it,
    and creates a third thread in the first one's slot. -/
def collectRun : List Label :=
  [Sample.main Sample.create, Sample.main Sample.create, Sample.main (.join 1 true), .tau, .tau,
    Sample.green 0 (.exit 5), .tau, Sample.main (.join 1 true), Sample.main (.cancel 2),
    Sample.main (.join 2 true), Sample.main Sample.create]

/-- The first thread's join delivers the 5 that it returned, a second join finds nothing; the second
    thread's join delivers `NULL`; and the third thread is still there. -/
theorem join_delivers_once_collect : ∃ s st v i,
    Exec.exec (State.step Sample.world) Sample.start collectRun = some s ∧
    (results s.core.hist).take 4
      = [.ret 0 Sample.create ⟨.ok, [3]⟩, .ret 0 (.join 2 true) ⟨.ok, [0]⟩,
        .ret 0 (.join 1 true) ⟨.enotfound, []⟩, .ret 0 (.join 1 true) ⟨.ok, [5]⟩] ∧
    s.core.hist.countP (Obs.joinsOk 1) ≤ 1 ∧
    Collected Sample.world Sample.start collectRun 1 st v ∧ [5] = [v] ∧
    (s.core.threads i).state ≠ .empty ∧ (s.core.threads i).tid = 3 := by
  obtain ⟨s, hs, hall⟩ := (Option.any_eq_true _ _).mp (show ((Exec.exec (State.step Sample.world)
    Sample.start collectRun).any fun s => decide ((results s.core.hist).take 4
      = [.ret 0 Sample.create ⟨.ok, [3]⟩, .ret 0 (.join 2 true) ⟨.ok, [0]⟩,
        .ret 0 (.join 1 true) ⟨.enotfound, []⟩, .ret 0 (.join 1 true) ⟨.ok, [5]⟩])
      && decide (.ret 0 Sample.create ⟨.ok, [1]⟩ ∈ s.core.hist)
      && decide (s.core.hist.countP (Obs.joinsOk 3) = 0)) = true by decide +kernel)
  obtain ⟨hall, hnone⟩ := Bool.and_eq_true_iff.mp hall
  obtain ⟨htake, hone⟩ := Bool.and_eq_true_iff.mp hall
  have htake := of_decide_eq_true htake
  have hmem : ∀ o ∈ (results s.core.hist).take 4, o ∈ s.core.hist :=
    fun o ho => List.mem_of_mem_filter (List.mem_of_mem_take ho)
  rw [htake] at hmem
  have hjoin : JoinsFromMain collectRun := by
    unfold JoinsFromMain
    decide
  obtain ⟨hcount, hdelivers, -⟩ := join_delivers_once Sample.world Sample.config 4096#64
    (fun _ => none) collectRun s hs hjoin (by decide) 1
    ⟨0, true, none, 1, 0, ⟨some 65536#64, true⟩, of_decide_eq_true hone⟩
  obtain ⟨st, v, hcol, hv, -⟩ := hdelivers 0 true [5] (hmem _ (by decide))
  obtain ⟨-, -, -, -, hkept⟩ := join_delivers_once Sample.world Sample.config 4096#64
    (fun _ => none) collectRun s hs hjoin (by decide) 3
    ⟨0, true, none, 1, 0, ⟨some 65536#64, true⟩, hmem _ List.mem_cons_self⟩
  obtain ⟨i, hne, htid, -⟩ := hkept (by
    rintro ⟨p, out, r, hj⟩
    have hzero := List.countP_eq_zero.mp (of_decide_eq_true hnone) _ hj
    exact hzero rfl)
  exact ⟨s, st, v, i, hs, htake, hcount, hcol, hv, hne, htid⟩

end Gth

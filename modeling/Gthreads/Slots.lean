/-
  Slots of the thread table.

  A slot is filled by `gth_thread_create` and emptied by the `gth_thread_join` that returns
  `GTH_OK`, and in between nothing changes what it was created with.  So the history alone tells how
  many slots are in use, and with that whether another thread can be created (`slots_conserved`);
  and every record has the parameters of the one call that returned its tid
  (`threads_keep_parameters`).
-/
import Gthreads.Accounts
import Gthreads.JoinOnce
import Gthreads.StackSizing

namespace Gth

/-- What a record keeps from its creation on. -/
def ThreadRecord.identity (r : ThreadRecord) : Tid × Nat × Nat × Nat × StackAllocation × Nat :=
  (r.tid, r.fn, r.arg, r.priority, r.stack, r.slotIndex)

/-! ## What a step does to a slot -/

namespace Core

theorem threadExit_identity (s : Core) (i : Slot) (result : Nat) (j : Slot) :
    ((s.threadExit i result).threads j).identity = (s.threads j).identity := by
  have hset : ∀ r : ThreadRecord, r.identity = (s.threads i).identity →
      (Function.update s.threads i r j).identity = (s.threads j).identity := by
    intro r hr
    by_cases hj : j = i
    · rw [hj, Function.update_self]
      exact hr
    · rw [Function.update_of_ne hj]
  unfold threadExit
  dsimp only
  split
  · exact hset _ rfl
  · exact hset _ rfl

/-- The record of a thread that has just been created in slot `j`. -/
def created (s : Core) (attr : Option Nat) (fn arg : Nat) (memory : BitVec 64) (j : Slot) :
    ThreadRecord :=
  { tid := s.nextTid, fn := fn, arg := arg, priority := attr.getD 0, state := .ready,
    ctx := some ⟨.green j, .entry⟩, stack := stackAt s.pageSize s.config.stackSizeBytes memory,
    slotIndex := j }

/-- A slot that was free and is in use after `gth_thread_create`. -/
theorem threadCreate_filled (s : Core) (outTid : Bool) (attr : Option Nat) (fn arg : Nat)
    (env : MapEnv) {j : Slot} (hs : (s.threads j).state = .empty)
    (ht : ((s.threadCreate outTid attr fn arg env).2.threads j).state ≠ .empty) :
    ∃ memory, env.mmap = some memory ∧
      (stackAllocate s.pageSize env s.config.stackSizeBytes).1 = .ok ∧
      (s.threadCreate outTid attr fn arg env).2.threads j = s.created attr fn arg memory j := by
  unfold threadCreate at ht ⊢
  by_cases hinit : s.initialized = false
  · rw [if_pos hinit] at ht
    exact absurd hs ht
  rw [if_neg hinit] at ht ⊢
  by_cases hargs : outTid = false ∨ fn = 0
  · rw [if_pos hargs] at ht
    exact absurd hs ht
  rw [if_neg hargs] at ht ⊢
  cases halloc : allocThreadSlot s.threads with
  | none =>
    rw [halloc] at ht
    exact absurd hs ht
  | some i =>
    rw [halloc] at ht
    dsimp only at ht ⊢
    rcases stackAllocate_cases s.pageSize s.config.stackSizeBytes env with
      ⟨st, hst, hstack, -⟩ | ⟨memory, hmap, -, hstack, -⟩ <;> rw [hstack] at ht ⊢
    · -- the slot is cleared again
      have hcleared : (Function.update s.threads i {} j).state = .empty := by
        by_cases hj : j = i
        · rw [hj, Function.update_self]
        · rw [Function.update_of_ne hj]
          exact hs
      cases st with
      | ok => exact absurd rfl hst
      | _ => exact absurd hcleared ht
    · refine ⟨memory, hmap, rfl, ?_⟩
      by_cases hj : j = i
      · subst hj
        show Function.update s.threads j _ j = _
        rw [Function.update_self]
        rfl
      · refine absurd ?_ ht
        show (Function.update s.threads i _ j).state = .empty
        rw [Function.update_of_ne hj]
        exact hs

end Core

namespace State
variable {W : World} {s t : State} {l : Label}

theorem step_settings (hstep : step W s l = some t) : t.core.settings = s.core.settings := by
  rcases step_cases hstep with ⟨x, c, rfl, -, rfl⟩ | ⟨x, c, rfl, -, -, rfl⟩ |
      ⟨x, caller, pick, sub, rfl, -, -, rfl⟩ | ⟨k, rfl, -, rfl⟩
  · rfl
  · exact Core.exec_settings s.fresh x c
  · exact Core.runNext_settings s.fresh x caller pick
  · exact Core.settings_of_fixed (s.fresh.resume_fixed k)

/-- What a step does to the threads, to the slots and to the contexts. -/
structure Shift (s : State) (l : Label) (t : State) : Prop where
  thread : ∀ j, Kernel.ThreadMove s.core.kernel (Kernel.callOf l) t.core.kernel j
  result : Kernel.ResultMove s.core.kernel (Kernel.callOf l) t.core.kernel
  switch : Kernel.SwitchMove s.core.kernel (Kernel.callOf l) t.core.kernel

theorem step_shift (hq : s.core.QueuesWf) (htame : Tame W s l) (hstep : step W s l = some t) :
    s.Shift l t := by
  rcases Kernel.step_user_or htame.1 hq htame.2.1 hstep with ⟨heq, x, hx⟩ | hK
  · have hkernel : t.core.kernel = s.core.kernel := congrArg Core.kernel heq
    refine ⟨fun j => ?_, ?_, ?_⟩ <;> rw [hkernel]
    · refine .same rfl fun f he => ?_
      cases he.symm.trans hx
    · exact .same rfl fun j => Iff.rfl
    · exact .ret (Or.inl hx) hx (.of_eq rfl)
  · have hok := htame.1.kernel_ok
    exact ⟨hK.thread_cases, hK.result_cases hok, hK.switch_cases hok⟩

/-- A thread keeps what it was created with. -/
theorem Shift.identity_eq (h : s.Shift l t) (hstep : step W s l = some t) {j : Slot}
    (hs : (s.core.threads j).state ≠ .empty) (ht : (t.core.threads j).state ≠ .empty) :
    (t.core.threads j).identity = (s.core.threads j).identity := by
  cases h.thread j with
  | same hr _ => exact (congrArg ThreadRecord.identity hr :)
  | woken _ _ _ _ _ _ _ _ hr _ => exact (congrArg ThreadRecord.identity hr :)
  | dispatched _ _ _ _ hr _ => exact (congrArg ThreadRecord.identity hr :)
  | yielded _ _ hr _ => exact (congrArg ThreadRecord.identity hr :)
  | blocked _ _ _ _ _ hr _ _ => exact (congrArg ThreadRecord.identity hr :)
  | passed _ _ _ _ _ hr _ => exact (congrArg ThreadRecord.identity hr :)
  | restored _ _ _ _ hr _ => exact (congrArg ThreadRecord.identity hr :)
  | exited v hl _ _ _ _ =>
    obtain rfl := Kernel.callOf_some hl
    rw [(step_call_inv hstep).2]
    exact s.fresh.threadExit_identity j v j
  | canceled _ _ _ _ _ hr _ => exact (congrArg ThreadRecord.identity hr :)
  | released _ hr _ => exact absurd (congrArg ThreadRecord.state hr) ht
  | created he _ _ => exact absurd he hs

theorem Shift.stack_eq (h : s.Shift l t) (hstep : step W s l = some t) {j : Slot}
    (hs : (s.core.threads j).state ≠ .empty) (ht : (t.core.threads j).state ≠ .empty) :
    (t.core.threads j).stack = (s.core.threads j).stack :=
  congrArg (fun p => p.2.2.2.2.1) (h.identity_eq hstep hs ht)

/-- **Where a thread comes from.** -/
theorem Shift.filled (h : s.Shift l t) (hstep : step W s l = some t) {j : Slot}
    (hs : (s.core.threads j).state = .empty) (ht : (t.core.threads j).state ≠ .empty) :
    (∀ i, i ≠ j → t.core.threads i = s.core.threads i) ∧
    ∃ x p outTid attr fn arg env memory, l = .call x (.create outTid attr fn arg env) ∧
      env.mmap = some memory ∧
      (stackAllocate s.core.pageSize env s.core.config.stackSizeBytes).1 = .ok ∧
      t.core.threads j = s.core.created attr fn arg memory j ∧
      t.core.hist = .ret p (.create outTid attr fn arg env) ⟨.ok, [(t.core.threads j).tid]⟩
        :: s.core.hist := by
  obtain ⟨x, c, p, r, hl, hc, hthreads, hhist⟩ := h.result.filled hs ht
  have hupd : t.core.threads = Function.update s.core.threads j r := hthreads
  have hhist : t.core.hist = .ret p c ⟨.ok, [r.tid]⟩ :: s.core.hist := hhist
  have hr : t.core.threads j = r := by rw [hupd, Function.update_self]
  refine ⟨fun i hi => by rw [hupd, Function.update_of_ne hi], ?_⟩
  obtain rfl := Kernel.callOf_some hl
  cases c with
  | create outTid attr fn arg env =>
    have hcore := (step_call_inv hstep).2
    have ht' : ((s.fresh.exec x (.create outTid attr fn arg env)).threads j).state ≠ .empty :=
      hcore ▸ ht
    obtain ⟨memory, hmap, hok, hrec⟩ :=
      Core.threadCreate_filled s.fresh outTid attr fn arg env (j := j) hs ht'
    refine ⟨x, p, outTid, attr, fn, arg, env, memory, rfl, hmap, hok, ?_, ?_⟩
    · rw [hcore]
      exact hrec
    · rw [hr]
      exact hhist
  | _ => cases hc

end State

/-! ## Slots in use -/

/-- A creation that succeeded. -/
def Obs.isCreated : Obs → Bool
  | .ret _ (.create _ _ _ _ _) r => r.status == .ok
  | _ => false

/-- A join that returned `GTH_OK`. -/
def Obs.isJoined : Obs → Bool
  | .ret _ (.join _ _) r => r.status == .ok
  | _ => false

theorem Obs.isResult_of_isCreated {o : Obs} (h : o.isCreated = true) : o.isResult = true := by
  cases o with
  | ret p c r =>
    cases c with
    | create => exact h
    | _ => cases h
  | _ => cases h

theorem Obs.isResult_of_isJoined {o : Obs} (h : o.isJoined = true) : o.isResult = true := by
  cases o with
  | ret p c r =>
    cases c with
    | join => rfl
    | _ => cases h
  | _ => cases h

theorem countP_results {q : Obs → Bool} (hq : ∀ o, q o = true → o.isResult = true) (h : List Obs) :
    (results h).countP q = h.countP q := by
  rw [results, List.countP_filter]
  refine List.countP_congr fun o _ => ?_
  rw [Bool.and_eq_true]
  exact and_iff_left_of_imp (hq o)

theorem countState_congr {st : ThreadState} {a b : Slot → ThreadRecord}
    (h : ∀ j, (a j).state = st ↔ (b j).state = st) : countState st a = countState st b := by
  unfold countState Tally.tally
  refine List.countP_congr fun j _ => ?_
  rw [decide_eq_true_eq, decide_eq_true_eq]
  exact h j

/-- The free slots and the threads that were created, with those that were joined. -/
def Core.Balanced (s : Core) : Prop :=
  countState .empty s.threads + s.hist.countP Obs.isCreated = 128 + s.hist.countP Obs.isJoined

theorem Core.Balanced.step {s t : Core} {l : Option (Ctx × Call)} (h : s.Balanced)
    (hm : Kernel.ResultMove s.kernel l t.kernel) : t.Balanced := by
  have hcreated := countP_results fun _ => Obs.isResult_of_isCreated
  have hjoined := countP_results fun _ => Obs.isResult_of_isJoined
  unfold Core.Balanced at h ⊢
  cases hm with
  | same hres hempty =>
    have hres : results t.hist = results s.hist := hres
    have hslots : countState .empty t.threads = countState .empty s.threads :=
      countState_congr hempty
    rw [hslots, ← hcreated, ← hjoined, hres, hcreated, hjoined]
    exact h
  | created x c p i r _ hc hi hr hthreads hhist =>
    have hthreads : t.threads = Function.update s.threads i r := hthreads
    have hhist : t.hist = .ret p c ⟨.ok, [r.tid]⟩ :: s.hist := hhist
    have hslots := countState_update .empty s.threads i r
    have hi : (s.threads i).state = .empty := hi
    rw [← hthreads, if_pos hi, hr, if_neg (by decide)] at hslots
    cases c with
    | create outTid attr fn arg env =>
      have hone : t.hist.countP Obs.isCreated = s.hist.countP Obs.isCreated + 1 := by
        rw [hhist]
        exact List.countP_cons_of_pos rfl
      have hsame : t.hist.countP Obs.isJoined = s.hist.countP Obs.isJoined := by
        rw [hhist]
        exact List.countP_cons_of_neg Bool.false_ne_true
      omega
    | _ => cases hc
  | refused x p tid out st hst _ hthreads hhist =>
    have hthreads : t.threads = s.threads := hthreads
    have hhist : t.hist = .ret p (.join tid out) ⟨st, []⟩ :: s.hist := hhist
    have hneg : ¬ (Obs.ret p (.join tid out) ⟨st, []⟩).isJoined = true :=
      fun hok => hst (eq_of_beq hok)
    rw [hthreads, hhist, List.countP_cons_of_neg Bool.false_ne_true, List.countP_cons_of_neg hneg]
    exact h
  | joined p tid out i _ hterm hthreads hres =>
    have hthreads : t.threads = Function.update s.threads i {} := hthreads
    have hres : results t.hist = _ :: results s.hist := hres
    have hterm : threadIsTerminal (s.threads i).state = true := hterm
    have hi : (s.threads i).state ≠ .empty := by
      intro hempty
      rw [hempty] at hterm
      cases hterm
    have hslots := countState_update .empty s.threads i {}
    rw [← hthreads, if_neg hi, if_pos rfl] at hslots
    have hsame : t.hist.countP Obs.isCreated = s.hist.countP Obs.isCreated := by
      rw [← hcreated, hres, List.countP_cons_of_neg Bool.false_ne_true, hcreated]
    have hone : t.hist.countP Obs.isJoined = s.hist.countP Obs.isJoined + 1 := by
      rw [← hjoined, hres, List.countP_cons_of_pos rfl, hjoined]
    omega

/-- `gth_thread_create` when no slot is free. -/
theorem threadCreate_full {s : Core} (hinit : s.initialized = true)
    (hfull : ∀ i, (s.threads i).state ≠ .empty) {fn : Nat} (hfn : fn ≠ 0) (attr : Option Nat)
    (arg : Nat) (env : MapEnv) : (s.threadCreate true attr fn arg env).1.status = .enomem := by
  have hnone : allocThreadSlot s.threads = none :=
    List.find?_eq_none.mpr fun i _ => by rw [decide_eq_true_eq]; exact hfull i
  have hargs : ¬(true = false ∨ fn = 0) := by
    rintro (h | h)
    · cases h
    · exact hfn h
  unfold Core.threadCreate
  rw [if_neg (by rw [hinit]; decide), if_neg hargs, hnone]

/-! ## The parameters of a thread -/

/-- A creation that returned `tid`. -/
def Obs.createdAs (tid : Tid) : Obs → Bool
  | .ret _ (.create _ _ _ _ _) r => r == ⟨.ok, [tid]⟩
  | _ => false

theorem Obs.isResult_of_createdAs {tid : Tid} {o : Obs} (h : o.createdAs tid = true) :
    o.isResult = true := by
  cases o with
  | ret p c r =>
    cases c with
    | create =>
      obtain rfl : r = ⟨.ok, [tid]⟩ := eq_of_beq h
      rfl
    | _ => cases h
  | _ => cases h

theorem created_of_createdAs {tid : Tid} {o : Obs} {h : List Obs} (ho : o.createdAs tid = true)
    (hmem : o ∈ h) : Created tid h := by
  cases o with
  | ret p c r =>
    cases c with
    | create outTid attr fn arg env =>
      obtain rfl : r = ⟨.ok, [tid]⟩ := eq_of_beq ho
      exact ⟨p, outTid, attr, fn, arg, env, hmem⟩
    | _ => cases ho
  | _ => cases ho

/-- The call that returned the tid of a record has the parameters of the record. -/
def ThreadRecord.NamedBy (r : ThreadRecord) (h : List Obs) : Prop :=
  ∃ p outTid attr env, .ret p (.create outTid attr r.fn r.arg env) ⟨.ok, [r.tid]⟩ ∈ h ∧
    r.priority = attr.getD 0

/-- Every thread has the parameters of its creation, and no tid has been returned twice. -/
structure Core.Named (s : Core) : Prop where
  params : ∀ j, (s.threads j).state ≠ .empty → (s.threads j).NamedBy s.hist
  taken : ∀ tid, Created tid s.hist → tid ≤ s.issued
  once : ∀ tid, s.hist.countP (Obs.createdAs tid) ≤ 1

namespace State
variable {W : World} {s t : State} {l : Label}

/-- What has been returned stays in the history. -/
theorem Shift.mem_hist (h : s.Shift l t) {o : Obs} (ho : o.isResult = true)
    (hmem : o ∈ s.core.hist) : o ∈ t.core.hist := by
  rw [← mem_results ho] at hmem ⊢
  cases h.result with
  | same hres _ =>
    rw [show results t.core.hist = results s.core.hist from hres]
    exact hmem
  | created x c p i r _ _ _ _ _ hhist =>
    rw [show t.core.hist = _ :: s.core.hist from hhist, mem_results ho]
    exact List.mem_cons_of_mem _ ((mem_results ho).mp hmem)
  | refused x p tid out st _ _ _ hhist =>
    rw [show t.core.hist = _ :: s.core.hist from hhist, mem_results ho]
    exact List.mem_cons_of_mem _ ((mem_results ho).mp hmem)
  | joined p tid out i _ _ _ hres =>
    rw [show results t.core.hist = _ :: results s.core.hist from hres]
    exact List.mem_cons_of_mem _ hmem

/-- The returns of creations after a step: one more, with a tid that has not been returned, or the
    same ones. -/
theorem Moves.createdAs (h : s.Moves l t) : (∀ tid, t.core.hist.countP (Obs.createdAs tid)
      = s.core.hist.countP (Obs.createdAs tid)) ∨
    t.core.issued = s.core.issued + 1 ∧ ∀ tid, t.core.hist.countP (Obs.createdAs tid)
      = s.core.hist.countP (Obs.createdAs tid) + if tid = s.core.issued + 1 then 1 else 0 := by
  have hres : ∀ tid h, (results h).countP (Obs.createdAs tid) = h.countP (Obs.createdAs tid) :=
    fun tid => countP_results fun _ => Obs.isResult_of_createdAs
  cases h.result with
  | same hsame _ =>
    have hsame : results t.core.hist = results s.core.hist := hsame
    exact Or.inl fun tid => by rw [← hres, hsame, hres]
  | created x c p i r hl hc _ _ _ hhist =>
    have hhist : t.core.hist = .ret p c ⟨.ok, [r.tid]⟩ :: s.core.hist := hhist
    obtain ⟨htid, hissued⟩ := h.create x c p r.tid hl hc hhist
    refine Or.inr ⟨hissued, fun tid => ?_⟩
    cases c with
    | create outTid attr fn arg env =>
      rw [hhist, List.countP_cons, ← htid]
      congr 1
      by_cases heq : tid = r.tid
      · rw [heq, if_pos rfl]
        exact if_pos (beq_self_eq_true _)
      · rw [if_neg heq]
        refine if_neg fun hbeq => heq ?_
        have hret : (⟨.ok, [r.tid]⟩ : Ret) = ⟨.ok, [tid]⟩ := eq_of_beq hbeq
        injection hret with _ hout
        exact (List.cons.inj hout).1.symm
    | _ => cases hc
  | refused x p tid out st _ _ _ hhist =>
    have hhist : t.core.hist = .ret p (.join tid out) ⟨st, []⟩ :: s.core.hist := hhist
    refine Or.inl fun tid' => ?_
    rw [hhist]
    exact List.countP_cons_of_neg Bool.false_ne_true
  | joined p tid out i _ _ _ hcons =>
    have hcons : results t.core.hist = _ :: results s.core.hist := hcons
    refine Or.inl fun tid' => ?_
    rw [← hres, hcons, List.countP_cons_of_neg Bool.false_ne_true, hres]

theorem named_step (h : s.core.Named) (hshift : s.Shift l t) (hm : s.Moves l t)
    (hstep : step W s l = some t) : t.core.Named := by
  have hcount := hm.createdAs
  have htaken : ∀ tid, s.core.issued < tid → s.core.hist.countP (Obs.createdAs tid) = 0 := by
    intro tid hlt
    refine List.countP_eq_zero.mpr fun o hmem ho => ?_
    exact absurd (h.taken tid (created_of_createdAs ho hmem)) (Nat.not_le.mpr hlt)
  have hpos : ∀ {tid hist}, Created tid hist → 0 < hist.countP (Obs.createdAs tid) := by
    rintro tid hist ⟨p, outTid, attr, fn, arg, env, hmem⟩
    exact List.countP_pos_iff.mpr ⟨_, hmem, beq_self_eq_true _⟩
  refine ⟨fun j hj => ?_, fun tid hcr => ?_, fun tid => ?_⟩
  · by_cases hs : (s.core.threads j).state = .empty
    · obtain ⟨-, x, p, outTid, attr, fn, arg, env, memory, -, -, -, hrec, hhist⟩ :=
        hshift.filled hstep hs hj
      rw [hhist, hrec]
      exact ⟨p, outTid, attr, env, List.mem_cons_self, rfl⟩
    · have hid := hshift.identity_eq hstep hs hj
      have htid : (t.core.threads j).tid = (s.core.threads j).tid := congrArg Prod.fst hid
      have hfn : (t.core.threads j).fn = (s.core.threads j).fn := congrArg (fun p => p.2.1) hid
      have harg : (t.core.threads j).arg = (s.core.threads j).arg := congrArg (fun p => p.2.2.1) hid
      have hprio : (t.core.threads j).priority = (s.core.threads j).priority :=
        congrArg (fun p => p.2.2.2.1) hid
      obtain ⟨p, outTid, attr, env, hmem, hattr⟩ := h.params j hs
      refine ⟨p, outTid, attr, env, ?_, hprio.trans hattr⟩
      rw [htid, hfn, harg]
      exact hshift.mem_hist rfl hmem
  · have hcr := hpos hcr
    rcases hcount with hcount | ⟨hissued, hcount⟩
    · rw [hcount] at hcr
      refine (Nat.le_of_not_lt fun hlt => ?_).trans hm.issued
      rw [htaken tid hlt] at hcr
      exact absurd hcr (Nat.lt_irrefl 0)
    · rw [hcount] at hcr
      by_contra hgt
      have hlt : s.core.issued + 1 < tid := hissued ▸ Nat.lt_of_not_le hgt
      rw [htaken tid (Nat.lt_of_succ_lt hlt), if_neg (Nat.ne_of_gt hlt)] at hcr
      exact absurd hcr (Nat.lt_irrefl 0)
  · rcases hcount with hcount | ⟨-, hcount⟩
    · rw [hcount]
      exact h.once tid
    · rw [hcount]
      by_cases heq : tid = s.core.issued + 1
      · rw [heq, htaken _ (Nat.lt_succ_self _), if_pos rfl]
      · rw [if_neg heq]
        exact h.once tid

/-- What every step keeps holds at the end of every run. -/
theorem run_inv {config : ValidConfig} {pageSize : BitVec 64} {files : Path → Option (List UInt8)}
    {I : State → Prop} (hstart : I (State.start config pageSize files))
    (hinv : ∀ s l t, I s → s.core.WF → s.Shift l t → s.Moves l t → step W s l = some t → I t) :
    ∀ ls s, Exec.exec (State.step W) (State.start config pageSize files) ls = some s →
      JoinsFromMain ls → creates ls < 2 ^ 64 → s.core.QueuesWf ∧ I s := by
  refine Exec.exec_induct (fun _ _ => ⟨(Kernel.start_kernel config pageSize files).2, hstart⟩)
    fun ls l t u hrun ih hstep hjoin hcreates => ?_
  have hjoin' : JoinsFromMain ls := fun m hm => hjoin m (List.mem_append_left _ hm)
  have hl : l.joinsFromMain = true := hjoin l (List.mem_append_right _ List.mem_cons_self)
  rw [creates_snoc] at hcreates
  have hcreates' : creates ls < 2 ^ 64 := by omega
  obtain ⟨hwf, hissued⟩ := State.reach_wf hrun hjoin' hcreates'
  have hlt : t.core.issued + (if l.isCreate then 1 else 0) < 2 ^ 64 := by omega
  obtain ⟨hq, hI⟩ := ih hjoin' hcreates'
  have htame : State.Tame W t l := ⟨hwf, hl, fun v hv => (State.step_wf hwf hl hlt hv).1⟩
  exact ⟨Kernel.queuesWf_step t l u hq htame hstep, hinv t l u hI hwf (step_shift hq htame hstep)
    (step_moves hwf hq hl hlt hstep) hstep⟩

end State

/-- **The history tells which slots are in use.**  In every run with joins from main the number of
    threads that were created is the number of those that were joined and of the slots in use; and
    the next `gth_thread_create` with its arguments fails for want of a slot iff 128 threads have
    been created and not joined, and otherwise answers what `gth_stack_allocate` does. -/
theorem slots_conserved (W : World) (config : ValidConfig) (pageSize : BitVec 64)
    (files : Path → Option (List UInt8)) (ls : List Label) (s : State)
    (hrun : Exec.exec (State.step W) (State.start config pageSize files) ls = some s)
    (hjoin : JoinsFromMain ls) (hcreates : creates ls < 2 ^ 64) :
    s.core.hist.countP Obs.isCreated
      = s.core.hist.countP Obs.isJoined + (128 - countState .empty s.core.threads) ∧
    ∀ attr fn arg env, fn ≠ 0 → (s.core.threadCreate true attr fn arg env).1.status
      = if s.core.hist.countP Obs.isCreated = s.core.hist.countP Obs.isJoined + 128 then .enomem
        else (stackAllocate pageSize env config.1.stackSizeBytes).1 := by
  have hcore := State.start_core config pageSize files
  obtain ⟨-, hbalanced, hsettings⟩ := State.run_inv (W := W)
    (I := fun u => u.core.Balanced ∧
      u.core.settings = (State.start config pageSize files).core.settings)
    ⟨by rw [hcore]; rfl, rfl⟩
    (fun u l v hI _ hshift _ hstep => ⟨hI.1.step hshift.result,
      (State.step_settings hstep).trans hI.2⟩) ls s hrun hjoin hcreates
  have hle := countState_le .empty s.core.threads
  unfold Core.Balanced at hbalanced
  refine ⟨by omega, fun attr fn arg env hfn => ?_⟩
  rw [hcore] at hsettings
  have hinit : s.core.initialized = true := congrArg Prod.fst hsettings
  have hconfig : s.core.config = config.1 := congrArg (fun p => p.2.1) hsettings
  have hpage : s.core.pageSize = pageSize := congrArg (fun p => p.2.2) hsettings
  by_cases hfree : ∃ i, (s.core.threads i).state = .empty
  · obtain ⟨i, hi⟩ := hfree
    have hpos := countState_pos hi
    rw [if_neg (by omega), threadCreate_status hinit hi hfn, hpage, hconfig]
  · have hfull : ∀ i, (s.core.threads i).state ≠ .empty := fun i hi => hfree ⟨i, hi⟩
    have hzero : countState .empty s.core.threads = 0 := by
      refine List.countP_eq_zero.mpr fun i _ => ?_
      rw [decide_eq_true_eq]
      exact hfull i
    rw [if_pos (by omega), threadCreate_full hinit hfull hfn]

/-- Three threads are created and two of them joined. -/
theorem slots_conserved_collect : ∃ s,
    Exec.exec (State.step Sample.world) Sample.start collectRun = some s ∧
    s.core.hist.countP Obs.isCreated = 3 ∧ s.core.hist.countP Obs.isJoined = 2 ∧
    3 = 2 + (128 - countState .empty s.core.threads) := by
  obtain ⟨s, hs, hall⟩ := (Option.any_eq_true _ _).mp (show ((Exec.exec (State.step Sample.world)
    Sample.start collectRun).any fun s => decide (s.core.hist.countP Obs.isCreated = 3) &&
      decide (s.core.hist.countP Obs.isJoined = 2)) = true by decide +kernel)
  obtain ⟨hthree, htwo⟩ := Bool.and_eq_true_iff.mp hall
  have hthree := of_decide_eq_true hthree
  have htwo := of_decide_eq_true htwo
  have h := (slots_conserved Sample.world Sample.config 4096#64 (fun _ => none) collectRun s hs
    (by unfold JoinsFromMain; decide) (by decide)).1
  rw [hthree, htwo] at h
  exact ⟨s, hs, hthree, htwo, h⟩

/-- **Threads keep their parameters.**  In every run with joins from main every record in use has
    the entry function, the argument and the priority of the call of `gth_thread_create` that
    returned its tid, and there is one such call only. -/
theorem threads_keep_parameters (W : World) (config : ValidConfig) (pageSize : BitVec 64)
    (files : Path → Option (List UInt8)) (ls : List Label) (s : State)
    (hrun : Exec.exec (State.step W) (State.start config pageSize files) ls = some s)
    (hjoin : JoinsFromMain ls) (hcreates : creates ls < 2 ^ 64) (j : Slot)
    (hj : (s.core.threads j).state ≠ .empty) :
    (s.core.threads j).NamedBy s.core.hist ∧
      s.core.hist.countP (Obs.createdAs (s.core.threads j).tid) = 1 := by
  have hcore := State.start_core config pageSize files
  have hstart : (State.start config pageSize files).core.Named := by
    rw [hcore]
    refine ⟨fun j hj => absurd rfl hj, fun tid hcr => ?_, fun tid => Nat.zero_le 1⟩
    obtain ⟨_, _, _, _, _, _, hmem⟩ := hcr
    exact absurd hmem List.not_mem_nil
  obtain ⟨-, hnamed⟩ := State.run_inv (W := W) (I := fun u => u.core.Named) hstart
    (fun u l v hI _ hshift hm hstep => State.named_step hI hshift hm hstep) ls s hrun hjoin hcreates
  have hparams := hnamed.params j hj
  refine ⟨hparams, Nat.le_antisymm (hnamed.once _) ?_⟩
  obtain ⟨p, outTid, attr, env, hmem, -⟩ := hparams
  exact List.countP_pos_iff.mpr ⟨_, hmem, beq_self_eq_true _⟩

/-- The third thread of the run, in the slot of the first. -/
theorem threads_keep_parameters_collect : ∃ s,
    Exec.exec (State.step Sample.world) Sample.start collectRun = some s ∧
    (s.core.threads 0).tid = 3 ∧ (s.core.threads 0).NamedBy s.core.hist ∧
    s.core.hist.countP (Obs.createdAs (s.core.threads 0).tid) = 1 := by
  obtain ⟨s, hs, hall⟩ := (Option.any_eq_true _ _).mp (show ((Exec.exec (State.step Sample.world)
    Sample.start collectRun).any fun s => decide ((s.core.threads 0).tid = 3) &&
      decide ((s.core.threads 0).state ≠ .empty)) = true by decide +kernel)
  obtain ⟨htid, hne⟩ := Bool.and_eq_true_iff.mp hall
  exact ⟨s, hs, of_decide_eq_true htid, threads_keep_parameters Sample.world Sample.config 4096#64
    (fun _ => none) collectRun s hs (by unfold JoinsFromMain; decide) (by decide) 0
    (of_decide_eq_true hne)⟩

end Gth

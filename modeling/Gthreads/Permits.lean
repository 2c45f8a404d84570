/-
  No permit is made up: how far this holds across cancellation.

  `gth_thread_cancel` leaves the slot number of a blocked thread in the queue.  When the slot has
  been released and used again, a post pops the old number and wakes whoever lives there now, and
  `gth_sem_wait` trusts the wake-up.  If the new thread is blocked on ANOTHER semaphore, it returns
  from a wait for which nobody posted.

  The account of a semaphore is `initials + posts`; what is spent are the waits that returned, the
  threads on their way out of the wait, and the count.  Every transition keeps the account covered
  as long as no wake-up reaches a thread that is blocked on another object (`WakesOwn`).
-/
import Mathlib
import Gthreads.Semaphore

namespace Gth

open CountingSem (posts dones)

namespace Kernel

/-- The entries a call takes off the queue `q` of the object it wakes. -/
def popped (q : List Nat) : Call → List Nat
  | .condBroadcast _ => q
  | _ => q.take 1

/-- No entry that the call takes off the queue of `o` is the slot of a thread that is `BLOCKED` on
    another object than `o`. -/
def WakesOwn (s : Kernel) (c : Call) : Prop :=
  ∀ o, c.wakes = some o → ∀ n ∈ popped (s.queue o) c, s.waiting n = none ∨ s.waiting n = some o

instance (s : Kernel) (c : Call) : Decidable (s.WakesOwn c) :=
  Exec.decideNext (P := fun o => ∀ n ∈ popped (s.queue o) c,
    s.waiting n = none ∨ s.waiting n = some o) c.wakes

/-- The threads on their way out of `gth_sem_wait(a)`. -/
def leaving (s : Kernel) (a : Addr) : Finset Slot := Finset.univ.filter fun j => s.GrantedAt a j

/-- What is spent is covered. -/
def Covered (a : Addr) (s : Kernel) : Prop :=
  dones (semLog a s.hist) + (s.leaving a).card + (s.sem a).count
    ≤ CountingSem.initial (semLog a s.hist) + posts (semLog a s.hist)

section
variable {a : Addr} {s t : Kernel} {l : Option (Ctx × Call)}

theorem mem_leaving {j : Slot} : j ∈ s.leaving a ↔ s.GrantedAt a j := by
  unfold leaving
  rw [Finset.mem_filter]
  exact ⟨fun h => h.2, fun h => ⟨Finset.mem_univ j, h⟩⟩

theorem mem_take_one {n : Nat} : ∀ {q : List Nat}, q.head? = some n → n ∈ q.take 1
  | _ :: _, rfl => List.mem_cons_self

/-- **Only a post on `a` adds a thread that leaves `a`**, and it is the one at the head of the
    queue. -/
theorem Step.leaving (hstep : Step s l t) (hG : ∀ x c, l = some (x, c) → s.WakesOwn c) {j : Slot}
    (h : t.GrantedAt a j) : s.GrantedAt a j ∨
      (s.BlockedAt a j ∧ (t.threads j).state = .ready ∧ (s.queue (.sem a)).head? = some (j : Nat) ∧
        ∃ x, l = some (x, .semPost a)) := by
  rcases (hstep.thread_cases j).granted h with h | ⟨hb, hst, x, c, o, hl, hc, hmem, hhead⟩
  · exact Or.inl h
  · have hpop : (j : Nat) ∈ popped (s.queue o) c := by
      cases c with
      | condBroadcast v => exact hmem
      | _ => exact mem_take_one (hhead (by nofun))
    -- the thread is blocked on `a`, and the wake-up is meant for it
    obtain rfl : o = .sem a := by
      rcases hG x c hl o hc j hpop with hw | hw <;> rw [hb.waiting] at hw
      · nomatch hw
      · exact (Option.some.inj hw).symm
    cases c with
    | semPost b =>
      obtain rfl : b = a := Obj.sem.inj (Option.some.inj hc)
      exact Or.inr ⟨hb, hst, hhead (by nofun), x, hl⟩
    | _ => nomatch hc

/-- Threads whose records are left alone do not start to leave. -/
theorem Step.leaving_same (hstep : Step s l t) (hG : ∀ x c, l = some (x, c) → s.WakesOwn c)
    (ht : t.threads = s.threads) : t.leaving a ⊆ s.leaving a := by
  intro j hj
  refine mem_leaving.mpr ((hstep.leaving hG (mem_leaving.mp hj)).resolve_right ?_)
  rintro ⟨hb, hst, -, -⟩
  rw [ht, hb.1] at hst
  nomatch hst

end

/-- **One step keeps the account covered.** -/
theorem covered_inv (a : Addr) : Inv (Covered a) (fun s _ c => s.WakesOwn c) := by
  intro s l t hok hok' hstep hG h
  unfold Covered at h ⊢
  have hmove := hstep.thread_cases
  cases hstep.sem_cases a with
  | none hsem hq hlog hout hl =>
    have hsub : t.leaving a ⊆ s.leaving a := by
      intro j hj
      refine mem_leaving.mpr ((hstep.leaving hG (mem_leaving.mp hj)).resolve_right ?_)
      rintro ⟨hb, hst, -, x, hpost⟩
      rw [hl x _ hpost rfl, hb.1] at hst
      nomatch hst
    have hcard := Finset.card_le_card hsub
    rw [hsem, hlog]
    omega
  | init x n hl hsem hq hlog ht =>
    have hcard := Finset.card_le_card (hstep.leaving_same hG ht (a := a))
    rw [hsem, hlog]
    simp
    omega
  | take x hl hi hc hsem hq hlog ht =>
    have hcard := Finset.card_le_card (hstep.leaving_same hG ht (a := a))
    rw [hsem, hlog]
    simp
    omega
  | block i hl hi hc hsem hq hlog ht =>
    have hsub : t.leaving a ⊆ s.leaving a := by
      intro j hj
      refine mem_leaving.mpr ((hstep.leaving hG (mem_leaving.mp hj)).resolve_right ?_)
      rintro ⟨-, -, -, x, hpost⟩
      nomatch hl.symm.trans hpost
    have hcard := Finset.card_le_card hsub
    rw [hsem, hlog]
    simp
    omega
  | finish i he hsem hq hlog ht =>
    have hrun := (hok.enter i _ he).1
    -- the thread that goes on is no longer on its way out
    have hsub : t.leaving a ⊂ s.leaving a := by
      refine Finset.ssubset_iff_subset_ne.mpr ⟨hstep.leaving_same hG ht, fun heq => ?_⟩
      have hi : i ∈ t.leaving a := heq ▸ mem_leaving.mpr (Or.inr he)
      rcases mem_leaving.mp hi with hr | hr
      · rw [ht, hrun] at hr
        nomatch hr.1
      · exact (hmove i).not_entering (by rw [hrun]; nofun) _ hr
    have hcard := Finset.card_lt_card hsub
    rw [hsem, hlog]
    simp
    omega
  | grant x n q hl hi hqs hsem hq hlog ht =>
    have hsub : t.leaving a ⊆ s.leaving a ∪ Finset.univ.filter fun j : Slot => (j : Nat) = n := by
      intro j hj
      rcases hstep.leaving hG (mem_leaving.mp hj) with hj | ⟨-, -, hhead, -⟩
      · exact Finset.mem_union_left _ (mem_leaving.mpr hj)
      · rw [hqs] at hhead
        exact Finset.mem_union_right _
          (Finset.mem_filter.mpr ⟨Finset.mem_univ j, (Option.some.inj hhead).symm⟩)
    have hone : (Finset.univ.filter fun j : Slot => (j : Nat) = n).card ≤ 1 := by
      refine Finset.card_le_one.mpr fun j hj k hk => Fin.ext ?_
      rw [(Finset.mem_filter.mp hj).2, (Finset.mem_filter.mp hk).2]
    have hcard := (Finset.card_le_card hsub).trans (Finset.card_union_le _ _)
    rw [hsem, hlog]
    simp
    omega
  | give x hl hi hqs hsem hq hlog ht =>
    have hcard := Finset.card_le_card (hstep.leaving_same hG ht (a := a))
    rw [hsem, hlog]
    simp
    omega
  | destroy x hl hsem hlog ht =>
    have hcard := Finset.card_le_card (hstep.leaving_same hG ht (a := a))
    rw [hsem, hlog]
    simp
    omega

theorem covered_initial (a : Addr) : Covered a initial := by
  have hnone : initial.leaving a = ∅ := by
    refine Finset.eq_empty_of_forall_notMem fun j hj => ?_
    rcases mem_leaving.mp hj with h | h
    · nomatch h.1
    · nomatch h
  unfold Covered
  rw [hnone]
  exact Nat.le_refl 0

end Kernel

/-! ## Runs of the code -/

/-- **No permit is made up** in a run in which no wake-up takes the slot of a thread that is
    `BLOCKED` on another object off a queue: the waits for `a` that returned `GTH_OK` are at most
    the initial count and the posts on `a` that returned `GTH_OK`. -/
theorem no_permit_made_up (W : World) (config : ValidConfig) (pageSize : BitVec 64)
    (files : Path → Option (List UInt8)) (ls : List Label) (s : State) (hjoin : JoinsFromMain ls)
    (hcreates : creates ls < 2 ^ 64)
    (hown : Exec.Along (State.step W) (State.OnCalls fun t _ c => t.kernel.WakesOwn c)
      (State.start config pageSize files) ls)
    (hrun : Exec.exec (State.step W) (State.start config pageSize files) ls = some s) (a : Addr) :
    dones (semLog a s.core.hist)
      ≤ CountingSem.initial (semLog a s.core.hist) + posts (semLog a s.core.hist) := by
  obtain ⟨-, -, hcovered⟩ := (Kernel.covered_inv a).reach (Kernel.covered_initial a) hjoin
    hcreates hown hrun
  have h : dones (semLog a s.core.hist) + (s.core.kernel.leaving a).card + (s.core.sems a).count
      ≤ CountingSem.initial (semLog a s.core.hist) + posts (semLog a s.core.hist) := hcovered
  omega

/-- A waiter of semaphore 1 is cancelled and joined, and a new thread gets its slot. -/
def reuseRun : List Label :=
  [Sample.main (.semInit 1 0), Sample.main (.semInit 2 0), Sample.main Sample.create,
    Sample.main .yield, .tau, .tau, Sample.green 0 (.semWait 1), .tau, Sample.main (.cancel 1),
    Sample.main (.join 1 false), Sample.main Sample.create]

/-- Non-vacuous: the post that pops the old entry finds the new thread `READY` and is lost; the
    permit of the next post is taken. -/
theorem no_permit_made_up_ready : ∃ s,
    Exec.exec (State.step Sample.world) Sample.start
      (reuseRun ++ [Sample.main (.semPost 1), Sample.main (.semPost 1), Sample.main (.semWait 1)])
      = some s ∧
      dones (semLog 1 s.core.hist) = 1 ∧ posts (semLog 1 s.core.hist) = 2 ∧
      (∀ a, dones (semLog a s.core.hist)
        ≤ CountingSem.initial (semLog a s.core.hist) + posts (semLog a s.core.hist)) :=
  ⟨_, rfl, by decide +kernel, by decide +kernel, no_permit_made_up Sample.world Sample.config
    4096#64 (fun _ => none)
    (reuseRun ++ [Sample.main (.semPost 1), Sample.main (.semPost 1), Sample.main (.semWait 1)]) _
    (by unfold JoinsFromMain; decide) (by decide) (by decide +kernel) rfl⟩

/-- **A permit out of nothing**: the new thread waits for semaphore 2, on which nobody ever posts;
    a post on semaphore 1 wakes it, and its wait returns `GTH_OK`. -/
theorem foreign_wake_makes_up_permit : ∃ s,
    Exec.exec (State.step Sample.world) Sample.start
      (reuseRun ++ [Sample.main .yield, .tau, .tau, Sample.green 0 (.semWait 2), .tau,
        Sample.main (.semPost 1), Sample.main .yield, .tau, .tau]) = some s ∧
      s.core.hist.head? = some (.ret 2 (.semWait 2) ⟨.ok, []⟩) ∧
      dones (semLog 2 s.core.hist) = 1 ∧
      CountingSem.initial (semLog 2 s.core.hist) + posts (semLog 2 s.core.hist) = 0 :=
  ⟨_, rfl, rfl, by decide +kernel, by decide +kernel⟩

end Gth

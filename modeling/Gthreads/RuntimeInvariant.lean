/-
  The global invariant of the runtime, as user code sees it.

  `WF` (`Gthreads.WellFormed`) holds in every reachable state; here it is read off in the terms of
  `gth_runtime_state_t`.  The cached counters are compared with what `gth_runtime_snapshot_stats`
  computes from the table.

  One corner is not as expected: `next_tid` is a 64-bit counter that starts at 1, so after
  2^64 - 1 creations it is 0 while the thread created last has the tid 2^64 - 1.
-/
import Gthreads.WellFormed

namespace Gth

theorem snapshotStep_counts (snap : StatsSnapshot) (t : ThreadRecord) :
    (snapshotStep snap t).runnable = snap.runnable + (if t.state = .ready then 1 else 0) ∧
    (snapshotStep snap t).blocked = snap.blocked + (if t.state = .blocked then 1 else 0) := by
  cases hst : t.state <;>
    simp only [snapshotStep, threadIsTerminal, hst, reduceCtorEq, if_true, if_false,
      Bool.false_eq_true, Nat.add_zero, and_self]

/-- The loop of `gth_runtime_snapshot_stats` adds the tallies of what is left of the table. -/
theorem snapshot_foldl (threads : Slot → ThreadRecord) :
    ∀ (is : List Slot) (snap : StatsSnapshot),
      (is.foldl (fun snap i => snapshotStep snap (threads i)) snap).runnable
        = snap.runnable + Tally.tally (fun t : ThreadRecord => t.state = .ready) is threads ∧
      (is.foldl (fun snap i => snapshotStep snap (threads i)) snap).blocked
        = snap.blocked + Tally.tally (fun t : ThreadRecord => t.state = .blocked) is threads := by
  intro is
  induction is with
  | nil => exact fun snap => ⟨rfl, rfl⟩
  | cons i is ih =>
    intro snap
    obtain ⟨hr, hb⟩ := ih (snapshotStep snap (threads i))
    obtain ⟨hr', hb'⟩ := snapshotStep_counts snap (threads i)
    rw [hr'] at hr
    rw [hb'] at hb
    simp only [List.foldl_cons, hr, hb, Tally.tally, List.countP_cons, decide_eq_true_eq]
    omega

theorem snapshot_runnable (threads : Slot → ThreadRecord) :
    (runtimeSnapshotStats threads).runnable = countState .ready threads := by
  have h := (snapshot_foldl threads (List.finRange 128) {}).1
  rwa [Nat.zero_add] at h

theorem snapshot_blocked (threads : Slot → ThreadRecord) :
    (runtimeSnapshotStats threads).blocked = countState .blocked threads := by
  have h := (snapshot_foldl threads (List.finRange 128) {}).2
  rwa [Nat.zero_add] at h

/-- (a) Tids of occupied slots are distinct, non-zero and, unless `next_tid` has just wrapped to
    0, below `next_tid`; slot numbers are right. -/
structure TidInvariant (s : Core) (created : Nat) : Prop where
  nonzero : ∀ i, (s.threads i).state ≠ .empty → (s.threads i).tid ≠ 0
  below : ∀ i, (s.threads i).state ≠ .empty → (s.threads i).tid < s.nextTid ∨
    (s.nextTid = 0 ∧ created = 2 ^ 64 - 1)
  distinct : DistinctTids s.threads
  slotIndex : ∀ i, (s.threads i).state ≠ .empty → (s.threads i).slotIndex = i

/-- (b) Only the thread whose tid is `current_tid` can be `RUNNING`. -/
def RunningInvariant (s : Core) : Prop :=
  ∀ i, (s.threads i).state = .running → (s.threads i).tid = s.currentTid ∧ s.currentTid ≠ 0

/-- (c) The cached counters are what `gth_runtime_snapshot_stats` computes. -/
def CounterInvariant (s : Core) : Prop :=
  s.runnableThreads = (runtimeSnapshotStats s.threads).runnable ∧
  s.blockedThreads = (runtimeSnapshotStats s.threads).blocked

namespace Core
variable {s : Core} {x : Ctx}

theorem Live.tidInvariant (h : s.Live x) {created : Nat} (hle : s.issued ≤ created)
    (hlt : created < 2 ^ 64) : TidInvariant s created := by
  have htids := h.body.tids
  refine ⟨fun i hi => ?_, fun i hi => ?_, htids.inj, htids.index⟩
  · exact Nat.one_le_iff_ne_zero.mp (htids.range i hi).1
  · have hi := (htids.range i hi).2
    have hnext := htids.next
    by_cases hwrap : s.issued + 1 < 2 ^ 64
    · rw [Nat.mod_eq_of_lt hwrap] at hnext
      exact Or.inl (hnext ▸ Nat.lt_succ_of_le hi)
    · have hall : s.issued + 1 = 2 ^ 64 := by omega
      rw [hall, Nat.mod_self] at hnext
      exact Or.inr ⟨hnext, by omega⟩

theorem Live.runningInvariant (h : s.Live x) : RunningInvariant s := by
  intro i hi
  cases x with
  | main => exact absurd hi (h.ctx.2 i)
  | green j =>
    have hij : i = j := by
      by_contra hne
      exact h.ctx.alone i hne hi
    subst hij
    exact ⟨h.ctx.current.symm, h.current.ne_zero⟩

theorem Live.counterInvariant (h : s.Live x) : CounterInvariant s := by
  refine ⟨?_, ?_⟩
  · rw [snapshot_runnable]
    exact h.body.runnable
  · rw [snapshot_blocked]
    exact h.body.blocked

end Core

/-- **The global runtime invariant**: in every run from `gth_runtime_init`, in whatever mode, with
    fewer than 2^64 creations and joins from main only, it holds whenever user code runs. -/
theorem runtime_invariant (W : World) (config : ValidConfig) (pageSize : BitVec 64)
    (files : Path → Option (List UInt8)) (ls : List Label) (s : State) (x : Ctx)
    (hrun : Exec.exec (State.step W) (State.start config pageSize files) ls = some s)
    (hjoin : JoinsFromMain ls) (hcreates : creates ls < 2 ^ 64) (huser : s.core.cpu = .user x) :
    TidInvariant s.core (creates ls) ∧ RunningInvariant s.core ∧ CounterInvariant s.core := by
  obtain ⟨hwf, hissued⟩ := State.reach_wf hrun hjoin hcreates
  have hlive := hwf.live huser
  exact ⟨hlive.tidInvariant hissued hcreates, hlive.runningInvariant, hlive.counterInvariant⟩

/-- Non-vacuous: a thread is created, runs and yields; main sees it `READY`. -/
theorem runtime_invariant_yield : ∃ s, Exec.exec (State.step Sample.world) Sample.start
      [Sample.main Sample.create, Sample.main .yield, .tau, .tau, Sample.green 0 .yield, .tau]
      = some s ∧ (s.core.threads 0).state = .ready ∧ TidInvariant s.core 1 ∧
      RunningInvariant s.core ∧ CounterInvariant s.core :=
  ⟨_, rfl, rfl, runtime_invariant Sample.world Sample.config 4096#64 (fun _ => none)
    [Sample.main Sample.create, Sample.main .yield, .tau, .tau, Sample.green 0 .yield, .tau] _
    .main rfl (by unfold JoinsFromMain; decide) (by decide) rfl⟩

/-! ## The last tid -/

/-- After `n` failed creations by main: all slots are empty, `n` tids are gone. -/
structure Blank (n : Nat) (s : State) : Prop where
  initialized : s.core.initialized = true
  config : s.core.config = Sample.config.1
  pageSize : s.core.pageSize = 4096#64
  threads : s.core.threads = fun _ => {}
  nextTid : s.core.nextTid = (n + 1) % 2 ^ 64
  cpu : s.core.cpu = .user .main

theorem Blank.alloc {n : Nat} {s : State} (h : Blank n s) :
    allocThreadSlot s.fresh.threads = some 0 := by
  show allocThreadSlot s.core.threads = some 0
  rw [h.threads]
  decide

theorem Blank.stack {n : Nat} {s : State} (h : Blank n s) (env : MapEnv) :
    stackAllocate s.fresh.pageSize env s.fresh.config.stackSizeBytes
      = stackAllocate 4096#64 env 16384#64 := by
  show stackAllocate s.core.pageSize env s.core.config.stackSizeBytes = _
  rw [h.pageSize, h.config]
  rfl

theorem Blank.createFails {n : Nat} {s : State} (h : Blank n s) :
    ∃ t, State.step Sample.world s (Sample.main Sample.createFails) = some t ∧
      Blank (n + 1) t := by
  have hinit : s.fresh.initialized = true := h.initialized
  have hcreate : s.fresh.threadCreate true none 1 0 ⟨none, true⟩ = (⟨.enomem, []⟩,
      { s.fresh.setThread 0 {} with
        nextTid := incr64 s.fresh.nextTid, issued := s.fresh.issued + 1 }) := by
    unfold Core.threadCreate
    rw [if_neg (by rw [hinit]; decide), if_neg (by decide), h.alloc]
    dsimp only
    rw [h.stack]
    rfl
  refine ⟨_, if_pos ⟨h.cpu, rfl⟩, ?_⟩
  simp only [State.settle, Core.exec, Sample.createFails, hcreate]
  refine ⟨h.initialized, h.config, h.pageSize, ?_, ?_, rfl⟩
  · show Function.update s.core.threads 0 {} = fun _ => {}
    rw [h.threads, Function.update_eq_self]
  · show incr64 s.core.nextTid = _
    rw [h.nextTid, incr64, Nat.mod_add_mod]

/-- A creation that succeeds hands out `next_tid`. -/
theorem Blank.create {n : Nat} {s : State} (h : Blank n s) :
    ∃ t, State.step Sample.world s (Sample.main Sample.create) = some t ∧
      t.core.cpu = .user .main ∧ (t.core.threads 0).state = .ready ∧
      (t.core.threads 0).tid = s.core.nextTid ∧ t.core.nextTid = incr64 s.core.nextTid := by
  have hinit : s.fresh.initialized = true := h.initialized
  refine ⟨_, if_pos ⟨h.cpu, rfl⟩, rfl, ?_⟩
  simp only [State.settle, Core.exec, Sample.create, Core.threadCreate]
  rw [if_neg (by rw [hinit]; decide), if_neg (by decide), h.alloc]
  dsimp only
  rw [h.stack]
  exact ⟨rfl, rfl, rfl⟩

theorem Blank.replicate : ∀ (k n : Nat) (s : State), Blank n s →
    ∃ t, Exec.exec (State.step Sample.world) s
      (List.replicate k (Sample.main Sample.createFails)) = some t ∧ Blank (n + k) t
  | 0, _, s, h => ⟨s, rfl, h⟩
  | k + 1, n, s, h => by
    obtain ⟨t, ht, hblank⟩ := h.createFails
    obtain ⟨u, hu, hblank'⟩ := Blank.replicate k (n + 1) t hblank
    refine ⟨u, ?_, ?_⟩
    · rw [List.replicate_succ]
      exact (congrArg (Option.bind · _) ht).trans hu
    · rwa [Nat.add_right_comm] at hblank'

/-- **`next_tid` is not above the last tid**: 2^64 - 2 creations fail, one more succeeds; its
    thread has the tid 2^64 - 1, and `next_tid` is 0. -/
theorem tid_not_below_nextTid : ∃ ls s,
    Exec.exec (State.step Sample.world) Sample.start ls = some s ∧ JoinsFromMain ls ∧
      creates ls < 2 ^ 64 ∧ s.core.cpu = .user .main ∧ (s.core.threads 0).state ≠ .empty ∧
      ¬ (s.core.threads 0).tid < s.core.nextTid := by
  have hstart : Blank 0 Sample.start := ⟨rfl, rfl, rfl, rfl, rfl, rfl⟩
  obtain ⟨s, hs, hblank⟩ := Blank.replicate (2 ^ 64 - 2) 0 Sample.start hstart
  obtain ⟨t, ht, hcpu, hst, htid, hnext⟩ := hblank.create
  refine ⟨List.replicate (2 ^ 64 - 2) (Sample.main Sample.createFails)
    ++ [Sample.main Sample.create], t, ?_, ?_, ?_, hcpu, ?_, ?_⟩
  · rw [Exec.exec_append, hs]
    exact (congrArg (Option.bind · _) ht)
  · intro l hl
    rcases List.mem_append.mp hl with hl | hl
    · rw [List.eq_of_mem_replicate hl]
      rfl
    · rw [List.mem_singleton.mp hl]
      rfl
  · unfold creates
    rw [List.countP_append, List.countP_replicate]
    decide
  · rw [hst]
    decide
  · rw [htid, hnext, hblank.nextTid]
    decide

end Gth

/-
  The thread table's invariant.

  What the code relies on whenever it runs, when only main joins:

  * `TidsOk`    — tids of occupied slots are distinct, were issued, and `slot_index` is right;
  * `BodyOk`    — moreover the cached counters are the tallies of the table, and every thread that
                  is `READY` or `BLOCKED` has a saved context of its own stack (`Frame.Parked`);
  * `CtxOk x`   — the stack `x` may be running: `current_tid` is its thread's tid, no other thread
                  is `RUNNING`, and `scheduler_ctx` leads back to main's `gth_scheduler_run_next`;
  * `CpuOk`     — the same for every place the CPU can be at.

  All are predicates on the FIELDS they read, so that a step that leaves those fields alone keeps
  them by definition.
-/
import Gthreads.Runs
import Gthreads.Lib.Tally

namespace Gth

/-- An object a thread can wait for. -/
inductive Obj where
  | mutex (m : Addr)
  | sem (a : Addr)
  | cond (c : Addr)
  deriving DecidableEq

/-- What a suspended stack waits for. -/
def Frame.waits : Frame → Option Obj
  | .lock m _ _ => some (.mutex m)
  | .semWait a => some (.sem a)
  | .condWait c _ => some (.cond c)
  | _ => none

/-- The places at which the thread of slot `i` can be off the CPU. -/
def Frame.Parked (i : Slot) : Frame → Prop
  | .lock _ mySlot _ => mySlot = i
  | .runNext _ _ _ => False
  | _ => True

/-! ## Lookups -/

theorem allocThreadSlot_some {threads : Slot → ThreadRecord} {i : Slot}
    (h : allocThreadSlot threads = some i) : (threads i).state = .empty := by
  have hfound := List.find?_some h
  exact of_decide_eq_true hfound

/-- Tids of occupied slots: distinct, issued, and next to the slot's own number. -/
structure TidsOk (nextTid issued : Nat) (threads : Slot → ThreadRecord) : Prop where
  next : nextTid = (issued + 1) % 2 ^ 64
  range : ∀ i, (threads i).state ≠ .empty → 1 ≤ (threads i).tid ∧ (threads i).tid ≤ issued
  index : ∀ i, (threads i).state ≠ .empty → (threads i).slotIndex = i
  inj : DistinctTids threads

namespace TidsOk
variable {nextTid issued : Nat} {threads : Slot → ThreadRecord}

theorem find (h : TidsOk nextTid issued threads) {i : Slot} (hi : (threads i).state ≠ .empty) :
    findThread threads (threads i).tid = some i := h.inj.find hi

/-- No thread has main's tid. -/
theorem find_zero (h : TidsOk nextTid issued threads) : findThread threads 0 = none := by
  cases hfind : findThread threads 0 with
  | none => rfl
  | some i =>
    obtain ⟨hne, htid⟩ := findThread_some hfind
    have hpos := (h.range i hne).1
    rw [htid] at hpos
    exact absurd hpos (by decide)

/-- Overwriting a record of an occupied slot, with its identity kept, or emptying a slot. -/
theorem set (h : TidsOk nextTid issued threads) {i : Slot} {r : ThreadRecord}
    (hr : r.state ≠ .empty → (threads i).state ≠ .empty ∧ r.tid = (threads i).tid ∧
      r.slotIndex = (threads i).slotIndex) :
    TidsOk nextTid issued (Function.update threads i r) := by
  -- each entry of the new table has the identity of the old entry at the same place
  have hsame : ∀ j, (Function.update threads i r j).state ≠ .empty →
      (threads j).state ≠ .empty ∧ (Function.update threads i r j).tid = (threads j).tid ∧
        (Function.update threads i r j).slotIndex = (threads j).slotIndex := by
    intro j hj
    by_cases hji : j = i
    · subst hji
      rw [Function.update_self] at hj ⊢
      exact hr hj
    · rw [Function.update_of_ne hji] at hj ⊢
      exact ⟨hj, rfl, rfl⟩
  refine ⟨h.next, fun j hj => ?_, fun j hj => ?_, fun j k hj hk hjk => ?_⟩
  · obtain ⟨hne, htid, -⟩ := hsame j hj
    rw [htid]
    exact h.range j hne
  · obtain ⟨hne, -, hidx⟩ := hsame j hj
    rw [hidx]
    exact h.index j hne
  · obtain ⟨hnej, htidj, -⟩ := hsame j hj
    obtain ⟨hnek, htidk, -⟩ := hsame k hk
    rw [htidj, htidk] at hjk
    exact h.inj j k hnej hnek hjk

/-- A tid is taken. -/
theorem bump (h : TidsOk nextTid issued threads) :
    TidsOk (incr64 nextTid) (issued + 1) threads := by
  refine ⟨?_, fun i hi => ?_, h.index, h.inj⟩
  · rw [h.next, incr64, Nat.mod_add_mod]
  · obtain ⟨h1, h2⟩ := h.range i hi
    exact ⟨h1, Nat.le_succ_of_le h2⟩

/-- A thread is entered in an empty slot with the tid just taken. -/
theorem enter (h : TidsOk nextTid issued threads) (hlt : issued + 1 < 2 ^ 64) {i : Slot}
    {r : ThreadRecord} (htid : r.tid = nextTid) (hidx : r.slotIndex = i) :
    TidsOk (incr64 nextTid) (issued + 1) (Function.update threads i r) := by
  have hnext : r.tid = issued + 1 := by rw [htid, h.next, Nat.mod_eq_of_lt hlt]
  have hold : ∀ j, (threads j).state ≠ .empty → (threads j).tid ≠ r.tid := by
    intro j hj heq
    have hle := (h.range j hj).2
    rw [heq, hnext] at hle
    exact Nat.not_succ_le_self issued hle
  refine ⟨h.bump.next, fun j hj => ?_, fun j hj => ?_, fun j k hj hk hjk => ?_⟩
  · by_cases hji : j = i
    · subst hji
      rw [Function.update_self, hnext]
      exact ⟨Nat.le_add_left 1 issued, Nat.le_refl _⟩
    · rw [Function.update_of_ne hji] at hj ⊢
      exact h.bump.range j hj
  · by_cases hji : j = i
    · subst hji
      rw [Function.update_self]
      exact hidx
    · rw [Function.update_of_ne hji] at hj ⊢
      exact h.index j hj
  · by_cases hji : j = i <;> by_cases hki : k = i
    · rw [hji, hki]
    · subst hji
      rw [Function.update_self, Function.update_of_ne hki] at hjk
      rw [Function.update_of_ne hki] at hk
      exact absurd hjk.symm (hold k hk)
    · subst hki
      rw [Function.update_self, Function.update_of_ne hji] at hjk
      rw [Function.update_of_ne hji] at hj
      exact absurd hjk (hold j hj)
    · rw [Function.update_of_ne hji] at hj hjk
      rw [Function.update_of_ne hki] at hk hjk
      exact h.inj j k hj hk hjk

end TidsOk

/-! ## Tallies of the table -/

/-- The number of slots in state `st`. -/
def countState (st : ThreadState) (threads : Slot → ThreadRecord) : Nat :=
  Tally.tally (fun t : ThreadRecord => t.state = st) (List.finRange 128) threads

theorem countState_le (st : ThreadState) (threads : Slot → ThreadRecord) :
    countState st threads ≤ 128 := by
  have h := Tally.tally_le_length (p := fun t : ThreadRecord => t.state = st)
    (List.finRange 128) threads
  rwa [List.length_finRange] at h

theorem countState_pos {st : ThreadState} {threads : Slot → ThreadRecord} {i : Slot}
    (h : (threads i).state = st) : 0 < countState st threads :=
  Tally.tally_pos (p := fun t : ThreadRecord => t.state = st) (List.mem_finRange i) h

/-- One record is overwritten: its old state leaves the tally, its new one enters. -/
theorem countState_update (st : ThreadState) (threads : Slot → ThreadRecord) (i : Slot)
    (r : ThreadRecord) :
    countState st (Function.update threads i r) + (if (threads i).state = st then 1 else 0)
      = countState st threads + (if r.state = st then 1 else 0) :=
  Tally.tally_update (p := fun t : ThreadRecord => t.state = st) (List.nodup_finRange 128)
    (List.mem_finRange i) threads r

/-! ## The invariant -/

/-- The table, its counters and the saved contexts. -/
structure BodyOk (initialized : Bool) (nextTid issued runnable blocked : Nat)
    (threads : Slot → ThreadRecord) : Prop where
  init : initialized = true
  tids : TidsOk nextTid issued threads
  parked : ∀ i, (threads i).state = .ready ∨ (threads i).state = .blocked →
    ∃ f : Frame, (threads i).ctx = some ⟨.green i, f⟩ ∧ f.Parked i ∧
      ((threads i).state = .blocked → f.waits ≠ none)
  runnable : runnable = countState .ready threads
  blocked : blocked = countState .blocked threads

/-- No thread is `RUNNING`. -/
def Idle (threads : Slot → ThreadRecord) : Prop := ∀ i, (threads i).state ≠ .running

/-- The record a suspended join points at is still that of the thread it joins. -/
def CallerOk (threads : Slot → ThreadRecord) : Caller → Prop
  | .yield => True
  | .join tid _ target => (threads target).state ≠ .empty ∧ (threads target).tid = tid

/-- The thread of slot `i` has the CPU; it may have cancelled itself. -/
structure OnCpu (currentTid : Tid) (schedulerCtx : Option Kont) (threads : Slot → ThreadRecord)
    (i : Slot) : Prop where
  current : currentTid = (threads i).tid
  state : (threads i).state = .running ∨ (threads i).state = .canceled
  alone : ∀ j, j ≠ i → (threads j).state ≠ .running
  sched : ∃ act caller, schedulerCtx = some ⟨.main, .runNext act 0 caller⟩ ∧ CallerOk threads caller

/-- The stack `x` has the CPU. -/
def CtxOk (currentTid : Tid) (schedulerCtx : Option Kont) (threads : Slot → ThreadRecord) :
    Ctx → Prop
  | .main => currentTid = 0 ∧ Idle threads
  | .green i => OnCpu currentTid schedulerCtx threads i

/-- Where the CPU can be. -/
inductive CpuOk (currentTid : Tid) (schedulerCtx : Option Kont) (threads : Slot → ThreadRecord) :
    Cpu → Prop where
  | user (x : Ctx) : CtxOk currentTid schedulerCtx threads x → CpuOk _ _ _ (.user x)
  | sched (caller : Caller) : CtxOk currentTid schedulerCtx threads .main →
      CallerOk threads caller → CpuOk _ _ _ (.sched .main caller)
  | back (act : Nat) (caller : Caller) : Idle threads → CallerOk threads caller →
      CpuOk _ _ _ (.swap (some ⟨.main, .runNext act 0 caller⟩))
  | enter (i : Slot) (f : Frame) : f.Parked i → (threads i).state = .running →
      OnCpu currentTid schedulerCtx threads i → CpuOk _ _ _ (.swap (some ⟨.green i, f⟩))

namespace Core

abbrev Body (s : Core) : Prop :=
  BodyOk s.initialized s.nextTid s.issued s.runnableThreads s.blockedThreads s.threads

abbrev At (s : Core) (x : Ctx) : Prop := CtxOk s.currentTid s.schedulerCtx s.threads x

/-- **The invariant of the runtime state.** -/
structure WF (s : Core) : Prop where
  body : s.Body
  cpu : CpuOk s.currentTid s.schedulerCtx s.threads s.cpu

end Core
end Gth

/-
  Terminal states.

  A thread that has returned or was cancelled keeps its slot until it is joined.  The states of
  other threads are changed in four ways: a wake-up (of a `BLOCKED` thread only), a dispatch (of a
  `READY` or `RUNNING` one), `gth_thread_cancel` (which refuses terminated threads) and the release
  by `gth_thread_join`; none of them brings a terminated thread back.  What does is a call by a
  thread that was cancelled while it runs: `gth_thread_yield`, `gth_thread_block`, `gth_sem_wait`
  and `gth_cond_wait` mark the current thread `READY` or `BLOCKED` without a look at its state.

  Nothing is assumed about the state here: any thread may join, and tids may be used up.
-/
import Gthreads.Outcomes

namespace Gth
namespace Core

/-! ## Wake-ups -/

/-- Slots keep their states, except that `BLOCKED` ones may have become `READY`. -/
def Wakes (s t : Core) : Prop := ∀ j, (t.threads j).state = (s.threads j).state ∨
  ((s.threads j).state = .blocked ∧ (t.threads j).state = .ready)

section
variable {s t u : Core}

theorem Wakes.of_threads (h : t.threads = s.threads) : Wakes s t := fun j => Or.inl (by rw [h])

theorem Woken.wakes (h : Woken s.threads t.threads) : Wakes s t := by
  intro j
  rcases h j with hj | ⟨hb, hj⟩ <;> rw [hj]
  · exact Or.inl rfl
  · exact Or.inr ⟨hb, rfl⟩

/-! ## Calls that cannot bring a thread back -/

/-- Terminated threads stay in the state they ended in. -/
def Absorbs (s t : Core) : Prop := ∀ j, threadIsTerminal (s.threads j).state = true →
  (t.threads j).state = (s.threads j).state

theorem Wakes.absorbs (h : Wakes s t) : Absorbs s t := by
  intro j hj
  rcases h j with hs | ⟨hb, -⟩
  · exact hs
  · rw [hb] at hj
    nomatch hj

theorem Absorbs.set {i : Slot} {r : ThreadRecord} (hi : threadIsTerminal (s.threads i).state = false)
    (ht : t.threads = Function.update s.threads i r) : Absorbs s t := by
  intro j hj
  have hji : j ≠ i := by
    rintro rfl
    rw [hi] at hj
    nomatch hj
  rw [ht, Function.update_of_ne hji]

theorem absorbs_threadCreate (s : Core) (outTid : Bool) (attr : Option Nat) (fn arg : Nat)
    (env : MapEnv) : Absorbs s (s.threadCreate outTid attr fn arg env).2 := by
  rcases threadCreate_cases (s := s) outTid attr fn arg env with
      ⟨st, -, h⟩ | ⟨i, hi, ⟨st, -, h⟩ | ⟨r, es, -, -, -, -, h⟩⟩
  · rw [h]
    exact fun _ _ => rfl
  · rw [h]
    exact .set (by rw [hi]; rfl) rfl
  · rw [h]
    exact .set (by rw [hi]; rfl) rfl

/-- The same with the exception of slot `i`. -/
def WakesBut (s t : Core) (i : Slot) : Prop := ∀ j, j ≠ i →
  (t.threads j).state = (s.threads j).state ∨
    ((s.threads j).state = .blocked ∧ (t.threads j).state = .ready)

theorem Wakes.but (h : Wakes s t) (i : Slot) : WakesBut s t i := fun j _ => h j

theorem WakesBut.set {i : Slot} {r : ThreadRecord} (h : WakesBut s t i)
    (hu : u.threads = Function.update t.threads i r) : WakesBut s u i := by
  intro j hji
  rw [hu, Function.update_of_ne hji]
  exact h j hji

theorem WakesBut.absorbs {i : Slot} (h : WakesBut s t i)
    (hi : threadIsTerminal (s.threads i).state = false) : Absorbs s t := by
  intro j hj
  have hji : j ≠ i := by
    rintro rfl
    rw [hi] at hj
    nomatch hj
  rcases h j hji with hs | ⟨hb, -⟩
  · exact hs
  · rw [hb] at hj
    nomatch hj

theorem setThreadState_threads (s : Core) (i : Slot) (new : ThreadState) :
    ∃ r, (s.setThreadState i new).threads = Function.update s.threads i r := by
  unfold setThreadState
  split
  · exact ⟨s.threads i, (Function.update_eq_self i s.threads).symm⟩
  · refine ⟨{ s.threads i with state := new }, ?_⟩
    dsimp only
    unfold accountStateChange
    split_ifs <;> rfl

theorem absorbs_threadCancel (s : Core) (tid : Tid) : Absorbs s (s.threadCancel tid).2 := by
  unfold threadCancel
  split
  · exact fun _ _ => rfl
  split
  · exact fun _ _ => rfl
  split
  · exact fun _ _ => rfl
  rename_i i _
  split
  · exact fun _ _ => rfl
  rename_i hterm
  dsimp only
  generalize hu : (ite (((s.emit (traceThreadCancel tid)).threads i).state = .blocked) _ _ : Core) = u
  -- the thread is unblocked if it was blocked; the rest happens in its own slot
  have hw : Wakes s u := by
    rw [← hu]
    split
    · exact (woken_threadUnblockSlot (s.emit (traceThreadCancel tid)) _).wakes
    · exact .of_threads rfl
  obtain ⟨r, hr⟩ := u.setThreadState_threads i .canceled
  exact (((hw.but i).set hr).set rfl).absorbs (Bool.eq_false_iff.mpr hterm)

theorem absorbs_threadExit (s : Core) (i : Slot) (result : Nat) :
    Absorbs s (s.threadExit i result) := by
  intro j hj
  by_cases hji : j = i
  · subst hji
    unfold threadExit
    by_cases hc : (s.threads j).state = .canceled
    · rw [if_neg (not_not_intro hc)]
      show (Function.update s.threads j { s.threads j with retval := 0 } j).state = _
      rw [Function.update_self]
    · rw [if_pos hc]
      -- terminated and not cancelled: it is `DONE` already
      have hd : (s.threads j).state = .done := by
        cases hst : (s.threads j).state with
        | done => rfl
        | canceled => exact absurd hst hc
        | _ => rw [hst] at hj; nomatch hj
      rw [hd]
      show (Function.update s.threads j { s.threads j with retval := result, state := .done } j).state
        = _
      rw [Function.update_self]
  · unfold threadExit
    split <;> exact congrArg ThreadRecord.state (Function.update_of_ne hji _ s.threads)

theorem absorbs_runNext (s : Core) (x : Ctx) (caller : Caller) {pick : Option Slot}
    (hpick : ∀ i, pick = some i → threadIsTerminal (s.threads i).state = false) :
    Absorbs s (s.runNext x caller pick) := by
  cases pick with
  | none => cases caller <;> exact fun _ _ => rfl
  | some i =>
    rw [runNext_some]
    exact .set (hpick i rfl) rfl

end

/-! ## Calls that mark their caller -/

/-- The record of the current thread, as `gth_thread_yield` and `gth_thread_block` find it. -/
def currentRecord (s : Core) : Option Slot :=
  if s.initialized = true ∧ s.currentTid ≠ 0 then findThread s.threads s.currentTid else none

/-- The record of the current thread, as `gth_sem_wait` and `gth_cond_wait` find it. -/
def currentSlot (s : Core) : Option Slot :=
  if h : s.threadCurrentSlotIndex < 128 then some ⟨s.threadCurrentSlotIndex, h⟩ else none

/-- The record that `gth_mutex_lock(m)` marks `BLOCKED`. -/
def lockMarks (s : Core) (m : Addr) : Option Slot :=
  if m ≠ 0 ∧ (s.mutexes m).initialized ≠ 0 ∧ (s.mutexes m).locked ≠ 0 ∧
    (s.mutexes m).owner ≠ s.threadSelf ∧ s.threadCurrentSlotIndex < 128 ∧
    (s.mutexes m).wq.wqIsFull = false then s.currentRecord else none

/-- The record that a call marks `READY` or `BLOCKED` for its caller, if it does. -/
def callMarks (s : Core) : Call → Option Slot
  | .yield => s.currentRecord
  | .mutexLock m => s.lockMarks m
  | .semWait a =>
    if a ≠ 0 ∧ (s.sems a).initialized ≠ 0 ∧ (s.sems a).count = 0 ∧ (s.sems a).wq.wqIsFull = false
    then s.currentSlot else none
  | .condWait c m =>
    if ¬ (c = 0 ∨ m = 0) ∧ (s.conds c).initialized ≠ 0 ∧ (s.conds c).wq.wqIsFull = false
    then s.currentSlot else none
  | _ => none

/-- The same for the rest of a call that was suspended. -/
def resumeMarks (s : Core) : Frame → Option Slot
  | .lock m _ _ =>
    if (s.mutexes m).locked ≠ 0 ∧ (s.mutexes m).wq.wqIsFull = false then s.currentRecord else none
  | .condWait _ m => s.lockMarks m
  | _ => none

/-- The record `o`, if any, is left in a state that is not terminal; of the others at most the
    `BLOCKED` ones have changed. -/
def Marks (s t : Core) : Option Slot → Prop
  | none => Wakes s t
  | some i => WakesBut s t i ∧ (t.threads i).state ≠ .empty ∧
      threadIsTerminal (t.threads i).state = false

section
variable {s t u : Core} {x : Ctx}

theorem Marks.set {i : Slot} {r : ThreadRecord} (ht : t.threads = Function.update s.threads i r)
    (hr : r.state = .ready ∨ r.state = .blocked ∨ r.state = .running) : Marks s t (some i) := by
  refine ⟨fun j hji => Or.inl ?_, ?_, ?_⟩
  · rw [ht, Function.update_of_ne hji]
  · rw [ht, Function.update_self]
    rcases hr with hr | hr | hr <;> rw [hr] <;> nofun
  · rw [ht, Function.update_self]
    rcases hr with hr | hr | hr <;> rw [hr] <;> rfl

theorem currentRecord_none (hinit : s.initialized = false ∨ s.currentTid = 0) :
    s.currentRecord = none := by
  unfold currentRecord
  rcases hinit with h | h
  · exact if_neg fun hi => Bool.false_ne_true (h.symm.trans hi.1)
  · exact if_neg fun hi => hi.2 h

theorem currentRecord_find (hi : ¬ s.initialized = false) (hc : ¬ s.currentTid = 0) :
    s.currentRecord = findThread s.threads s.currentTid :=
  if_pos ⟨(Bool.not_eq_false _).mp hi, hc⟩

theorem marks_threadYield (s : Core) (x : Ctx) : Marks s (s.threadYield x) s.currentRecord := by
  unfold threadYield
  split
  · rename_i hi
    rw [currentRecord_none (Or.inl hi)]
    exact .of_threads rfl
  split
  · rename_i hc
    rw [currentRecord_none (Or.inr hc)]
    exact .of_threads rfl
  rename_i hi hc
  rw [currentRecord_find hi hc]
  split
  · rename_i hf
    rw [hf]
    exact .of_threads rfl
  · rename_i i hf
    rw [hf]
    refine .set (r := { s.threads i with state := .ready, ctx := some ⟨x, .yield⟩ }) ?_ (Or.inl rfl)
    simp only [swapOut, setThread, emit, Function.update_self, Function.update_idem]

/-- `gth_thread_block` refuses iff there is no current record, and marks it `BLOCKED` otherwise. -/
theorem marks_threadBlock (s : Core) (x : Ctx) (f : Frame) :
    (s.currentRecord = none ∧ s.threadBlock x f = none) ∨
    ∃ i t, s.currentRecord = some i ∧ s.threadBlock x f = some t ∧ Marks s t (some i) := by
  unfold threadBlock
  split
  · rename_i hi
    exact Or.inl ⟨currentRecord_none (Or.inl hi), rfl⟩
  split
  · rename_i hc
    exact Or.inl ⟨currentRecord_none (Or.inr hc), rfl⟩
  rename_i hi hc
  rw [currentRecord_find hi hc]
  split
  · exact Or.inl ⟨‹_›, rfl⟩
  · rename_i i hf
    refine Or.inr ⟨i, _, hf, rfl, ?_⟩
    refine .set (r := { s.threads i with state := .blocked, ctx := some ⟨x, f⟩ }) ?_
      (Or.inr (Or.inl rfl))
    simp only [swapOut, setThread, emit, Function.update_self, Function.update_idem]

/-- A thread that is not found goes round the loop of `gth_mutex_lock` until the queue is full. -/
theorem lockLoop_threads (x : Ctx) (m : Addr) (mySlot : Nat) (via : Option Addr) (fuel : Nat) :
    ∀ s : Core, s.currentRecord = none → (s.lockLoop x m mySlot via fuel).threads = s.threads := by
  induction fuel with
  | zero => exact fun _ _ => rfl
  | succ fuel ih =>
    intro s hs
    unfold lockLoop
    split
    · split
      · rfl
      · rcases marks_threadBlock (s.setMutex m { s.mutexes m with
            wq := (s.mutexes m).wq.wqEnqueue (mySlot % 256) }) x (.lock m mySlot via) with
          ⟨-, hb⟩ | ⟨i, t, hi, -⟩
        · dsimp only
          rw [hb]
          exact ih _ hs
        · cases hs.symm.trans hi
    · rfl

theorem marks_lockLoop (s : Core) (x : Ctx) (m : Addr) (mySlot : Nat) (via : Option Addr)
    (fuel : Nat) : Marks s (s.lockLoop x m mySlot via (fuel + 1))
      (if (s.mutexes m).locked ≠ 0 ∧ (s.mutexes m).wq.wqIsFull = false then s.currentRecord
        else none) := by
  unfold lockLoop
  by_cases hl : (s.mutexes m).locked = 0
  · rw [if_neg (not_not_intro hl), if_neg fun h => h.1 hl]
    exact .of_threads rfl
  rw [if_pos hl]
  cases hfull : (s.mutexes m).wq.wqIsFull with
  | true =>
    rw [if_pos rfl, if_neg fun h => Bool.false_ne_true h.2.symm]
    exact .of_threads rfl
  | false =>
    rw [if_neg Bool.false_ne_true, if_pos ⟨hl, rfl⟩]
    dsimp only
    rcases marks_threadBlock (s.setMutex m { s.mutexes m with
        wq := (s.mutexes m).wq.wqEnqueue (mySlot % 256) }) x (.lock m mySlot via) with
      ⟨hc, hb⟩ | ⟨i, t, hc, hb, ht⟩
    · rw [hb, show s.currentRecord = none from hc]
      exact .of_threads (lockLoop_threads x m mySlot via fuel _ hc)
    · rw [hb, show s.currentRecord = some i from hc]
      exact ht

theorem marks_mutexLock (s : Core) (x : Ctx) (m : Addr) (via : Option Addr) :
    Marks s (s.mutexLock x m via) (s.lockMarks m) := by
  unfold mutexLock lockMarks
  by_cases hm : m = 0
  · rw [if_pos hm, if_neg fun h => h.1 hm]
    exact .of_threads rfl
  rw [if_neg hm]
  by_cases hi : (s.mutexes m).initialized = 0
  · rw [if_pos hi, if_neg fun h => h.2.1 hi]
    exact .of_threads rfl
  rw [if_neg hi]
  by_cases hl : (s.mutexes m).locked = 0
  · rw [if_neg (not_not_intro hl), if_neg fun h => h.2.2.1 hl]
    exact .of_threads rfl
  rw [if_pos hl]
  by_cases ho : (s.mutexes m).owner = s.threadSelf
  · rw [if_pos ho, if_neg fun h => h.2.2.2.1 ho]
    exact .of_threads rfl
  rw [if_neg ho]
  dsimp only
  by_cases hx : 128 ≤ s.threadCurrentSlotIndex
  · rw [if_pos hx, if_neg fun h => absurd h.2.2.2.2.1 (Nat.not_lt_of_le hx)]
    exact .of_threads rfl
  rw [if_neg hx]
  cases hfull : (s.mutexes m).wq.wqIsFull with
  | true =>
    rw [if_pos rfl, if_neg fun h => Bool.false_ne_true h.2.2.2.2.2.symm]
    exact .of_threads rfl
  | false =>
    rw [if_neg Bool.false_ne_true, if_pos ⟨hm, hi, hl, ho, Nat.lt_of_not_le hx, rfl⟩]
    generalize hu : (Core.emit _ _ : Core) = u
    have huc : u.currentRecord = s.currentRecord := by rw [← hu]; rfl
    have hut : u.threads = s.threads := by rw [← hu]; rfl
    rcases marks_threadBlock u x (.lock m s.threadCurrentSlotIndex via) with
      ⟨hc, hb⟩ | ⟨i, t, hc, hb, ht⟩
    · rw [hb, ← huc, hc]
      exact .of_threads ((lockLoop_threads _ _ _ _ _ _ hc).trans hut)
    · rw [hb, ← huc, hc]
      dsimp only
      unfold Marks WakesBut at ht ⊢
      rw [hut] at ht
      exact ht

theorem marks_semWait (s : Core) (x : Ctx) (a : Addr) :
    Marks s (s.semWait x a) (s.callMarks (.semWait a)) := by
  show Marks s _ (if a ≠ 0 ∧ (s.sems a).initialized ≠ 0 ∧ (s.sems a).count = 0 ∧
    (s.sems a).wq.wqIsFull = false then s.currentSlot else none)
  unfold semWait
  by_cases ha : a = 0
  · rw [if_pos ha, if_neg fun h => h.1 ha]
    exact .of_threads rfl
  rw [if_neg ha]
  by_cases hi : (s.sems a).initialized = 0
  · rw [if_pos hi, if_neg fun h => h.2.1 hi]
    exact .of_threads rfl
  rw [if_neg hi]
  by_cases hc : (s.sems a).count = 0
  · rw [if_pos hc]
    dsimp only
    by_cases hx : s.threadCurrentSlotIndex < 128
    · rw [dif_pos hx]
      cases hfull : (s.sems a).wq.wqIsFull with
      | true =>
        rw [if_pos rfl, if_neg fun h => Bool.false_ne_true h.2.2.2.symm]
        exact .of_threads rfl
      | false =>
        rw [if_neg Bool.false_ne_true, if_pos ⟨ha, hi, hc, rfl⟩, currentSlot, dif_pos hx]
        refine .set (r := { s.threads ⟨_, hx⟩ with
          state := .blocked, ctx := some ⟨x, .semWait a⟩ }) ?_ (Or.inr (Or.inl rfl))
        simp only [swapOut, setThread, setSem, log, emit, Function.update_self, Function.update_idem]
    · rw [dif_neg hx, currentSlot, dif_neg hx, ite_self]
      exact .of_threads rfl
  · rw [if_neg hc, if_neg fun h => hc h.2.2.1]
    exact .of_threads rfl

theorem marks_condWait (s : Core) (x : Ctx) (c m : Addr) :
    Marks s (s.condWait x c m) (s.callMarks (.condWait c m)) := by
  show Marks s _ (if ¬ (c = 0 ∨ m = 0) ∧ (s.conds c).initialized ≠ 0 ∧
    (s.conds c).wq.wqIsFull = false then s.currentSlot else none)
  unfold condWait
  by_cases hcm : c = 0 ∨ m = 0
  · rw [if_pos hcm, if_neg fun h => h.1 hcm]
    exact .of_threads rfl
  rw [if_neg hcm]
  by_cases hi : (s.conds c).initialized = 0
  · rw [if_pos hi, if_neg fun h => h.2.1 hi]
    exact .of_threads rfl
  rw [if_neg hi]
  dsimp only
  by_cases hx : s.threadCurrentSlotIndex < 128
  · rw [dif_pos hx]
    cases hfull : (s.conds c).wq.wqIsFull with
    | true =>
      rw [if_pos rfl, if_neg fun h => Bool.false_ne_true h.2.2.symm]
      exact .of_threads rfl
    | false =>
      rw [if_neg Bool.false_ne_true, if_pos ⟨hcm, hi, rfl⟩, currentSlot, dif_pos hx]
      generalize (⟨s.threadCurrentSlotIndex, hx⟩ : Slot) = i
      generalize s.threadCurrentSlotIndex % 256 = n
      -- the state in which `gth_mutex_unlock` is called: marked and queued
      generalize hu : (Core.emit _ _ : Core) = u
      have hut : u.threads = Function.update s.threads i { s.threads i with state := .blocked } := by
        rw [← hu]
        rfl
      have hw := (woken_mutexUnlock u m).wakes
      have hbut : WakesBut s (u.mutexUnlock m).2 i := by
        intro j hji
        have hj := hw j
        rw [hut, Function.update_of_ne hji] at hj
        exact hj
      have hi : ((u.mutexUnlock m).2.threads i).state = .blocked ∨
          ((u.mutexUnlock m).2.threads i).state = .ready := by
        rcases hw i with h | ⟨-, h⟩
        · rw [hut, Function.update_self] at h
          exact Or.inl h
        · exact Or.inr h
      generalize u.mutexUnlock m = res at hbut hi
      obtain ⟨st, v⟩ := res
      cases st with
      | ok =>
        refine ⟨hbut.set rfl, ?_⟩
        show (Function.update v.threads i { v.threads i with ctx := _ } i).state ≠ _ ∧
          threadIsTerminal (Function.update v.threads i { v.threads i with ctx := _ } i).state = _
        rw [Function.update_self]
        rcases hi with h | h <;> exact ⟨by rw [h]; nofun, by rw [h]; rfl⟩
      | _ =>
        refine ⟨hbut.set rfl, ?_⟩
        show (Function.update v.threads i { v.threads i with state := .running } i).state ≠ _ ∧
          threadIsTerminal (Function.update v.threads i { v.threads i with state := .running } i).state
            = _
        rw [Function.update_self]
        exact ⟨nofun, rfl⟩
  · rw [dif_neg hx, currentSlot, dif_neg hx, ite_self]
    exact .of_threads rfl

/-! ## One step -/

/-- A successful join has released the slot `i`. -/
def Released (s t : Core) (i : Slot) : Prop := (t.threads i).state = .empty ∧
  ∃ tid out r, t.hist.head? = some (.ret tid (.join (s.threads i).tid out) ⟨.ok, r⟩)

/-- Terminated threads stay in the state they ended in, or have been joined. -/
def KeepsTerminal (s t : Core) : Prop := ∀ i, threadIsTerminal (s.threads i).state = true →
  (t.threads i).state = (s.threads i).state ∨ Released s t i

theorem Absorbs.keepsTerminal (h : Absorbs s t) : KeepsTerminal s t := fun i hi => Or.inl (h i hi)

/-- A step that marks a record keeps terminal states iff the record is not that of a terminated
    thread. -/
theorem Marks.keepsTerminal_iff {o : Option Slot} (h : Marks s t o) :
    KeepsTerminal s t ↔ ∀ i, o = some i → threadIsTerminal (s.threads i).state = false := by
  cases o with
  | none => exact ⟨fun _ => nofun, fun _ => (Wakes.absorbs h).keepsTerminal⟩
  | some i =>
    obtain ⟨hbut, hne, hlive⟩ := h
    constructor
    · rintro hk j hj
      obtain rfl := Option.some.inj hj
      cases hterm : threadIsTerminal (s.threads i).state with
      | false => rfl
      | true =>
        rcases hk i hterm with hsame | hrel
        · rw [hsame, hterm] at hlive
          nomatch hlive
        · exact absurd hrel.1 hne
    · intro hi
      exact (hbut.absorbs (hi i rfl)).keepsTerminal

theorem JoinMove.keepsTerminal {tid : Tid} {out : Bool} (h : JoinMove s x tid out t) :
    KeepsTerminal s t := by
  cases h with
  | fail st => exact fun _ _ => Or.inl rfl
  | sched target => exact fun _ _ => Or.inl rfl
  | free i runnable blocked retval hfind =>
    intro j hj
    by_cases hji : j = i
    · subst hji
      refine Or.inr ⟨?_, ?_⟩
      · show (Function.update s.threads j {} j).state = _
        rw [Function.update_self]
      · rw [(findThread_some hfind).2]
        exact ⟨_, _, _, rfl⟩
    · refine Or.inl ?_
      show (Function.update s.threads i {} j).state = _
      rw [Function.update_of_ne hji]

/-- **The API calls**: only one that marks its caller can bring a terminated thread back, and it
    does so iff its caller is one. -/
theorem exec_keepsTerminal_iff (s : Core) (x : Ctx) (c : Call) : KeepsTerminal s (s.exec x c) ↔
    ∀ i, s.callMarks c = some i → threadIsTerminal (s.threads i).state = false := by
  have hplain : s.callMarks c = none → KeepsTerminal s (s.exec x c) →
      (KeepsTerminal s (s.exec x c) ↔
        ∀ i, s.callMarks c = some i → threadIsTerminal (s.threads i).state = false) :=
    fun hnone hk => ⟨fun _ i hi => (nomatch hnone.symm.trans hi), fun _ => hk⟩
  have hcalm : s.callMarks c = none → Absorbs s (s.exec x c) → (KeepsTerminal s (s.exec x c) ↔
      ∀ i, s.callMarks c = some i → threadIsTerminal (s.threads i).state = false) :=
    fun hnone ha => hplain hnone ha.keepsTerminal
  have hsame : ∀ t : Core, t.threads = s.threads → Absorbs s t :=
    fun t ht => (Wakes.of_threads ht).absorbs
  cases c with
  | create outTid attr fn arg env =>
    exact hcalm rfl (absorbs_threadCreate s outTid attr fn arg env)
  | yield => exact (marks_threadYield s x).keepsTerminal_iff
  | join tid out => exact hplain rfl (s.threadJoin_move x tid out).keepsTerminal
  | cancel tid => exact hcalm rfl (absorbs_threadCancel s tid)
  | exit r =>
    cases x with
    | main => exact hcalm rfl (hsame s rfl)
    | green i => exact hcalm rfl (absorbs_threadExit s i r)
  | self => exact hcalm rfl (hsame _ rfl)
  | getStats out => exact hcalm rfl (hsame _ rfl)
  | mutexInit m =>
    refine hcalm rfl (hsame _ ?_)
    show (s.mutexInit m).2.threads = s.threads
    unfold mutexInit
    split <;> rfl
  | mutexLock m => exact (marks_mutexLock s x m none).keepsTerminal_iff
  | mutexTrylock m =>
    refine hcalm rfl (hsame _ ?_)
    show (s.mutexTrylock m).2.threads = s.threads
    unfold mutexTrylock
    split_ifs <;> rfl
  | mutexUnlock m => exact hcalm rfl (woken_mutexUnlock s m).wakes.absorbs
  | mutexDestroy m =>
    refine hcalm rfl (hsame _ ?_)
    show (s.mutexDestroy m).2.threads = s.threads
    unfold mutexDestroy
    split_ifs <;> rfl
  | semInit a n =>
    refine hcalm rfl (hsame _ ?_)
    show (s.semInit a n).2.threads = s.threads
    unfold semInit
    split <;> rfl
  | semWait a => exact (marks_semWait s x a).keepsTerminal_iff
  | semPost a => exact hcalm rfl (woken_semPost s a).wakes.absorbs
  | semDestroy a =>
    refine hcalm rfl (hsame _ ?_)
    show (s.semDestroy a).2.threads = s.threads
    unfold semDestroy
    split_ifs <;> rfl
  | condInit c =>
    refine hcalm rfl (hsame _ ?_)
    show (s.condInit c).2.threads = s.threads
    unfold condInit
    split <;> rfl
  | condWait c m => exact (marks_condWait s x c m).keepsTerminal_iff
  | condSignal c => exact hcalm rfl (woken_condSignal s c).wakes.absorbs
  | condBroadcast c => exact hcalm rfl (woken_condBroadcast s c).wakes.absorbs
  | condDestroy c =>
    refine hcalm rfl (hsame _ ?_)
    show (s.condDestroy c).2.threads = s.threads
    unfold condDestroy
    split_ifs <;> rfl

theorem resume_keepsTerminal_iff (s : Core) (k : Kont) : KeepsTerminal s (s.resume k) ↔
    ∀ i, s.resumeMarks k.frame = some i → threadIsTerminal (s.threads i).state = false := by
  obtain ⟨x, f⟩ := k
  cases f with
  | entry => exact ⟨fun _ => nofun, fun _ _ _ => Or.inl rfl⟩
  | yield => exact ⟨fun _ => nofun, fun _ _ _ => Or.inl rfl⟩
  | lock m mySlot via => exact (marks_lockLoop s x m mySlot via wqFixedSlots).keepsTerminal_iff
  | semWait a => exact ⟨fun _ => nofun, fun _ _ _ => Or.inl rfl⟩
  | condWait c m => exact (marks_mutexLock s x m (some c)).keepsTerminal_iff
  | runNext act prev caller =>
    refine ⟨fun _ => nofun, fun _ => ?_⟩
    cases caller with
    | yield => exact fun _ _ => Or.inl rfl
    | join tid out target =>
      have hjoin := joinLoop_move { s with currentTid := prev, hist := .resume act x :: s.hist } x tid
        out target
      exact hjoin.keepsTerminal

end
end Core

/-! ## Runs -/

/-- The record that a step marks `READY` or `BLOCKED` because its thread is the current one. -/
def State.suspendee (s : State) : Label → Option Slot
  | .call _ c => s.core.callMarks c
  | .sub _ _ => none
  | .tau => match s.core.cpu with
    | .swap (some k) => s.core.resumeMarks k.frame
    | _ => none

/-- The step does not mark the record of a terminated thread. -/
def SparesTerminal (s : State) (l : Label) : Prop :=
  ∀ i ∈ s.suspendee l, threadIsTerminal (s.core.threads i).state = false

instance (s : State) (l : Label) : Decidable (SparesTerminal s l) :=
  inferInstanceAs (Decidable (∀ i ∈ s.suspendee l, _ = false))

/-- `gth_scheduler_run_next` is about to switch to the thread of slot `i`. -/
def State.Selects (W : World) (s : State) (i : Slot) : Prop :=
  ∃ x caller sub, s.core.cpu = .sched x caller ∧
    s.sub.pickReadyThreadMode W s.core.config.policy s.core.threads = some (some i, sub)

/-- **Terminal states are absorbing** in a run: from every point on at which slot `i` holds a
    terminated thread, it keeps its state and is not selected, up to a join that releases it. -/
def AbsorbsTerminal (W : World) (s : State) (ls : List Label) : Prop :=
  ∀ ls₁ ls₂ u i, ls = ls₁ ++ ls₂ → Exec.exec (State.step W) s ls₁ = some u →
    threadIsTerminal (u.core.threads i).state = true →
    Exec.Unless (State.step W)
      (fun v w => (w.core.threads i).state = (u.core.threads i).state ∧ ¬ v.Selects W i)
      (fun v w => v.core.Released w.core i) u ls₂

section
variable {W : World} {s t : State} {l : Label}

/-- A terminated thread is not selected, in no mode. -/
theorem State.not_selects {i : Slot} (hi : threadIsTerminal (s.core.threads i).state = true) :
    ¬ s.Selects W i := by
  rintro ⟨x, caller, sub, -, hpick⟩
  rcases pickReadyThreadMode_state hpick with h | h <;> rw [h] at hi <;> nomatch hi

/-- **One step of the machine.** -/
theorem State.step_keepsTerminal_iff (h : State.step W s l = some t) :
    s.core.KeepsTerminal t.core ↔ SparesTerminal s l := by
  rcases State.step_cases h with ⟨x, c, rfl, -, rfl⟩ | ⟨x, c, rfl, -, -, rfl⟩ |
      ⟨x, caller, pick, sub, rfl, hcpu, hpick, rfl⟩ | ⟨k, rfl, hcpu, rfl⟩
  · exact ⟨fun _ => nofun, fun _ _ _ => Or.inl rfl⟩
  · exact s.fresh.exec_keepsTerminal_iff x c
  · have hnone : s.suspendee .tau = none := by
      show (match s.core.cpu with | .swap (some k) => _ | _ => _) = _
      rw [hcpu]
    refine ⟨fun _ i hi => (nomatch hnone.symm.trans hi), fun _ => ?_⟩
    refine (s.fresh.absorbs_runNext x caller fun i hi => ?_).keepsTerminal
    subst hi
    rcases pickReadyThreadMode_state hpick with h | h
    · show threadIsTerminal (s.core.threads i).state = false
      rw [h]
      rfl
    · show threadIsTerminal (s.core.threads i).state = false
      rw [h]
      rfl
  · have hsome : s.suspendee .tau = s.core.resumeMarks k.frame := by
      show (match s.core.cpu with | .swap (some k) => _ | _ => _) = _
      rw [hcpu]
    rw [SparesTerminal, hsome]
    exact s.fresh.resume_keepsTerminal_iff k

end

/-- **When terminal states are absorbing**: in a run, they are iff no step marks the record of a
    terminated thread `READY` or `BLOCKED`. -/
theorem terminal_absorbing_iff (W : World) (config : ValidConfig) (pageSize : BitVec 64)
    (files : Path → Option (List UInt8)) (ls : List Label) (s : State)
    (hrun : Exec.exec (State.step W) (State.start config pageSize files) ls = some s) :
    AbsorbsTerminal W (State.start config pageSize files) ls ↔
      Exec.Along (State.step W) SparesTerminal (State.start config pageSize files) ls := by
  constructor
  · intro habs
    refine Exec.along_of_steps hrun fun ls₁ l ls₂ u hls hu => ?_
    -- the run goes on with `l`, and its first step keeps the terminal states there are
    have hrest := hrun
    rw [hls, Exec.exec_append, hu, Option.bind_some] at hrest
    obtain ⟨v, hv, -⟩ := Option.bind_eq_some_iff.mp hrest
    refine (State.step_keepsTerminal_iff hv).mp fun i hi => ?_
    rcases habs ls₁ (l :: ls₂) u i hls hu hi v hv with hrel | ⟨⟨hsame, -⟩, -⟩
    · exact Or.inr hrel
    · exact Or.inl hsame
  · intro hG ls₁ ls₂ u i hls hu hi
    rw [hls, Exec.along_append ls₁ _ _ hu] at hG
    refine Exec.unless_inv (I := fun v => (v.core.threads i).state = (u.core.threads i).state)
      (fun v l w hv hGv hw => ?_) ls₂ u rfl hG.2
    have hvi : threadIsTerminal (v.core.threads i).state = true := by rw [hv]; exact hi
    rcases (State.step_keepsTerminal_iff hw).mpr hGv i hvi with hsame | hrel
    · exact Or.inr ⟨⟨hsame.trans hv, State.not_selects hvi⟩, hsame.trans hv⟩
    · exact Or.inl hrel

/-- A thread starts, and cancels itself. -/
def selfCancelRun : List Label :=
  [Sample.main Sample.create, Sample.main .yield, .tau, .tau, Sample.green 0 (.cancel 1)]

/-- A thread that cancels itself and returns is `CANCELED` until it is joined. -/
theorem terminal_absorbing_exit : AbsorbsTerminal Sample.world Sample.start
    (selfCancelRun ++ [Sample.green 0 (.exit 5), .tau, Sample.main (.join 1 true)]) := by
  obtain ⟨s, hs⟩ := Option.isSome_iff_exists.mp (show (Exec.exec (State.step Sample.world)
    Sample.start (selfCancelRun ++ [Sample.green 0 (.exit 5), .tau, Sample.main (.join 1 true)])).isSome
      = true by decide +kernel)
  exact (terminal_absorbing_iff Sample.world Sample.config 4096#64 (fun _ => none) _ s hs).mpr
    (by decide +kernel)

/-- **A cancelled thread that comes back**: thread 1 cancels itself, successfully, and yields.  It
    is `READY` again, and the next yield of main selects it. -/
theorem canceled_thread_runs_again : ∃ u v w,
    Exec.exec (State.step Sample.world) Sample.start selfCancelRun = some u ∧
    u.core.hist.head? = some (.ret 1 (.cancel 1) ⟨.ok, []⟩) ∧
    (u.core.threads 0).state = .canceled ∧
    Exec.exec (State.step Sample.world) u [Sample.green 0 .yield] = some v ∧
    (v.core.threads 0).state = .ready ∧
    Exec.exec (State.step Sample.world) v [.tau, Sample.main .yield] = some w ∧
    w.Selects Sample.world 0 ∧
    ¬ AbsorbsTerminal Sample.world Sample.start (selfCancelRun ++ [Sample.green 0 .yield]) := by
  refine ⟨_, _, _, rfl, rfl, rfl, rfl, rfl, rfl, ⟨.main, .yield, _, rfl, rfl⟩, fun habs => ?_⟩
  rcases habs selfCancelRun _ _ 0 rfl rfl rfl _ rfl with hrel | ⟨⟨hsame, -⟩, -⟩
  · nomatch hrel.1
  · nomatch hsame

end Gth

/-
  Objects in user memory.

  Mutexes, semaphores and condition variables are memory of the user, and what is in it before
  `gth_mutex_init` and its like is arbitrary.  Here: a program that initialises each object before it
  uses it cannot tell.  `graft A o` puts the objects in `A` as they are in `o` into a state; every code
  segment that works on no object of `A` commutes with it, `init` takes its object out of `A`, and
  stacks that are suspended inside a call go on with objects they have used before (`Clear`).
-/
import Gthreads.Housing
import Gthreads.Queues

namespace Gth

/-- The objects whose memory a call looks at.  `NULL` is refused before. -/
def Call.uses : Call → List Obj
  | .mutexLock m | .mutexTrylock m | .mutexUnlock m | .mutexDestroy m => [.mutex m]
  | .semWait a | .semPost a | .semDestroy a => [.sem a]
  | .condWait c m => [.cond c, .mutex m]
  | .condSignal c | .condBroadcast c | .condDestroy c => [.cond c]
  | _ => []

def Obj.addr : Obj → Addr
  | .mutex m => m
  | .sem a => a
  | .cond c => c

/-- The object a suspended stack looks at when it goes on. -/
def Frame.uses : Frame → Option Obj
  | .lock m _ _ => some (.mutex m)
  | .condWait _ m => some (.mutex m)
  | _ => none

/-- A set of objects nobody has initialised. -/
abbrev Raw := Obj → Bool

/-- The call works on no object of `A`. -/
def Call.Off (A : Raw) (c : Call) : Prop := ∀ o ∈ c.uses, o.addr ≠ 0 → A o = false

def Frame.Off (A : Raw) (f : Frame) : Prop := ∀ o, f.uses = some o → A o = false

theorem Frame.off_of_none {A : Raw} {f : Frame} (h : f.uses = none) : f.Off A := by
  intro o ho
  rw [h] at ho
  cases ho

theorem Frame.off_of_some {A : Raw} {f : Frame} {o : Obj} (h : f.uses = some o) (ho : A o = false) :
    f.Off A := by
  intro o' ho'
  obtain rfl := Option.some.inj (h.symm.trans ho')
  exact ho

/-- What is left of `A` after the call. -/
def Call.claim (A : Raw) (c : Call) : Raw := match c.inits with
  | some o => if o.addr = 0 then A else Function.update A o false
  | none => A

theorem Call.claim_null {A : Raw} {c : Call} {o : Obj} (h : c.inits = some o) (ho : o.addr = 0) :
    c.claim A = A := by
  rw [claim, h]
  exact if_pos ho

theorem Call.claim_init {A : Raw} {c : Call} {o : Obj} (h : c.inits = some o) (ho : o.addr ≠ 0) :
    c.claim A = Function.update A o false := by
  rw [claim, h]
  exact if_neg ho

namespace Core

/-- The state `s` with the objects in `A` as they are in `o`. -/
abbrev graft (s : Core) (A : Raw) (o : Core) : Core :=
  { s with
    mutexes := fun m => if A (.mutex m) then o.mutexes m else s.mutexes m
    sems := fun a => if A (.sem a) then o.sems a else s.sems a
    conds := fun c => if A (.cond c) then o.conds c else s.conds c }

section
variable {A : Raw} {o s : Core} {x : Ctx} {m a c : Addr}

/-! ## Reads and writes -/

theorem graft_mutex (h : A (.mutex m) = false) : (s.graft A o).mutexes m = s.mutexes m :=
  if_neg (by rw [h]; exact Bool.false_ne_true)

theorem graft_sem (h : A (.sem a) = false) : (s.graft A o).sems a = s.sems a :=
  if_neg (by rw [h]; exact Bool.false_ne_true)

theorem graft_cond (h : A (.cond c) = false) : (s.graft A o).conds c = s.conds c :=
  if_neg (by rw [h]; exact Bool.false_ne_true)

/-- One map of a graft: an update takes its address out of `A`. -/
theorem update_graft {β : Type} (f : Addr → Obj) (hf : Function.Injective f) (n : Addr) (v : β)
    (old new : Addr → β) : Function.update (fun k => if A (f k) then old k else new k) n v
      = fun k => if Function.update A (f n) false (f k) then old k else Function.update new n v k := by
  funext k
  by_cases hk : k = n
  · subst hk
    simp only [Function.update_self, Bool.false_eq_true, if_false]
  · rw [Function.update_of_ne hk, Function.update_of_ne hk, Function.update_of_ne (hf.ne hk)]

/-- The maps of the other kinds. -/
theorem update_graft_other {β : Type} (f : Addr → Obj) {b : Obj} (hb : ∀ k, f k ≠ b)
    (old new : Addr → β) : (fun k => if Function.update A b false (f k) then old k else new k)
      = fun k => if A (f k) then old k else new k := by
  funext k
  rw [Function.update_of_ne (hb k)]

/-- Storing an object takes it out of `A`. -/
theorem graft_setObj (b : Obj) (impl : b.Impl) : (s.graft A o).setObj b impl
    = (s.setObj b impl).graft (Function.update A b false) o := by
  cases b with
  | mutex m =>
    change MutexImpl at impl
    show setMutex _ m impl = (s.setMutex m impl).graft _ o
    unfold setMutex graft
    rw [update_graft Obj.mutex fun _ _ h => Obj.mutex.inj h,
      update_graft_other (b := .mutex m) Obj.sem nofun,
      update_graft_other (b := .mutex m) Obj.cond nofun]
  | sem a =>
    change SemImpl at impl
    show setSem _ a impl = (s.setSem a impl).graft _ o
    unfold setSem graft
    rw [update_graft Obj.sem fun _ _ h => Obj.sem.inj h,
      update_graft_other (b := .sem a) Obj.mutex nofun,
      update_graft_other (b := .sem a) Obj.cond nofun]
  | cond c =>
    change CondImpl at impl
    show setCond _ c impl = (s.setCond c impl).graft _ o
    unfold setCond graft
    rw [update_graft Obj.cond fun _ _ h => Obj.cond.inj h,
      update_graft_other (b := .cond c) Obj.mutex nofun,
      update_graft_other (b := .cond c) Obj.sem nofun]

theorem graft_threadSelf : (s.graft A o).threadSelf = s.threadSelf := rfl

theorem graft_threadCurrentSlotIndex :
    (s.graft A o).threadCurrentSlotIndex = s.threadCurrentSlotIndex := rfl

theorem graft_emit (e : Event) : (s.graft A o).emit e = (s.emit e).graft A o := rfl

theorem graft_log (ob : Obs) : (s.graft A o).log ob = (s.log ob).graft A o := rfl

theorem graft_mark (i : Slot) (st : ThreadState) (blocked : Nat) :
    { (s.graft A o).setThread i { s.threads i with state := st } with blockedThreads := blocked }
      = { s.setThread i { s.threads i with state := st } with blockedThreads := blocked }.graft A o :=
  rfl

theorem update_off {b : Obj} (h : A b = false) : Function.update A b false = A := by
  rw [← h, Function.update_eq_self]

/-- An object outside `A` is stored. -/
theorem graft_writeObj {b : Obj} (h : A b = false) (impl : b.Impl) :
    (s.graft A o).setObj b impl = (s.setObj b impl).graft A o := by
  rw [graft_setObj, update_off h]

theorem graft_writeMutex (h : A (.mutex m) = false) (impl : MutexImpl) :
    (s.graft A o).setMutex m impl = (s.setMutex m impl).graft A o := graft_writeObj h impl

theorem graft_writeSem (h : A (.sem a) = false) (impl : SemImpl) :
    (s.graft A o).setSem a impl = (s.setSem a impl).graft A o := graft_writeObj h impl

theorem graft_writeCond (h : A (.cond c) = false) (impl : CondImpl) :
    (s.graft A o).setCond c impl = (s.setCond c impl).graft A o := graft_writeObj h impl

/-! ## Threads

    `src/thread` and `src/sched` know nothing of objects. -/

theorem threadUnblockSlot_graft (n : Nat) : (s.graft A o).threadUnblockSlot n
    = ((s.threadUnblockSlot n).1, (s.threadUnblockSlot n).2.graft A o) := by
  unfold threadUnblockSlot
  by_cases hinit : s.initialized = false
  · rw [if_pos hinit, if_pos hinit]
  rw [if_neg hinit, if_neg hinit]
  by_cases hn : n < 128
  · rw [dif_pos hn, dif_pos hn]
    by_cases hst : (s.threads ⟨n, hn⟩).state ≠ .blocked
    · rw [if_pos hst, if_pos hst]
    · rw [if_neg hst, if_neg hst]
      rfl
  · rw [dif_neg hn, dif_neg hn]

theorem threadBlock_graft (f : Frame) : (s.graft A o).threadBlock x f
    = (s.threadBlock x f).map fun t => t.graft A o := by
  unfold threadBlock
  by_cases hinit : s.initialized = false
  · rw [if_pos hinit, if_pos hinit]
    rfl
  rw [if_neg hinit, if_neg hinit]
  by_cases hcur : s.currentTid = 0
  · rw [if_pos hcur, if_pos hcur]
    rfl
  rw [if_neg hcur, if_neg hcur]
  cases findThread s.threads s.currentTid <;> rfl

theorem threadYield_graft : (s.graft A o).threadYield x = (s.threadYield x).graft A o := by
  unfold threadYield
  by_cases hinit : s.initialized = false
  · rw [if_pos hinit, if_pos hinit]
    rfl
  rw [if_neg hinit, if_neg hinit]
  by_cases hcur : s.currentTid = 0
  · rw [if_pos hcur, if_pos hcur]
  rw [if_neg hcur, if_neg hcur]
  cases findThread s.threads s.currentTid <;> rfl

theorem threadExit_graft (i : Slot) (result : Nat) :
    (s.graft A o).threadExit i result = (s.threadExit i result).graft A o := by
  unfold threadExit
  by_cases hst : (s.threads i).state ≠ .canceled
  · rw [if_pos hst, if_pos hst]
    rfl
  · rw [if_neg hst, if_neg hst]
    rfl

theorem threadCreate_graft (outTid : Bool) (attr : Option Nat) (fn arg : Nat) (env : MapEnv) :
    (s.graft A o).threadCreate outTid attr fn arg env
      = ((s.threadCreate outTid attr fn arg env).1,
        (s.threadCreate outTid attr fn arg env).2.graft A o) := by
  unfold threadCreate
  by_cases hinit : s.initialized = false
  · rw [if_pos hinit, if_pos hinit]
  rw [if_neg hinit, if_neg hinit]
  by_cases harg : outTid = false ∨ fn = 0
  · rw [if_pos harg, if_pos harg]
  rw [if_neg harg, if_neg harg]
  cases allocThreadSlot s.threads with
  | none => rfl
  | some i =>
    dsimp only
    generalize stackAllocate s.pageSize env s.config.stackSizeBytes = r
    obtain ⟨st, stack⟩ := r
    cases st <;> rfl

theorem setThreadState_graft (i : Slot) (st : ThreadState) :
    (s.graft A o).setThreadState i st = (s.setThreadState i st).graft A o := by
  unfold setThreadState
  by_cases hsame : (s.threads i).state = st
  · rw [if_pos hsame, if_pos hsame]
  rw [if_neg hsame, if_neg hsame]
  have hacc : ∀ old : ThreadState, (s.graft A o).accountStateChange old st
      = (s.accountStateChange old st).graft A o := by
    intro old
    unfold accountStateChange
    split_ifs <;> rfl
  rw [hacc]
  rfl

theorem threadCancel_graft (tid : Tid) : (s.graft A o).threadCancel tid
    = ((s.threadCancel tid).1, (s.threadCancel tid).2.graft A o) := by
  unfold threadCancel
  by_cases hinit : s.initialized = false
  · rw [if_pos hinit, if_pos hinit]
  rw [if_neg hinit, if_neg hinit]
  by_cases htid : tid = 0
  · rw [if_pos htid, if_pos htid]
  rw [if_neg htid, if_neg htid]
  cases findThread s.threads tid with
  | none => rfl
  | some i =>
    dsimp only
    by_cases hterm : threadIsTerminal (s.threads i).state = true
    · rw [if_pos hterm, if_pos hterm]
    rw [if_neg hterm, if_neg hterm]
    rw [graft_emit]
    generalize s.emit (traceThreadCancel tid) = t
    by_cases hblocked : (t.threads i).state = .blocked
    · rw [if_pos hblocked, if_pos hblocked, threadUnblockSlot_graft]
      dsimp only
      rw [setThreadState_graft]
      rfl
    · rw [if_neg hblocked, if_neg hblocked, setThreadState_graft]
      rfl

theorem joinFinish_graft (tid : Tid) (out : Bool) (i : Slot) :
    (s.graft A o).joinFinish x tid out i = (s.joinFinish x tid out i).graft A o := by
  have hfree : (s.graft A o).threadReleaseSlot i = (s.threadReleaseSlot i).graft A o := by
    unfold threadReleaseSlot
    split_ifs <;> rfl
  unfold joinFinish
  rw [hfree]
  rfl

theorem joinLoop_graft (tid : Tid) (out : Bool) (target : Slot) :
    (s.graft A o).joinLoop x tid out target = (s.joinLoop x tid out target).graft A o := by
  unfold joinLoop
  by_cases hterm : threadIsTerminal (s.threads target).state = true
  · rw [if_pos hterm, if_pos hterm]
    cases findThread s.threads tid with
    | none => rfl
    | some i => exact joinFinish_graft tid out i
  · rw [if_neg hterm, if_neg hterm]

theorem threadJoin_graft (tid : Tid) (out : Bool) :
    (s.graft A o).threadJoin x tid out = (s.threadJoin x tid out).graft A o := by
  unfold threadJoin
  by_cases hinit : s.initialized = false
  · rw [if_pos hinit, if_pos hinit]
    rfl
  rw [if_neg hinit, if_neg hinit]
  by_cases htid : tid = 0
  · rw [if_pos htid, if_pos htid]
    rfl
  rw [if_neg htid, if_neg htid]
  by_cases hself : tid = s.currentTid
  · rw [if_pos hself, if_pos hself]
    rfl
  rw [if_neg hself, if_neg hself]
  cases findThread s.threads tid with
  | none => rfl
  | some i =>
    dsimp only
    by_cases hterm : threadIsTerminal (s.threads i).state = true
    · rw [if_pos hterm, if_pos hterm]
      exact joinFinish_graft tid out i
    · rw [if_neg hterm, if_neg hterm]
      exact joinLoop_graft tid out i

theorem runNext_graft (caller : Caller) (pick : Option Slot) :
    (s.graft A o).runNext x caller pick = (s.runNext x caller pick).graft A o := by
  cases pick with
  | none => cases caller <;> rfl
  | some i => rfl

theorem wakeWaiter_graft (n : Nat) (e : Event) :
    (s.graft A o).wakeWaiter n e = (s.wakeWaiter n e).graft A o := by
  unfold wakeWaiter
  by_cases hn : n ≠ 0xFF
  · rw [if_pos hn, if_pos hn]
    exact congrArg Prod.snd (threadUnblockSlot_graft (s := s.emit e) n)
  · rw [if_neg hn, if_neg hn]

/-! ## Mutexes -/

theorem lockAcquire_graft (h : A (.mutex m) = false) (via : Option Addr) :
    (s.graft A o).lockAcquire x m via = (s.lockAcquire x m via).graft A o := by
  unfold lockAcquire
  rw [graft_mutex h, graft_writeMutex h]
  rfl

theorem lockLoop_graft (h : A (.mutex m) = false) (mySlot : Nat) (via : Option Addr) (fuel : Nat) :
    ∀ s : Core, (s.graft A o).lockLoop x m mySlot via fuel
      = (s.lockLoop x m mySlot via fuel).graft A o := by
  induction fuel with
  | zero => exact fun s => rfl
  | succ fuel ih =>
    intro s
    unfold lockLoop
    rw [graft_mutex h]
    by_cases hl : (s.mutexes m).locked ≠ 0
    · rw [if_pos hl, if_pos hl]
      by_cases hfull : (s.mutexes m).wq.wqIsFull = true
      · rw [if_pos hfull, if_pos hfull]
        rfl
      rw [if_neg hfull, if_neg hfull, graft_writeMutex h]
      dsimp only
      rw [threadBlock_graft]
      cases (s.setMutex m _).threadBlock x (.lock m mySlot via) with
      | none => exact ih _
      | some t => rfl
    · rw [if_neg hl, if_neg hl]
      exact lockAcquire_graft h via

theorem mutexLock_graft (h : m ≠ 0 → A (.mutex m) = false) (via : Option Addr) :
    (s.graft A o).mutexLock x m via = (s.mutexLock x m via).graft A o := by
  unfold mutexLock
  by_cases hm : m = 0
  · rw [if_pos hm, if_pos hm]
    rfl
  rw [if_neg hm, if_neg hm, graft_mutex (h hm)]
  by_cases hi : (s.mutexes m).initialized = 0
  · rw [if_pos hi, if_pos hi]
    rfl
  rw [if_neg hi, if_neg hi]
  by_cases hl : (s.mutexes m).locked ≠ 0
  · rw [if_pos hl, if_pos hl]
    rw [graft_threadSelf, graft_threadCurrentSlotIndex]
    by_cases ho : (s.mutexes m).owner = s.threadSelf
    · rw [if_pos ho, if_pos ho]
      rfl
    rw [if_neg ho, if_neg ho]
    dsimp only
    by_cases hslot : 128 ≤ s.threadCurrentSlotIndex
    · rw [if_pos hslot, if_pos hslot]
      rfl
    rw [if_neg hslot, if_neg hslot]
    by_cases hfull : (s.mutexes m).wq.wqIsFull = true
    · rw [if_pos hfull, if_pos hfull]
      rfl
    rw [if_neg hfull, if_neg hfull, graft_writeMutex (h hm)]
    generalize s.setMutex m _ = t
    rw [graft_threadSelf, graft_emit, threadBlock_graft]
    cases (t.emit _).threadBlock x (.lock m s.threadCurrentSlotIndex via) with
    | none => exact lockLoop_graft (h hm) _ via _ _
    | some t => rfl
  · rw [if_neg hl, if_neg hl]
    exact lockAcquire_graft (h hm) via

theorem mutexTrylock_graft (h : m ≠ 0 → A (.mutex m) = false) : (s.graft A o).mutexTrylock m
    = ((s.mutexTrylock m).1, (s.mutexTrylock m).2.graft A o) := by
  unfold mutexTrylock
  by_cases hm : m = 0
  · rw [if_pos hm, if_pos hm]
  rw [if_neg hm, if_neg hm, graft_mutex (h hm)]
  by_cases hi : (s.mutexes m).initialized = 0
  · rw [if_pos hi, if_pos hi]
  rw [if_neg hi, if_neg hi]
  by_cases hl : (s.mutexes m).locked ≠ 0
  · rw [if_pos hl, if_pos hl]
  rw [if_neg hl, if_neg hl, graft_writeMutex (h hm)]
  rfl

theorem mutexUnlock_graft (h : m ≠ 0 → A (.mutex m) = false) : (s.graft A o).mutexUnlock m
    = ((s.mutexUnlock m).1, (s.mutexUnlock m).2.graft A o) := by
  unfold mutexUnlock
  by_cases hm : m = 0
  · rw [if_pos hm, if_pos hm]
  have hA := h hm
  rw [if_neg hm, if_neg hm, graft_mutex hA]
  by_cases hi : (s.mutexes m).initialized = 0
  · rw [if_pos hi, if_pos hi]
  rw [if_neg hi, if_neg hi]
  by_cases hl : (s.mutexes m).locked = 0
  · rw [if_pos hl, if_pos hl]
  rw [if_neg hl, if_neg hl, graft_threadSelf]
  by_cases ho : (s.mutexes m).owner ≠ 0 ∧ (s.mutexes m).owner ≠ s.threadSelf
  · rw [if_pos ho, if_pos ho]
  rw [if_neg ho, if_neg ho, graft_writeMutex hA]
  generalize s.setMutex m _ = t
  dsimp -proj only
  rw [graft_mutex hA]
  by_cases hempty : (t.mutexes m).wq.wqIsEmpty = false
  · rw [if_pos hempty, if_pos hempty, graft_writeMutex hA, wakeWaiter_graft]
    rfl
  · rw [if_neg hempty, if_neg hempty]
    rfl

theorem mutexDestroy_graft (h : m ≠ 0 → A (.mutex m) = false) : (s.graft A o).mutexDestroy m
    = ((s.mutexDestroy m).1, (s.mutexDestroy m).2.graft A o) := by
  unfold mutexDestroy
  by_cases hm : m = 0
  · rw [if_pos hm, if_pos hm]
  rw [if_neg hm, if_neg hm, graft_mutex (h hm)]
  by_cases hi : (s.mutexes m).initialized = 0
  · rw [if_pos hi, if_pos hi]
  rw [if_neg hi, if_neg hi]
  by_cases hl : (s.mutexes m).locked ≠ 0
  · rw [if_pos hl, if_pos hl]
  rw [if_neg hl, if_neg hl]
  by_cases hempty : (s.mutexes m).wq.wqIsEmpty = false
  · rw [if_pos hempty, if_pos hempty]
  · rw [if_neg hempty, if_neg hempty, graft_writeMutex (h hm)]

/-! ## Semaphores -/

theorem semQueued_graft (h : A (.sem a) = false) (i : Slot) :
    (s.graft A o).semQueued x a i = (s.semQueued x a i).graft A o := by
  unfold semQueued
  dsimp -proj only
  rw [graft_mark, graft_sem h, graft_writeSem h]
  rfl

theorem semWait_graft (h : a ≠ 0 → A (.sem a) = false) :
    (s.graft A o).semWait x a = (s.semWait x a).graft A o := by
  unfold semWait
  by_cases ha : a = 0
  · rw [if_pos ha, if_pos ha]
    rfl
  have hA := h ha
  rw [if_neg ha, if_neg ha, graft_sem hA]
  by_cases hi : (s.sems a).initialized = 0
  · rw [if_pos hi, if_pos hi]
    rfl
  rw [if_neg hi, if_neg hi]
  by_cases hcount : (s.sems a).count = 0
  · rw [if_pos hcount, if_pos hcount, graft_threadCurrentSlotIndex]
    dsimp -proj only
    by_cases hx : s.threadCurrentSlotIndex < 128
    · rw [dif_pos hx, dif_pos hx]
      by_cases hfull : (s.sems a).wq.wqIsFull = true
      · rw [if_pos hfull, if_pos hfull]
        rfl
      rw [if_neg hfull, if_neg hfull]
      exact congrArg (fun t => t.swapOut ⟨_, hx⟩ x (.semWait a)) (semQueued_graft hA ⟨_, hx⟩)
    · rw [dif_neg hx, dif_neg hx]
      rfl
  · rw [if_neg hcount, if_neg hcount, graft_writeSem hA]
    generalize s.setSem a _ = t
    dsimp -proj only
    rw [graft_log, graft_sem hA]
    rfl

theorem semPost_graft (h : a ≠ 0 → A (.sem a) = false) : (s.graft A o).semPost a
    = ((s.semPost a).1, (s.semPost a).2.graft A o) := by
  unfold semPost
  by_cases ha : a = 0
  · rw [if_pos ha, if_pos ha]
  have hA := h ha
  rw [if_neg ha, if_neg ha, graft_sem hA]
  by_cases hi : (s.sems a).initialized = 0
  · rw [if_pos hi, if_pos hi]
  rw [if_neg hi, if_neg hi]
  by_cases hempty : (s.sems a).wq.wqIsEmpty = false
  · rw [if_pos hempty, if_pos hempty, graft_writeSem hA]
    generalize s.setSem a _ = t
    dsimp -proj only
    rw [graft_log, wakeWaiter_graft, graft_sem hA]
    rfl
  rw [if_neg hempty, if_neg hempty]
  by_cases hmax : (s.sems a).count = 2 ^ 32 - 1
  · rw [if_pos hmax, if_pos hmax]
  rw [if_neg hmax, if_neg hmax, graft_writeSem hA]
  dsimp -proj only
  rw [graft_sem hA]
  rfl

theorem semDestroy_graft (h : a ≠ 0 → A (.sem a) = false) : (s.graft A o).semDestroy a
    = ((s.semDestroy a).1, (s.semDestroy a).2.graft A o) := by
  unfold semDestroy
  by_cases ha : a = 0
  · rw [if_pos ha, if_pos ha]
  rw [if_neg ha, if_neg ha, graft_sem (h ha)]
  by_cases hi : (s.sems a).initialized = 0
  · rw [if_pos hi, if_pos hi]
  rw [if_neg hi, if_neg hi]
  by_cases hempty : (s.sems a).wq.wqIsEmpty = false
  · rw [if_pos hempty, if_pos hempty]
  · rw [if_neg hempty, if_neg hempty, graft_writeSem (h ha)]

/-! ## Condition variables -/

theorem condSignal_graft (h : c ≠ 0 → A (.cond c) = false) : (s.graft A o).condSignal c
    = ((s.condSignal c).1, (s.condSignal c).2.graft A o) := by
  unfold condSignal
  by_cases hc : c = 0
  · rw [if_pos hc, if_pos hc]
  rw [if_neg hc, if_neg hc, graft_cond (h hc)]
  by_cases hi : (s.conds c).initialized = 0
  · rw [if_pos hi, if_pos hi]
  rw [if_neg hi, if_neg hi]
  by_cases hempty : (s.conds c).wq.wqIsEmpty = false
  · rw [if_pos hempty, if_pos hempty, graft_writeCond (h hc)]
    dsimp -proj only
    rw [wakeWaiter_graft]
    rfl
  · rw [if_neg hempty, if_neg hempty]

theorem broadcastLoop_graft (h : A (.cond c) = false) (fuel : Nat) : ∀ (s : Core) (wakeCount : Nat),
    (s.graft A o).broadcastLoop c wakeCount fuel
      = ((s.broadcastLoop c wakeCount fuel).1, (s.broadcastLoop c wakeCount fuel).2.graft A o) := by
  induction fuel with
  | zero => exact fun s wakeCount => rfl
  | succ fuel ih =>
    intro s wakeCount
    unfold broadcastLoop
    rw [graft_cond h]
    by_cases hempty : (s.conds c).wq.wqIsEmpty = false
    · rw [if_pos hempty, if_pos hempty, graft_writeCond h]
      dsimp -proj only
      by_cases hff : (s.conds c).wq.wqDequeue.1 ≠ 0xFF
      · rw [if_pos hff, if_pos hff, threadUnblockSlot_graft]
        exact ih _ _
      · rw [if_neg hff, if_neg hff]
        exact ih _ _
    · rw [if_neg hempty, if_neg hempty]

theorem condBroadcast_graft (h : c ≠ 0 → A (.cond c) = false) : (s.graft A o).condBroadcast c
    = ((s.condBroadcast c).1, (s.condBroadcast c).2.graft A o) := by
  unfold condBroadcast
  by_cases hc : c = 0
  · rw [if_pos hc, if_pos hc]
  rw [if_neg hc, if_neg hc, graft_cond (h hc)]
  by_cases hi : (s.conds c).initialized = 0
  · rw [if_pos hi, if_pos hi]
  rw [if_neg hi, if_neg hi, broadcastLoop_graft (h hc)]
  rfl

theorem condDestroy_graft (h : c ≠ 0 → A (.cond c) = false) : (s.graft A o).condDestroy c
    = ((s.condDestroy c).1, (s.condDestroy c).2.graft A o) := by
  unfold condDestroy
  by_cases hc : c = 0
  · rw [if_pos hc, if_pos hc]
  rw [if_neg hc, if_neg hc, graft_cond (h hc)]
  by_cases hi : (s.conds c).initialized = 0
  · rw [if_pos hi, if_pos hi]
  rw [if_neg hi, if_neg hi]
  by_cases hempty : (s.conds c).wq.wqIsEmpty = false
  · rw [if_pos hempty, if_pos hempty]
  · rw [if_neg hempty, if_neg hempty, graft_writeCond (h hc)]

theorem condQueued_graft (h : A (.cond c) = false) (i : Slot) :
    (s.graft A o).condQueued c i = (s.condQueued c i).graft A o := by
  unfold condQueued
  dsimp -proj only
  rw [graft_mark, graft_cond h, graft_writeCond h]
  rfl

theorem condUnqueued_graft (h : A (.cond c) = false) (i : Slot) :
    (s.graft A o).condUnqueued c i = (s.condUnqueued c i).graft A o := by
  unfold condUnqueued
  dsimp -proj only
  rw [graft_mark, graft_cond h, graft_writeCond h]
  rfl

theorem condWait_graft (hc : c ≠ 0 → A (.cond c) = false) (hm : m ≠ 0 → A (.mutex m) = false) :
    (s.graft A o).condWait x c m = (s.condWait x c m).graft A o := by
  unfold condWait
  by_cases hcm : c = 0 ∨ m = 0
  · rw [if_pos hcm, if_pos hcm]
    rfl
  have hA : A (.cond c) = false := hc fun h => hcm (Or.inl h)
  rw [if_neg hcm, if_neg hcm, graft_cond hA]
  by_cases hi : (s.conds c).initialized = 0
  · rw [if_pos hi, if_pos hi]
    rfl
  rw [if_neg hi, if_neg hi, graft_threadCurrentSlotIndex]
  dsimp -proj only
  by_cases hx : s.threadCurrentSlotIndex < 128
  · rw [dif_pos hx, dif_pos hx]
    by_cases hfull : (s.conds c).wq.wqIsFull = true
    · rw [if_pos hfull, if_pos hfull]
      rfl
    rw [if_neg hfull, if_neg hfull]
    generalize hu : (Core.emit _ _ : Core) = u
    generalize hv : (Core.emit _ _ : Core) = v
    obtain rfl : u = v.graft A o := by
      rw [← hu, ← hv]
      exact condQueued_graft hA ⟨_, hx⟩
    rw [mutexUnlock_graft hm]
    generalize v.mutexUnlock m = r
    obtain ⟨st, w⟩ := r
    have hundo : ((w.graft A o).condUnqueued c ⟨_, hx⟩).ret x (.condWait c m) ⟨st, []⟩
        = ((w.condUnqueued c ⟨_, hx⟩).ret x (.condWait c m) ⟨st, []⟩).graft A o := by
      rw [condUnqueued_graft hA]
      rfl
    cases st with
    | ok => rfl
    | _ => exact hundo
  · rw [dif_neg hx, dif_neg hx]
    rfl

/-! ## Code segments -/

/-- A call that returns at once. -/
theorem done_graft {call : Call} {r r' : Status × Core} (h : r' = (r.1, r.2.graft A o)) :
    done x call r' = (done x call r).graft A o := by
  rw [h]
  rfl

theorem mutexInit_graft (m : Addr) : (s.graft A o).mutexInit m
    = ((s.mutexInit m).1, (s.mutexInit m).2.graft ((Call.mutexInit m).claim A) o) := by
  unfold mutexInit
  by_cases hm : m = 0
  · rw [if_pos hm, if_pos hm, Call.claim_null (o := .mutex m) rfl hm]
  · rw [if_neg hm, if_neg hm, Call.claim_init (o := .mutex m) rfl hm]
    exact congrArg (Prod.mk _) (graft_setObj (.mutex m) _)

theorem semInit_graft (a : Addr) (n : Nat) : (s.graft A o).semInit a n
    = ((s.semInit a n).1, (s.semInit a n).2.graft ((Call.semInit a n).claim A) o) := by
  unfold semInit
  by_cases ha : a = 0
  · rw [if_pos ha, if_pos ha, Call.claim_null (o := .sem a) rfl ha]
  · rw [if_neg ha, if_neg ha, Call.claim_init (o := .sem a) rfl ha]
    exact congrArg (Prod.mk _) (graft_setObj (.sem a) _)

theorem condInit_graft (c : Addr) : (s.graft A o).condInit c
    = ((s.condInit c).1, (s.condInit c).2.graft ((Call.condInit c).claim A) o) := by
  unfold condInit
  by_cases hc : c = 0
  · rw [if_pos hc, if_pos hc, Call.claim_null (o := .cond c) rfl hc]
  · rw [if_neg hc, if_neg hc, Call.claim_init (o := .cond c) rfl hc]
    exact congrArg (Prod.mk _) (graft_setObj (.cond c) _)

/-- **Every API call** that works on no object of `A` commutes with the graft; an `init` takes its
    object out of it. -/
theorem exec_graft {call : Call} (h : call.Off A) :
    (s.graft A o).exec x call = (s.exec x call).graft (call.claim A) o := by
  cases call with
  | create outTid attr fn arg env =>
    show Core.ret _ x _ _ = _
    rw [threadCreate_graft]
    rfl
  | yield => exact threadYield_graft
  | join tid out => exact threadJoin_graft tid out
  | cancel tid => exact done_graft (threadCancel_graft tid)
  | exit retval =>
    cases x with
    | main => rfl
    | green i => exact threadExit_graft i retval
  | self => rfl
  | getStats out => rfl
  | mutexInit m => exact done_graft (mutexInit_graft m)
  | mutexLock m => exact mutexLock_graft (h _ (.head _)) none
  | mutexTrylock m => exact done_graft (mutexTrylock_graft (h _ (.head _)))
  | mutexUnlock m => exact done_graft (mutexUnlock_graft (h _ (.head _)))
  | mutexDestroy m => exact done_graft (mutexDestroy_graft (h _ (.head _)))
  | semInit a n => exact done_graft (semInit_graft a n)
  | semWait a => exact semWait_graft (h _ (.head _))
  | semPost a => exact done_graft (semPost_graft (h _ (.head _)))
  | semDestroy a => exact done_graft (semDestroy_graft (h _ (.head _)))
  | condInit c => exact done_graft (condInit_graft c)
  | condWait c m => exact condWait_graft (h _ (.head _)) (h _ (.tail _ (.head _)))
  | condSignal c => exact done_graft (condSignal_graft (h _ (.head _)))
  | condBroadcast c => exact done_graft (condBroadcast_graft (h _ (.head _)))
  | condDestroy c => exact done_graft (condDestroy_graft (h _ (.head _)))

/-- **Every resumption** of a stack that goes on with no object of `A`. -/
theorem resume_graft {k : Kont} (h : k.frame.Off A) :
    (s.graft A o).resume k = (s.resume k).graft A o := by
  obtain ⟨y, f⟩ := k
  cases f with
  | entry => rfl
  | yield => rfl
  | lock m mySlot via => exact lockLoop_graft (h _ rfl) mySlot via _ s
  | semWait a => rfl
  | condWait c m => exact mutexLock_graft (fun _ => h _ rfl) (some c)
  | runNext act prev caller =>
    cases caller with
    | yield => rfl
    | join tid out target =>
      exact joinLoop_graft (s := { s with currentTid := prev, hist := _ }) tid out target

/-! ## Objects a code segment leaves alone -/

theorem graft_self (s : Core) (A : Raw) : s.graft A s = s := by
  simp only [graft, ite_self]

/-- A mutex of `A` is as before. -/
theorem exec_off {call : Call} (h : call.Off A) (hclaim : call.claim A = A)
    (hm : A (.mutex m) = true) : (s.exec x call).mutexes m = s.mutexes m := by
  have hframe := exec_graft (s := s) (o := s) (x := x) h
  rw [graft_self, hclaim] at hframe
  rw [hframe]
  exact if_pos hm

theorem resume_off {k : Kont} (h : k.frame.Off A) (hm : A (.mutex m) = true) :
    (s.resume k).mutexes m = s.mutexes m := by
  have hframe := resume_graft (s := s) (o := s) h
  rw [graft_self] at hframe
  rw [hframe]
  exact if_pos hm

end

/-! ## Suspended stacks -/

/-- The contexts in the thread table go on with no object of `A`. -/
def Parked (A : Raw) (threads : Slot → ThreadRecord) : Prop :=
  ∀ i k, (threads i).ctx = some k → k.frame.Off A

/-- Every suspended stack goes on with no object of `A`. -/
structure Clear (A : Raw) (s : Core) : Prop where
  saved : Parked A s.threads
  loaded : ∀ k, s.cpu = .swap (some k) → k.frame.Off A
  back : ∀ k, s.schedulerCtx = some k → k.frame.Off A

namespace Parked
variable {A : Raw} {a b : Slot → ThreadRecord} {i : Slot} {s : Core}

theorem set (h : Parked A a) {r : ThreadRecord} (hr : ∀ k, r.ctx = some k → k.frame.Off A) :
    Parked A (Function.update a i r) := by
  intro j k hk
  by_cases hj : j = i
  · subst hj
    rw [Function.update_self] at hk
    exact hr k hk
  · rw [Function.update_of_ne hj] at hk
    exact h j k hk

theorem woken (h : Parked A a) (hw : Woken a b) : Parked A b := by
  intro j k hk
  rcases hw j with heq | ⟨-, heq⟩ <;> rw [heq] at hk <;> exact h j k hk

theorem threadCancel (h : Parked A s.threads) (tid : Tid) :
    Parked A (s.threadCancel tid).2.threads := by
  unfold Core.threadCancel
  split
  · exact h
  · split
    · exact h
    · split
      · exact h
      · rename_i i _
        split
        · exact h
        · dsimp only
          generalize hu : (if ((s.emit (traceThreadCancel tid)).threads i).state = .blocked then
            _ else _ : Core) = u
          have hunblock : Parked A u.threads := by
            rw [← hu]
            split
            · exact h.woken (woken_threadUnblockSlot (s.emit _) _)
            · exact h
          have hset : Parked A (u.setThreadState i .canceled).threads := by
            unfold setThreadState accountStateChange
            split_ifs <;> first | exact hunblock | exact hunblock.set (hunblock i)
          exact hset.set (hset i)

end Parked

namespace Clear
variable {A : Raw} {s t : Core} {x : Ctx}

theorem anti (h : Clear A s) {B : Raw} (hB : ∀ ob, A ob = false → B ob = false) : Clear B s where
  saved := fun i k hk ob hob => hB ob (h.saved i k hk ob hob)
  loaded := fun k hk ob hob => hB ob (h.loaded k hk ob hob)
  back := fun k hk ob hob => hB ob (h.back k hk ob hob)

theorem ret (h : Clear A s) (x : Ctx) (c : Call) (r : Ret) : Clear A (s.ret x c r) :=
  ⟨h.saved, nofun, h.back⟩

theorem mark (h : Clear A s) (i : Slot) (st : ThreadState) :
    Clear A (s.setThread i { s.threads i with state := st }) :=
  ⟨h.saved.set (h.saved i), h.loaded, h.back⟩

theorem swapOut (hsaved : Parked A s.threads) (hback : ∀ k, s.schedulerCtx = some k → k.frame.Off A)
    (i : Slot) (x : Ctx) {f : Frame} (hf : f.Off A) : Clear A (s.swapOut i x f) :=
  ⟨hsaved.set fun _ hk => Option.some.inj hk ▸ hf, fun k hk => hback k (Cpu.swap.inj hk), hback⟩

theorem threadBlock (h : Clear A s) {f : Frame} (hf : f.Off A) (ht : s.threadBlock x f = some t) :
    Clear A t := by
  unfold Core.threadBlock at ht
  split at ht
  · cases ht
  · split at ht
    · cases ht
    · split at ht
      · cases ht
      · rename_i i _
        cases ht
        refine swapOut ?_ ?_ i x hf
        · exact (h.mark i .blocked).saved
        · exact h.back

theorem threadYield (h : Clear A s) (x : Ctx) : Clear A (s.threadYield x) := by
  unfold Core.threadYield
  split
  · exact h.ret _ _ _
  · split
    · exact ⟨h.saved, nofun, h.back⟩
    · split
      · exact h.ret _ _ _
      · rename_i i _
        refine swapOut ?_ ?_ i x (Frame.off_of_none rfl)
        · exact (h.mark i .ready).saved
        · exact h.back

theorem threadExit (h : Clear A s) (i : Slot) (result : Nat) : Clear A (s.threadExit i result) := by
  unfold Core.threadExit
  dsimp only
  refine ⟨?_, ?_, ?_⟩
  · split
    · exact h.saved.set (r := { s.threads i with retval := result, state := .done }) (h.saved i)
    · exact h.saved.set (r := { s.threads i with retval := 0 }) (h.saved i)
  · split <;> exact fun k hk => h.back k (Cpu.swap.inj hk)
  · split <;> exact h.back

theorem threadCreate (h : Clear A s) (outTid : Bool) (attr : Option Nat) (fn arg : Nat)
    (env : MapEnv) : Clear A (s.threadCreate outTid attr fn arg env).2 := by
  rcases threadCreate_cases (s := s) outTid attr fn arg env with
    ⟨st, -, hc⟩ | ⟨i, -, ⟨st, -, hc⟩ | ⟨r, es, -, -, hctx, -, hc⟩⟩ <;> rw [hc]
  · exact h
  · exact ⟨h.saved.set nofun, h.loaded, h.back⟩
  · refine ⟨h.saved.set fun k hk => ?_, h.loaded, h.back⟩
    obtain rfl := Option.some.inj (hctx.symm.trans hk)
    exact Frame.off_of_none rfl

theorem join (h : Clear A s) {tid : Tid} {out : Bool} (hj : JoinMove s x tid out t) : Clear A t := by
  cases hj with
  | fail st => exact h.ret _ _ _
  | sched target => exact ⟨h.saved, nofun, h.back⟩
  | free i runnable blocked retval _ => exact ⟨h.saved.set nofun, nofun, h.back⟩

theorem lockLoop {m : Addr} (hm : A (.mutex m) = false) (mySlot : Nat) (via : Option Addr)
    (fuel : Nat) : ∀ s : Core, Clear A s → Clear A (s.lockLoop x m mySlot via fuel) := by
  have hf : (Frame.lock m mySlot via).Off A := Frame.off_of_some rfl hm
  induction fuel with
  | zero => exact fun s h => h.ret _ _ _
  | succ fuel ih =>
    intro s h
    unfold Core.lockLoop
    split
    · split
      · exact h.ret _ _ _
      · have hset : Clear A (s.setMutex m
            { s.mutexes m with wq := (s.mutexes m).wq.wqEnqueue (mySlot % 256) }) :=
          ⟨h.saved, h.loaded, h.back⟩
        dsimp only
        split
        · rename_i t ht
          exact hset.threadBlock hf ht
        · exact ih _ hset
    · exact ⟨h.saved, nofun, h.back⟩

theorem mutexLock (h : Clear A s) (x : Ctx) {m : Addr} (hm : m ≠ 0 → A (.mutex m) = false)
    (via : Option Addr) : Clear A (s.mutexLock x m via) := by
  unfold Core.mutexLock
  split
  · exact h.ret _ _ _
  · rename_i hnull
    split
    · exact h.ret _ _ _
    · split
      · split
        · exact h.ret _ _ _
        · dsimp only
          split
          · exact h.ret _ _ _
          · split
            · exact h.ret _ _ _
            · generalize hu : (Core.emit _ _ : Core) = u
              have hset : Clear A u := hu ▸ ⟨h.saved, h.loaded, h.back⟩
              split
              · rename_i t ht
                exact hset.threadBlock (Frame.off_of_some rfl (hm hnull)) ht
              · exact lockLoop (hm hnull) _ via _ u hset
      · exact ⟨h.saved, nofun, h.back⟩

theorem semWait (h : Clear A s) (x : Ctx) (a : Addr) : Clear A (s.semWait x a) := by
  rcases semWait_inv s x a with ⟨st, -, heq, -⟩ | ⟨-, -, e, -, heq⟩ | ⟨hx, -, -, -, -, heq⟩ <;> rw [heq]
  · exact h.ret _ _ _
  · refine ret ?_ x _ _
    exact ⟨h.saved, h.loaded, h.back⟩
  · have hqueued : Parked A (s.semQueued x a ⟨_, hx⟩).threads := h.saved.set (h.saved _)
    have hback : ∀ k, (s.semQueued x a ⟨_, hx⟩).schedulerCtx = some k → k.frame.Off A := h.back
    exact swapOut hqueued hback _ x (Frame.off_of_none rfl)

theorem condWait (h : Clear A s) (x : Ctx) {c m : Addr} (hm : m ≠ 0 → A (.mutex m) = false) :
    Clear A (s.condWait x c m) := by
  have hback := congrArg (fun p => p.2.2.2.2.2.2.1) (condWait_fixed s x c m)
  rcases condWait_inv s x c m with ⟨st, -, heq, -⟩ | ⟨hx, hcm, -, -, hcases⟩
  · rw [heq]
    exact h.ret _ _ _
  have hmark := (h.mark ⟨_, hx⟩ .blocked).saved
  have hunlock := hmark.woken (woken_mutexUnlock (s.condQueued c ⟨_, hx⟩) m)
  have hf : (Frame.condWait c m).Off A := Frame.off_of_some rfl (hm fun h0 => hcm (Or.inr h0))
  rcases hcases with ⟨v, hv, heq⟩ | ⟨st, v, -, hv, heq⟩ <;> rw [heq] at hback ⊢ <;>
    rw [hv] at hunlock
  · have hv : v.schedulerCtx = s.schedulerCtx := hback
    exact swapOut (s := v.log _) hunlock (fun k hk => h.back k (hv.symm.trans hk)) _ x hf
  · have hv : v.schedulerCtx = s.schedulerCtx := hback
    exact ⟨hunlock.set (hunlock _), nofun, fun k hk => h.back k (hv.symm.trans hk)⟩

end Clear

/-- What is initialised stays so. -/
theorem claim_of_false {A : Raw} (c : Call) {ob : Obj} (h : A ob = false) : c.claim A ob = false := by
  cases hc : c.inits with
  | none =>
    rw [Call.claim, hc]
    exact h
  | some b =>
    by_cases hb : b.addr = 0
    · rw [Call.claim_null hc hb]
      exact h
    · rw [Call.claim_init hc hb]
      by_cases hob : ob = b
      · rw [hob, Function.update_self]
      · rw [Function.update_of_ne hob]
        exact h

theorem Clear.exec {A : Raw} {s : Core} (h : Clear A s) (x : Ctx) {c : Call} (hc : c.Off A) :
    Clear A (s.exec x c) := by
  have hdone : ∀ r : Status × Core, (done x c r).schedulerCtx = s.schedulerCtx →
      Parked A r.2.threads → Clear A (done x c r) := by
    intro r hback hr
    exact ⟨hr, nofun, hback ▸ h.back⟩
  have hback : c.isCreate = false → (s.exec x c).schedulerCtx = s.schedulerCtx := fun hcreate =>
    congrArg (fun p => p.2.2.2.2.2.2.1) (s.exec_fixed x hcreate)
  have hif : ∀ (b : Prop) [Decidable b] (st : Status) (r : Status × Core),
      Parked A r.2.threads → Parked A (if b then (st, s) else r).2.threads := by
    intro b _ st r hr
    split
    · exact h.saved
    · exact hr
  cases c with
  | create outTid attr fn arg env => exact (h.threadCreate outTid attr fn arg env).ret _ _ _
  | yield => exact h.threadYield x
  | join tid out => exact h.join (threadJoin_move s x tid out)
  | cancel tid => exact hdone _ (hback rfl) (h.saved.threadCancel tid)
  | exit retval =>
    cases x with
    | main => exact h
    | green i => exact h.threadExit i retval
  | self => exact h.ret _ _ _
  | getStats out => exact h.ret _ _ _
  | mutexInit m => exact hdone _ (hback rfl) (hif _ _ _ h.saved)
  | mutexLock m => exact h.mutexLock x (hc _ (.head _)) none
  | mutexTrylock m => exact hdone _ (hback rfl) (hif _ _ _ (hif _ _ _ (hif _ _ _ h.saved)))
  | mutexUnlock m => exact hdone _ (hback rfl) (h.saved.woken (woken_mutexUnlock s m))
  | mutexDestroy m =>
    exact hdone _ (hback rfl) (hif _ _ _ (hif _ _ _ (hif _ _ _ (hif _ _ _ h.saved))))
  | semInit a n => exact hdone _ (hback rfl) (hif _ _ _ h.saved)
  | semWait a => exact h.semWait x a
  | semPost a => exact hdone _ (hback rfl) (h.saved.woken (woken_semPost s a))
  | semDestroy a => exact hdone _ (hback rfl) (hif _ _ _ (hif _ _ _ (hif _ _ _ h.saved)))
  | condInit c => exact hdone _ (hback rfl) (hif _ _ _ h.saved)
  | condWait c m => exact h.condWait x (hc _ (.tail _ (.head _)))
  | condSignal c => exact hdone _ (hback rfl) (h.saved.woken (woken_condSignal s c))
  | condBroadcast c => exact hdone _ (hback rfl) (h.saved.woken (woken_condBroadcast s c))
  | condDestroy c => exact hdone _ (hback rfl) (hif _ _ _ (hif _ _ _ (hif _ _ _ h.saved)))

theorem Clear.resume {A : Raw} {s : Core} (h : Clear A s) {k : Kont} (hk : k.frame.Off A) :
    Clear A (s.resume k) := by
  obtain ⟨y, f⟩ := k
  cases f with
  | entry => exact ⟨h.saved, nofun, h.back⟩
  | yield => exact h.ret _ _ _
  | lock m mySlot via => exact lockLoop (hk _ rfl) mySlot via _ s h
  | semWait a => exact h.ret _ _ _
  | condWait c m => exact h.mutexLock y (fun _ => hk _ rfl) (some c)
  | runNext act prev caller =>
    have hs : Clear A { s with currentTid := prev, hist := .resume act y :: s.hist } :=
      ⟨h.saved, h.loaded, h.back⟩
    cases caller with
    | yield => exact hs.ret _ _ _
    | join tid out target => exact hs.join (joinLoop_move _ y tid out target)

theorem Clear.runNext {A : Raw} {s : Core} (h : Clear A s) (x : Ctx) (caller : Caller)
    (pick : Option Slot) : Clear A (s.runNext x caller pick) := by
  cases pick with
  | none => cases caller <;> exact h.ret _ _ _
  | some i =>
    have hmark := (h.mark i .running).saved
    refine ⟨hmark, fun k hk => hmark i k (Cpu.swap.inj hk), fun k hk => ?_⟩
    obtain rfl := Option.some.inj hk
    exact Frame.off_of_none rfl

end Core

/-! ## Steps -/

/-- The step works on no object of `A`. -/
def Label.Off (A : Raw) : Label → Prop
  | .call _ c => c.Off A
  | _ => True

/-- What is left of `A` after the step. -/
def Label.claim (A : Raw) : Label → Raw
  | .call _ c => c.claim A
  | _ => A

/-- Suspended stacks stay clear of the objects that are not initialised. -/
theorem State.step_clear {W : World} {A : Raw} {s t : State} {l : Label} (hs : s.core.Clear A)
    (hl : l.Off A) (hstep : State.step W s l = some t) : t.core.Clear (l.claim A) := by
  have hfresh : s.fresh.Clear A := ⟨hs.saved, hs.loaded, hs.back⟩
  rcases State.step_cases hstep with ⟨x, c, rfl, -, rfl⟩ | ⟨x, c, rfl, -, -, rfl⟩ |
      ⟨x, caller, pick, sub, rfl, -, -, rfl⟩ | ⟨k, rfl, hcpu, rfl⟩
  · exact hs
  · exact (hfresh.exec x hl).anti fun ob => Core.claim_of_false c
  · exact hfresh.runNext x caller pick
  · exact hfresh.resume (hs.loaded k hcpu)

end Gth

/-
  Code segments when any thread may join.

  `WellFormed` describes runs in which only main joins.  When green threads join too,
  `gth_scheduler_run_next` runs on their stacks, nested in main's, and far less is certain: several
  threads can be `RUNNING`, and the thread of a stack may have been released while the stack is
  suspended in a join.  What remains (`Calm`): tids are distinct, and every occupied slot has a
  context saved for its own stack.

  A code segment that starts in such a state on stack `x` stays on `x`, or `x` is a green thread's
  and leaves the CPU for what is stored in `scheduler_ctx` (`Segment`).  On the way it changes
  records only as `Kept` allows.
-/
import Gthreads.Outcomes

namespace Gth

/-! ## Control events -/

/-- Dispatches, resumptions of `gth_scheduler_run_next`, and departures from the CPU. -/
def Obs.isControl : Obs → Bool
  | .dispatch _ _ _ _ => true
  | .resume _ _ => true
  | .leave _ _ => true
  | _ => false

/-- The control events of a history, newest first. -/
def controls (h : List Obs) : List Obs := h.filter Obs.isControl

/-! ## Threads -/

/-- The records of `b` are those of `a`: threads may have been released and states may differ, and
    a context may have been saved for the thread's own stack. -/
def Kept (a b : Slot → ThreadRecord) : Prop :=
  ∀ j, (b j).state ≠ .empty → (a j).state ≠ .empty ∧ (b j).tid = (a j).tid ∧
    (b j).slotIndex = (a j).slotIndex ∧
    ((b j).ctx = (a j).ctx ∨ ∃ f : Frame, (b j).ctx = some ⟨.green j, f⟩ ∧ f.Parked j)

namespace Kept
variable {a b c : Slot → ThreadRecord}

theorem refl (a : Slot → ThreadRecord) : Kept a a := fun _ h => ⟨h, rfl, rfl, Or.inl rfl⟩

theorem trans (h : Kept a b) (h' : Kept b c) : Kept a c := by
  intro j hj
  obtain ⟨hb, htid, hidx, hctx⟩ := h' j hj
  obtain ⟨ha, htid', hidx', hctx'⟩ := h j hb
  refine ⟨ha, htid.trans htid', hidx.trans hidx', ?_⟩
  rcases hctx with hctx | hctx
  · rw [hctx]
    exact hctx'
  · exact Or.inr hctx

/-- One record is overwritten. -/
theorem set (a : Slot → ThreadRecord) {i : Slot} {r : ThreadRecord}
    (hr : r.state ≠ .empty → (a i).state ≠ .empty ∧ r.tid = (a i).tid ∧
      r.slotIndex = (a i).slotIndex ∧
      (r.ctx = (a i).ctx ∨ ∃ f : Frame, r.ctx = some ⟨.green i, f⟩ ∧ f.Parked i)) :
    Kept a (Function.update a i r) := by
  intro j hj
  by_cases hji : j = i
  · subst hji
    rw [Function.update_self] at hj ⊢
    exact hr hj
  · rw [Function.update_of_ne hji] at hj ⊢
    exact ⟨hj, rfl, rfl, Or.inl rfl⟩

/-- A thread changes its state. -/
theorem setState (a : Slot → ThreadRecord) {i : Slot} (hi : (a i).state ≠ .empty)
    {r : ThreadRecord} (htid : r.tid = (a i).tid) (hidx : r.slotIndex = (a i).slotIndex)
    (hctx : r.ctx = (a i).ctx) : Kept a (Function.update a i r) :=
  set a fun _ => ⟨hi, htid, hidx, Or.inl hctx⟩

/-- A slot is emptied. -/
theorem release (a : Slot → ThreadRecord) (i : Slot) : Kept a (Function.update a i {}) :=
  set a fun h => absurd rfl h

theorem tidsOk {nextTid issued : Nat} (h : Kept a b) (ht : TidsOk nextTid issued a) :
    TidsOk nextTid issued b where
  next := ht.next
  range := fun i hi => by
    obtain ⟨ha, htid, -, -⟩ := h i hi
    rw [htid]
    exact ht.range i ha
  index := fun i hi => by
    obtain ⟨ha, -, hidx, -⟩ := h i hi
    rw [hidx]
    exact ht.index i ha
  inj := fun i j hi hj hij => by
    obtain ⟨hai, htidi, -, -⟩ := h i hi
    obtain ⟨haj, htidj, -, -⟩ := h j hj
    rw [htidi, htidj] at hij
    exact ht.inj i j hai haj hij

/-- A lookup that succeeds finds what it found before. -/
theorem find {nextTid issued : Nat} (h : Kept a b) (ht : TidsOk nextTid issued a) {tid : Tid}
    {i : Slot} (hi : findThread b tid = some i) : findThread a tid = some i := by
  obtain ⟨hne, htid⟩ := findThread_some hi
  obtain ⟨ha, htid', -, -⟩ := h i hne
  rw [← htid, htid']
  exact ht.find ha

end Kept

namespace Core

/-- Tids are distinct, and every thread has a context saved for its own stack. -/
structure Calm (s : Core) : Prop where
  init : s.initialized = true
  tids : TidsOk s.nextTid s.issued s.threads
  saved : ∀ i, (s.threads i).state ≠ .empty →
    ∃ f : Frame, (s.threads i).ctx = some ⟨.green i, f⟩ ∧ f.Parked i

/-- The tid was issued, and if a thread has it, its stack is `x`; on main's stack it is 0. -/
def Known (s : Core) (tid : Tid) (x : Ctx) : Prop := tid ≤ s.issued ∧ SelfOk tid s.threads x

/-- User code or the scheduler runs on stack `x`. -/
def OnStack (x : Ctx) : Cpu → Prop
  | .user y => y = x
  | .sched y _ => y = x
  | .swap _ => False

variable {s t : Core} {x : Ctx} {i : Slot}

theorem Calm.knows (h : s.Calm) (hx : s.Known s.currentTid x) : s.Knows x :=
  ⟨h.init, h.tids, hx.2⟩

theorem SelfOk.kept {nextTid issued : Nat} {a b : Slot → ThreadRecord} (hab : Kept a b)
    (ht : TidsOk nextTid issued a) {tid : Tid} (h : SelfOk tid a x) : SelfOk tid b x := by
  cases x with
  | main => exact h
  | green i => exact fun j hj => h j (hab.find ht hj)

/-- What a function that returns to its caller does: nobody is released. -/
structure Quiet (s t : Core) : Prop where
  kept : Kept s.threads t.threads
  live : ∀ j, (s.threads j).state ≠ .empty → (t.threads j).state ≠ .empty
  fixed : t.fixed = s.fixed
  current : t.currentTid = s.currentTid
  controls : controls t.hist = controls s.hist

theorem Quiet.refl (s : Core) : Quiet s s := ⟨.refl _, fun _ => id, rfl, rfl, rfl⟩

theorem Quiet.trans {u : Core} (h : Quiet s t) (h' : Quiet t u) : Quiet s u :=
  ⟨h.kept.trans h'.kept, fun j hj => h'.live j (h.live j hj), h'.fixed.trans h.fixed,
    h'.current.trans h.current, h'.controls.trans h.controls⟩

theorem live_update {a : Slot → ThreadRecord} {r : ThreadRecord} (hr : r.state ≠ .empty) (j : Slot)
    (hj : (a j).state ≠ .empty) : (Function.update a i r j).state ≠ .empty := by
  by_cases hji : j = i
  · subst hji
    rwa [Function.update_self]
  · rwa [Function.update_of_ne hji]

theorem quiet_wakeSlot (hst : (s.threads i).state = .blocked) : Quiet s (s.wakeSlot i) := by
  exact ⟨.setState s.threads (by rw [hst]; nofun) rfl rfl rfl, live_update nofun, rfl, rfl, rfl⟩

theorem quiet_threadUnblockSlot (hinit : s.initialized = true) (n : Nat) :
    Quiet s (s.threadUnblockSlot n).2 := by
  rcases threadUnblockSlot_cases hinit n with ⟨-, hw⟩ | ⟨i, -, hst, hw⟩ <;> rw [hw]
  · exact .refl s
  · exact quiet_wakeSlot hst

theorem quiet_wakeWaiter (hinit : s.initialized = true) (n : Nat) (e : Event) :
    Quiet s (s.wakeWaiter n e) := by
  rcases wakeWaiter_cases hinit n e with ⟨-, es, hw⟩ | ⟨i, -, hst, hw⟩ <;> rw [hw]
  · exact ⟨.refl _, fun _ => id, rfl, rfl, rfl⟩
  · have h := quiet_wakeSlot (s := s.emit e) hst
    exact ⟨h.kept, h.live, h.fixed, h.current, h.controls⟩

theorem quiet_mutexUnlock (hinit : s.initialized = true) (m : Addr) :
    Quiet s (s.mutexUnlock m).2 := by
  rcases mutexUnlock_cases (s := s) m with ⟨st, -, hu⟩ | ⟨-, -, -, -, ⟨-, e, hu⟩ | ⟨-, e, e', hu⟩⟩ <;>
    rw [hu]
  · exact .refl s
  · exact ⟨.refl _, fun _ => id, rfl, rfl, rfl⟩
  · have h := quiet_wakeWaiter (s := s.setMutex m { s.mutexes m with
      locked := 0, owner := 0, wq := (s.mutexes m).wq.wqDequeue.2 }) hinit
      (s.mutexes m).wq.wqDequeue.1 e
    exact ⟨h.kept, h.live, h.fixed, h.current, h.controls⟩

theorem quiet_semPost (hinit : s.initialized = true) (a : Addr) : Quiet s (s.semPost a).2 := by
  rcases semPost_cases (s := s) a with ⟨st, -, hp⟩ | ⟨-, -, e, e', hp⟩ | ⟨-, -, -, e, hp⟩ <;> rw [hp]
  · exact .refl s
  · have h := quiet_wakeWaiter (s := (s.setSem a { s.sems a with
      wq := (s.sems a).wq.wqDequeue.2 }).log
        (.semWake (s.threadAt (s.sems a).wq.wqDequeue.1).tid a)) hinit
      (s.sems a).wq.wqDequeue.1 e
    exact ⟨h.kept, h.live, h.fixed, h.current, h.controls⟩
  · exact ⟨.refl _, fun _ => id, rfl, rfl, rfl⟩

theorem quiet_condSignal (hinit : s.initialized = true) (c : Addr) :
    Quiet s (s.condSignal c).2 := by
  rcases condSignal_cases (s := s) c with ⟨st, -, hs⟩ | ⟨-, hs⟩ | ⟨-, -, e, hs⟩ <;> rw [hs]
  · exact .refl s
  · exact .refl s
  · have h := quiet_wakeWaiter (s := s.setCond c { s.conds c with
      wq := (s.conds c).wq.wqDequeue.2 }) hinit (s.conds c).wq.wqDequeue.1 e
    exact ⟨h.kept, h.live, h.fixed, h.current, h.controls⟩

theorem quiet_condBroadcast (hinit : s.initialized = true) (c : Addr) :
    Quiet s (s.condBroadcast c).2 := by
  rcases condBroadcast_cases (s := s) c with ⟨st, -, hb⟩ | ⟨-, e, hb⟩ <;> rw [hb]
  · exact .refl s
  · have hloop := broadcastLoop_inv (I := fun t => Quiet s t) (c := c) (fun t ht _ => ?_)
      (s.conds c).wq.count s 0 (.refl s)
    · exact ⟨hloop.kept, hloop.live, hloop.fixed, hloop.current, hloop.controls⟩
    · have hinit' : t.initialized = true := (congrArg Prod.fst ht.fixed).trans hinit
      have h := quiet_threadUnblockSlot (s := t.setCond c { t.conds c with
        wq := (t.conds c).wq.wqDequeue.2 }) hinit' (t.conds c).wq.wqDequeue.1
      exact ht.trans ⟨h.kept, h.live, h.fixed, h.current, h.controls⟩

theorem quiet_threadCancel (hk : s.Knows x) (tid : Tid) : Quiet s (s.threadCancel tid).2 := by
  rcases threadCancel_cases hk tid with ⟨st, -, h⟩ | ⟨i, es, hfind, -, h⟩ <;> rw [h]
  · exact .refl s
  · exact ⟨.setState s.threads (findThread_some hfind).1 rfl rfl rfl, live_update nofun, rfl, rfl,
      rfl⟩

/-! ## Segments -/

/-- What a code segment that starts on stack `x` can do. -/
inductive Segment (s : Core) (x : Ctx) (t : Core) : Prop where
  | stay : t.Calm → (∀ tid y, s.Known tid y → t.Known tid y) →
      (∀ i, s.Current i → t.Current i) → t.schedulerCtx = s.schedulerCtx → t.acts = s.acts →
      t.currentTid = s.currentTid → controls t.hist = controls s.hist → OnStack x t.cpu →
      Segment s x t
  /-- The thread that leaves may have been released, and then nothing is certain. -/
  | leave (i : Slot) : x = .green i →
      ((s.threads i).state ≠ .empty → t.Calm ∧ ∀ tid y, s.Known tid y → t.Known tid y) →
      t.schedulerCtx = s.schedulerCtx → t.acts = s.acts →
      controls t.hist = .leave (.green i) s.schedulerCtx :: controls s.hist →
      t.cpu = .swap s.schedulerCtx → Segment s x t

theorem Calm.kept (h : s.Calm) (hk : Kept s.threads t.threads) (hf : t.fixed = s.fixed) :
    t.Calm ∧ ∀ tid y, s.Known tid y → t.Known tid y := by
  have hinit : t.initialized = s.initialized := congrArg Prod.fst hf
  have hnext : t.nextTid = s.nextTid := congrArg (fun p => p.2.2.2.1) hf
  have hissued : t.issued = s.issued := issued_of_fixed hf
  refine ⟨⟨hinit.trans h.init, ?_, fun i hi => ?_⟩, fun tid y hy => ⟨?_, ?_⟩⟩
  · rw [hnext, hissued]
    exact hk.tidsOk h.tids
  · obtain ⟨ha, -, -, hctx⟩ := hk i hi
    rcases hctx with hctx | hctx
    · rw [hctx]
      exact h.saved i ha
    · exact hctx
  · rw [hissued]
    exact hy.1
  · exact SelfOk.kept hk h.tids hy.2

/-- The current thread is not released: it still is the current one. -/
theorem Current.kept (h : s.Current i) (hk : Kept s.threads t.threads) (hcalm : t.Calm)
    (hcur : t.currentTid = s.currentTid) (hlive : (t.threads i).state ≠ .empty) : t.Current i := by
  refine ⟨hcalm.init, hcur ▸ h.ne_zero, ?_⟩
  obtain ⟨-, htid, -, -⟩ := hk i hlive
  have hfind := hcalm.tids.find hlive
  rwa [htid, (findThread_some h.find).2, ← hcur] at hfind

theorem Quiet.segment (hc : s.Calm) (h : Quiet s t) (hcpu : OnStack x t.cpu) : Segment s x t := by
  obtain ⟨hcalm, hknown⟩ := hc.kept h.kept h.fixed
  refine .stay hcalm hknown (fun i hi => ?_) (congrArg (fun p => p.2.2.2.2.2.2.1) h.fixed)
    (congrArg (fun p => p.2.2.2.2.2.2.2) h.fixed) h.current h.controls hcpu
  exact hi.kept h.kept hcalm h.current (h.live i (findThread_some hi.find).1)

/-- A call that returns. -/
theorem Quiet.ret (hc : s.Calm) (h : Quiet s t) (c : Call) (r : Ret) :
    Segment s x (t.ret x c r) :=
  Quiet.segment hc ⟨h.kept, h.live, h.fixed, h.current, h.controls⟩ rfl

/-- A thread leaves the CPU. -/
theorem Segment.of_leave (hc : s.Calm) (hk : (s.threads i).state ≠ .empty → Kept s.threads t.threads)
    (hf : t.fixed = s.fixed)
    (hctl : controls t.hist = .leave (.green i) s.schedulerCtx :: controls s.hist)
    (hcpu : t.cpu = .swap s.schedulerCtx) : Segment s (.green i) t :=
  .leave i rfl (fun hne => hc.kept (hk hne) hf) (congrArg (fun p => p.2.2.2.2.2.2.1) hf)
    (congrArg (fun p => p.2.2.2.2.2.2.2) hf) hctl hcpu

/-- The current thread saves its context and leaves the CPU. -/
theorem segment_park {st : ThreadState} {f : Frame} (hc : s.Calm) (hcur : s.Current i)
    (hf : f.Parked i)
    (ht : t.threads = Function.update s.threads i
      { s.threads i with state := st, ctx := some ⟨.green i, f⟩ })
    (hfixed : t.fixed = s.fixed)
    (hctl : controls t.hist = .leave (.green i) s.schedulerCtx :: controls s.hist)
    (hcpu : t.cpu = .swap s.schedulerCtx) : Segment s (.green i) t := by
  refine .of_leave hc (fun hne => ?_) hfixed hctl hcpu
  rw [ht]
  exact .set s.threads fun _ => ⟨(findThread_some hcur.find).1, rfl, rfl, Or.inr ⟨f, rfl, hf⟩⟩

theorem segment_mutexLock (hc : s.Calm) (hk : s.Knows x) (m : Addr) (via : Option Addr) :
    Segment s x (s.mutexLock x m via) := by
  rcases mutexLock_cases hk m via with ⟨st, -, -, h⟩ | ⟨-, -, h⟩ | ⟨i, es, rfl, hcur, -, -, -, -, h⟩ <;>
    rw [h]
  · exact (Quiet.refl s).ret hc _ _
  · exact Quiet.segment hc ⟨.refl _, fun _ => id, rfl, rfl, rfl⟩ rfl
  · exact segment_park (f := .lock m i via) hc hcur rfl rfl rfl rfl rfl

theorem segment_semWait (hc : s.Calm) (hk : s.Knows x) (a : Addr) :
    Segment s x (s.semWait x a) := by
  rcases semWait_cases hk a with ⟨st, -, h⟩ | ⟨-, -, es, h⟩ | ⟨i, es, rfl, hcur, -, -, -, h⟩ <;>
    rw [h]
  · exact (Quiet.refl s).ret hc _ _
  · exact Quiet.segment hc ⟨.refl _, fun _ => id, rfl, rfl, rfl⟩ rfl
  · exact segment_park (f := .semWait a) hc hcur trivial rfl (h ▸ semWait_fixed s (.green i) a) rfl rfl

theorem segment_condWait (hc : s.Calm) (hk : s.Knows x) (c m : Addr) :
    Segment s x (s.condWait x c m) := by
  rcases condWait_cases hk c m with ⟨st, -, h⟩ | ⟨i, rfl, hcur, -, -, ⟨st, es, -, h⟩ | ⟨-, -, -,
      ⟨-, es, h⟩ | ⟨-, es, P, hP, ⟨-, h⟩ | ⟨j, -, hst, es', h⟩⟩⟩⟩
  · rw [h]
    exact (Quiet.refl s).ret hc _ _
  · rw [h]
    have hne := (findThread_some hcur.find).1
    exact Quiet.segment hc
      ⟨.setState s.threads hne rfl rfl rfl, live_update nofun, rfl, rfl, rfl⟩ rfl
  · have hfixed := condWait_fixed s (.green i) c m
    rw [h] at hfixed ⊢
    exact segment_park (f := .condWait c m) hc hcur trivial rfl hfixed rfl rfl
  · have hfixed := condWait_fixed s (.green i) c m
    rw [h, hP] at hfixed ⊢
    exact segment_park (f := .condWait c m) hc hcur trivial rfl hfixed rfl rfl
  · -- the head of the mutex's queue is woken on the way
    have hfixed := condWait_fixed s (.green i) c m
    rw [h] at hfixed ⊢
    have hpark : Kept s.threads P.threads := by
      rw [hP]
      exact .set s.threads fun _ =>
        ⟨(findThread_some hcur.find).1, rfl, rfl, Or.inr ⟨_, rfl, trivial⟩⟩
    have hwake := (quiet_wakeSlot (s := P) hst).kept
    refine .of_leave hc (fun _ => hpark.trans hwake) hfixed ?_ ?_ <;> rw [hP] <;> rfl

theorem segment_threadJoin (hc : s.Calm) (hk : s.Knows x) (tid : Tid) (out : Bool) :
    Segment s x (s.threadJoin x tid out) := by
  rcases threadJoin_cases hk tid out with ⟨st, -, h⟩ | ⟨i, hne, hfind, ⟨-, h⟩ | ⟨-, h⟩⟩ <;> rw [h]
  · exact (Quiet.refl s).ret hc _ _
  · -- the slot that is freed is not the current thread's
    obtain ⟨hcalm, hknown⟩ := hc.kept (t := s.setThread i {}) (Kept.release s.threads i) rfl
    refine .stay ⟨hcalm.init, hcalm.tids, hcalm.saved⟩ hknown (fun j hj => ?_) rfl rfl rfl rfl rfl
    have hji : j ≠ i := by
      rintro rfl
      exact hne ((findThread_some hfind).2.symm.trans (findThread_some hj.find).2)
    refine hj.kept (Kept.release s.threads i) ⟨hcalm.init, hcalm.tids, hcalm.saved⟩ rfl ?_
    show (Function.update s.threads i {} j).state ≠ .empty
    rw [Function.update_of_ne hji]
    exact (findThread_some hj.find).1
  · exact Quiet.segment hc ⟨.refl _, fun _ => id, rfl, rfl, rfl⟩ rfl

theorem segment_threadYield (hc : s.Calm) (hk : s.Knows x) : Segment s x (s.threadYield x) := by
  rcases threadYield_cases hk with ⟨-, h⟩ | ⟨-, h⟩ | ⟨i, es, rfl, hcur, h⟩ <;> rw [h]
  · exact Quiet.segment hc ⟨.refl _, fun _ => id, rfl, rfl, rfl⟩ rfl
  · exact (Quiet.refl s).ret hc _ _
  · exact segment_park (f := .yield) hc hcur trivial rfl rfl rfl rfl

theorem segment_threadExit (hc : s.Calm) (i : Slot) (result : Nat) :
    Segment s (.green i) (s.threadExit i result) := by
  obtain ⟨r, es, htid, hidx, hctx, -, h⟩ := threadExit_eq (s := s) i result
  rw [h]
  exact .of_leave hc (fun hne => .setState s.threads hne htid hidx hctx) rfl rfl rfl

/-- A new thread gets a tid nobody had. -/
theorem SelfOk.enter {nextTid issued : Nat} {threads : Slot → ThreadRecord} {r : ThreadRecord}
    (ht : TidsOk nextTid issued threads) (hlt : issued + 1 < 2 ^ 64) (hr : r.tid = nextTid)
    {tid : Tid} (htid : tid ≤ issued) (h : SelfOk tid threads x) :
    SelfOk tid (Function.update threads i r) x := by
  cases x with
  | main => exact h
  | green k =>
    intro j hj
    obtain ⟨hne, htidj⟩ := findThread_some hj
    by_cases hji : j = i
    · subst hji
      rw [Function.update_self, hr, ht.next, Nat.mod_eq_of_lt hlt] at htidj
      exact absurd htid (by rw [← htidj]; exact Nat.not_succ_le_self issued)
    · rw [Function.update_of_ne hji] at hne htidj
      exact h j (htidj ▸ ht.find hne)

theorem segment_threadCreate (hc : s.Calm) (hlt : s.issued + 1 < 2 ^ 64) (outTid : Bool)
    (attr : Option Nat) (fn arg : Nat) (env : MapEnv) :
    Segment s x ((s.threadCreate outTid attr fn arg env).2.ret x
      (.create outTid attr fn arg env) (s.threadCreate outTid attr fn arg env).1) := by
  rcases threadCreate_cases (s := s) outTid attr fn arg env with
      ⟨st, -, h⟩ | ⟨i, hempty, ⟨st, -, h⟩ | ⟨r, es, htid, hst, hctx, hidx, h⟩⟩
  · rw [h]
    exact (Quiet.refl s).ret hc _ _
  · rw [h]
    have hkept : Kept s.threads (Function.update s.threads i {}) := .release s.threads i
    have hcalm : Calm (({ s.setThread i {} with
        nextTid := incr64 s.nextTid, issued := s.issued + 1 } : Core).ret x
          (.create outTid attr fn arg env) ⟨st, []⟩) :=
      ⟨hc.init, hkept.tidsOk hc.tids.bump, (hc.kept (t := s.setThread i {}) hkept rfl).1.saved⟩
    refine .stay hcalm (fun tid y hy => ⟨Nat.le_succ_of_le hy.1, hy.2.kept hkept hc.tids⟩)
      (fun j hj => ?_) rfl rfl rfl rfl rfl
    have hne := (findThread_some hj.find).1
    have hji : j ≠ i := fun e => hne (e ▸ hempty)
    refine hj.kept hkept hcalm rfl ?_
    show (Function.update s.threads i {} j).state ≠ .empty
    rwa [Function.update_of_ne hji]
  · rw [h]
    have hsaved : ∀ j, (Function.update s.threads i r j).state ≠ .empty →
        ∃ f : Frame, (Function.update s.threads i r j).ctx = some ⟨.green j, f⟩ ∧ f.Parked j := by
      intro j hj
      by_cases hji : j = i
      · subst hji
        rw [Function.update_self]
        exact ⟨.entry, hctx, trivial⟩
      · rw [Function.update_of_ne hji] at hj ⊢
        exact hc.saved j hj
    have htids := hc.tids.enter hlt htid hidx
    refine .stay ⟨hc.init, htids, hsaved⟩
      (fun tid y hy => ⟨Nat.le_succ_of_le hy.1, hy.2.enter hc.tids hlt htid hy.1⟩)
      (fun j hj => ⟨hc.init, hj.ne_zero, ?_⟩) rfl rfl rfl rfl rfl
    -- the current thread is in another slot
    obtain ⟨hne, hcur⟩ := findThread_some hj.find
    have hji : j ≠ i := fun e => hne (e ▸ hempty)
    have hfind := htids.find (i := j) (by rwa [Function.update_of_ne hji])
    rw [Function.update_of_ne hji, hcur] at hfind
    exact hfind

/-- **Every API call is a segment.** -/
theorem exec_segment (hc : s.Calm) (hx : s.Known s.currentTid x) {c : Call}
    (hcall : State.callable x c = true)
    (hlt : s.issued + (if c.isCreate then 1 else 0) < 2 ^ 64) : Segment s x (s.exec x c) := by
  have hk := hc.knows hx
  have hdone : ∀ (c : Call) (r : Status × Core), Quiet s r.2 → Segment s x (done x c r) :=
    fun c r hr => hr.ret hc c ⟨r.1, []⟩
  -- objects are initialised and destroyed in place
  have hobj : ∀ (b : Prop) [Decidable b] (r r' : Status × Core), Quiet s r.2 → Quiet s r'.2 →
      Quiet s (if b then r else r').2 := by
    intro b _ r r' hr hr'
    split
    · exact hr
    · exact hr'
  have hself := Quiet.refl s
  have hset : ∀ t : Core, t.threads = s.threads → t.fixed = s.fixed → t.currentTid = s.currentTid →
      t.hist = s.hist → Quiet s t := fun t h1 h2 h3 h4 =>
    ⟨h1 ▸ .refl _, fun j hj => by rwa [h1], h2, h3, by rw [h4]⟩
  cases c with
  | create outTid attr fn arg env => exact segment_threadCreate hc hlt outTid attr fn arg env
  | yield => exact segment_threadYield hc hk
  | join tid out => exact segment_threadJoin hc hk tid out
  | cancel tid => exact hdone _ _ (quiet_threadCancel hk tid)
  | exit retval =>
    cases x with
    | main => nomatch hcall
    | green i => exact segment_threadExit hc i retval
  | self => exact hself.ret hc _ _
  | getStats out => exact hself.ret hc _ _
  | mutexInit m => exact hdone _ _ (hobj _ _ _ hself (hset _ rfl rfl rfl rfl))
  | mutexLock m => exact segment_mutexLock hc hk m none
  | mutexTrylock m =>
    exact hdone _ _ (hobj _ _ _ hself (hobj _ _ _ hself (hobj _ _ _ hself
      (hset _ rfl rfl rfl rfl))))
  | mutexUnlock m => exact hdone _ _ (quiet_mutexUnlock hc.init m)
  | mutexDestroy m =>
    exact hdone _ _ (hobj _ _ _ hself (hobj _ _ _ hself (hobj _ _ _ hself (hobj _ _ _ hself
      (hset _ rfl rfl rfl rfl)))))
  | semInit a n => exact hdone _ _ (hobj _ _ _ hself (hset _ rfl rfl rfl rfl))
  | semWait a => exact segment_semWait hc hk a
  | semPost a => exact hdone _ _ (quiet_semPost hc.init a)
  | semDestroy a =>
    exact hdone _ _ (hobj _ _ _ hself (hobj _ _ _ hself (hobj _ _ _ hself
      (hset _ rfl rfl rfl rfl))))
  | condInit c => exact hdone _ _ (hobj _ _ _ hself (hset _ rfl rfl rfl rfl))
  | condWait c m => exact segment_condWait hc hk c m
  | condSignal c => exact hdone _ _ (quiet_condSignal hc.init c)
  | condBroadcast c => exact hdone _ _ (quiet_condBroadcast hc.init c)
  | condDestroy c =>
    exact hdone _ _ (hobj _ _ _ hself (hobj _ _ _ hself (hobj _ _ _ hself
      (hset _ rfl rfl rfl rfl))))

theorem Current.known (h : s.Current i) (hc : s.Calm) : s.Known s.currentTid (.green i) := by
  obtain ⟨hne, htid⟩ := findThread_some h.find
  refine ⟨htid ▸ (hc.tids.range i hne).2, fun j hj => ?_⟩
  rw [h.find] at hj
  exact (Option.some.inj hj).symm

/-- **A stack that was suspended goes on as a segment.** -/
theorem resume_segment (hc : s.Calm) (hcur : s.Current i) {f : Frame} (hf : f.Parked i) :
    Segment s (.green i) (s.resume ⟨.green i, f⟩) := by
  cases f with
  | entry => exact Quiet.segment hc ⟨.refl _, fun _ => id, rfl, rfl, rfl⟩ rfl
  | yield => exact (Quiet.refl s).ret hc _ _
  | lock m mySlot via =>
    obtain rfl : mySlot = i := hf
    show Segment s (.green i) (s.lockLoop (.green i) m i via (wqFixedSlots + 1))
    rcases lockLoop_cases hcur m via wqFixedSlots with ⟨-, -, h⟩ | ⟨-, -, es, h⟩ | ⟨-, h⟩ <;> rw [h]
    · exact (Quiet.refl s).ret hc _ _
    · exact segment_park (f := .lock m i via) hc hcur rfl rfl rfl rfl rfl
    · exact Quiet.segment hc ⟨.refl _, fun _ => id, rfl, rfl, rfl⟩ rfl
  | semWait a => exact (Quiet.refl s).ret hc _ _
  | condWait c m => exact segment_mutexLock hc (hc.knows (hcur.known hc)) m (some c)
  | runNext act prev caller => exact hf.elim

/-- A join stays on its stack, whether it frees a slot or not. -/
theorem JoinMove.stays {tid : Tid} {out : Bool} (h : JoinMove s x tid out t) (hc : s.Calm) :
    t.Calm ∧ (∀ u y, s.Known u y → t.Known u y) ∧ t.fixed = s.fixed ∧
      t.currentTid = s.currentTid ∧ controls t.hist = controls s.hist ∧ OnStack x t.cpu := by
  have hstay : ∀ t : Core, Kept s.threads t.threads → t.fixed = s.fixed →
      t.currentTid = s.currentTid → controls t.hist = controls s.hist → OnStack x t.cpu →
      t.Calm ∧ (∀ u y, s.Known u y → t.Known u y) ∧ t.fixed = s.fixed ∧
        t.currentTid = s.currentTid ∧ controls t.hist = controls s.hist ∧ OnStack x t.cpu :=
    fun t h1 h2 h3 h4 h5 => ⟨(hc.kept h1 h2).1, (hc.kept h1 h2).2, h2, h3, h4, h5⟩
  cases h with
  | fail st => exact hstay _ (.refl _) rfl rfl rfl rfl
  | sched target => exact hstay _ (.refl _) rfl rfl rfl rfl
  | free i runnable blocked retval _ => exact hstay _ (.release s.threads i) rfl rfl rfl rfl

end Core
end Gth

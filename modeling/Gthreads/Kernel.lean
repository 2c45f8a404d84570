/-
  The kernel: what the runtime is FOR, without its bookkeeping.

  A `Kernel` has the thread records, the fields of the synchronisation objects, where the CPU is
  and what happened so far.  The ring buffers are lists (`queue`, one per object), and counters,
  tids to come, `scheduler_ctx`, events and statistics are gone.  Its transitions are listed once,
  in five groups (`Step`), each with the guard under which the code takes it; the label is the API
  call that starts the code segment, `none` when the runtime goes on by itself.

  `Gthreads.Refinement` proves that every code segment of the core is one such transition.  The
  properties of threads and synchronisation objects are then proved here, group by group over
  `Step`, and hold of the code.
-/
import Gthreads.WellFormed

namespace Gth

/-- A semaphore without its queue. -/
structure SemCell where
  initialized : Nat
  count : Nat

structure Kernel where
  threads : Slot → ThreadRecord
  mutex : Addr → MutexCell
  sem : Addr → SemCell
  /-- The `initialized` field of a condition variable, all it has besides its queue. -/
  cond : Addr → Nat
  /-- The slot numbers waiting for each object, the next one to be woken first. -/
  queue : Obj → List Nat
  cpu : Cpu
  hist : List Obs

namespace Kernel

/-! ## Updates -/

def setThread (s : Kernel) (i : Slot) (r : ThreadRecord) : Kernel :=
  { s with threads := Function.update s.threads i r }

def setState (s : Kernel) (i : Slot) (st : ThreadState) : Kernel :=
  s.setThread i { s.threads i with state := st }

def setMutex (s : Kernel) (m : Addr) (c : MutexCell) : Kernel :=
  { s with mutex := Function.update s.mutex m c }

def setSem (s : Kernel) (a : Addr) (c : SemCell) : Kernel :=
  { s with sem := Function.update s.sem a c }

def setCond (s : Kernel) (c : Addr) (initialized : Nat) : Kernel :=
  { s with cond := Function.update s.cond c initialized }

def setQueue (s : Kernel) (k : Obj) (q : List Nat) : Kernel :=
  { s with queue := Function.update s.queue k q }

def setCpu (s : Kernel) (cpu : Cpu) : Kernel := { s with cpu := cpu }

def log (s : Kernel) (o : Obs) : Kernel := { s with hist := o :: s.hist }

/-- The tid of the thread whose stack `x` is. -/
def ctxTid (s : Kernel) : Ctx → Tid
  | .main => 0
  | .green i => (s.threads i).tid

/-- The tid in the slot with this number. -/
def tidAt (s : Kernel) (n : Nat) : Tid := if h : n < 128 then (s.threads ⟨n, h⟩).tid else 0

/-- A call made on stack `x` returns to user code. -/
def ret (s : Kernel) (x : Ctx) (c : Call) (r : Ret) : Kernel :=
  (s.log (.ret (s.ctxTid x) c r)).setCpu (.user x)

/-- The stack of slot `i` leaves the CPU; main's dispatcher goes on at `k`. -/
def leave (s : Kernel) (i : Slot) (k : Kont) : Kernel :=
  (s.log (.leave (.green i) (some k))).setCpu (.swap (some k))

/-- The thread of slot `i` is suspended at `f` in state `st`. -/
def suspend (s : Kernel) (i : Slot) (st : ThreadState) (f : Frame) : Kernel :=
  s.setThread i { s.threads i with state := st, ctx := some ⟨.green i, f⟩ }

/-- The thread of slot `i` is suspended at `f`, `BLOCKED`, and queued for the object `o`. -/
def wait (s : Kernel) (i : Slot) (o : Obj) (f : Frame) : Kernel :=
  (s.suspend i .blocked f).setQueue o (s.queue o ++ [(i : Nat)])

/-- The thread with slot number `n` is made `READY` if it is `BLOCKED`. -/
def unblock (s : Kernel) (n : Nat) : Kernel :=
  if h : n < 128 then
    if (s.threads ⟨n, h⟩).state = .blocked then s.setState ⟨n, h⟩ .ready else s
  else s

/-- The first waiter for `o`, if any, is taken off the queue and made `READY`. -/
def wake (s : Kernel) (o : Obj) : Kernel :=
  match s.queue o with
  | [] => s
  | n :: q => (s.setQueue o q).unblock n

/-- All waiters are woken, up to `n`. -/
def wakes (s : Kernel) (o : Obj) : Nat → Kernel
  | 0 => s
  | n + 1 => (s.wake o).wakes o n

section
variable {s : Kernel}

theorem setQueue_self (s : Kernel) (o : Obj) : s.setQueue o (s.queue o) = s := by
  unfold setQueue
  rw [Function.update_eq_self]

theorem setMutex_self (s : Kernel) (m : Addr) : s.setMutex m (s.mutex m) = s := by
  unfold setMutex
  rw [Function.update_eq_self]

theorem setSem_self (s : Kernel) (a : Addr) : s.setSem a (s.sem a) = s := by
  unfold setSem
  rw [Function.update_eq_self]

theorem setCond_self (s : Kernel) (c : Addr) : s.setCond c (s.cond c) = s := by
  unfold setCond
  rw [Function.update_eq_self]

theorem wake_nil {o : Obj} (h : s.queue o = []) : s.wake o = s := by
  unfold wake
  rw [h]

theorem wake_cons {o : Obj} {n : Nat} {q : List Nat} (h : s.queue o = n :: q) :
    s.wake o = (s.setQueue o q).unblock n := by
  unfold wake
  rw [h]

theorem wakes_nil {o : Obj} (h : s.queue o = []) : ∀ n, s.wakes o n = s
  | 0 => rfl
  | n + 1 => by
    rw [wakes, wake_nil h]
    exact wakes_nil h n

theorem unblock_blocked {i : Slot} (h : (s.threads i).state = .blocked) :
    s.unblock i = s.setState i .ready := by
  unfold unblock
  rw [dif_pos i.isLt, if_pos h]

theorem unblock_other {n : Nat} (h : ∀ i : Slot, (i : Nat) = n → (s.threads i).state ≠ .blocked) :
    s.unblock n = s := by
  unfold unblock
  by_cases hn : n < 128
  · rw [dif_pos hn, if_neg (h ⟨n, hn⟩ rfl)]
  · rw [dif_neg hn]

/-- Nothing depends on the history. -/
theorem unblock_log (s : Kernel) (ob : Obs) (n : Nat) :
    (s.log ob).unblock n = (s.unblock n).log ob := by
  by_cases h : ∃ i : Slot, (i : Nat) = n ∧ (s.threads i).state = .blocked
  · obtain ⟨i, rfl, hi⟩ := h
    rw [unblock_blocked hi, unblock_blocked (s := s.log ob) hi]
    rfl
  · rw [unblock_other fun i hi hb => h ⟨i, hi, hb⟩,
      unblock_other (s := s.log ob) fun i hi hb => h ⟨i, hi, hb⟩]

theorem wake_log (s : Kernel) (ob : Obs) (o : Obj) : (s.log ob).wake o = (s.wake o).log ob := by
  cases hq : s.queue o with
  | nil => rw [wake_nil hq, wake_nil (s := s.log ob) hq]
  | cons n q =>
    rw [wake_cons hq, wake_cons (s := s.log ob) hq]
    exact unblock_log (s.setQueue o q) ob n

/-- What a wake-up leaves alone: it changes states and queues only. -/
structure Woken (s t : Kernel) : Prop where
  mutex : t.mutex = s.mutex
  sem : t.sem = s.sem
  cond : t.cond = s.cond
  cpu : t.cpu = s.cpu
  hist : t.hist = s.hist
  tid : ∀ i, (t.threads i).tid = (s.threads i).tid
  ctx : ∀ i, (t.threads i).ctx = (s.threads i).ctx
  state : ∀ i, (t.threads i).state = (s.threads i).state ∨
    (s.threads i).state = .blocked ∧ (t.threads i).state = .ready

theorem Woken.refl (s : Kernel) : Woken s s :=
  ⟨rfl, rfl, rfl, rfl, rfl, fun _ => rfl, fun _ => rfl, fun _ => Or.inl rfl⟩

theorem Woken.trans {s t u : Kernel} (h : Woken s t) (h' : Woken t u) : Woken s u where
  mutex := h'.mutex.trans h.mutex
  sem := h'.sem.trans h.sem
  cond := h'.cond.trans h.cond
  cpu := h'.cpu.trans h.cpu
  hist := h'.hist.trans h.hist
  tid := fun i => (h'.tid i).trans (h.tid i)
  ctx := fun i => (h'.ctx i).trans (h.ctx i)
  state := by
    intro i
    rcases h.state i with hs | ⟨hb, hr⟩ <;> rcases h'.state i with hs' | ⟨hb', hr'⟩
    · exact Or.inl (hs'.trans hs)
    · exact Or.inr ⟨hs ▸ hb', hr'⟩
    · exact Or.inr ⟨hb, hs'.trans hr⟩
    · exact Or.inr ⟨hb, hr'⟩

theorem woken_unblock (s : Kernel) (n : Nat) : Woken s (s.unblock n) := by
  by_cases h : ∃ i : Slot, (i : Nat) = n ∧ (s.threads i).state = .blocked
  · obtain ⟨i, rfl, hi⟩ := h
    rw [unblock_blocked hi]
    have hother : ∀ j, j ≠ i → (s.setState i .ready).threads j = s.threads j :=
      fun j hj => Function.update_of_ne hj _ _
    have hself : (s.setState i .ready).threads i = { s.threads i with state := .ready } :=
      Function.update_self i _ _
    refine ⟨rfl, rfl, rfl, rfl, rfl, fun j => ?_, fun j => ?_, fun j => ?_⟩ <;>
      by_cases hj : j = i
    · rw [hj, hself]
    · rw [hother j hj]
    · rw [hj, hself]
    · rw [hother j hj]
    · rw [hj, hself]
      exact Or.inr ⟨hi, rfl⟩
    · rw [hother j hj]
      exact Or.inl rfl
  · rw [unblock_other fun i hi hb => h ⟨i, hi, hb⟩]
    exact .refl s

theorem queue_setQueue_of_ne (s : Kernel) {o o' : Obj} (h : o' ≠ o) (q : List Nat) :
    (s.setQueue o q).queue o' = s.queue o' := Function.update_of_ne h _ _

/-- Joining one queue leaves the others alone. -/
theorem queue_wait_of_ne (s : Kernel) (i : Slot) {o o' : Obj} (f : Frame) (h : o' ≠ o) :
    (s.wait i o f).queue o' = s.queue o' := Function.update_of_ne h _ _

theorem queue_unblock (s : Kernel) (n : Nat) : (s.unblock n).queue = s.queue := by
  unfold unblock
  split
  · split <;> rfl
  · rfl

/-- A wake-up takes the first entry off its queue. -/
theorem queue_wake (s : Kernel) (o : Obj) :
    (s.wake o).queue = Function.update s.queue o (s.queue o).tail := by
  cases hq : s.queue o with
  | nil => rw [wake_nil hq, List.tail_nil, ← hq, Function.update_eq_self]
  | cons n q =>
    rw [wake_cons hq, queue_unblock]
    rfl

theorem queue_wakes (o : Obj) : ∀ (n : Nat) (s : Kernel),
    (s.wakes o n).queue = Function.update s.queue o ((s.queue o).drop n)
  | 0, s => (Function.update_eq_self o s.queue).symm
  | n + 1, s => by
    rw [wakes, queue_wakes o n (s.wake o), queue_wake, Function.update_idem,
      Function.update_self, List.drop_tail]

theorem woken_wake (s : Kernel) (o : Obj) : Woken s (s.wake o) := by
  unfold wake
  split
  · exact .refl s
  · rename_i n q _
    have h := woken_unblock (s.setQueue o q) n
    exact ⟨h.mutex, h.sem, h.cond, h.cpu, h.hist, h.tid, h.ctx, h.state⟩

theorem Woken.ctxTid {s t : Kernel} (h : Woken s t) (x : Ctx) : t.ctxTid x = s.ctxTid x := by
  cases x with
  | main => rfl
  | green i => exact h.tid i

theorem woken_wakes (o : Obj) : ∀ (n : Nat) (s : Kernel), Woken s (s.wakes o n)
  | 0, s => .refl s
  | n + 1, s => (woken_wake s o).trans (woken_wakes o n (s.wake o))

end

/-! ## Where the code is in `gth_mutex_lock` -/

/-- The stack `x` executes `gth_mutex_lock(m)`: just called by the user; woken in its loop; or
    called by `gth_cond_wait` after the wake-up. -/
inductive Locking (s : Kernel) (x : Ctx) (m : Addr) : Option Addr → Option (Ctx × Call) → Prop where
  | call : s.cpu = .user x → (s.mutex m).initialized ≠ 0 →
      Locking s x m none (some (x, .mutexLock m))
  | woken (i : Slot) (via : Option Addr) : x = .green i →
      s.cpu = .swap (some ⟨.green i, .lock m i via⟩) → Locking s x m via none
  | relock (i : Slot) (c : Addr) : x = .green i →
      s.cpu = .swap (some ⟨.green i, .condWait c m⟩) → (s.mutex m).initialized ≠ 0 →
      Locking s x m (some c) none

/-- Calls that only read. -/
def isQuery : Call → Bool
  | .self => true
  | .getStats _ => true
  | _ => false

/-- The call that is inside `gth_scheduler_run_next`. -/
def callerCall : Caller → Call
  | .yield => .yield
  | .join tid out _ => .join tid out

/-- Main, inside `gth_scheduler_run_next`. -/
def IsDispatcher (k : Kont) : Prop := ∃ act caller, k = ⟨.main, .runNext act 0 caller⟩

/-! ## Transitions -/

/-- A call about threads, or one that returns an error or only reads. -/
inductive ThreadStep (s : Kernel) : Option (Ctx × Call) → Kernel → Prop where
  /-- A call that returns an error has changed nothing. -/
  | fail (x : Ctx) (c : Call) (st : Status) : s.cpu = .user x → st ≠ .ok →
      ThreadStep s (some (x, c)) (s.ret x c ⟨st, []⟩)
  | query (x : Ctx) (c : Call) (r : Ret) : s.cpu = .user x → isQuery c = true →
      ThreadStep s (some (x, c)) (s.ret x c r)
  | createFail (x : Ctx) (c : Call) (st : Status) (i : Slot) : s.cpu = .user x →
      c.isCreate = true → st ≠ .ok → (s.threads i).state = .empty →
      ThreadStep s (some (x, c)) ((s.setThread i {}).ret x c ⟨st, []⟩)
  | create (x : Ctx) (c : Call) (i : Slot) (r : ThreadRecord) : s.cpu = .user x →
      c.isCreate = true → (s.threads i).state = .empty → r.state = .ready →
      r.ctx = some ⟨.green i, .entry⟩ →
      ThreadStep s (some (x, c)) ((s.setThread i r).ret x c ⟨.ok, [r.tid]⟩)
  | schedule (caller : Caller) : s.cpu = .user .main →
      ThreadStep s (some (.main, callerCall caller)) (s.setCpu (.sched .main caller))
  | yield (i : Slot) (k : Kont) : s.cpu = .user (.green i) → IsDispatcher k →
      ThreadStep s (some (.green i, .yield)) ((s.suspend i .ready .yield).leave i k)
  | cancel (x : Ctx) (tid : Tid) (i : Slot) : s.cpu = .user x →
      findThread s.threads tid = some i → threadIsTerminal (s.threads i).state = false →
      ThreadStep s (some (x, .cancel tid))
        ((s.setThread i { s.threads i with state := .canceled, retval := 0 }).ret x (.cancel tid)
          ⟨.ok, []⟩)
  | exit (i : Slot) (v : Nat) (r : ThreadRecord) (k : Kont) : s.cpu = .user (.green i) →
      r.tid = (s.threads i).tid → r.ctx = (s.threads i).ctx → threadIsTerminal r.state = true →
      IsDispatcher k →
      ThreadStep s (some (.green i, .exit v)) ((s.setThread i r).leave i k)
  | release (tid : Tid) (out : Bool) (i : Slot) : s.cpu = .user .main →
      findThread s.threads tid = some i → threadIsTerminal (s.threads i).state = true →
      ThreadStep s (some (.main, .join tid out)) ((s.setThread i {}).ret .main (.join tid out)
        ⟨.ok, if out then [(s.threads i).retval] else []⟩)

/-- A pick of the dispatcher, or a stack that goes on outside of `sync/`. -/
inductive SchedStep (s : Kernel) : Option (Ctx × Call) → Kernel → Prop where
  | idle (caller : Caller) (st : Status) : s.cpu = .sched .main caller → st ≠ .ok →
      SchedStep s none (s.ret .main (callerCall caller) ⟨st, []⟩)
  | dispatch (caller : Caller) (act : Nat) (i : Slot) (f : Frame) : s.cpu = .sched .main caller →
      (s.threads i).state = .ready → (s.threads i).ctx = some ⟨.green i, f⟩ → f.Parked i →
      SchedStep s none (((s.setState i .running).log (.dispatch act .main i (s.threads i).tid)).setCpu
        (.swap (some ⟨.green i, f⟩)))
  | backYield (act : Nat) : s.cpu = .swap (some ⟨.main, .runNext act 0 .yield⟩) →
      SchedStep s none ((s.log (.resume act .main)).ret .main .yield ⟨.ok, []⟩)
  | backRelease (act : Nat) (tid : Tid) (out : Bool) (i : Slot) :
      s.cpu = .swap (some ⟨.main, .runNext act 0 (.join tid out i)⟩) →
      findThread s.threads tid = some i → threadIsTerminal (s.threads i).state = true →
      SchedStep s none (((s.log (.resume act .main)).setThread i {}).ret .main (.join tid out)
        ⟨.ok, if out then [(s.threads i).retval] else []⟩)
  | backLoop (act : Nat) (caller : Caller) :
      s.cpu = .swap (some ⟨.main, .runNext act 0 caller⟩) →
      SchedStep s none ((s.log (.resume act .main)).setCpu (.sched .main caller))
  | start (i : Slot) : s.cpu = .swap (some ⟨.green i, .entry⟩) →
      SchedStep s none (s.setCpu (.user (.green i)))
  | yielded (i : Slot) : s.cpu = .swap (some ⟨.green i, .yield⟩) →
      SchedStep s none (s.ret (.green i) .yield ⟨.ok, []⟩)

/-- A code segment of `mutex.c`. -/
inductive MutexStep (s : Kernel) : Option (Ctx × Call) → Kernel → Prop where
  | init (x : Ctx) (m : Addr) : s.cpu = .user x →
      MutexStep s (some (x, .mutexInit m)) (((s.setMutex m ⟨1, 0, 0⟩).setQueue (.mutex m) []).ret x
        (.mutexInit m) ⟨.ok, []⟩)
  | acquire (x : Ctx) (m : Addr) (via : Option Addr) (l : Option (Ctx × Call)) :
      s.Locking x m via l → (s.mutex m).locked = 0 →
      MutexStep s l ((s.setMutex m { s.mutex m with locked := 1, owner := s.ctxTid x }).ret x
        (Core.lockCall m via) ⟨.ok, []⟩)
  | lockBlock (i : Slot) (m : Addr) (via : Option Addr) (l : Option (Ctx × Call)) (k : Kont) :
      s.Locking (.green i) m via l → (s.mutex m).initialized ≠ 0 → (s.mutex m).locked ≠ 0 →
      IsDispatcher k →
      MutexStep s l ((s.wait i (.mutex m) (.lock m i via)).leave i k)
  /-- The queue is full when a woken thread has to queue up again. -/
  | lockBusy (i : Slot) (m : Addr) (via : Option Addr) :
      s.cpu = .swap (some ⟨.green i, .lock m i via⟩) → (s.mutex m).locked ≠ 0 →
      MutexStep s none (s.ret (.green i) (Core.lockCall m via) ⟨.ebusy, []⟩)
  | relockFail (i : Slot) (c m : Addr) (st : Status) :
      s.cpu = .swap (some ⟨.green i, .condWait c m⟩) → st ≠ .ok →
      MutexStep s none (s.ret (.green i) (.condWait c m) ⟨st, []⟩)
  | trylock (x : Ctx) (m : Addr) : s.cpu = .user x → (s.mutex m).initialized ≠ 0 →
      (s.mutex m).locked = 0 →
      MutexStep s (some (x, .mutexTrylock m))
        ((s.setMutex m { s.mutex m with locked := 1, owner := s.ctxTid x }).ret x
          (.mutexTrylock m) ⟨.ok, []⟩)
  | unlock (x : Ctx) (m : Addr) : s.cpu = .user x → (s.mutex m).initialized ≠ 0 →
      (s.mutex m).locked ≠ 0 → ((s.mutex m).owner = 0 ∨ (s.mutex m).owner = s.ctxTid x) →
      MutexStep s (some (x, .mutexUnlock m))
        (((s.setMutex m { s.mutex m with locked := 0, owner := 0 }).wake (.mutex m)).ret x
          (.mutexUnlock m) ⟨.ok, []⟩)
  | destroy (x : Ctx) (m : Addr) : s.cpu = .user x → (s.mutex m).locked = 0 →
      s.queue (.mutex m) = [] →
      MutexStep s (some (x, .mutexDestroy m)) (((s.setMutex m ⟨0, 0, 0⟩).setQueue (.mutex m) []).ret x
        (.mutexDestroy m) ⟨.ok, []⟩)

/-- A code segment of `sem.c`. -/
inductive SemStep (s : Kernel) : Option (Ctx × Call) → Kernel → Prop where
  | init (x : Ctx) (a : Addr) (n : Nat) : s.cpu = .user x →
      SemStep s (some (x, .semInit a n)) (((s.setSem a ⟨1, n % 2 ^ 32⟩).setQueue (.sem a) []).ret x
        (.semInit a n) ⟨.ok, []⟩)
  | take (x : Ctx) (a : Addr) : s.cpu = .user x → (s.sem a).initialized ≠ 0 →
      (s.sem a).count ≠ 0 →
      SemStep s (some (x, .semWait a))
        (((s.setSem a { s.sem a with count := (s.sem a).count - 1 }).log
          (.semTake (s.ctxTid x) a)).ret x (.semWait a) ⟨.ok, []⟩)
  | block (i : Slot) (a : Addr) (k : Kont) : s.cpu = .user (.green i) →
      (s.sem a).initialized ≠ 0 → (s.sem a).count = 0 → IsDispatcher k →
      SemStep s (some (.green i, .semWait a))
        (((s.log (.semBlock (s.threads i).tid a)).wait i (.sem a) (.semWait a)).leave i k)
  | waited (i : Slot) (a : Addr) : s.cpu = .swap (some ⟨.green i, .semWait a⟩) →
      SemStep s none (s.ret (.green i) (.semWait a) ⟨.ok, []⟩)
  | wake (x : Ctx) (a : Addr) (n : Nat) (q : List Nat) : s.cpu = .user x →
      (s.sem a).initialized ≠ 0 → s.queue (.sem a) = n :: q →
      SemStep s (some (x, .semPost a))
        (((s.log (.semWake (s.tidAt n) a)).wake (.sem a)).ret x (.semPost a) ⟨.ok, []⟩)
  | give (x : Ctx) (a : Addr) : s.cpu = .user x → (s.sem a).initialized ≠ 0 →
      s.queue (.sem a) = [] → (s.sem a).count ≠ 2 ^ 32 - 1 →
      SemStep s (some (x, .semPost a))
        ((s.setSem a { s.sem a with count := (s.sem a).count + 1 }).ret x (.semPost a) ⟨.ok, []⟩)
  | destroy (x : Ctx) (a : Addr) : s.cpu = .user x → s.queue (.sem a) = [] →
      SemStep s (some (x, .semDestroy a)) (((s.setSem a ⟨0, 0⟩).setQueue (.sem a) []).ret x
        (.semDestroy a) ⟨.ok, []⟩)

/-- A code segment of `cond.c`. -/
inductive CondStep (s : Kernel) : Option (Ctx × Call) → Kernel → Prop where
  | init (x : Ctx) (c : Addr) : s.cpu = .user x →
      CondStep s (some (x, .condInit c)) (((s.setCond c 1).setQueue (.cond c) []).ret x
        (.condInit c) ⟨.ok, []⟩)
  | block (i : Slot) (c m : Addr) (k : Kont) : s.cpu = .user (.green i) → s.cond c ≠ 0 →
      (s.mutex m).initialized ≠ 0 → (s.mutex m).locked ≠ 0 →
      ((s.mutex m).owner = 0 ∨ (s.mutex m).owner = (s.threads i).tid) → IsDispatcher k →
      CondStep s (some (.green i, .condWait c m))
        (((((s.setMutex m { s.mutex m with locked := 0, owner := 0 }).wait i (.cond c)
          (.condWait c m)).wake (.mutex m)).log (.condRelease (s.threads i).tid c m)).leave i k)
  /-- The caller had queued up when the mutex turned out not to be its own. -/
  | fail (i : Slot) (c m : Addr) (st : Status) : s.cpu = .user (.green i) → st ≠ .ok →
      CondStep s (some (.green i, .condWait c m))
        (((s.setState i .running).setQueue (.cond c)
          ((s.queue (.cond c) ++ [(i : Nat)]).erase (i : Nat))).ret (.green i) (.condWait c m)
          ⟨st, []⟩)
  | signal (x : Ctx) (c : Addr) : s.cpu = .user x →
      CondStep s (some (x, .condSignal c)) ((s.wake (.cond c)).ret x (.condSignal c) ⟨.ok, []⟩)
  | broadcast (x : Ctx) (c : Addr) : s.cpu = .user x →
      CondStep s (some (x, .condBroadcast c))
        ((s.wakes (.cond c) (s.queue (.cond c)).length).ret x (.condBroadcast c) ⟨.ok, []⟩)
  | destroy (x : Ctx) (c : Addr) : s.cpu = .user x → s.queue (.cond c) = [] →
      CondStep s (some (x, .condDestroy c)) (((s.setCond c 0).setQueue (.cond c) []).ret x
        (.condDestroy c) ⟨.ok, []⟩)

/-- One code segment. -/
inductive Step (s : Kernel) (l : Option (Ctx × Call)) (t : Kernel) : Prop where
  | thread : ThreadStep s l t → Step s l t
  | sched : SchedStep s l t → Step s l t
  | mutex : MutexStep s l t → Step s l t
  | sem : SemStep s l t → Step s l t
  | cond : CondStep s l t → Step s l t

/-- What well-formedness of the core says about a kernel. -/
structure Ok (s : Kernel) : Prop where
  tid_pos : ∀ i, (s.threads i).state ≠ .empty → (s.threads i).tid ≠ 0
  tid_inj : DistinctTids s.threads
  parked : ∀ i, (s.threads i).state = .ready ∨ (s.threads i).state = .blocked →
    ∃ f : Frame, (s.threads i).ctx = some ⟨.green i, f⟩ ∧ f.Parked i ∧
      ((s.threads i).state = .blocked → f.waits ≠ none)
  user : ∀ i, s.cpu = .user (.green i) →
    (s.threads i).state = .running ∨ (s.threads i).state = .canceled
  enter : ∀ i f, s.cpu = .swap (some ⟨.green i, f⟩) →
    (s.threads i).state = .running ∧ f.Parked i

/-! ## Suspended stacks -/

/-- Every stack that is suspended or about to go on is at a place that meets `P`. -/
structure Frames (P : Frame → Prop) (s : Kernel) : Prop where
  saved : ∀ i k, (s.threads i).ctx = some k → P k.frame
  loaded : ∀ k, s.cpu = .swap (some k) → P k.frame

namespace Frames
variable {P : Frame → Prop} {s t : Kernel}

theorem setThread (h : Frames P s) {i : Slot} {r : ThreadRecord}
    (hr : ∀ k, r.ctx = some k → P k.frame) : Frames P (s.setThread i r) := by
  refine ⟨fun j k hk => ?_, h.loaded⟩
  by_cases hj : j = i
  · subst hj
    simp only [Kernel.setThread, Function.update_self] at hk
    exact hr k hk
  · simp only [Kernel.setThread, Function.update_of_ne hj] at hk
    exact h.saved j k hk

theorem wait (h : Frames P s) {f : Frame} (hf : P f) (i : Slot) (o : Obj) :
    Frames P (s.wait i o f) := by
  have hset := h.setThread (i := i)
    (r := { s.threads i with state := .blocked, ctx := some ⟨.green i, f⟩ })
    (fun k hk => Option.some.inj hk ▸ hf)
  exact ⟨hset.saved, hset.loaded⟩

theorem ret (h : Frames P s) (x : Ctx) (c : Call) (r : Ret) : Frames P (s.ret x c r) :=
  ⟨h.saved, nofun⟩

theorem leave (h : Frames P s) (hnone : ∀ f, f.waits = none → P f) (i : Slot) {k : Kont}
    (hk : IsDispatcher k) : Frames P (s.leave i k) := by
  refine ⟨h.saved, fun k' hk' => ?_⟩
  obtain ⟨act, caller, rfl⟩ := hk
  cases hk'
  exact hnone _ rfl

theorem woken (h : Frames P s) (hw : Woken s t) : Frames P t := by
  refine ⟨fun i k hk => h.saved i k ?_, fun k hk => h.loaded k ?_⟩
  · rw [← hw.ctx]
    exact hk
  · rw [← hw.cpu]
    exact hk

end Frames

section
variable {P : Frame → Prop} {s t : Kernel} {l : Option (Ctx × Call)} (hs : Frames P s)
  (hnone : ∀ f, f.waits = none → P f)
include hs hnone

theorem ThreadStep.frames (h : ThreadStep s l t) : Frames P t := by
  cases h with
  | fail x c st _ _ => exact hs.ret _ _ _
  | query x c r _ _ => exact hs.ret _ _ _
  | createFail x c st i _ _ _ _ => exact (hs.setThread (i := i) (r := {}) nofun).ret _ _ _
  | create x c i r _ _ _ _ hctx =>
    refine (hs.setThread (i := i) (r := r) fun k hk => ?_).ret _ _ _
    rw [hctx] at hk
    exact Option.some.inj hk ▸ hnone _ rfl
  | schedule caller _ => exact ⟨hs.saved, by nofun⟩
  | yield i k _ hk =>
    refine (hs.setThread (i := i) fun k' hk' => ?_).leave hnone i hk
    exact Option.some.inj hk' ▸ hnone _ rfl
  | cancel x tid i _ _ _ => exact (hs.setThread (i := i) (by exact hs.saved i)).ret _ _ _
  | exit i v r k _ _ hctx _ hk =>
    refine (hs.setThread (i := i) (r := r) fun k' hk' => hs.saved i k' ?_).leave hnone i hk
    rw [← hctx]
    exact hk'
  | release tid out i _ _ _ => exact (hs.setThread (i := i) (r := {}) nofun).ret _ _ _

omit hnone in
theorem SchedStep.frames (h : SchedStep s l t) : Frames P t := by
  cases h with
  | idle caller st _ _ => exact hs.ret _ _ _
  | dispatch caller act i f _ _ hctx _ =>
    refine ⟨(hs.setThread (i := i) (by exact hs.saved i)).saved, fun k hk => ?_⟩
    cases hk
    exact hs.saved i _ hctx
  | backYield act _ => exact ⟨hs.saved, by nofun⟩
  | backRelease act tid out i _ _ _ =>
    exact ⟨(hs.setThread (i := i) (r := {}) nofun).saved, by nofun⟩
  | backLoop act caller _ => exact ⟨hs.saved, by nofun⟩
  | start i _ => exact ⟨hs.saved, by nofun⟩
  | yielded i _ => exact hs.ret _ _ _

theorem MutexStep.frames (h : MutexStep s l t)
    (hlock : ∀ i m via, s.Locking (.green i) m via l → (s.mutex m).initialized ≠ 0 →
      P (.lock m i via)) : Frames P t := by
  cases h with
  | lockBlock i m via l k hat hi _ hk =>
    exact (hs.wait (hlock i m via hat hi) i _).leave hnone i hk
  | lockBusy i m via _ _ => exact hs.ret _ _ _
  | relockFail i c m st _ _ => exact hs.ret _ _ _
  | unlock x m _ _ _ _ =>
    exact (Frames.woken (s := s.setMutex m _) ⟨hs.saved, hs.loaded⟩ (woken_wake _ _)).ret _ _ _
  | _ => exact ⟨hs.saved, by nofun⟩

theorem SemStep.frames (h : SemStep s l t)
    (hsem : ∀ i a, l = some (.green i, .semWait a) → (s.sem a).initialized ≠ 0 →
      P (.semWait a)) : Frames P t := by
  cases h with
  | block i a k _ hi _ hk =>
    exact (Frames.wait (s := s.log _) ⟨hs.saved, hs.loaded⟩ (hsem i a rfl hi) i _).leave hnone i hk
  | waited i a _ => exact hs.ret _ _ _
  | wake x a n q _ _ _ =>
    exact (Frames.woken (s := s.log _) ⟨hs.saved, hs.loaded⟩ (woken_wake _ _)).ret _ _ _
  | _ => exact ⟨hs.saved, by nofun⟩

theorem CondStep.frames (h : CondStep s l t)
    (hcond : ∀ i c m, l = some (.green i, .condWait c m) → P (.condWait c m)) : Frames P t := by
  cases h with
  | block i c m k _ _ _ _ _ hk =>
    have hw := (Frames.wait (s := s.setMutex m { s.mutex m with locked := 0, owner := 0 })
      ⟨hs.saved, hs.loaded⟩ (hcond i c m rfl) i (.cond c)).woken (woken_wake _ (.mutex m))
    refine Frames.leave ?_ hnone i hk
    exact ⟨hw.saved, hw.loaded⟩
  | fail i c m st _ _ =>
    have hrun := hs.setThread (i := i) (r := { s.threads i with state := .running })
      (by exact hs.saved i)
    exact ⟨hrun.saved, by nofun⟩
  | signal x c _ => exact (hs.woken (woken_wake _ _)).ret _ _ _
  | broadcast x c _ => exact (hs.woken (woken_wakes _ _ _)).ret _ _ _
  | _ => exact ⟨hs.saved, by nofun⟩

/-- **New places**: a transition suspends stacks only at places without a wait, or in the wait it
    makes. -/
theorem Step.frames (h : Step s l t)
    (hlock : ∀ i m via, s.Locking (.green i) m via l → (s.mutex m).initialized ≠ 0 →
      P (.lock m i via))
    (hsem : ∀ i a, l = some (.green i, .semWait a) → (s.sem a).initialized ≠ 0 → P (.semWait a))
    (hcond : ∀ i c m, l = some (.green i, .condWait c m) → P (.condWait c m)) : Frames P t := by
  cases h with
  | thread h => exact h.frames hs hnone
  | sched h => exact h.frames hs
  | mutex h => exact h.frames hs hnone hlock
  | sem h => exact h.frames hs hnone hsem
  | cond h => exact h.frames hs hnone hcond

end
end Kernel
end Gth

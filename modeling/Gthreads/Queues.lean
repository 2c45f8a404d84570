/-
  The wait queues and the thread table.

  A `BLOCKED` thread records in its saved context what it waits for (`Kernel.waiting`); the
  objects keep queues of slot numbers.  These are the two sides of a `WaitMap`.  Every transition
  but one pushes and pops on both sides (`Step.stable`); the exception is the cancellation of a
  `BLOCKED` thread, which takes it out of the table and leaves its slot number in the queue.
-/
import Gthreads.Refinement
import Gthreads.Lib.WaitMap

namespace Gth

/-- What a thread waits for. -/
def ThreadRecord.waitsFor (t : ThreadRecord) : Option Obj :=
  if t.state = .blocked then t.ctx.bind fun k => k.frame.waits else none

/-- The object a call initialises. -/
def Call.inits : Call → Option Obj
  | .mutexInit m => some (.mutex m)
  | .semInit a _ => some (.sem a)
  | .condInit c => some (.cond c)
  | _ => none

/-- The call does not cancel a `BLOCKED` thread. -/
def SparesBlocked (threads : Slot → ThreadRecord) : Call → Prop
  | .cancel tid => ∀ i, findThread threads tid = some i → (threads i).state ≠ .blocked
  | _ => True

instance (threads : Slot → ThreadRecord) : ∀ c, Decidable (SparesBlocked threads c) := by
  intro c
  cases c with
  | cancel tid =>
    exact Exec.decideNext (P := fun i => (threads i).state ≠ .blocked) (findThread threads tid)
  | _ => exact isTrue trivial

namespace Kernel

/-- What the thread in the slot with this number waits for. -/
def waiting (s : Kernel) (n : Nat) : Option Obj :=
  if h : n < 128 then (s.threads ⟨n, h⟩).waitsFor else none

section
variable {s t : Kernel} {l : Option (Ctx × Call)} {i : Slot} {o : Obj}

theorem waiting_slot (s : Kernel) (i : Slot) : s.waiting i = (s.threads i).waitsFor :=
  dif_pos i.isLt

theorem waitsFor_none {r : ThreadRecord} (h : r.state ≠ .blocked) : r.waitsFor = none := if_neg h

/-- One record is overwritten. -/
theorem waiting_setThread (s : Kernel) (i : Slot) (r : ThreadRecord) :
    (s.setThread i r).waiting = Function.update s.waiting (i : Nat) r.waitsFor := by
  funext n
  by_cases hn : n = i
  · subst hn
    rw [Function.update_self, waiting_slot]
    simp only [setThread, Function.update_self]
  · rw [Function.update_of_ne hn]
    unfold waiting
    by_cases hlt : n < 128
    · have hne : (⟨n, hlt⟩ : Slot) ≠ i := fun e => hn (congrArg Fin.val e)
      rw [dif_pos hlt, dif_pos hlt]
      simp only [setThread, Function.update_of_ne hne]
    · rw [dif_neg hlt, dif_neg hlt]

/-- A record that does not wait is overwritten by one that does not wait. -/
theorem waiting_setThread_self {r : ThreadRecord} (hold : (s.threads i).state ≠ .blocked)
    (hnew : r.state ≠ .blocked) : (s.setThread i r).waiting = s.waiting := by
  rw [waiting_setThread, waitsFor_none hnew, ← waitsFor_none hold, ← waiting_slot,
    Function.update_eq_self]

theorem waiting_wait (s : Kernel) (i : Slot) {o : Obj} {f : Frame} (hf : f.waits = some o) :
    (s.wait i o f).waiting = Function.update s.waiting (i : Nat) (some o) := by
  refine (waiting_setThread s i _).trans ?_
  congr 1

theorem waiting_some {n : Nat} (h : s.waiting n = some o) : ∃ i : Slot, (i : Nat) = n ∧
    (s.threads i).state = .blocked ∧ ∃ k, (s.threads i).ctx = some k ∧ k.frame.waits = some o := by
  unfold waiting at h
  by_cases hn : n < 128
  · rw [dif_pos hn] at h
    refine ⟨⟨n, hn⟩, rfl, ?_⟩
    unfold ThreadRecord.waitsFor at h
    by_cases hst : (s.threads ⟨n, hn⟩).state = .blocked
    · rw [if_pos hst] at h
      exact ⟨hst, Option.bind_eq_some_iff.mp h⟩
    · rw [if_neg hst] at h
      nomatch h
  · rw [dif_neg hn] at h
    nomatch h

/-! ## The moves -/

variable {P : (Nat → Option Obj) → (Obj → List Nat) → Prop}

/-- A thread that is not blocked starts to wait. -/
theorem stable_wait (hP : WaitMap.Stable P) (h : P s.waiting s.queue)
    (hi : (s.threads i).state ≠ .blocked) {f : Frame} (hf : f.waits = some o) :
    P (s.wait i o f).waiting (s.wait i o f).queue := by
  have hnone : s.waiting i = none := by rw [waiting_slot, waitsFor_none hi]
  rw [waiting_wait s i hf]
  exact hP.push h hnone o

/-- Whoever is taken off a queue does not wait afterwards. -/
theorem waiting_wake {n : Nat} {q : List Nat} (hq : s.queue o = n :: q) :
    (s.wake o).waiting = Function.update s.waiting n none := by
  rw [wake_cons hq]
  by_cases h : ∃ i : Slot, (i : Nat) = n ∧ (s.threads i).state = .blocked
  · obtain ⟨i, rfl, hst⟩ := h
    rw [unblock_blocked (s := s.setQueue o q) hst]
    exact waiting_setThread (s.setQueue o q) i _
  · rw [unblock_other (s := s.setQueue o q) fun i hi hb => h ⟨i, hi, hb⟩]
    have hnone : s.waiting n = none := by
      cases hw : s.waiting n with
      | none => rfl
      | some o' =>
        obtain ⟨i, hi, hst, -⟩ := waiting_some hw
        exact absurd ⟨i, hi, hst⟩ h
    rw [← hnone, Function.update_eq_self]
    rfl

theorem stable_wake (hP : WaitMap.Stable P) (h : P s.waiting s.queue) (o : Obj) :
    P (s.wake o).waiting (s.wake o).queue := by
  cases hq : s.queue o with
  | nil =>
    rw [wake_nil hq]
    exact h
  | cons n q =>
    rw [waiting_wake hq, queue_wake, hq, List.tail_cons]
    exact hP.pop h hq

theorem stable_wakes (hP : WaitMap.Stable P) (o : Obj) : ∀ (n : Nat) (s : Kernel),
    P s.waiting s.queue → P (s.wakes o n).waiting (s.wakes o n).queue
  | 0, _, h => h
  | n + 1, s, h => stable_wakes hP o n (s.wake o) (stable_wake hP h o)

/-- A thread that is cancelled, but not in a wait, did not wait. -/
theorem waiting_spared (hspare : ∀ x c, l = some (x, c) → SparesBlocked s.threads c) {x : Ctx}
    {tid : Tid} (hl : l = some (x, .cancel tid)) (hfind : findThread s.threads tid = some i) :
    Function.update s.waiting (i : Nat) none = s.waiting := by
  have hnone : s.waiting i = none := by rw [waiting_slot, waitsFor_none (hspare x _ hl i hfind)]
  rw [← hnone, Function.update_eq_self]

/-- The thread running user code is not blocked. -/
theorem Ok.user_ne_blocked (hok : s.Ok) (hcpu : s.cpu = .user (.green i)) :
    (s.threads i).state ≠ .blocked := by
  intro hb
  rcases hok.user i hcpu with hs | hs <;> rw [hb] at hs <;> nomatch hs

/-- Nor is one that enters `gth_mutex_lock`, by a call or by being resumed in it. -/
theorem Locking.ne_blocked {m : Addr} {via : Option Addr} (h : Locking s (.green i) m via l)
    (hok : s.Ok) : (s.threads i).state ≠ .blocked := by
  have henter : ∀ f, s.cpu = .swap (some ⟨.green i, f⟩) → (s.threads i).state ≠ .blocked :=
    fun f hcpu => by rw [(hok.enter i f hcpu).1]; nofun
  cases h with
  | call hcpu _ => exact hok.user_ne_blocked hcpu
  | woken j _ hj hcpu => cases hj; exact henter _ hcpu
  | relock j c hj hcpu _ => cases hj; exact henter _ hcpu

theorem ne_blocked_of_terminal {st : ThreadState} (h : threadIsTerminal st = true) :
    st ≠ .blocked := by
  rintro rfl
  nomatch h

/-- A record that changes without being `BLOCKED` before or after. -/
theorem stable_setThread (h : P s.waiting s.queue) {r : ThreadRecord}
    (hold : (s.threads i).state ≠ .blocked) (hnew : r.state ≠ .blocked) :
    P (s.setThread i r).waiting s.queue := by
  rw [waiting_setThread_self hold hnew]
  exact h

/-- An object with an empty queue is torn down. -/
theorem stable_destroy (h : P s.waiting s.queue) (ho : s.queue o = []) :
    P s.waiting (Function.update s.queue o []) := by
  rw [← ho, Function.update_eq_self]
  exact h

/-- The calls on threads change the table only, and nobody's wait but that of a cancelled
    thread. -/
theorem ThreadStep.stable (hstep : ThreadStep s l t) (hok : s.Ok)
    (hcancel : ∀ x tid (i : Slot), l = some (x, .cancel tid) → findThread s.threads tid = some i →
      P (Function.update s.waiting (i : Nat) none) s.queue)
    (h : P s.waiting s.queue) : P t.waiting t.queue := by
  cases hstep with
  | fail x c st _ _ => exact h
  | query x c r _ _ => exact h
  | createFail x c st i _ _ _ hi => exact stable_setThread h (by rw [hi]; nofun) (by nofun)
  | create x c i r _ _ hi hr _ =>
    exact stable_setThread h (by rw [hi]; nofun) (by rw [hr]; nofun)
  | schedule caller _ => exact h
  | yield i k hcpu _ => exact stable_setThread h (hok.user_ne_blocked hcpu) (by nofun)
  | cancel x tid i _ hfind _ =>
    have hgone := waiting_setThread s i { s.threads i with state := .canceled, retval := 0 }
    rw [waitsFor_none (by nofun)] at hgone
    exact hgone ▸ hcancel x tid i rfl hfind
  | exit i v r k hcpu _ _ hr _ =>
    exact stable_setThread h (hok.user_ne_blocked hcpu) (ne_blocked_of_terminal hr)
  | release tid out i _ _ hi => exact stable_setThread h (ne_blocked_of_terminal hi) (by nofun)

theorem SchedStep.stable (hstep : SchedStep s l t) (h : P s.waiting s.queue) :
    P t.waiting t.queue := by
  cases hstep with
  | dispatch caller act i f _ hi _ _ => exact stable_setThread h (by rw [hi]; nofun) (by nofun)
  | backRelease act tid out i _ _ hi =>
    exact stable_setThread h (ne_blocked_of_terminal hi) (by nofun)
  | _ => exact h

theorem MutexStep.stable (hstep : MutexStep s l t) (hP : WaitMap.Stable P) (hok : s.Ok)
    (hclear : ∀ x c o, l = some (x, c) → c.inits = some o →
      P s.waiting (Function.update s.queue o []))
    (h : P s.waiting s.queue) : P t.waiting t.queue := by
  cases hstep with
  | init x m _ => exact hclear x _ _ rfl rfl
  | lockBlock i m via l k hat _ _ _ => exact stable_wait hP h (hat.ne_blocked hok) rfl
  | unlock x m _ _ _ _ => exact stable_wake (s := s.setMutex m _) hP h (.mutex m)
  | destroy x m _ _ hq => exact stable_destroy h hq
  | _ => exact h

theorem SemStep.stable (hstep : SemStep s l t) (hP : WaitMap.Stable P) (hok : s.Ok)
    (hclear : ∀ x c o, l = some (x, c) → c.inits = some o →
      P s.waiting (Function.update s.queue o []))
    (h : P s.waiting s.queue) : P t.waiting t.queue := by
  cases hstep with
  | init x a n _ => exact hclear x _ _ rfl rfl
  | block i a k hcpu _ _ _ =>
    exact stable_wait (s := s.log _) hP h (hok.user_ne_blocked hcpu) rfl
  | wake x a n q _ _ _ => exact stable_wake (s := s.log _) hP h (.sem a)
  | destroy x a _ hq => exact stable_destroy h hq
  | _ => exact h

theorem CondStep.stable (hstep : CondStep s l t) (hP : WaitMap.Stable P) (hok : s.Ok)
    (hclear : ∀ x c o, l = some (x, c) → c.inits = some o →
      P s.waiting (Function.update s.queue o []))
    (h : P s.waiting s.queue) : P t.waiting t.queue := by
  cases hstep with
  | init x c _ => exact hclear x _ _ rfl rfl
  | block i c m k hcpu _ _ _ _ _ =>
    have hwait := stable_wait (s := s.setMutex m { s.mutex m with locked := 0, owner := 0 })
      (i := i) (o := .cond c) (f := .condWait c m) hP h (hok.user_ne_blocked hcpu) rfl
    exact stable_wake hP hwait (.mutex m)
  | fail i c m st hcpu _ =>
    have hi := hok.user_ne_blocked hcpu
    have hnone : s.waiting i = none := by rw [waiting_slot, waitsFor_none hi]
    have hrun : (s.setState i .running).waiting = s.waiting := waiting_setThread_self hi nofun
    exact hrun ▸ hP.erase h hnone (.cond c)
  | signal x c _ => exact stable_wake hP h (.cond c)
  | broadcast x c _ => exact stable_wakes hP (.cond c) _ s h
  | destroy x c _ hq => exact stable_destroy h hq

/-- **Every transition moves both sides together**, but for the cancellation of a thread, which
    changes the table only, and the initialisation of an object, which empties its queue. -/
theorem Step.stable (hstep : Step s l t) (hP : WaitMap.Stable P) (hok : s.Ok)
    (hcancel : ∀ x tid (i : Slot), l = some (x, .cancel tid) → findThread s.threads tid = some i →
      P (Function.update s.waiting (i : Nat) none) s.queue)
    (hclear : ∀ x c o, l = some (x, c) → c.inits = some o →
      P s.waiting (Function.update s.queue o []))
    (h : P s.waiting s.queue) : P t.waiting t.queue := by
  cases hstep with
  | thread hstep => exact hstep.stable hok hcancel h
  | sched hstep => exact hstep.stable h
  | mutex hstep => exact hstep.stable hP hok hclear h
  | sem hstep => exact hstep.stable hP hok hclear h
  | cond hstep => exact hstep.stable hP hok hclear h

/-! ## Objects that are not initialised -/

/-- The `initialized` field of an object. -/
def initOf (s : Kernel) : Obj → Nat
  | .mutex m => (s.mutex m).initialized
  | .sem a => (s.sem a).initialized
  | .cond c => s.cond c

theorem initOf_setMutex (s : Kernel) (m : Addr) (c : MutexCell) :
    (s.setMutex m c).initOf = Function.update s.initOf (.mutex m) c.initialized := by
  refine Function.eq_update_iff.mpr
    ⟨congrArg MutexCell.initialized (Function.update_self _ _ _), fun o ho => ?_⟩
  cases o with
  | mutex m' =>
    have hm : m' ≠ m := fun e => ho (e ▸ rfl)
    exact congrArg MutexCell.initialized (Function.update_of_ne hm _ _)
  | _ => rfl

theorem initOf_setSem (s : Kernel) (a : Addr) (c : SemCell) :
    (s.setSem a c).initOf = Function.update s.initOf (.sem a) c.initialized := by
  refine Function.eq_update_iff.mpr
    ⟨congrArg SemCell.initialized (Function.update_self _ _ _), fun o ho => ?_⟩
  cases o with
  | sem a' =>
    have ha : a' ≠ a := fun e => ho (e ▸ rfl)
    exact congrArg SemCell.initialized (Function.update_of_ne ha _ _)
  | _ => rfl

theorem initOf_setCond (s : Kernel) (c : Addr) (n : Nat) :
    (s.setCond c n).initOf = Function.update s.initOf (.cond c) n := by
  refine Function.eq_update_iff.mpr ⟨Function.update_self _ _ _, fun o ho => ?_⟩
  cases o with
  | cond c' =>
    have hc : c' ≠ c := fun e => ho (e ▸ rfl)
    exact Function.update_of_ne hc _ _
  | _ => rfl

/-- Locking and unlocking do not touch `initialized`. -/
theorem initOf_setLock (s : Kernel) (m : Addr) (locked : Nat) (owner : Tid) :
    (s.setMutex m { s.mutex m with locked := locked, owner := owner }).initOf = s.initOf := by
  rw [initOf_setMutex]
  exact Function.update_eq_self (Obj.mutex m) s.initOf

theorem initOf_setCount (s : Kernel) (a : Addr) (count : Nat) :
    (s.setSem a { s.sem a with count := count }).initOf = s.initOf := by
  rw [initOf_setSem]
  exact Function.update_eq_self (Obj.sem a) s.initOf

theorem Woken.initOf (h : Woken s t) : t.initOf = s.initOf := by
  funext o
  cases o <;> simp only [Kernel.initOf, h.mutex, h.sem, h.cond]

/-- The queue of an object that is not initialised is empty. -/
def Closed (s : Kernel) : Prop := ∀ o, s.initOf o = 0 → s.queue o = []

/-- An object is set up or torn down with an empty queue. -/
theorem Closed.reset (h : Closed s) {o' : Obj} {n : Nat}
    (hq : t.queue = Function.update s.queue o' []) (hi : t.initOf = Function.update s.initOf o' n) :
    Closed t := by
  intro o ho
  rw [hq]
  by_cases hoo : o = o'
  · rw [hoo, Function.update_self]
  · rw [Function.update_of_ne hoo]
    rw [hi, Function.update_of_ne hoo] at ho
    exact h o ho

theorem Closed.same (h : Closed s) (hq : t.queue = s.queue) (hi : t.initOf = s.initOf) :
    Closed t :=
  fun o ho => by rw [hq]; exact h o (hi ▸ ho)

theorem Closed.wake (h : Closed s) (o' : Obj) : Closed (s.wake o') := by
  intro o ho
  rw [(woken_wake s o').initOf] at ho
  rw [queue_wake]
  by_cases hoo : o = o'
  · rw [← hoo, Function.update_self, h o ho, List.tail_nil]
  · rw [Function.update_of_ne hoo, h o ho]

/-- A thread waits for an initialised object. -/
theorem Closed.wait (h : Closed s) (o' : Obj) (hi : s.initOf o' ≠ 0) (i : Slot) (f : Frame) :
    Closed (s.wait i o' f) := by
  intro o ho
  have hne : o ≠ o' := fun e => hi (e ▸ ho)
  exact (Function.update_of_ne hne _ _).trans (h o ho)

theorem MutexStep.closed (hstep : MutexStep s l t) (h : Closed s) : Closed t := by
  cases hstep with
  | init x m _ => exact h.reset rfl (initOf_setMutex s m _)
  | acquire x m via l _ _ => exact h.same rfl (initOf_setLock s m _ _)
  | lockBlock i m via l k _ hi _ _ => exact h.wait (.mutex m) hi i _
  | trylock x m _ _ _ => exact h.same rfl (initOf_setLock s m _ _)
  | unlock x m _ _ _ _ =>
    have hfree : Closed (s.setMutex m { s.mutex m with locked := 0, owner := 0 }) :=
      h.same rfl (initOf_setLock s m 0 0)
    exact hfree.wake (.mutex m)
  | destroy x m _ _ _ => exact h.reset rfl (initOf_setMutex s m _)
  | _ => exact h

theorem SemStep.closed (hstep : SemStep s l t) (h : Closed s) : Closed t := by
  cases hstep with
  | init x a n _ => exact h.reset rfl (initOf_setSem s a _)
  | take x a _ _ _ => exact h.same rfl (initOf_setCount s a _)
  | block i a k _ hi _ _ => exact Closed.wait (s := s.log _) h (.sem a) hi i _
  | waited i a _ => exact h
  | wake x a n q _ _ _ => exact Closed.wake (s := s.log _) h (.sem a)
  | give x a _ _ _ _ => exact h.same rfl (initOf_setCount s a _)
  | destroy x a _ _ => exact h.reset rfl (initOf_setSem s a _)

theorem CondStep.closed (hstep : CondStep s l t) (h : Closed s) : Closed t := by
  cases hstep with
  | init x c _ => exact h.reset rfl (initOf_setCond s c _)
  | block i c m k _ hc _ _ _ _ =>
    have hfree : Closed (s.setMutex m { s.mutex m with locked := 0, owner := 0 }) :=
      h.same rfl (initOf_setLock s m 0 0)
    have hwait := hfree.wait (.cond c) hc i (.condWait c m)
    exact hwait.wake (.mutex m)
  | fail i c m st _ _ =>
    intro o ho
    show Function.update s.queue (.cond c) _ o = []
    by_cases hoc : o = .cond c
    · subst hoc
      rw [Function.update_self, h (.cond c) ho, List.nil_append, List.erase_cons_head]
    · rw [Function.update_of_ne hoc]
      exact h o ho
  | signal x c _ => exact h.wake (.cond c)
  | broadcast x c _ =>
    have hq : (s.wakes (.cond c) (s.queue (.cond c)).length).queue
        = Function.update s.queue (.cond c) [] := by
      rw [queue_wakes, List.drop_length]
    exact h.reset hq ((woken_wakes (.cond c) _ s).initOf.trans (Function.update_eq_self _ _).symm)
  | destroy x c _ _ => exact h.reset rfl (initOf_setCond s c _)

theorem closed_inv : Inv Closed fun _ _ _ => True := by
  intro s l t _ _ hstep _ h
  cases hstep with
  | thread hstep => cases hstep <;> exact h
  | sched hstep => cases hstep <;> exact h
  | mutex hstep => exact hstep.closed h
  | sem hstep => exact hstep.closed h
  | cond hstep => exact hstep.closed h

end

/-! ## The invariants -/

/-- **Wake-ups reach waiters**: without the cancellation of a `BLOCKED` thread, every queued slot
    is that of a thread waiting for this very object. -/
theorem sound_inv : Inv (fun s => WaitMap.Sound s.waiting s.queue)
    (fun s _ c => SparesBlocked s.threads c) := by
  intro s l t hok _ hstep hG h
  refine hstep.stable WaitMap.stable_sound hok (fun x tid i hl hfind => ?_)
    (fun _ _ o _ _ => h.clear o) h
  rw [waiting_spared hG hl hfind]
  exact h

/-- **Who is blocked on `o` is queued there**, whoever is cancelled, if `o` is not initialised while
    somebody waits for it. -/
theorem queuedAt_inv (o : Obj) : Inv (fun s => WaitMap.QueuedAt o s.waiting s.queue)
    (fun s _ c => c.inits = some o → ∀ n, s.waiting n ≠ some o) := by
  intro s l t hok _ hstep hG h
  refine hstep.stable (WaitMap.stable_queuedAt o) hok (fun _ _ i _ _ => h.forget i)
    (fun x c o' hl ho' => ?_) h
  by_cases ho : o = o'
  · intro n hn
    exact absurd hn (hG x c hl (ho ▸ ho') n)
  · exact h.clear ho

/-- **Queues and table agree**, if moreover only objects that are not initialised are
    initialised. -/
theorem agree_inv : Inv (fun s => WaitMap.Agree s.waiting s.queue ∧ s.Closed)
    (fun s _ c => (∀ o, c.inits = some o → s.initOf o = 0) ∧ SparesBlocked s.threads c) := by
  intro s l t hok hok' hstep hG h
  refine ⟨hstep.stable WaitMap.stable_agree hok (fun x tid i hl hfind => ?_) (fun x c o hl ho => ?_)
    h.1, closed_inv s l t hok hok' hstep (fun _ _ _ => trivial) h.2⟩
  · rw [waiting_spared (fun x c hl => (hG x c hl).2) hl hfind]
    exact h.1
  · rw [← h.2 o ((hG x c hl).1 o ho), Function.update_eq_self]
    exact h.1

theorem agree_initial : WaitMap.Agree initial.waiting initial.queue := by
  refine ⟨⟨fun _ => List.nodup_nil, fun _ _ h => absurd h List.not_mem_nil⟩, fun o n h => ?_⟩
  obtain ⟨i, -, hst, -⟩ := waiting_some h
  nomatch hst

end Kernel
namespace Core

/-- The `initialized` field of an object. -/
def initOf (s : Core) : Obj → Nat
  | .mutex m => (s.mutexes m).initialized
  | .sem a => (s.sems a).initialized
  | .cond c => (s.conds c).initialized

theorem kernel_initOf (s : Core) (o : Obj) : s.kernel.initOf o = s.initOf o := by
  cases o <;> rfl

/-- The thread of slot `i` is suspended inside its wait for `o`. -/
def SuspendedOn (s : Core) (i : Slot) (o : Obj) : Prop :=
  ∃ f, (s.threads i).ctx = some ⟨.green i, f⟩ ∧ f.waits = some o

/-- **Wait queues and thread table agree.** -/
structure QueuesAgree (s : Core) : Prop where
  /-- Every entry is the slot of a `BLOCKED` thread suspended in the wait on that object. -/
  blocked : ∀ o, s.initOf o ≠ 0 → ∀ n ∈ s.queue o,
    ∃ i : Slot, (i : Nat) = n ∧ (s.threads i).state = .blocked ∧ s.SuspendedOn i o
  /-- No slot occurs twice in one queue, or in two queues. -/
  once : ∀ o, (s.queue o).Nodup
  apart : ∀ o o' n, n ∈ s.queue o → n ∈ s.queue o' → o = o'
  /-- Every `BLOCKED` thread occurs in exactly one queue. -/
  queued : ∀ i : Slot, (s.threads i).state = .blocked → ∃! o, (i : Nat) ∈ s.queue o

/-- Control is in the scheduler or in user code. -/
def Observed (s : Core) : Prop := ∀ k, s.cpu ≠ .swap k

variable {s : Core} {x : Ctx}

/-- What a `BLOCKED` thread waits for. -/
theorem WF.waiting_blocked (h : s.WF) {i : Slot} (hi : (s.threads i).state = .blocked) :
    ∃ o, s.kernel.waiting i = some o ∧ s.SuspendedOn i o := by
  obtain ⟨f, hctx, -, hf⟩ := h.body.parked i (Or.inr hi)
  obtain ⟨o, ho⟩ := Option.ne_none_iff_exists'.mp (hf hi)
  refine ⟨o, ?_, f, hctx, ho⟩
  rw [Kernel.waiting_slot]
  show (s.threads i).waitsFor = some o
  unfold ThreadRecord.waitsFor
  rw [if_pos hi, hctx]
  exact ho

theorem WF.queuesAgree (h : s.WF) (ha : WaitMap.Agree s.kernel.waiting s.kernel.queue) :
    s.QueuesAgree := by
  refine ⟨fun o _ n hn => ?_, ha.nodup, fun o o' n => ha.toSound.unique, fun i hi => ?_⟩
  · have hw := ha.waits o n hn
    obtain ⟨i, rfl, hst, -⟩ := Kernel.waiting_some hw
    obtain ⟨o', ho', hsus⟩ := h.waiting_blocked hst
    obtain rfl : o = o' := Option.some.inj (hw.symm.trans ho')
    exact ⟨i, rfl, hst, hsus⟩
  · obtain ⟨o, ho, -⟩ := h.waiting_blocked hi
    exact ha.existsUnique ho

/-- **The cancellation of a `BLOCKED` thread leaves its slot number in the queue.** -/
theorem WF.cancel_blocked (h : s.WF) (hcpu : s.cpu = .user x)
    (ha : WaitMap.Agree s.kernel.waiting s.kernel.queue) (hc : s.kernel.Closed) {tid : Tid}
    {i : Slot} (hfind : findThread s.threads tid = some i) (hi : (s.threads i).state = .blocked) :
    ¬ (s.exec x (.cancel tid)).QueuesAgree := by
  intro hagree
  obtain ⟨o, ho, -⟩ := h.waiting_blocked hi
  have hmem : (i : Nat) ∈ s.queue o := ha.queued o i ho
  have hinit : s.initOf o ≠ 0 := by
    intro h0
    rw [← kernel_initOf] at h0
    have hnil : s.queue o = [] := hc o h0
    rw [hnil] at hmem
    exact List.not_mem_nil hmem
  have htid : tid ≠ 0 := by
    rintro rfl
    rw [h.body.tids.find_zero] at hfind
    nomatch hfind
  obtain ⟨es, heq⟩ := threadCancel_ok (h.live hcpu).knows htid hfind (by rw [hi]; rfl)
  have hexec : s.exec x (.cancel tid) = done x (.cancel tid) (.ok, s.cancelSlot i es) :=
    congrArg (done x (.cancel tid)) heq
  rw [hexec] at hagree
  obtain ⟨k, hk, hblocked, -⟩ := hagree.blocked o hinit i hmem
  obtain rfl : k = i := Fin.ext hk
  have hcanceled : ((done x (.cancel tid) (.ok, s.cancelSlot k es)).threads k).state
      = .canceled := by
    show (Function.update s.threads k _ k).state = _
    rw [Function.update_self]
  rw [hcanceled] at hblocked
  nomatch hblocked

end Core
/-- Every object is initialised only while it is not initialised. -/
def InitsOnce (s : Core) (_ : Ctx) (c : Call) : Prop := ∀ o, c.inits = some o → s.initOf o = 0

instance (s : Core) (x : Ctx) (c : Call) : Decidable (InitsOnce s x c) :=
  Exec.decideNext (P := fun o => s.initOf o = 0) c.inits

/-- **Wait queues and thread table agree exactly as long as no `BLOCKED` thread is cancelled.** -/
theorem queues_agree_iff (W : World) (config : ValidConfig) (pageSize : BitVec 64)
    (files : Path → Option (List UInt8)) (ls : List Label) (s : State)
    (hjoin : JoinsFromMain ls) (hcreates : creates ls < 2 ^ 64)
    (hinit : Exec.Along (State.step W) (State.OnCalls InitsOnce)
      (State.start config pageSize files) ls)
    (hrun : Exec.exec (State.step W) (State.start config pageSize files) ls = some s) :
    Exec.Always (State.step W) (fun t => t.core.Observed → t.core.QueuesAgree)
      (State.start config pageSize files) ls ↔
    Exec.Along (State.step W) (State.OnCalls fun t _ c => SparesBlocked t.threads c)
      (State.start config pageSize files) ls := by
  refine Kernel.Inv.always_iff Kernel.agree_inv ⟨Kernel.agree_initial, fun _ _ => rfl⟩
    (P := fun t => t.Observed → t.QueuesAgree) (fun t hwf hJ _ => hwf.queuesAgree hJ.1)
    (fun t x c hwf hJ hcpu hP => ?_) hjoin hcreates ?_ hrun
  · cases c with
    | cancel tid =>
      intro i hfind hi
      refine hwf.cancel_blocked hcpu hJ.1 hJ.2 hfind hi (hP fun k hk => ?_)
      nomatch hk
    | _ => trivial
  · refine Exec.along_mono (fun t l h x c hl o ho => ?_) ls _ hinit
    rw [Core.kernel_initOf]
    exact h x c hl o ho

/-- A thread waits for semaphore 1, whose count is 0. -/
def waitRun : List Label :=
  [Sample.main (.semInit 1 0), Sample.main Sample.create, Sample.main .yield, .tau, .tau,
    Sample.green 0 (.semWait 1), .tau]

/-- Non-vacuous: the wait is ended by a post. -/
theorem queues_agree_post :
    Exec.Always (State.step Sample.world) (fun t => t.core.Observed → t.core.QueuesAgree)
      Sample.start (waitRun ++ [Sample.main (.semPost 1)]) :=
  (queues_agree_iff Sample.world Sample.config 4096#64 (fun _ => none)
    (waitRun ++ [Sample.main (.semPost 1)]) _ (by unfold JoinsFromMain; decide) (by decide)
    (by decide +kernel) rfl).mpr (by decide +kernel)

/-- **A stale entry**: main cancels the waiting thread.  The thread is `CANCELED`, and slot 0 is
    still in the queue of the semaphore. -/
theorem cancel_leaves_entry : ∃ s,
    Exec.exec (State.step Sample.world) Sample.start (waitRun ++ [Sample.main (.cancel 1)])
      = some s ∧ s.core.cpu = .user .main ∧ s.core.initOf (.sem 1) ≠ 0 ∧
      s.core.queue (.sem 1) = [0] ∧ (s.core.threads 0).state = .canceled ∧
      ¬ s.core.QueuesAgree := by
  refine ⟨_, rfl, rfl, by decide, rfl, rfl, fun h => ?_⟩
  obtain ⟨i, hi, hst, -⟩ := h.blocked (.sem 1) (by decide) 0 List.mem_cons_self
  obtain rfl : i = 0 := Fin.ext hi
  nomatch hst

end Gth

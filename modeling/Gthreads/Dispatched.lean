/-
  Which threads are dispatched, and what they are switched to.

  Outside replay the scheduler picks `READY` threads.  In replay it picks the thread that the next
  context-switch record names, and `gth_replay_find_thread` is content with a `RUNNING` one.  When
  main joins there is none.  But a green thread that joins runs the scheduler while it is `RUNNING`
  itself, and a trace may name it (`SparesRunning` excludes it).

  A thread that is `READY` or `BLOCKED` is at rest: its context was saved when it left the CPU, or
  it is the initial one, and the thread has not had the CPU since.  A step leaves the threads at
  rest alone, but for those it adds (`Settles`), and neither the current thread nor the one that
  waits in `scheduler_ctx` is among them (`Apart`), as long as everybody leaves the CPU in time
  (`LeavesFresh`).
-/
import Gthreads.Dispatcher
import Gthreads.Script
import Gthreads.Terminal

namespace Gth

/-! ## Threads at rest -/

/-- Off the CPU, with a context to come back to. -/
def ThreadRecord.Rests (r : ThreadRecord) : Prop := r.state = .ready ∨ r.state = .blocked

namespace ThreadRecord

theorem Rests.ne_empty {r : ThreadRecord} (h : r.Rests) : r.state ≠ .empty := by
  rcases h with h | h <;> rw [h] <;> nofun

theorem not_rests_of_running {r : ThreadRecord} (h : r.state = .running) : ¬ r.Rests := by
  rintro (h' | h') <;> rw [h] at h' <;> cases h'

theorem not_rests_of_empty {r : ThreadRecord} (h : r.state = .empty) : ¬ r.Rests :=
  fun hr => hr.ne_empty h

theorem not_rests_of_terminal {r : ThreadRecord} (h : threadIsTerminal r.state = true) :
    ¬ r.Rests := by
  rintro (h' | h') <;> rw [h'] at h <;> cases h

end ThreadRecord

/-- Whoever rests in `b` rested in `a`, with the same tid and the same context. -/
def Idles (a b : Slot → ThreadRecord) : Prop := ∀ j, (b j).Rests →
  (a j).Rests ∧ (b j).tid = (a j).tid ∧ (b j).ctx = (a j).ctx

namespace Idles
variable {a b : Slot → ThreadRecord} {i : Slot} {r : ThreadRecord}

theorem refl (a : Slot → ThreadRecord) : Idles a a := fun _ h => ⟨h, rfl, rfl⟩

/-- A record that does not rest is written. -/
theorem set (a : Slot → ThreadRecord) (hr : ¬ r.Rests) : Idles a (Function.update a i r) := by
  intro j hj
  by_cases hji : j = i
  · subst hji
    rw [Function.update_self] at hj
    exact absurd hj hr
  · rw [Function.update_of_ne hji] at hj ⊢
    exact ⟨hj, rfl, rfl⟩

end Idles

namespace Core
variable {s t u : Core} {x : Ctx} {i : Slot}

theorem Woken.idles {a b : Slot → ThreadRecord} (h : Woken a b) : Idles a b := by
  intro j hj
  rcases h j with hb | ⟨ha, hb⟩
  · rw [hb] at hj ⊢
    exact ⟨hj, rfl, rfl⟩
  · rw [hb]
    exact ⟨Or.inr ha, rfl, rfl⟩

/-- The thread of slot `i` has just left the CPU and saved its context. -/
def JustLeft (s : Core) (i : Slot) : Prop :=
  ∃ f k, (s.threads i).ctx = some ⟨.green i, f⟩ ∧ f ≠ .entry ∧
    s.hist.head? = some (.leave (.green i) k)

/-- The thread of slot `i` has just been created, with its initial context. -/
def JustCreated (s : Core) (i : Slot) : Prop :=
  (s.threads i).ctx = some ⟨.green i, .entry⟩ ∧ ∃ tid outTid attr fn arg env,
    s.hist.head? = some (.ret tid (.create outTid attr fn arg env) ⟨.ok, [(s.threads i).tid]⟩)

/-- **Who rests after a step**: whoever rested before, the current thread if it has left the CPU,
    and a new thread. -/
def Settles (s t : Core) : Prop := ∀ j, (t.threads j).Rests →
  ((s.threads j).Rests ∧ (t.threads j).tid = (s.threads j).tid ∧
    (t.threads j).ctx = (s.threads j).ctx) ∨
  (t.JustLeft j ∧ (t.threads j).tid = s.currentTid) ∨
  (t.JustCreated j ∧ (t.threads j).tid = s.nextTid ∧ t.issued = s.issued + 1)

theorem Settles.of_idles (h : Idles s.threads t.threads) : Settles s t := fun j hj => Or.inl (h j hj)

/-- The current thread saves its context and leaves the CPU. -/
theorem Settles.park {st : ThreadState} {f : Frame} {k : Option Kont} (hcur : s.Current i)
    (hf : f ≠ .entry)
    (ht : t.threads = Function.update s.threads i
      { s.threads i with state := st, ctx := some ⟨.green i, f⟩ })
    (hh : t.hist.head? = some (.leave (.green i) k)) : Settles s t := by
  intro j hj
  by_cases hji : j = i
  · subst hji
    refine Or.inr (Or.inl ⟨⟨f, k, ?_, hf, hh⟩, ?_⟩)
    · rw [ht, Function.update_self]
    · rw [ht, Function.update_self]
      exact (findThread_some hcur.find).2
  · rw [ht, Function.update_of_ne hji] at hj ⊢
    exact Or.inl ⟨hj, rfl, rfl⟩

/-- A new thread gets the next tid and its initial context. -/
theorem Settles.create {r : ThreadRecord} {tid : Tid} {outTid : Bool} {attr : Option Nat}
    {fn arg : Nat} {env : MapEnv} (htid : r.tid = s.nextTid) (hctx : r.ctx = some ⟨.green i, .entry⟩)
    (ht : t.threads = Function.update s.threads i r) (hissued : t.issued = s.issued + 1)
    (hh : t.hist.head? = some (.ret tid (.create outTid attr fn arg env) ⟨.ok, [s.nextTid]⟩)) :
    Settles s t := by
  intro j hj
  by_cases hji : j = i
  · subst hji
    have hj' : t.threads j = r := by rw [ht, Function.update_self]
    rw [hj', htid]
    refine Or.inr (Or.inr ⟨⟨?_, tid, outTid, attr, fn, arg, env, ?_⟩, rfl, hissued⟩)
    · rw [hj']
      exact hctx
    · rw [hj', htid]
      exact hh
  · rw [ht, Function.update_of_ne hji] at hj ⊢
    exact Or.inl ⟨hj, rfl, rfl⟩

/-- Somebody is woken on the way. -/
theorem Settles.woken (h : Settles s t) (hw : Woken t.threads u.threads) (hh : u.hist = t.hist)
    (hi : u.issued = t.issued) : Settles s u := by
  intro j hj
  obtain ⟨hjt, htid, hctx⟩ := hw.idles j hj
  rcases h j hjt with ⟨hs, htid', hctx'⟩ | ⟨⟨f, k, hf, hne, hl⟩, hcur⟩ |
      ⟨⟨hf, tid, outTid, attr, fn, arg, env, hl⟩, hnext, hissued⟩
  · exact Or.inl ⟨hs, htid.trans htid', hctx.trans hctx'⟩
  · exact Or.inr (Or.inl ⟨⟨f, k, hctx.trans hf, hne, hh ▸ hl⟩, htid.trans hcur⟩)
  · refine Or.inr (Or.inr ⟨⟨hctx.trans hf, tid, outTid, attr, fn, arg, env, ?_⟩, htid.trans hnext,
      hi.trans hissued⟩)
    rw [hh, htid]
    exact hl

/-! ## Calls -/

theorem settles_mutexLock (hk : s.Knows x) (m : Addr) (via : Option Addr) :
    Settles s (s.mutexLock x m via) := by
  rcases mutexLock_cases hk m via with ⟨st, -, -, h⟩ | ⟨-, -, h⟩ | ⟨i, es, rfl, hcur, -, -, -, -, h⟩ <;>
    rw [h]
  · exact .of_idles (.refl _)
  · exact .of_idles (.refl _)
  · exact .park (f := .lock m i via) hcur nofun rfl rfl

theorem settles_semWait (hk : s.Knows x) (a : Addr) : Settles s (s.semWait x a) := by
  rcases semWait_cases hk a with ⟨st, -, h⟩ | ⟨-, -, es, h⟩ | ⟨i, es, rfl, hcur, -, -, -, h⟩ <;>
    rw [h]
  · exact .of_idles (.refl _)
  · exact .of_idles (.refl _)
  · exact .park (f := .semWait a) hcur nofun rfl rfl

theorem settles_condWait (hk : s.Knows x) (c m : Addr) : Settles s (s.condWait x c m) := by
  rcases condWait_cases hk c m with ⟨st, -, h⟩ | ⟨i, rfl, hcur, -, -, ⟨st, es, -, h⟩ | ⟨-, -, -,
      ⟨-, es, h⟩ | ⟨-, es, P, hP, ⟨-, h⟩ | ⟨j, -, hst, es', h⟩⟩⟩⟩
  · rw [h]
    exact .of_idles (.refl _)
  · rw [h]
    exact .of_idles (.set s.threads (ThreadRecord.not_rests_of_running rfl))
  · rw [h]
    exact .park (f := .condWait c m) hcur nofun rfl rfl
  · rw [h, hP]
    exact .park (f := .condWait c m) hcur nofun rfl rfl
  · have hpark : Settles s P := by
      rw [hP]
      exact .park (f := .condWait c m) hcur nofun rfl rfl
    rw [h]
    exact hpark.woken (Woken.set hst) rfl rfl

theorem settles_threadJoin (hk : s.Knows x) (tid : Tid) (out : Bool) :
    Settles s (s.threadJoin x tid out) := by
  rcases threadJoin_cases hk tid out with ⟨st, -, h⟩ | ⟨i, -, -, ⟨-, h⟩ | ⟨-, h⟩⟩ <;> rw [h]
  · exact .of_idles (.refl _)
  · exact .of_idles (.set s.threads (ThreadRecord.not_rests_of_empty rfl))
  · exact .of_idles (.refl _)

theorem settles_threadYield (hk : s.Knows x) : Settles s (s.threadYield x) := by
  rcases threadYield_cases hk with ⟨-, h⟩ | ⟨-, h⟩ | ⟨i, es, rfl, hcur, h⟩ <;> rw [h]
  · exact .of_idles (.refl _)
  · exact .of_idles (.refl _)
  · exact .park (f := .yield) (i := i) hcur nofun rfl rfl

theorem settles_threadExit (s : Core) (i : Slot) (result : Nat) :
    Settles s (s.threadExit i result) := by
  obtain ⟨r, es, -, -, -, hterm, h⟩ := threadExit_eq (s := s) i result
  rw [h]
  exact .of_idles (.set s.threads (ThreadRecord.not_rests_of_terminal hterm))

theorem settles_threadCancel (hk : s.Knows x) (tid : Tid) (c : Call) :
    Settles s (done x c (s.threadCancel tid)) := by
  rcases threadCancel_cases hk tid with ⟨st, -, h⟩ | ⟨i, es, -, -, h⟩ <;> rw [h]
  · exact .of_idles (.refl _)
  · exact .of_idles (.set s.threads (ThreadRecord.not_rests_of_terminal rfl))

theorem settles_threadCreate (s : Core) (x : Ctx) (outTid : Bool) (attr : Option Nat) (fn arg : Nat)
    (env : MapEnv) : Settles s ((s.threadCreate outTid attr fn arg env).2.ret x
      (.create outTid attr fn arg env) (s.threadCreate outTid attr fn arg env).1) := by
  rcases threadCreate_cases (s := s) outTid attr fn arg env with
      ⟨st, -, h⟩ | ⟨i, -, ⟨st, -, h⟩ | ⟨r, es, htid, -, hctx, -, h⟩⟩ <;> rw [h]
  · exact .of_idles (.refl _)
  · exact .of_idles (.set s.threads (ThreadRecord.not_rests_of_empty rfl))
  · exact .create htid hctx rfl rfl rfl

/-- **Every API call.** -/
theorem exec_settles (hk : s.Knows x) {c : Call} (hcall : State.callable x c = true) :
    Settles s (s.exec x c) := by
  have hsame : ∀ (c : Call) (r : Status × Core), r.2.threads = s.threads →
      Settles s (done x c r) := by
    intro c r hr
    refine .of_idles ?_
    show Idles s.threads r.2.threads
    rw [hr]
    exact .refl _
  have hwoken : ∀ (c : Call) (r : Status × Core), Woken s.threads r.2.threads →
      Settles s (done x c r) := fun c r hr => .of_idles hr.idles
  -- objects are initialised and destroyed in place
  have hobj : ∀ (b : Prop) [Decidable b] (r r' : Status × Core), r.2.threads = s.threads →
      r'.2.threads = s.threads → (if b then r else r').2.threads = s.threads := by
    intro b _ r r' hr hr'
    split
    · exact hr
    · exact hr'
  cases c with
  | create outTid attr fn arg env => exact settles_threadCreate s x outTid attr fn arg env
  | yield => exact settles_threadYield hk
  | join tid out => exact settles_threadJoin hk tid out
  | cancel tid => exact settles_threadCancel hk tid _
  | exit retval =>
    cases x with
    | main => cases hcall
    | green i => exact settles_threadExit s i retval
  | self => exact .of_idles (.refl _)
  | getStats out => exact .of_idles (.refl _)
  | mutexInit m => exact hsame _ _ (hobj _ _ _ rfl rfl)
  | mutexLock m => exact settles_mutexLock hk m none
  | mutexTrylock m => exact hsame _ _ (hobj _ _ _ rfl (hobj _ _ _ rfl (hobj _ _ _ rfl rfl)))
  | mutexUnlock m => exact hwoken _ _ (woken_mutexUnlock s m)
  | mutexDestroy m =>
    exact hsame _ _ (hobj _ _ _ rfl (hobj _ _ _ rfl (hobj _ _ _ rfl (hobj _ _ _ rfl rfl))))
  | semInit a n => exact hsame _ _ (hobj _ _ _ rfl rfl)
  | semWait a => exact settles_semWait hk a
  | semPost a => exact hwoken _ _ (woken_semPost s a)
  | semDestroy a => exact hsame _ _ (hobj _ _ _ rfl (hobj _ _ _ rfl (hobj _ _ _ rfl rfl)))
  | condInit c => exact hsame _ _ (hobj _ _ _ rfl rfl)
  | condWait c m => exact settles_condWait hk c m
  | condSignal c => exact hwoken _ _ (woken_condSignal s c)
  | condBroadcast c => exact hwoken _ _ (woken_condBroadcast s c)
  | condDestroy c => exact hsame _ _ (hobj _ _ _ rfl (hobj _ _ _ rfl (hobj _ _ _ rfl rfl)))

/-- **A thread that is switched to.** -/
theorem resume_settles (hc : s.Calm) (hcur : s.Current i) {f : Frame} (hf : f.Parked i) :
    Settles s (s.resume ⟨.green i, f⟩) := by
  cases f with
  | entry => exact .of_idles (.refl _)
  | yield => exact .of_idles (.refl _)
  | lock m mySlot via =>
    obtain rfl : mySlot = i := hf
    show Settles s (s.lockLoop (.green i) m i via (wqFixedSlots + 1))
    rcases lockLoop_cases hcur m via wqFixedSlots with ⟨-, -, h⟩ | ⟨-, -, es, h⟩ | ⟨-, h⟩ <;> rw [h]
    · exact .of_idles (.refl _)
    · exact .park (f := .lock m i via) hcur nofun rfl rfl
    · exact .of_idles (.refl _)
  | semWait a => exact .of_idles (.refl _)
  | condWait c m => exact settles_mutexLock (hc.knows (hcur.known hc)) m (some c)
  | runNext act prev caller => exact hf.elim

theorem JoinMove.idles {tid : Tid} {out : Bool} (h : JoinMove s x tid out t) :
    Idles s.threads t.threads := by
  cases h with
  | fail st => exact .refl _
  | sched target => exact .refl _
  | free i runnable blocked retval _ => exact .set s.threads (ThreadRecord.not_rests_of_empty rfl)

/-- **An activation of `gth_scheduler_run_next` that gets the CPU back.** -/
theorem return_idles (s : Core) (y : Ctx) (act : Nat) (prev : Tid) (caller : Caller) :
    Idles s.threads (s.resume ⟨y, .runNext act prev caller⟩).threads := by
  cases caller with
  | yield => exact .refl _
  | join tid out target =>
    have hjoin := joinLoop_move { s with currentTid := prev, hist := .resume act y :: s.hist } y tid
      out target
    exact hjoin.idles

/-! ## The current thread, and the one that waits in `scheduler_ctx` -/

/-- A thread at rest is neither the current one, unless that is just leaving, nor the one that
    waits in `scheduler_ctx` for the current one to leave. -/
structure Apart (s : Core) : Prop where
  current : leaves (controls s.hist) = false → ∀ j, (s.threads j).Rests →
    (s.threads j).tid ≠ s.currentTid
  waiting : ∀ y act prev caller, s.schedulerCtx = some ⟨y, .runNext act prev caller⟩ →
    leaves (controls s.hist) = true ∨ dispatched (controls s.hist) = true →
    ∀ j, (s.threads j).Rests → (s.threads j).tid ≠ prev
  distinct : ∀ y act prev caller, s.schedulerCtx = some ⟨y, .runNext act prev caller⟩ →
    dispatched (controls s.hist) = true → s.currentTid ≠ prev

theorem JustLeft.leaves (h : s.JustLeft i) : leaves (controls s.hist) = true := by
  obtain ⟨f, k, -, -, hh⟩ := h
  obtain ⟨h', hh⟩ := List.head?_eq_some_iff.mp hh
  rw [hh]
  rfl

/-- Who waits in `scheduler_ctx` has a tid that was issued. -/
theorem Place.prev_le {c : List Obs} {cpu : Cpu} {y : Ctx} {act : Nat} {prev : Tid}
    {caller : Caller} (hp : Place s c cpu) (hd : dispatched c = true)
    (hk : s.schedulerCtx = some ⟨y, .runNext act prev caller⟩) : prev ≤ s.issued := by
  have hpend : ∀ A y' c', s.Pending A y' c' → prev ≤ s.issued := by
    rintro A y' c' ⟨-, -, prev', caller', hk', hknown⟩
    rw [hk] at hk'
    cases hk'
    exact hknown.1
  cases hp with
  | running A y' j tid c _ _ _ hp => exact hpend A y' c hp
  | entering A y' j tid c f _ _ hp => exact hpend A y' c hp
  | _ => cases hd

/-- **A segment keeps them apart**, if a thread that leaves in it leaves in time. -/
theorem Apart.segment (h : s.Apart) (hc : s.Calm) (hp : Place s (controls s.hist) (.user x))
    (hseg : Segment s x t) (hset : Settles s t) (hlt : t.issued < 2 ^ 64)
    (hG : leaves (controls t.hist) = true → dispatched (controls s.hist) = true) : t.Apart := by
  have hno : leaves (controls s.hist) = false := hp.not_leaves (x := x) rfl
  have hknown : s.Known s.currentTid x := hp.known hc (x := x) rfl
  -- a new tid is larger than those in use
  have hnew : ∀ tid, tid ≤ s.issued → t.issued = s.issued + 1 → s.nextTid ≠ tid := by
    intro tid htid hissued
    have hnext := hc.tids.next
    rw [Nat.mod_eq_of_lt (by omega)] at hnext
    exact Nat.ne_of_gt (by omega)
  cases hseg with
  | stay _ _ _ hsched _ hcur hctl _ =>
    refine ⟨fun _ j hj => ?_, fun y act prev caller hk hd j hj => ?_,
      fun y act prev caller hk hd => ?_⟩
    · rw [hcur]
      rcases hset j hj with ⟨hs, htid, -⟩ | ⟨hleft, -⟩ | ⟨-, htid, hissued⟩
      · rw [htid]
        exact h.current hno j hs
      · have hl := hleft.leaves
        rw [hctl, hno] at hl
        cases hl
      · rw [htid]
        exact hnew _ hknown.1 hissued
    · rw [hsched] at hk
      rw [hctl, hno] at hd
      have hd := hd.resolve_left Bool.false_ne_true
      rcases hset j hj with ⟨hs, htid, -⟩ | ⟨hleft, -⟩ | ⟨-, htid, hissued⟩
      · rw [htid]
        exact h.waiting y act prev caller hk (Or.inr hd) j hs
      · have hl := hleft.leaves
        rw [hctl, hno] at hl
        cases hl
      · rw [htid]
        exact hnew prev (hp.prev_le hd hk) hissued
    · rw [hsched] at hk
      rw [hctl] at hd
      rw [hcur]
      exact h.distinct y act prev caller hk hd
  | leave i hx _ hsched _ hctl _ =>
    have hdisp := hG (by rw [hctl]; rfl)
    refine ⟨fun hl => ?_, fun y act prev caller hk _ j hj => ?_, fun y act prev caller _ hd => ?_⟩
    · rw [hctl] at hl
      cases hl
    · rw [hsched] at hk
      rcases hset j hj with ⟨hs, htid, -⟩ | ⟨-, htid⟩ | ⟨-, htid, hissued⟩ <;> rw [htid]
      · exact h.waiting y act prev caller hk (Or.inr hdisp) j hs
      · exact h.distinct y act prev caller hk hdisp
      · exact hnew prev (hp.prev_le hdisp hk) hissued
    · rw [hctl] at hd
      cases hd

/-- **A pick of a `READY` thread keeps them apart.** -/
theorem Apart.pick (h : s.Apart) (hT : s.Tracked) {caller : Caller} (hcpu : s.cpu = .sched x caller)
    {pick : Option Slot} (hpick : ∀ i, pick = some i → (s.threads i).state = .ready) :
    (s.runNext x caller pick).Apart := by
  have hno : leaves (controls s.hist) = false := by
    apply hT.place.not_leaves (x := x)
    rw [hcpu]
    exact rfl
  cases pick with
  | none => cases caller <;> exact ⟨h.current, h.waiting, h.distinct⟩
  | some i =>
    have hready : (s.threads i).Rests := Or.inl (hpick i rfl)
    have hidle : Idles s.threads (s.dispatch x caller i).threads :=
      .set s.threads (ThreadRecord.not_rests_of_running rfl)
    rw [runNext_some]
    refine ⟨fun _ j hj => ?_, fun y act prev caller' hk _ j hj => ?_,
      fun y act prev caller' hk _ => ?_⟩
    · obtain ⟨hs, htid, -⟩ := hidle j hj
      rw [htid]
      intro heq
      obtain rfl : j = i := hT.calm.tids.inj j i hs.ne_empty hready.ne_empty heq
      refine ThreadRecord.not_rests_of_running ?_ hj
      show (Function.update s.threads j _ j).state = .running
      rw [Function.update_self]
    · cases hk
      obtain ⟨hs, htid, -⟩ := hidle j hj
      rw [htid]
      exact h.current hno j hs
    · cases hk
      exact h.current hno i hready

/-- **An activation that gets the CPU back keeps them apart.** -/
theorem Apart.return (h : s.Apart) (hc : s.Calm) (hl : leaves (controls s.hist) = true) {y : Ctx}
    {act : Nat} {prev : Tid} {caller : Caller}
    (hk : s.schedulerCtx = some ⟨y, .runNext act prev caller⟩) :
    (s.resume ⟨y, .runNext act prev caller⟩).Apart := by
  have hback : (s.resume ⟨y, .runNext act prev caller⟩).currentTid = prev ∧
      controls (s.resume ⟨y, .runNext act prev caller⟩).hist = .resume act y :: controls s.hist := by
    cases caller with
    | yield => exact ⟨rfl, rfl⟩
    | join tid out target =>
      have hc' : Calm { s with currentTid := prev, hist := .resume act y :: s.hist } :=
        ⟨hc.init, hc.tids, hc.saved⟩
      obtain ⟨-, -, -, hcur, hctl, -⟩ := (joinLoop_move _ y tid out target).stays hc'
      exact ⟨hcur, hctl⟩
  obtain ⟨hcur, hctl⟩ := hback
  refine ⟨fun _ j hj => ?_, fun _ _ _ _ _ hd => ?_, fun _ _ _ _ _ hd => ?_⟩
  · obtain ⟨hs, htid, -⟩ := s.return_idles y act prev caller j hj
    rw [htid, hcur]
    exact h.waiting y act prev caller hk (Or.inl hl) j hs
  · rw [hctl] at hd
    rcases hd with hd | hd <;> cases hd
  · rw [hctl] at hd
    cases hd

/-- **What a step does to the threads at rest.** -/
theorem Apart.step {W : World} {s t : State} {l : Label} (hT : s.core.Tracked) (h : s.core.Apart)
    (hpick : ∀ i, s.Selects W i → (s.core.threads i).state = .ready) (hfresh : LeavesFresh W s l)
    (hlt : s.core.issued + (if l.isCreate then 1 else 0) < 2 ^ 64)
    (hstep : State.step W s l = some t) : t.core.Apart ∧ Settles s.core t.core := by
  have hissued := (hT.step hlt hstep).1
  have hG := hfresh t hstep
  have hf := hT.fresh
  have h' : s.fresh.Apart := ⟨h.current, h.waiting, h.distinct⟩
  rcases State.step_cases hstep with ⟨x, c, -, hcpu, rfl⟩ | ⟨x, c, rfl, hcpu, hcall, rfl⟩ |
      ⟨x, caller, pick, sub, rfl, hcpu, hp, rfl⟩ | ⟨k, rfl, hcpu, rfl⟩
  · exact ⟨h, .of_idles (.refl _)⟩
  · have hplace : s.fresh.Place (controls s.fresh.hist) (.user x) := hcpu ▸ hf.place
    have hknown := hplace.known hf.calm (x := x) rfl
    have hset : Settles s.fresh (s.fresh.exec x c) := exec_settles (hf.calm.knows hknown) hcall
    exact ⟨h'.segment hf.calm hplace (exec_segment hf.calm hknown hcall hlt) hset
      (Nat.lt_of_le_of_lt hissued hlt) hG, hset⟩
  · have hready : ∀ i, pick = some i → (s.core.threads i).state = .ready := by
      rintro i rfl
      exact hpick i ⟨x, caller, sub, hcpu, hp⟩
    refine ⟨h'.pick hf hcpu hready, .of_idles ?_⟩
    show Idles s.core.threads (s.fresh.runNext x caller pick).threads
    cases pick with
    | none => cases caller <;> exact .refl _
    | some i =>
      rw [runNext_some]
      exact .set s.core.threads (ThreadRecord.not_rests_of_running rfl)
  · have hplace : s.fresh.Place (controls s.fresh.hist) (.swap (some k)) := hcpu ▸ hf.place
    generalize hc : controls s.fresh.hist = c at hplace
    generalize hsw : Cpu.swap (some k) = cpu at hplace
    cases hplace with
    | start _ hmain _ _ => exact (hsw ▸ hmain : OnStack _ (.swap _)).elim
    | running A y j tid c _ hj _ _ => exact (hsw ▸ hj : OnStack _ (.swap _)).elim
    | entering A y j tid c f hcur hparked hpend =>
      cases hsw
      have hplace : s.fresh.Place (controls s.fresh.hist) (.user (.green j)) :=
        hc ▸ .running A y j tid c _ rfl hcur hpend
      have hset : Settles s.fresh (s.fresh.resume ⟨.green j, f⟩) :=
        resume_settles hf.calm hcur hparked
      exact ⟨h'.segment hf.calm hplace (resume_segment hf.calm hcur hparked) hset
        (Nat.lt_of_le_of_lt hissued hlt) hG, hset⟩
    | returning A x y _ c hpend hk =>
      obtain ⟨-, -, prev, caller, hs, -⟩ := hpend
      cases hsw
      obtain rfl := Option.some.inj (hk.trans hs)
      exact ⟨h'.return hf.calm (by rw [hc]; rfl) hs,
        .of_idles (s.fresh.return_idles y A prev caller)⟩
    | back A x y z prev caller c _ hx _ _ => exact (hsw ▸ hx : OnStack _ (.swap _)).elim

end Core

/-! ## Which threads are picked -/

/-- The scheduler is about to pick a thread. -/
def Cpu.inScheduler : Cpu → Bool
  | .sched _ _ => true
  | _ => false

/-- In replay mode, the thread that the next context-switch record names. -/
def State.scripted (s : State) : Option Slot :=
  if s.sub.mode = .replay then
    (s.sub.replay.bind fun r => r.script.head?).bind (replayFindThread s.core.threads)
  else none

/-- The trace does not name a `RUNNING` thread next when the scheduler is about to pick one. -/
def State.SparesRunning (s : State) : Prop :=
  s.core.cpu.inScheduler = true → ∀ i ∈ s.scripted, (s.core.threads i).state ≠ .running

instance (s : State) : Decidable s.SparesRunning :=
  inferInstanceAs (Decidable (_ → ∀ i ∈ s.scripted, _))

section
variable {W : World} {s t : State} {i : Slot}

theorem Cpu.inScheduler_iff {cpu : Cpu} :
    cpu.inScheduler = true ↔ ∃ x caller, cpu = .sched x caller := by
  cases cpu with
  | sched x caller => exact ⟨fun _ => ⟨x, caller, rfl⟩, fun _ => rfl⟩
  | user x => exact ⟨fun h => absurd h Bool.false_ne_true, fun ⟨_, _, h⟩ => by cases h⟩
  | swap k => exact ⟨fun h => absurd h Bool.false_ne_true, fun ⟨_, _, h⟩ => by cases h⟩

/-- In replay mode the pick is the thread that the trace names. -/
theorem State.scripted_replay {r : ReplayState} (hmode : s.sub.mode = .replay)
    (hr : s.sub.replay = some r) :
    s.scripted = (followScript s.core.threads r.script r.diverged).1 := by
  rw [State.scripted, if_pos hmode, hr]
  show r.script.head?.bind (replayFindThread s.core.threads) = _
  cases r.script with
  | nil => rfl
  | cons tid rest =>
    show replayFindThread s.core.threads tid = _
    rw [followScript]
    cases replayFindThread s.core.threads tid <;> rfl

/-- A thread that is selected while it is `RUNNING` is named by the trace. -/
theorem State.Selects.scripted (h : s.Selects W i) (hrun : (s.core.threads i).state = .running) :
    s.scripted = some i := by
  obtain ⟨x, caller, sub, -, hpick⟩ := h
  rcases pickReadyThreadMode_cases hpick with ⟨r, hmode, hr, hp, -⟩ | ⟨f, f', hmode, -⟩ |
      ⟨-, -, heq⟩
  · have heq := congrArg Prod.fst (replayNextThread_eq s.core.threads r)
    rw [State.scripted_replay hmode hr, ← heq]
    exact hp.symm
  · have hready := (pickReadyThreadMode_frame (by rw [hmode]; nofun) hpick).2.2.2 i rfl
    cases hrun.symm.trans hready
  · cases hrun.symm.trans (pickReadyThread_ready heq.symm)

/-- **Every pick is `READY` iff the trace spares the `RUNNING` threads.** -/
theorem State.selects_ready_iff :
    (∀ i, s.Selects W i → (s.core.threads i).state = .ready) ↔ s.SparesRunning := by
  constructor
  · intro hready hsched i hi hrun
    obtain ⟨x, caller, hcpu⟩ := Cpu.inScheduler_iff.mp hsched
    by_cases hmode : s.sub.mode = .replay
    · cases hr : s.sub.replay with
      | none =>
        rw [State.scripted, if_pos hmode, hr] at hi
        cases hi
      | some r =>
        rw [State.scripted_replay hmode hr] at hi
        have hreplay : s.sub.Replaying r.script r.diverged := ⟨hmode, r, hr, rfl, rfl⟩
        obtain ⟨u', hpick, -⟩ := hreplay.pick (W := W) s.core.config.policy s.core.threads
        rw [hi] at hpick
        cases (hready i ⟨x, caller, u', hcpu, hpick⟩).symm.trans hrun
    · rw [State.scripted, if_neg hmode] at hi
      cases hi
  · intro hspares i hsel
    obtain ⟨x, caller, sub, hcpu, hpick⟩ := hsel
    rcases pickReadyThreadMode_state hpick with hready | hrun
    · exact hready
    · have hsched := Cpu.inScheduler_iff.mpr ⟨x, caller, hcpu⟩
      exact absurd hrun
        (hspares hsched i (State.Selects.scripted ⟨x, caller, sub, hcpu, hpick⟩ hrun))

/-! ## Runs -/

/-- The thread `tid` is on the CPU: its own code, or a scheduler that it has called. -/
def Core.Executing (s : Core) (tid : Tid) : Prop :=
  s.currentTid = tid ∧ ∃ x, Core.OnStack x s.cpu

/-- **The context of slot `i` is the one that its thread saved when it left the CPU for the last
    time**, or its initial one: at some point of the run the thread left the CPU or was created;
    since then its context has not changed, and the thread has not been on the CPU. -/
def Saved (W : World) (start : State) (ls : List Label) (s : State) (i : Slot) : Prop :=
  ∃ ls₁ ls₂ s₁, ls = ls₁ ++ ls₂ ∧ Exec.exec (State.step W) start ls₁ = some s₁ ∧
    (s₁.core.JustLeft i ∨ s₁.core.JustCreated i) ∧
    (s.core.threads i).tid = (s₁.core.threads i).tid ∧
    (s.core.threads i).ctx = (s₁.core.threads i).ctx ∧
    Exec.Always (State.step W) (fun t => ¬ t.core.Executing (s₁.core.threads i).tid) s₁ ls₂

/-- In particular it is not on the CPU now. -/
theorem Saved.not_executing {start : State} {ls : List Label} (h : Saved W start ls s i)
    (hrun : Exec.exec (State.step W) start ls = some s) :
    ¬ s.core.Executing (s.core.threads i).tid := by
  obtain ⟨ls₁, ls₂, s₁, rfl, hrun₁, -, htid, -, halways⟩ := h
  rw [Exec.exec_append, hrun₁] at hrun
  rw [htid]
  exact Exec.always_last ls₂ s₁ s halways hrun

/-- What holds of a run in which everybody leaves the CPU in time. -/
structure Settled (W : World) (start : State) (ls : List Label) (s : State) : Prop where
  tracked : s.core.Tracked
  apart : s.core.Apart
  issued : s.core.issued ≤ creates ls
  saved : ∀ i, (s.core.threads i).Rests → Saved W start ls s i

theorem Core.Tracked.not_executing {s : Core} (hT : s.Tracked) (hA : s.Apart)
    (hi : (s.threads i).Rests) : ¬ s.Executing (s.threads i).tid := by
  rintro ⟨hcur, x, hx⟩
  exact hA.current (hT.place.not_leaves hx) i hi hcur.symm

/-- **One more step.** -/
theorem Settled.step {start : State} {ls : List Label} {l : Label}
    (hrun : Exec.exec (State.step W) start ls = some s) (h : Settled W start ls s)
    (hspares : s.SparesRunning) (hfresh : LeavesFresh W s l)
    (hcreates : creates (ls ++ [l]) < 2 ^ 64) (hstep : State.step W s l = some t) :
    Settled W start (ls ++ [l]) t := by
  rw [creates_snoc] at hcreates
  have hissued := h.issued
  obtain ⟨hle, hcases⟩ := h.tracked.step (by omega) hstep
  obtain ⟨hA, hset⟩ := Core.Apart.step h.tracked h.apart (State.selects_ready_iff.mpr hspares) hfresh
    (by omega) hstep
  have hT : t.core.Tracked := by
    rcases hcases with ⟨hT, -⟩ | ⟨x, hp, hseg⟩
    · exact hT
    · exact .segment h.tracked.fresh.below h.tracked.fresh.returns hp hseg (hfresh t hstep)
  have hrun' : Exec.exec (State.step W) start (ls ++ [l]) = some t := by
    rw [Exec.exec_append, hrun]
    show (State.step W s l).bind _ = some t
    rw [hstep]
    rfl
  refine ⟨hT, hA, by rw [creates_snoc]; omega, fun i hi => ?_⟩
  have hoff := hT.not_executing hA hi
  -- it has just come to rest, or it rested before
  have hnow : t.core.JustLeft i ∨ t.core.JustCreated i → Saved W start (ls ++ [l]) t i :=
    fun hjust => ⟨ls ++ [l], [], t, (List.append_nil _).symm, hrun', hjust, rfl, rfl, hoff⟩
  rcases hset i hi with ⟨hs, htid, hctx⟩ | ⟨hleft, -⟩ | ⟨hcreated, -⟩
  · obtain ⟨ls₁, ls₂, s₁, rfl, hrun₁, hjust, htid₁, hctx₁, halways⟩ := h.saved i hs
    refine ⟨ls₁, ls₂ ++ [l], s₁, List.append_assoc _ _ _, hrun₁, hjust, htid.trans htid₁,
      hctx.trans hctx₁, ?_⟩
    rw [Exec.exec_append, hrun₁] at hrun
    refine Exec.always_append ls₂ s₁ s hrun halways ⟨?_, fun u hu => ?_⟩
    · rw [← htid₁]
      exact h.tracked.not_executing h.apart hs
    · obtain rfl : t = u := Option.some.inj (hstep.symm.trans hu)
      rw [← htid₁, ← htid]
      exact hoff
  · exact hnow (Or.inl hleft)
  · exact hnow (Or.inr hcreated)

/-- **Whole runs.** -/
theorem settled_run (W : World) (config : ValidConfig) (pageSize : BitVec 64)
    (files : Path → Option (List UInt8)) : ∀ ls s,
    Exec.exec (State.step W) (State.start config pageSize files) ls = some s →
    creates ls < 2 ^ 64 → Exec.Along (State.step W) (fun t l => t.SparesRunning ∧ LeavesFresh W t l)
      (State.start config pageSize files) ls →
    Settled W (State.start config pageSize files) ls s := by
  refine Exec.exec_induct (fun _ _ => ?_) fun ls l t u hrun ih hstep hcreates hG => ?_
  · have hcore := State.start_core config pageSize files
    refine ⟨Core.start_tracked config pageSize files, ?_, ?_, fun i hi => ?_⟩
    · rw [hcore]
      refine ⟨fun _ j hj => absurd rfl hj.ne_empty, fun _ _ _ _ hk => ?_, fun _ _ _ _ hk => ?_⟩
      · cases hk
      · cases hk
    · rw [hcore]
      exact Nat.le_refl 0
    · rw [hcore] at hi
      exact absurd rfl hi.ne_empty
  · obtain ⟨hls, hl⟩ := (Exec.along_append ls _ t hrun).mp hG
    have hcreates' : creates ls < 2 ^ 64 := by
      rw [creates_snoc] at hcreates
      omega
    exact (ih hcreates' hls).step hrun hl.1.1 hl.1.2 hcreates hstep

end

/-! ## The result -/

/-- **In every state of every run, whatever the mode, only `READY` threads are selected iff the
    trace spares the `RUNNING` ones.**  And a thread that is selected has the context that it saved
    when it left the CPU for the last time, or its initial one, if so far every thread has left the
    CPU for its own dispatcher. -/
theorem only_ready_dispatched_iff (W : World) (config : ValidConfig) (pageSize : BitVec 64)
    (files : Path → Option (List UInt8)) (ls : List Label) (s : State)
    (hrun : Exec.exec (State.step W) (State.start config pageSize files) ls = some s) :
    ((∀ i, s.Selects W i → (s.core.threads i).state = .ready) ↔ s.SparesRunning) ∧
    (creates ls < 2 ^ 64 →
      Exec.Along (State.step W) (fun t l => t.SparesRunning ∧ LeavesFresh W t l)
        (State.start config pageSize files) ls →
      s.SparesRunning → ∀ i, s.Selects W i →
        Saved W (State.start config pageSize files) ls s i) := by
  refine ⟨State.selects_ready_iff, fun hcreates hG hspares i hsel => ?_⟩
  have hready := State.selects_ready_iff.mpr hspares i hsel
  exact (settled_run W config pageSize files ls s hrun hcreates hG).saved i (Or.inl hready)

namespace Sample

/-- A trace with two context switches, to the threads `a` and `b`. -/
def switchTrace (a b : Tid) : List UInt8 :=
  headerBytes 0 ++ recordBytes 0 10 0 a ++ recordBytes 0 10 a b

/-- The file `[1]` is that trace. -/
def switchFiles (a b : Tid) : Path → Option (List UInt8) :=
  fun path => if path = [1] then some (switchTrace a b) else none

/-- Main creates two threads, replays the trace and yields; the first thread joins the second. -/
def replayJoin : List Label :=
  [main create, main create, .sub .main (.replayFrom (some [1])), main .yield, .tau, .tau,
    green 0 (.join 2 false)]

end Sample

/-- The trace switches to thread 1 and to thread 2, which is `READY`. -/
theorem only_ready_dispatched_nested : ∃ s,
    Exec.exec (State.step Sample.world) (State.start Sample.config 4096#64 (Sample.switchFiles 1 2))
      Sample.replayJoin = some s ∧
    s.Selects Sample.world 1 ∧ (s.core.threads 1).state = .ready ∧
    Saved Sample.world (State.start Sample.config 4096#64 (Sample.switchFiles 1 2))
      Sample.replayJoin s 1 := by
  have hrun : (Exec.exec (State.step Sample.world)
      (State.start Sample.config 4096#64 (Sample.switchFiles 1 2)) Sample.replayJoin).any
        (fun s => decide (s.SparesRunning) && decide (s.core.cpu = .sched (.green 0) (.join 2 false 1))
          && ((s.sub.pickReadyThreadMode Sample.world s.core.config.policy s.core.threads).any
            fun p => p.1 == some 1)) = true := by decide +kernel
  obtain ⟨s, hs, hend⟩ := (Option.any_eq_true _ _).mp hrun
  obtain ⟨hend, hpick⟩ := Bool.and_eq_true_iff.mp hend
  obtain ⟨hspares, hcpu⟩ := Bool.and_eq_true_iff.mp hend
  obtain ⟨⟨pick, sub⟩, hp, hpick⟩ := (Option.any_eq_true _ _).mp hpick
  obtain rfl : pick = some 1 := eq_of_beq hpick
  have hsel : s.Selects Sample.world 1 := ⟨_, _, sub, of_decide_eq_true hcpu, hp⟩
  obtain ⟨hready, hsaved⟩ := only_ready_dispatched_iff Sample.world Sample.config 4096#64
    (Sample.switchFiles 1 2) Sample.replayJoin s hs
  exact ⟨s, hs, hsel, hready.mpr (of_decide_eq_true hspares) 1 hsel,
    hsaved (by decide) (by decide +kernel) (of_decide_eq_true hspares) 1 hsel⟩

/-- A run that ends in the scheduler called by thread 1, which selects thread 1. -/
theorem executing_selected {start : State} {ls : List Label} {st : ThreadState} {k : Kont}
    (tid : Tid) (target : Slot)
    (h : (Exec.exec (State.step Sample.world) start ls).any
      (fun s => decide (s.core.cpu = .sched (.green 0) (.join tid false target) ∧
          s.core.currentTid = 1 ∧ (s.core.threads 0).state = st ∧ (s.core.threads 0).tid = 1 ∧
          (s.core.threads 0).ctx = some k)
        && ((s.sub.pickReadyThreadMode Sample.world s.core.config.policy s.core.threads).any
          fun p => p.1 == some 0)) = true) :
    ∃ s, Exec.exec (State.step Sample.world) start ls = some s ∧ s.Selects Sample.world 0 ∧
      (s.core.threads 0).state = st ∧ (s.core.threads 0).ctx = some k ∧
      ¬ Saved Sample.world start ls s 0 := by
  obtain ⟨s, hs, hend⟩ := (Option.any_eq_true _ _).mp h
  obtain ⟨hend, hpick⟩ := Bool.and_eq_true_iff.mp hend
  obtain ⟨hcpu, hcur, hstate, htid, hctx⟩ := of_decide_eq_true hend
  obtain ⟨⟨pick, sub⟩, hp, hpick⟩ := (Option.any_eq_true _ _).mp hpick
  obtain rfl : pick = some 0 := eq_of_beq hpick
  refine ⟨s, hs, ⟨_, _, sub, hcpu, hp⟩, hstate, hctx, fun hsaved => hsaved.not_executing hs ?_⟩
  exact ⟨hcur.trans htid.symm, .green 0, by rw [hcpu]; exact rfl⟩

/-- **A trace that switches to thread 1 twice**: while thread 1 is `RUNNING` and waits in its join,
    it is selected again, and switched to its initial context, which it has used up. -/
theorem running_thread_dispatched : ∃ s,
    Exec.exec (State.step Sample.world) (State.start Sample.config 4096#64 (Sample.switchFiles 1 1))
      Sample.replayJoin = some s ∧
    s.Selects Sample.world 0 ∧ (s.core.threads 0).state = .running ∧
    (s.core.threads 0).ctx = some ⟨.green 0, .entry⟩ ∧
    ¬ Saved Sample.world (State.start Sample.config 4096#64 (Sample.switchFiles 1 1))
      Sample.replayJoin s 0 := executing_selected 2 1 (by decide +kernel)

/-- **Without a trace**: thread 1 yields after a join of its own, comes back in that join and not in
    its dispatcher, and is selected there, `READY`, while it is on the CPU. -/
theorem executing_thread_dispatched : ∃ s,
    Exec.exec (State.step Sample.world) Sample.start
      (nestedJoinRun ++ [Sample.green 0 .yield, .tau]) = some s ∧
    s.Selects Sample.world 0 ∧ (s.core.threads 0).state = .ready ∧
    (s.core.threads 0).ctx = some ⟨.green 0, .yield⟩ ∧
    ¬ Saved Sample.world Sample.start (nestedJoinRun ++ [Sample.green 0 .yield, .tau]) s 0 :=
  executing_selected 2 1 (by decide +kernel)

end Gth
